import Mathlib.Data.List.Nodup

namespace Json

-- What json.dumps takes and json.loads returns. A float is the text of its
-- repr; a dict lists its members in insertion order.
inductive Value where
  | null
  | bool (value : Bool)
  | int (value : Int)
  | float (repr : String)
  | str (value : String)
  | arr (items : List Value)
  | obj (members : List (String × Value))

-- A JSONDecodeError, with its message and the text from its position on; or the
-- ValueError of an integer with more digits than the interpreter takes.
inductive Fault where
  | decode (message : String) (rest : List Char)
  | digits (most size : Nat)

def isBlank (c : Char) : Bool := c == ' ' || c == '\t' || c == '\n' || c == '\r'

def skipBlanks (text : List Char) : List Char := text.dropWhile isBlank

-- The three parts of a number: digits without a leading zero, then optionally
-- a fraction and an exponent.
def wholePart : List Char → Option (List Char × List Char)
  | [] => none
  | c :: rest =>
    if c = '0' then some ([c],rest)
    else if c.isDigit then some (c :: rest.takeWhile Char.isDigit,rest.dropWhile Char.isDigit)
    else none

def fracPart : List Char → List Char × List Char
  | '.' :: rest =>
    if rest.takeWhile Char.isDigit = [] then ([],'.' :: rest)
    else ('.' :: rest.takeWhile Char.isDigit,rest.dropWhile Char.isDigit)
  | text => ([],text)

def isSign (c : Char) : Bool := c == '+' || c == '-'

def signPart : List Char → List Char × List Char
  | [] => ([],[])
  | c :: rest => if isSign c then ([c],rest) else ([],c :: rest)

def expPart : List Char → List Char × List Char
  | [] => ([],[])
  | c :: rest =>
    if c = 'e' ∨ c = 'E' then
      let (sign,after) := signPart rest
      if after.takeWhile Char.isDigit = [] then ([],c :: rest)
      else (c :: (sign ++ after.takeWhile Char.isDigit),after.dropWhile Char.isDigit)
    else ([],c :: rest)

def minusPart : List Char → List Char × List Char
  | '-' :: rest => (['-'],rest)
  | text => ([],text)

structure NumberToken where
  minus : List Char
  whole : List Char
  frac : List Char
  exp : List Char

def NumberToken.text (token : NumberToken) : List Char := token.minus ++ token.whole ++ token.frac ++ token.exp

def NumberToken.isFloat (token : NumberToken) : Bool := !(token.frac ++ token.exp).isEmpty

def NumberToken.value (token : NumberToken) : Value :=
  if token.isFloat then .float (String.ofList token.text)
  else
    let size : Int := Nat.ofDigitChars 10 token.whole 0
    .int (if token.minus = [] then size else -size)

def numberToken (text : List Char) : Option (NumberToken × List Char) := do
  let (minus,text) := minusPart text
  let (whole,text) ← wholePart text
  let (frac,text) := fracPart text
  let (exp,text) := expPart text
  return (⟨minus,whole,frac,exp⟩,text)

def hexVal (c : Char) : Option Nat :=
  if c.isDigit then some (c.toNat-48)
  else if 'a' ≤ c ∧ c ≤ 'f' then some (c.toNat-87)
  else if 'A' ≤ c ∧ c ≤ 'F' then some (c.toNat-55)
  else none

def hex4 : List Char → Option (Nat × List Char)
  | a :: b :: c :: d :: rest => do
    let w ← hexVal a
    let x ← hexVal b
    let y ← hexVal c
    let z ← hexVal d
    return (((w*16+x)*16+y)*16+z,rest)
  | _ => none

def isHigh (code : Nat) : Bool := 0xd800 ≤ code && code ≤ 0xdbff
def isLow (code : Nat) : Bool := 0xdc00 ≤ code && code ≤ 0xdfff

def joinPair (high low : Nat) : Nat := 0x10000+((high-0xd800)*1024+(low-0xdc00))

-- Python keeps a lone surrogate in the str; a Char cannot hold one.
def lone (rest : List Char) : Fault := .decode "lone surrogate" rest

def charOf (code : Nat) (rest : List Char) : Except Fault Char :=
  if code.isValidChar then .ok (Char.ofNat code) else .error (lone rest)

def codeUnit (text rest : List Char) : Except Fault (Nat × List Char) :=
  match hex4 rest with
  | some (code,c :: after) => .ok (code,c :: after)
  | _ => .error (.decode "Invalid \\uXXXX escape" text)

-- An escape from its u on, which `text` starts with: one code unit, or two for
-- a character outside the first plane.
def unicodeEscape (text rest : List Char) : Except Fault (Char × List Char) := do
  let (code,after) ← codeUnit text rest
  if isHigh code && ['\\','u'].isPrefixOf after then
    let (half,last) ← codeUnit (after.drop 1) (after.drop 2)
    if isLow half then
      let char ← charOf (joinPair code half) text
      return (char,last)
    else .error (lone text)
  else
    let char ← charOf code text
    return (char,after)

def simpleEscape (c : Char) : Option Char :=
  if c = '"' ∨ c = '\\' ∨ c = '/' then some c
  else if c = 'b' then some (Char.ofNat 8)
  else if c = 'f' then some (Char.ofNat 12)
  else if c = 'n' then some '\n'
  else if c = 'r' then some '\r'
  else if c = 't' then some '\t'
  else none

-- The rest of a string and what follows its closing quote; `opened` is the
-- text from its opening quote on.
def scanString (opened : List Char) : Nat → List Char → Except Fault (List Char × List Char)
  | 0,_ => .error (.decode "Unterminated string starting at" opened)
  | _+1,[] => .error (.decode "Unterminated string starting at" opened)
  | fuel+1,c :: rest =>
    if c = '"' then .ok ([],rest)
    else if c.toNat ≤ 0x1f then .error (.decode "Invalid control character at" (c :: rest))
    else if c = '\\' then
      match rest with
      | [] => .error (.decode "Unterminated string starting at" opened)
      | e :: after =>
        if e = 'u' then do
          let (char,after) ← unicodeEscape (e :: after) after
          let (chars,last) ← scanString opened fuel after
          return (char :: chars,last)
        else
          match simpleEscape e with
          | none => .error (.decode "Invalid \\escape" (c :: rest))
          | some char => do
            let (chars,last) ← scanString opened fuel after
            return (char :: chars,last)
    else do
      let (chars,last) ← scanString opened fuel rest
      return (c :: chars,last)

section
-- The digits int takes (sys.get_int_max_str_digits), none without a limit.
variable (limit : Option Nat)

def checkDigits (size : Nat) : Except Fault Unit :=
  match limit with
  | none => .ok ()
  | some most => if size ≤ most then .ok () else .error (.digits most size)

def scanNumber (text : List Char) : Except Fault (Value × List Char) :=
  match numberToken text with
  | none => .error (.decode "Expecting value" text)
  | some (token,rest) =>
    (if token.isFloat then .ok () else checkDigits limit token.whole.length).map fun _ => (token.value,rest)

def scanAtom (text : List Char) : Except Fault (Value × List Char) :=
  if "null".toList.isPrefixOf text then .ok (.null,text.drop 4)
  else if "true".toList.isPrefixOf text then .ok (.bool true,text.drop 4)
  else if "false".toList.isPrefixOf text then .ok (.bool false,text.drop 5)
  else if "NaN".toList.isPrefixOf text then .ok (.float "NaN",text.drop 3)
  else if "Infinity".toList.isPrefixOf text then .ok (.float "Infinity",text.drop 8)
  else if "-Infinity".toList.isPrefixOf text then .ok (.float "-Infinity",text.drop 9)
  else scanNumber limit text

-- dict(pairs): a later value replaces an earlier one in its place.
def setMember (members : List (String × Value)) (key : String) (value : Value) : List (String × Value) :=
  match members with
  | [] => [(key,value)]
  | (other,old) :: rest =>
    if other = key then (key,value) :: rest else (other,old) :: setMember rest key value

def dictOf (pairs : List (String × Value)) : List (String × Value) :=
  pairs.foldl (fun members (key,value) => setMember members key value) []

mutual
-- scan_once, and the loops of the array and object scanners after their first
-- element. The fuel is the length of the text.
def scanOnce : Nat → List Char → Except Fault (Value × List Char)
  | 0,text => .error (.decode "Expecting value" text)
  | _+1,[] => .error (.decode "Expecting value" [])
  | fuel+1,c :: rest =>
    if c = '"' then (scanString (c :: rest) fuel rest).map fun (chars,last) => (.str (String.ofList chars),last)
    else if c = '[' then
      match skipBlanks rest with
      | ']' :: last => .ok (.arr [],last)
      | text => do
        let (item,text) ← scanOnce fuel text
        let (items,last) ← scanItems fuel (skipBlanks text)
        return (.arr (item :: items),last)
    else if c = '\x7b' then
      match skipBlanks rest with
      | '\x7d' :: last => .ok (.obj [],last)
      | text => do
        let (member,text) ← scanMember fuel text
        let (members,last) ← scanMembers fuel (skipBlanks text)
        return (.obj (dictOf (member :: members)),last)
    else scanAtom limit (c :: rest)

def scanItems : Nat → List Char → Except Fault (List Value × List Char)
  | 0,text => .error (.decode "Expecting ',' delimiter" text)
  | fuel+1,text =>
    match text with
    | ']' :: last => .ok ([],last)
    | ',' :: text => do
      let (item,text) ← scanOnce fuel (skipBlanks text)
      let (items,last) ← scanItems fuel (skipBlanks text)
      return (item :: items,last)
    | text => .error (.decode "Expecting ',' delimiter" text)

def scanMembers : Nat → List Char → Except Fault (List (String × Value) × List Char)
  | 0,text => .error (.decode "Expecting ',' delimiter" text)
  | fuel+1,text =>
    match text with
    | '\x7d' :: last => .ok ([],last)
    | ',' :: text => do
      let (member,text) ← scanMember fuel (skipBlanks text)
      let (members,last) ← scanMembers fuel (skipBlanks text)
      return (member :: members,last)
    | text => .error (.decode "Expecting ',' delimiter" text)

def scanMember : Nat → List Char → Except Fault ((String × Value) × List Char)
  | 0,text => .error (.decode "Expecting property name enclosed in double quotes" text)
  | fuel+1,text =>
    match text with
    | '"' :: rest => do
      let (chars,text) ← scanString text fuel rest
      match skipBlanks text with
      | ':' :: text => do
        let (value,text) ← scanOnce fuel (skipBlanks text)
        return ((String.ofList chars,value),text)
      | text => .error (.decode "Expecting ':' delimiter" text)
    | text => .error (.decode "Expecting property name enclosed in double quotes" text)
end

-- json.loads of a str.
def loadsWithin (text : List Char) : Except Fault Value :=
  if text.head? = some '\ufeff' then .error (.decode "Unexpected UTF-8 BOM (decode using utf-8-sig)" text)
  else do
    let (value,rest) ← scanOnce limit (text.length+1) (skipBlanks text)
    match skipBlanks rest with
    | [] => .ok value
    | extra => .error (.decode "Extra data" extra)

end

-- Of an interpreter without a limit.
def loads (text : List Char) : Except Fault Value := loadsWithin none text

-- type(exc).__name__ and str(exc).
def Fault.kind : Fault → String
  | .decode _ _ => "JSONDecodeError"
  | .digits _ _ => "ValueError"

def Fault.text (doc : List Char) : Fault → String
  | .decode message rest =>
    let pos := doc.length-rest.length
    let before := doc.take pos
    let line := before.count '\n'+1
    let column := (before.reverse.takeWhile (· ≠ '\n')).length+1
    s!"{message}: line {line} column {column} (char {pos})"
  | .digits most size =>
    s!"Exceeds the limit ({most} digits) for integer string conversion: value has {size} digits; " ++
      "use sys.set_int_max_str_digits() to increase the limit"

-- json.dumps with its defaults: ensure_ascii, ", " and ": ".
def hexDigits (n : Nat) : List Char :=
  [(n/4096%16).digitChar,(n/256%16).digitChar,(n/16%16).digitChar,(n%16).digitChar]

def escapeChar (c : Char) : List Char :=
  if c = '"' ∨ c = '\\' then ['\\',c]
  else if c = '\n' then ['\\','n']
  else if c = '\r' then ['\\','r']
  else if c = '\t' then ['\\','t']
  else if c.toNat = 12 then ['\\','f']
  else if c.toNat = 8 then ['\\','b']
  else if 32 ≤ c.toNat ∧ c.toNat ≤ 126 then [c]
  else if c.toNat < 0x10000 then '\\' :: 'u' :: hexDigits c.toNat
  else
    let code := c.toNat-0x10000
    ('\\' :: 'u' :: hexDigits (0xd800+code/1024)) ++ ('\\' :: 'u' :: hexDigits (0xdc00+code%1024))

def dumpString (text : String) : List Char := '"' :: (text.toList.flatMap escapeChar ++ ['"'])

def dumpInt (value : Int) : List Char :=
  (if value < 0 then ['-'] else []) ++ Nat.toDigits 10 value.natAbs

mutual
def dumps : Value → List Char
  | .null => "null".toList
  | .bool true => "true".toList
  | .bool false => "false".toList
  | .int value => dumpInt value
  | .float repr => repr.toList
  | .str text => dumpString text
  | .arr [] => "[]".toList
  | .arr (item :: items) => '[' :: (dumps item ++ dumpItems items)
  | .obj [] => ['\x7b','\x7d']
  | .obj ((key,value) :: members) => '\x7b' :: (dumpString key ++ ": ".toList ++ dumps value ++ dumpMembers members)

def dumpItems : List Value → List Char
  | [] => [']']
  | item :: items => ", ".toList ++ dumps item ++ dumpItems items

def dumpMembers : List (String × Value) → List Char
  | [] => ['\x7d']
  | (key,value) :: members => ", ".toList ++ dumpString key ++ ": ".toList ++ dumps value ++ dumpMembers members
end

section
variable (limit : Option Nat)

mutual
-- No integer of the value has more digits than int and str take: json.dumps
-- raises for the others.
def Value.within : Value → Bool
  | .int value => limit.all ((Nat.toDigits 10 value.natAbs).length ≤ ·)
  | .arr items => withinItems items
  | .obj members => withinMembers members
  | _ => true

def withinItems : List Value → Bool
  | [] => true
  | item :: items => item.within && withinItems items

def withinMembers : List (String × Value) → Bool
  | [] => true
  | (_,value) :: members => value.within && withinMembers members
end

end

end Json
