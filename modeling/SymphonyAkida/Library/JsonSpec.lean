import SymphonyAkida.Library.Json
import SymphonyAkida.Library.Outcome
import Mathlib.Tactic.IntervalCases
import Mathlib.Data.List.TakeWhile

namespace Json
open Outcome

def isRepr (repr : String) : Bool :=
  repr == "NaN" || repr == "Infinity" || repr == "-Infinity" ||
    match numberToken repr.toList with
    | some (token,[]) => token.isFloat
    | _ => false

mutual
-- A value Python can hold: floats are reprs, the keys of a dict differ.
def Value.plain : Value → Bool
  | .float repr => isRepr repr
  | .arr items => plainItems items
  | .obj members => decide (members.map (·.1)).Nodup && plainMembers members
  | _ => true

def plainItems : List Value → Bool
  | [] => true
  | item :: items => item.plain && plainItems items

def plainMembers : List (String × Value) → Bool
  | [] => true
  | (_,value) :: members => value.plain && plainMembers members
end

mutual
theorem within_none (v : Value) : v.within none = true := by
  match v with
  | .arr items => exact items_none items
  | .obj members => exact members_none members
  | .int _ | .null | .bool _ | .float _ | .str _ => rfl

theorem items_none (items : List Value) : withinItems none items = true := by
  match items with
  | [] => rfl
  | item :: items => simp [withinItems,within_none item,items_none items]

theorem members_none (members : List (String × Value)) : withinMembers none members = true := by
  match members with
  | [] => rfl
  | (key,value) :: members => simp [withinMembers,within_none value,members_none members]
end

theorem within_int {value : Int} (below : value.natAbs < 10^k) (positive : 0 < k) (most : limit.all (k ≤ ·) = true) :
    (Value.int value).within limit = true := by
  have size := (Nat.length_toDigits_le_iff (by decide) positive).mpr below
  cases limit with
  | none => rfl
  | some most_ =>
    simp only [Value.within,Option.all_some,decide_eq_true_eq] at most ⊢
    omega

def Delimited (rest : List Char) : Prop := ∀ c, rest.head? = some c → c = ',' ∨ c = ']' ∨ c = '\x7d'

theorem delimited_nil : Delimited [] := by
  intro c head
  cases head

theorem Delimited.cases (delimited : Delimited rest) :
    rest = [] ∨ ∃ c last, rest = c :: last ∧ (c = ',' ∨ c = ']' ∨ c = '\x7d') := by
  cases rest with
  | nil => exact .inl rfl
  | cons c last => exact .inr ⟨c,last,rfl,delimited c rfl⟩

theorem span_delimited (p : Char → Bool) (stop : ∀ c, rest.head? = some c → p c = false) (text : List Char) :
    (text ++ rest).takeWhile p = text.takeWhile p ∧ (text ++ rest).dropWhile p = text.dropWhile p ++ rest := by
  induction text with
  | nil =>
    cases rest with
    | nil => exact ⟨rfl,rfl⟩
    | cons c last => simp [stop c rfl]
  | cons c text ih =>
    cases held : p c with
    | true => simp [held,ih]
    | false => simp [held]

theorem Delimited.digits (delimited : Delimited rest) (text : List Char) :
    (text ++ rest).takeWhile Char.isDigit = text.takeWhile Char.isDigit ∧
      (text ++ rest).dropWhile Char.isDigit = text.dropWhile Char.isDigit ++ rest := by
  apply span_delimited
  intro c head
  rcases delimited c head with rfl | rfl | rfl <;> rfl

theorem minusPart_append (delimited : Delimited rest) (text : List Char) :
    minusPart (text ++ rest) = ((minusPart text).1,(minusPart text).2 ++ rest) := by
  cases text with
  | nil =>
    rcases delimited.cases with rfl | ⟨c,last,rfl,rfl | rfl | rfl⟩ <;> rfl
  | cons c text =>
    rw [List.cons_append]
    unfold minusPart
    split
    · rename_i same
      cases same
      rfl
    · rename_i other
      split
      · rename_i same
        cases same
        exact absurd rfl (other _)
      · rfl

theorem wholePart_append (delimited : Delimited rest) (found : wholePart text = some (whole,after)) :
    wholePart (text ++ rest) = some (whole,after ++ rest) := by
  cases text with
  | nil => cases found
  | cons c text =>
    simp only [List.cons_append,wholePart] at found ⊢
    split
    · rename_i zero
      rw [if_pos zero] at found
      cases found
      rfl
    · rename_i zero
      rw [if_neg zero] at found
      split
      · rename_i digit
        rw [if_pos digit] at found
        cases found
        rw [(delimited.digits text).1,(delimited.digits text).2]
      · rename_i digit
        rw [if_neg digit] at found
        cases found

theorem fracPart_append (delimited : Delimited rest) (text : List Char) :
    fracPart (text ++ rest) = ((fracPart text).1,(fracPart text).2 ++ rest) := by
  cases text with
  | nil =>
    rcases delimited.cases with rfl | ⟨c,last,rfl,rfl | rfl | rfl⟩ <;> rfl
  | cons c text =>
    by_cases dot : c = '.'
    · subst dot
      simp only [List.cons_append,fracPart,(delimited.digits text).1,(delimited.digits text).2]
      split <;> rfl
    · have shape : ∀ t, fracPart (c :: t) = ([],c :: t) := by
        intro t
        unfold fracPart
        split
        · rename_i same
          cases same
          exact absurd rfl dot
        · rfl
      rw [List.cons_append,shape,shape]
      rfl

theorem signPart_append (delimited : Delimited rest) (text : List Char) :
    signPart (text ++ rest) = ((signPart text).1,(signPart text).2 ++ rest) := by
  cases text with
  | nil =>
    rcases delimited.cases with rfl | ⟨c,last,rfl,rfl | rfl | rfl⟩ <;> rfl
  | cons c text =>
    simp only [List.cons_append,signPart]
    split <;> rfl

theorem expPart_append (delimited : Delimited rest) (text : List Char) :
    expPart (text ++ rest) = ((expPart text).1,(expPart text).2 ++ rest) := by
  cases text with
  | nil =>
    rcases delimited.cases with rfl | ⟨c,last,rfl,rfl | rfl | rfl⟩ <;> rfl
  | cons c text =>
    rw [List.cons_append]
    unfold expPart
    simp only [signPart_append delimited,(delimited.digits (signPart text).2).1,
      (delimited.digits (signPart text).2).2]
    split
    · split <;> rfl
    · rfl

theorem numberToken_append (delimited : Delimited rest) (found : numberToken text = some (token,after)) :
    numberToken (text ++ rest) = some (token,after ++ rest) := by
  unfold numberToken at found ⊢
  simp only [Option.bind_eq_bind,Option.bind_eq_some_iff] at found
  obtain ⟨⟨whole,more⟩,first,last⟩ := found
  cases Option.some.inj last
  simp only [minusPart_append delimited,wholePart_append delimited first,Option.bind_eq_bind,
    Option.bind_some,fracPart_append delimited,expPart_append delimited]
  rfl

theorem minusPart_text (text : List Char) : (minusPart text).1 ++ (minusPart text).2 = text := by
  unfold minusPart
  split <;> rfl

theorem wholePart_text (found : wholePart text = some (whole,after)) : whole ++ after = text := by
  cases text with
  | nil => cases found
  | cons c text =>
    simp only [wholePart] at found
    split at found
    · cases found
      rfl
    · split at found
      · cases found
        exact congrArg (c :: ·) List.takeWhile_append_dropWhile
      · cases found

theorem fracPart_text (text : List Char) : (fracPart text).1 ++ (fracPart text).2 = text := by
  unfold fracPart
  split
  · split
    · rfl
    · exact congrArg ('.' :: ·) List.takeWhile_append_dropWhile
  · rfl

theorem signPart_text (text : List Char) : (signPart text).1 ++ (signPart text).2 = text := by
  unfold signPart
  split
  · rfl
  · split <;> rfl

theorem expPart_text (text : List Char) : (expPart text).1 ++ (expPart text).2 = text := by
  unfold expPart
  split
  · rfl
  · rename_i c rest
    split
    · dsimp only
      split
      · rfl
      · rw [List.cons_append,List.append_assoc,List.takeWhile_append_dropWhile,signPart_text]
    · rfl

theorem numberToken_text (found : numberToken text = some (token,after)) : token.text ++ after = text := by
  unfold numberToken at found
  simp only [Option.bind_eq_bind,Option.bind_eq_some_iff] at found
  obtain ⟨⟨whole,more⟩,first,last⟩ := found
  cases Option.some.inj last
  have e := expPart_text (fracPart more).2
  have f := fracPart_text more
  have w := wholePart_text first
  have m := minusPart_text text
  unfold NumberToken.text
  dsimp only
  rw [List.append_assoc,e,List.append_assoc,f,List.append_assoc,w,m]

def NumberHead : List Char → Prop
  | [] => False
  | c :: rest => c.isDigit = true ∨ c = '-' ∧ ∃ d last, rest = d :: last ∧ d.isDigit = true

theorem wholePart_head (found : wholePart text = some result) : ∃ d last, text = d :: last ∧ d.isDigit = true := by
  cases text with
  | nil => cases found
  | cons c text =>
    simp only [wholePart] at found
    split at found
    · rename_i zero
      subst zero
      exact ⟨_,_,rfl,rfl⟩
    · split at found
      · rename_i digit
        exact ⟨_,_,rfl,digit⟩
      · cases found

theorem numberToken_head (found : numberToken text = some result) : NumberHead text := by
  unfold numberToken at found
  simp only [Option.bind_eq_bind,Option.bind_eq_some_iff] at found
  obtain ⟨⟨whole,more⟩,first,_⟩ := found
  obtain ⟨d,last,shape,digit⟩ := wholePart_head first
  unfold minusPart at shape
  split at shape
  · exact .inr ⟨rfl,d,last,shape,digit⟩
  · subst shape
    exact .inl digit

theorem digit_cases (digit : c.isDigit = true) : c ∈ "0123456789".toList := by
  have bounds : 48 ≤ c.toNat ∧ c.toNat ≤ 57 := by
    simp only [Char.isDigit,Bool.and_eq_true,decide_eq_true_eq,UInt32.le_iff_toNat_le] at digit
    exact digit
  have same : c = Char.ofNat c.toNat := (Char.ofNat_toNat c).symm
  obtain ⟨low,high⟩ := bounds
  rw [same]
  generalize c.toNat = n at low high
  interval_cases n <;> decide

variable {limit : Option Nat}

theorem checkDigits_ok (fits : limit.all (size ≤ ·) = true) : checkDigits limit size = .ok () := by
  cases limit with
  | none => rfl
  | some most => simpa [checkDigits] using fits

theorem scanAtom_number (head : NumberHead text) : scanAtom limit text = scanNumber limit text := by
  cases text with
  | nil => exact absurd head id
  | cons c rest =>
    unfold scanAtom
    rcases head with digit | ⟨rfl,d,last,rfl,digit⟩
    · have member := digit_cases digit
      simp only [String.reduceToList,List.mem_cons,List.not_mem_nil,or_false] at member
      rcases member with rfl | rfl | rfl | rfl | rfl | rfl | rfl | rfl | rfl | rfl <;> simp
    · have member := digit_cases digit
      simp only [String.reduceToList,List.mem_cons,List.not_mem_nil,or_false] at member
      rcases member with rfl | rfl | rfl | rfl | rfl | rfl | rfl | rfl | rfl | rfl <;> simp

theorem hexVal_digit : ∀ d < 16, hexVal d.digitChar = some d := by decide

theorem hex4_digits (n : Nat) (below : n < 0x10000) (rest : List Char) :
    hex4 (hexDigits n ++ rest) = some (n,rest) := by
  have a := hexVal_digit (n/4096%16) (Nat.mod_lt _ (by decide))
  have b := hexVal_digit (n/256%16) (Nat.mod_lt _ (by decide))
  have c := hexVal_digit (n/16%16) (Nat.mod_lt _ (by decide))
  have d := hexVal_digit (n%16) (Nat.mod_lt _ (by decide))
  simp only [hexDigits,List.cons_append,List.nil_append,hex4,a,b,c,d,Option.bind_eq_bind,Option.bind_some]
  have whole : ((n/4096%16*16+n/256%16)*16+n/16%16)*16+n%16 = n := by omega
  rw [whole]
  rfl

theorem codeUnit_digits (text : List Char) (n : Nat) (below : n < 0x10000) (c : Char) (rest : List Char) :
    codeUnit text (hexDigits n ++ c :: rest) = .ok (n,c :: rest) := by
  unfold codeUnit
  rw [hex4_digits n below]

theorem charOf_char (c : Char) (rest : List Char) : charOf c.toNat rest = .ok c := by
  have valid : c.toNat.isValidChar := c.valid
  unfold charOf
  rw [if_pos valid,Char.ofNat_toNat]

theorem char_bounds (c : Char) : c.toNat < 0xd800 ∨ 0xdfff < c.toNat ∧ c.toNat < 0x110000 := c.valid

theorem unicode_plain (c : Char) (below : c.toNat < 0x10000) (text : List Char) (d : Char) (rest : List Char) :
    unicodeEscape text (hexDigits c.toNat ++ d :: rest) = .ok (c,d :: rest) := by
  have plain : isHigh c.toNat = false := by
    have bounds := char_bounds c
    simp only [isHigh,Bool.and_eq_false_iff,decide_eq_false_iff_not]
    omega
  simp only [unicodeEscape,codeUnit_digits text _ below,ok_bind,plain,Bool.false_and,Bool.false_eq_true,
    if_false,charOf_char]
  rfl

theorem unicode_units (high : isHigh hi = true) (low : isLow lo = true) (whole : joinPair hi lo = c.toNat)
    (text : List Char) (d : Char) (rest : List Char) :
    unicodeEscape text (hexDigits hi ++ '\\' :: 'u' :: (hexDigits lo ++ d :: rest)) = .ok (c,d :: rest) := by
  have first : hi < 0x10000 := by
    simp only [isHigh,Bool.and_eq_true,decide_eq_true_eq] at high
    omega
  have second : lo < 0x10000 := by
    simp only [isLow,Bool.and_eq_true,decide_eq_true_eq] at low
    omega
  have starts : ['\\','u'].isPrefixOf ('\\' :: 'u' :: (hexDigits lo ++ d :: rest)) = true := by simp
  simp only [unicodeEscape,codeUnit_digits text _ first,ok_bind,high,starts,Bool.and_self,if_true,
    List.drop_succ_cons,List.drop_zero,codeUnit_digits _ _ second,low,whole,charOf_char]
  rfl

theorem pair_units (c : Char) (above : 0x10000 ≤ c.toNat) :
    isHigh (0xd800+(c.toNat-0x10000)/1024) = true ∧ isLow (0xdc00+(c.toNat-0x10000)%1024) = true ∧
      joinPair (0xd800+(c.toNat-0x10000)/1024) (0xdc00+(c.toNat-0x10000)%1024) = c.toNat := by
  have bounds := char_bounds c
  unfold isHigh isLow joinPair
  simp only [Bool.and_eq_true,decide_eq_true_eq]
  omega

theorem scan_simple (opened : List Char) (fuel : Nat) (e : Char) (rest : List Char) (unescaped : simpleEscape e = some c)
    (plain : e ≠ 'u') :
    scanString opened (fuel+1) ('\\' :: e :: rest) =
      (scanString opened fuel rest).map fun (chars,last) => (c :: chars,last) := by
  simp only [scanString,if_neg plain,unescaped]
  cases scanString opened fuel rest <;> rfl

theorem scan_unicode (opened : List Char) (fuel : Nat) (rest : List Char)
    (unescaped : unicodeEscape ('u' :: rest) rest = .ok (c,after)) :
    scanString opened (fuel+1) ('\\' :: 'u' :: rest) =
      (scanString opened fuel after).map fun (chars,last) => (c :: chars,last) := by
  simp only [scanString,if_true,unescaped,bind,Except.bind]
  cases scanString opened fuel after <;> rfl

theorem scan_escape (opened : List Char) (fuel : Nat) (c d : Char) (rest : List Char) :
    scanString opened (fuel+1) (escapeChar c ++ d :: rest) =
      (scanString opened fuel (d :: rest)).map fun (chars,last) => (c :: chars,last) := by
  unfold escapeChar
  split
  · rename_i same
    apply scan_simple
    · rcases same with rfl | rfl <;> rfl
    · rcases same with rfl | rfl <;> decide
  · split
    · rename_i same
      subst same
      exact scan_simple opened fuel 'n' _ rfl (by decide)
    · split
      · rename_i same
        subst same
        exact scan_simple opened fuel 'r' _ rfl (by decide)
      · split
        · rename_i same
          subst same
          exact scan_simple opened fuel 't' _ rfl (by decide)
        · split
          · rename_i code
            have same : c = Char.ofNat 12 := by rw [← code,Char.ofNat_toNat]
            subst same
            exact scan_simple opened fuel 'f' _ rfl (by decide)
          · split
            · rename_i code
              have same : c = Char.ofNat 8 := by rw [← code,Char.ofNat_toNat]
              subst same
              exact scan_simple opened fuel 'b' _ rfl (by decide)
            · split
              · rename_i special _ _ _ _ _ printable
                rw [not_or] at special
                have visible : ¬c.toNat ≤ 0x1f := by omega
                rw [List.singleton_append]
                simp only [scanString,if_neg special.1,if_neg visible,if_neg special.2]
                cases scanString opened fuel (d :: rest) <;> rfl
              · split
                · rename_i below
                  exact scan_unicode opened fuel _ (unicode_plain c below _ d rest)
                · rename_i above
                  rw [List.append_assoc]
                  obtain ⟨high,low,whole⟩ := pair_units c (Nat.le_of_not_lt above)
                  exact scan_unicode opened fuel _ (unicode_units high low whole _ d rest)

theorem scan_chars (opened : List Char) (chars rest : List Char) (fuel : Nat) (enough : chars.length < fuel) :
    scanString opened fuel (chars.flatMap escapeChar ++ '"' :: rest) = .ok (chars,rest) := by
  induction chars generalizing fuel with
  | nil =>
    obtain ⟨fuel,rfl⟩ := Nat.exists_eq_succ_of_ne_zero (Nat.ne_of_gt enough)
    rfl
  | cons c chars ih =>
    obtain ⟨fuel,rfl⟩ := Nat.exists_eq_succ_of_ne_zero (Nat.ne_of_gt (Nat.lt_of_le_of_lt (Nat.zero_le _) enough))
    have later := ih fuel (Nat.lt_of_succ_lt_succ enough)
    rw [List.flatMap_cons,List.append_assoc]
    cases shape : chars.flatMap escapeChar ++ '"' :: rest with
    | nil => simp at shape
    | cons d more =>
      rw [shape] at later
      rw [scan_escape,later]
      rfl

theorem toDigits_head (n : Nat) (positive : 0 < n) :
    ∃ d last, Nat.toDigits 10 n = d :: last ∧ d ≠ '0' ∧ d.isDigit = true := by
  induction n using Nat.strongRecOn with
  | _ n ih =>
    rw [Nat.toDigits_eq_if (by decide)]
    split
    · rename_i small
      refine ⟨n.digitChar,[],rfl,?_⟩
      interval_cases n <;> decide
    · rename_i large
      obtain ⟨d,last,shape,differ,digit⟩ := ih (n/10) (by omega) (by omega)
      exact ⟨d,_,by rw [shape]; rfl,differ,digit⟩

theorem wholePart_digits (n : Nat) : wholePart (Nat.toDigits 10 n) = some (Nat.toDigits 10 n,[]) := by
  rcases Nat.eq_zero_or_pos n with rfl | positive
  · rfl
  · obtain ⟨d,last,shape,differ,digit⟩ := toDigits_head n positive
    have all : ∀ c ∈ last, c.isDigit = true := fun c member =>
      Nat.isDigit_of_mem_toDigits (by decide) (by decide) (shape ▸ List.mem_cons_of_mem d member)
    have taken : last.takeWhile Char.isDigit = last := List.takeWhile_eq_self_iff.mpr all
    have left : last.dropWhile Char.isDigit = [] := List.dropWhile_eq_nil_iff.mpr all
    rw [shape]
    simp only [wholePart,if_neg differ,digit,if_true,taken,left]

theorem dumpInt_token (value : Int) :
    ∃ token, numberToken (dumpInt value) = some (token,[]) ∧ token.value = .int value ∧
      token.whole = Nat.toDigits 10 value.natAbs := by
  have whole := wholePart_digits value.natAbs
  by_cases negative : value < 0
  · refine ⟨⟨['-'],Nat.toDigits 10 value.natAbs,[],[]⟩,?_,?_,rfl⟩
    · simp only [dumpInt,if_pos negative,List.singleton_append,numberToken,minusPart,whole,
        Option.bind_eq_bind,Option.bind_some]
      rfl
    · simp only [NumberToken.value,NumberToken.isFloat,List.append_nil,List.isEmpty_nil,Bool.not_true,
        Bool.false_eq_true,if_false,Nat.ofDigitChars_ten_toDigits,List.cons_ne_nil]
      congr 1
      omega
  · have plain : minusPart (Nat.toDigits 10 value.natAbs) = ([],Nat.toDigits 10 value.natAbs) := by
      obtain ⟨d,last,shape,digit⟩ := wholePart_head whole
      rw [shape]
      unfold minusPart
      split
      · rename_i same
        cases same
        cases digit
      · rfl
    refine ⟨⟨[],Nat.toDigits 10 value.natAbs,[],[]⟩,?_,?_,rfl⟩
    · simp only [dumpInt,if_neg negative,List.nil_append,numberToken,plain,whole,Option.bind_eq_bind,
        Option.bind_some]
      rfl
    · simp only [NumberToken.value,NumberToken.isFloat,List.append_nil,List.isEmpty_nil,Bool.not_true,
        Bool.false_eq_true,if_false,Nat.ofDigitChars_ten_toDigits,if_true]
      congr 1
      omega

theorem scanNumber_text (delimited : Delimited rest) (found : numberToken text = some (token,[]))
    (fits : token.isFloat = true ∨ limit.all (token.whole.length ≤ ·) = true) :
    scanAtom limit (text ++ rest) = .ok (token.value,rest) := by
  have whole := numberToken_append delimited found
  rw [List.nil_append] at whole
  rw [scanAtom_number (numberToken_head whole),scanNumber,whole]
  dsimp only
  rcases fits with float | fits
  · rw [if_pos float]
    rfl
  · rw [checkDigits_ok fits,ite_self]
    rfl

theorem scanAtom_float {text : String} (delimited : Delimited rest) (held : isRepr text = true) :
    scanAtom limit (text.toList ++ rest) = .ok (.float text,rest) := by
  simp only [isRepr,Bool.or_eq_true,beq_iff_eq] at held
  rcases held with ((rfl | rfl) | rfl) | number
  · simp [scanAtom]
  · simp [scanAtom]
  · simp [scanAtom]
  · split at number
    · rename_i token found
      rw [scanNumber_text delimited found (.inl number)]
      have whole := numberToken_text found
      rw [List.append_nil] at whole
      rw [NumberToken.value,if_pos number,whole,String.ofList_toList]
    · cases number

def Opening (c : Char) : Prop := isBlank c = false ∧ c ≠ ']' ∧ c ≠ '\x7d' ∧ c ≠ '\ufeff'

theorem number_opening (found : numberToken text = some result) :
    ∃ c last, text = c :: last ∧ Opening c ∧ c ≠ '"' ∧ c ≠ '[' ∧ c ≠ '\x7b' := by
  have head := numberToken_head found
  cases text with
  | nil => exact absurd head id
  | cons c last =>
    refine ⟨c,last,rfl,?_⟩
    rcases head with digit | ⟨rfl,_⟩
    · have member := digit_cases digit
      simp only [String.reduceToList,List.mem_cons,List.not_mem_nil,or_false] at member
      rcases member with rfl | rfl | rfl | rfl | rfl | rfl | rfl | rfl | rfl | rfl <;>
        exact ⟨⟨rfl,by decide,by decide,by decide⟩,by decide,by decide,by decide⟩
    · exact ⟨⟨rfl,by decide,by decide,by decide⟩,by decide,by decide,by decide⟩

theorem float_opening {text : String} (held : isRepr text = true) :
    ∃ c last, text.toList = c :: last ∧ Opening c ∧ c ≠ '"' ∧ c ≠ '[' ∧ c ≠ '\x7b' := by
  simp only [isRepr,Bool.or_eq_true,beq_iff_eq] at held
  rcases held with ((rfl | rfl) | rfl) | number
  · exact ⟨'N',_,rfl,⟨rfl,by decide,by decide,by decide⟩,by decide,by decide,by decide⟩
  · exact ⟨'I',_,rfl,⟨rfl,by decide,by decide,by decide⟩,by decide,by decide,by decide⟩
  · exact ⟨'-',_,rfl,⟨rfl,by decide,by decide,by decide⟩,by decide,by decide,by decide⟩
  · split at number
    · rename_i token found
      exact number_opening found
    · cases number

theorem dumps_opening (plain : v.plain = true) : ∃ c last, dumps v = c :: last ∧ Opening c := by
  cases v with
  | null => exact ⟨'n',_,rfl,rfl,by decide,by decide,by decide⟩
  | bool value =>
    cases value with
    | true => exact ⟨'t',_,rfl,rfl,by decide,by decide,by decide⟩
    | false => exact ⟨'f',_,rfl,rfl,by decide,by decide,by decide⟩
  | int value =>
    obtain ⟨token,found,_⟩ := dumpInt_token value
    obtain ⟨c,last,shape,opening,_⟩ := number_opening found
    exact ⟨c,last,by rw [dumps,shape],opening⟩
  | float text =>
    obtain ⟨c,last,shape,opening,_⟩ := float_opening (by simpa [Value.plain] using plain)
    exact ⟨c,last,by rw [dumps,shape],opening⟩
  | str text => exact ⟨'"',_,rfl,rfl,by decide,by decide,by decide⟩
  | arr items =>
    cases items with
    | nil => exact ⟨'[',_,rfl,rfl,by decide,by decide,by decide⟩
    | cons item items => exact ⟨'[',_,rfl,rfl,by decide,by decide,by decide⟩
  | obj members =>
    cases members with
    | nil => exact ⟨'\x7b',_,rfl,rfl,by decide,by decide,by decide⟩
    | cons member members => exact ⟨'\x7b',_,rfl,rfl,by decide,by decide,by decide⟩

theorem skip_opening (opening : Opening c) (last : List Char) : skipBlanks (c :: last) = c :: last := by
  unfold skipBlanks
  rw [List.dropWhile_cons,opening.1]
  rfl

theorem skip_dumps (plain : v.plain = true) (rest : List Char) : skipBlanks (dumps v ++ rest) = dumps v ++ rest := by
  obtain ⟨c,last,shape,opening⟩ := dumps_opening plain
  rw [shape]
  exact skip_opening opening _

theorem dumpItems_delimited (items : List Value) (rest : List Char) :
    Delimited (dumpItems items ++ rest) ∧ skipBlanks (dumpItems items ++ rest) = dumpItems items ++ rest := by
  cases items with
  | nil => exact ⟨fun c head => .inr (.inl (Option.some.inj head).symm),rfl⟩
  | cons item items => exact ⟨fun c head => .inl (Option.some.inj head).symm,rfl⟩

theorem dumpMembers_delimited (members : List (String × Value)) (rest : List Char) :
    Delimited (dumpMembers members ++ rest) ∧ skipBlanks (dumpMembers members ++ rest) = dumpMembers members ++ rest := by
  cases members with
  | nil => exact ⟨fun c head => .inr (.inr (Option.some.inj head).symm),rfl⟩
  | cons member members => exact ⟨fun c head => .inl (Option.some.inj head).symm,rfl⟩

theorem escape_nonempty (c : Char) : 0 < (escapeChar c).length := by
  unfold escapeChar
  split
  · exact Nat.succ_pos _
  · repeat' split
    all_goals simp

theorem dumpString_length (text : String) : text.toList.length+2 ≤ (dumpString text).length := by
  have inner : ∀ chars : List Char, chars.length ≤ (chars.flatMap escapeChar).length := by
    intro chars
    induction chars with
    | nil => exact Nat.le_refl _
    | cons c chars ih =>
      have step := escape_nonempty c
      rw [List.flatMap_cons,List.length_append,List.length_cons]
      omega
  have bound := inner text.toList
  simp only [dumpString,List.length_cons,List.length_append,List.length_nil]
  omega

theorem scan_string {text : String} (opened rest : List Char) (enough : (dumpString text).length ≤ fuel+1) :
    scanString opened fuel (text.toList.flatMap escapeChar ++ '"' :: rest) = .ok (text.toList,rest) := by
  have size := dumpString_length text
  exact scan_chars opened _ rest fuel (by omega)

theorem setMember_fresh (members : List (String × Value)) (fresh : key ∉ members.map (·.1)) (value : Value) :
    setMember members key value = members ++ [(key,value)] := by
  induction members with
  | nil => rfl
  | cons member members ih =>
    obtain ⟨other,old⟩ := member
    rw [List.map_cons,List.mem_cons,not_or] at fresh
    simp only [setMember,if_neg (Ne.symm fresh.1),ih fresh.2,List.cons_append]

theorem dictOf_distinct (members : List (String × Value)) (distinct : (members.map (·.1)).Nodup) :
    dictOf members = members := by
  have step : ∀ (later done : List (String × Value)), ((done ++ later).map (·.1)).Nodup →
      later.foldl (fun members entry => setMember members entry.1 entry.2) done = done ++ later := by
    intro later
    induction later with
    | nil => intro done _; exact (List.append_nil done).symm
    | cons member later ih =>
      intro done apart
      obtain ⟨key,value⟩ := member
      have fresh : key ∉ done.map (·.1) := by
        rw [List.map_append,List.map_cons,List.nodup_append] at apart
        intro member
        exact apart.2.2 key member key List.mem_cons_self rfl
      rw [List.foldl_cons]
      simp only [setMember_fresh done fresh value]
      rw [ih (done ++ [(key,value)]) (by simpa using apart)]
      simp
  exact step members [] distinct

theorem scan_atom (shape : text = c :: last) (plain : c ≠ '"' ∧ c ≠ '[' ∧ c ≠ '\x7b') (fuel : Nat) (rest : List Char) :
    scanOnce limit (fuel+1) (text ++ rest) = scanAtom limit (text ++ rest) := by
  subst shape
  rw [List.cons_append,scanOnce,if_neg plain.1,if_neg plain.2.1,if_neg plain.2.2]

theorem fuel_succ (enough : n < fuel) : ∃ less, fuel = less+1 ∧ n ≤ less :=
  ⟨fuel-1,by omega,by omega⟩

theorem scan_member (plain : v.plain = true) (key : String) (rest : List Char)
    (value : scanOnce limit fuel (dumps v ++ rest) = .ok (v,rest)) (enough : (dumpString key).length ≤ fuel+1) :
    scanMember limit (fuel+1) (dumpString key ++ ": ".toList ++ dumps v ++ rest) = .ok ((key,v),rest) := by
  have string := @scan_string fuel key (dumpString key ++ ": ".toList ++ dumps v ++ rest)
    (": ".toList ++ (dumps v ++ rest)) enough
  have shape : dumpString key ++ ": ".toList ++ dumps v ++ rest =
      '"' :: (key.toList.flatMap escapeChar ++ '"' :: (": ".toList ++ (dumps v ++ rest))) := by
    simp [dumpString]
  rw [shape] at string ⊢
  have blank : skipBlanks (' ' :: (dumps v ++ rest)) = dumps v ++ rest := skip_dumps plain rest
  simp only [scanMember,string,ok_bind]
  have colon : skipBlanks (": ".toList ++ (dumps v ++ rest)) = ':' :: ' ' :: (dumps v ++ rest) := rfl
  simp only [colon,blank,value,ok_bind,String.ofList_toList]
  rfl

theorem scan_array (plain : item.plain = true)
    (first : scanOnce limit fuel (dumps item ++ (dumpItems items ++ rest)) = .ok (item,dumpItems items ++ rest))
    (later : scanItems limit fuel (dumpItems items ++ rest) = .ok (items,rest)) :
    scanOnce limit (fuel+1) (dumps (.arr (item :: items)) ++ rest) = .ok (.arr (item :: items),rest) := by
  have shape : dumps (.arr (item :: items)) ++ rest = '[' :: (dumps item ++ (dumpItems items ++ rest)) := by
    simp [dumps]
  obtain ⟨c,last,head,opening⟩ := dumps_opening plain
  rw [shape]
  simp only [scanOnce,if_neg (show ('[' : Char) ≠ '"' by decide),if_true,skip_dumps plain]
  split
  · rename_i closed
    rw [head] at closed
    exact absurd (List.cons.inj closed).1 opening.2.1
  · simp only [first,ok_bind,(dumpItems_delimited items rest).2,later]
    rfl

theorem scan_item (plain : item.plain = true)
    (first : scanOnce limit fuel (dumps item ++ (dumpItems items ++ rest)) = .ok (item,dumpItems items ++ rest))
    (later : scanItems limit fuel (dumpItems items ++ rest) = .ok (items,rest)) :
    scanItems limit (fuel+1) (dumpItems (item :: items) ++ rest) = .ok (item :: items,rest) := by
  have shape : dumpItems (item :: items) ++ rest = ',' :: ' ' :: (dumps item ++ (dumpItems items ++ rest)) := by
    simp [dumpItems]
  have blank : skipBlanks (' ' :: (dumps item ++ (dumpItems items ++ rest))) =
      dumps item ++ (dumpItems items ++ rest) := skip_dumps plain _
  rw [shape]
  simp only [scanItems,blank,first,ok_bind,(dumpItems_delimited items rest).2,later]
  rfl

theorem scan_dict (distinct : (((key,value) :: members).map Prod.fst).Nodup)
    (first : scanMember limit fuel (dumpString key ++ ": ".toList ++ dumps value ++ (dumpMembers members ++ rest)) =
      .ok ((key,value),dumpMembers members ++ rest))
    (later : scanMembers limit fuel (dumpMembers members ++ rest) = .ok (members,rest)) :
    scanOnce limit (fuel+1) (dumps (.obj ((key,value) :: members)) ++ rest) =
      .ok (.obj ((key,value) :: members),rest) := by
  have shape : dumps (.obj ((key,value) :: members)) ++ rest =
      '\x7b' :: (dumpString key ++ ": ".toList ++ dumps value ++ (dumpMembers members ++ rest)) := by
    simp [dumps]
  have skipped : skipBlanks (dumpString key ++ ": ".toList ++ dumps value ++ (dumpMembers members ++ rest)) =
      dumpString key ++ ": ".toList ++ dumps value ++ (dumpMembers members ++ rest) := rfl
  rw [shape]
  simp only [scanOnce,if_neg (show ('\x7b' : Char) ≠ '"' by decide),if_neg (show ('\x7b' : Char) ≠ '[' by decide),if_true,skipped]
  split
  · rename_i closed
    cases closed
  · simp only [first,ok_bind,(dumpMembers_delimited members rest).2,later,dictOf_distinct _ distinct]
    rfl

theorem scan_pair
    (first : scanMember limit fuel (dumpString key ++ ": ".toList ++ dumps value ++ (dumpMembers members ++ rest)) =
      .ok ((key,value),dumpMembers members ++ rest))
    (later : scanMembers limit fuel (dumpMembers members ++ rest) = .ok (members,rest)) :
    scanMembers limit (fuel+1) (dumpMembers ((key,value) :: members) ++ rest) = .ok ((key,value) :: members,rest) := by
  have shape : dumpMembers ((key,value) :: members) ++ rest =
      ',' :: ' ' :: (dumpString key ++ ": ".toList ++ dumps value ++ (dumpMembers members ++ rest)) := by
    simp [dumpMembers]
  have blank : skipBlanks (' ' :: (dumpString key ++ ": ".toList ++ dumps value ++ (dumpMembers members ++ rest))) =
      dumpString key ++ ": ".toList ++ dumps value ++ (dumpMembers members ++ rest) := rfl
  rw [shape]
  simp only [scanMembers,blank,first,ok_bind,(dumpMembers_delimited members rest).2,later]
  rfl

mutual
-- The induction is on the value; each loop of the scanner gets its own case.
theorem scan_dumps (v : Value) (plain : v.plain = true) (fits : v.within limit = true) (rest : List Char) (delimited : Delimited rest) (fuel : Nat)
    (enough : (dumps v).length < fuel) : scanOnce limit fuel (dumps v ++ rest) = .ok (v,rest) := by
  obtain ⟨fuel,rfl,enough⟩ := fuel_succ enough
  match v with
  | .null => rfl
  | .bool true => rfl
  | .bool false => rfl
  | .int value =>
    obtain ⟨token,found,same,digits⟩ := dumpInt_token value
    obtain ⟨c,last,shape,_,other⟩ := number_opening found
    have size : limit.all (token.whole.length ≤ ·) = true := by rw [digits]; exact fits
    rw [dumps,scan_atom shape other,scanNumber_text delimited found (.inr size),same]
  | .float text =>
    have held : isRepr text = true := by simpa [Value.plain] using plain
    obtain ⟨c,last,shape,_,other⟩ := float_opening held
    rw [dumps,scan_atom shape other,scanAtom_float delimited held]
  | .str text =>
    have string := @scan_string fuel text (dumpString text ++ rest) rest
      (by simpa [dumps] using Nat.le_succ_of_le enough)
    have shape : dumpString text ++ rest = '"' :: (text.toList.flatMap escapeChar ++ '"' :: rest) := by
      simp [dumpString]
    rw [dumps]
    rw [shape] at string ⊢
    simp only [scanOnce,if_true,string,Except.map,String.ofList_toList]
  | .arr [] => rfl
  | .arr (item :: items) =>
    have parts : item.plain = true ∧ plainItems items = true := by simpa [Value.plain,plainItems] using plain
    have small : item.within limit = true ∧ withinItems limit items = true := by
      simpa [Value.within,withinItems] using fits
    simp only [dumps,List.length_cons,List.length_append] at enough
    exact scan_array parts.1
      (scan_dumps item parts.1 small.1 (dumpItems items ++ rest) (dumpItems_delimited items rest).1 fuel (by omega))
      (scan_items items parts.2 small.2 rest fuel (by omega))
  | .obj [] => rfl
  | .obj ((key,value) :: members) =>
    simp only [Value.plain,plainMembers,Bool.and_eq_true,decide_eq_true_eq] at plain
    obtain ⟨distinct,whole,others⟩ := plain
    have small : value.within limit = true ∧ withinMembers limit members = true := by
      simpa [Value.within,withinMembers] using fits
    have size : (": ".toList).length = 2 := rfl
    simp only [dumps,List.length_cons,List.length_append] at enough
    obtain ⟨fuel,rfl,_⟩ := fuel_succ (n := 0) (show 0 < fuel by omega)
    have first := scan_dumps value whole small.1 (dumpMembers members ++ rest) (dumpMembers_delimited members rest).1 fuel
      (by omega)
    exact scan_dict distinct (scan_member whole key _ first (by omega))
      (scan_members members others small.2 rest (fuel+1) (by omega))

theorem scan_items (items : List Value) (plain : plainItems items = true) (fits : withinItems limit items = true) (rest : List Char) (fuel : Nat)
    (enough : (dumpItems items).length < fuel) : scanItems limit fuel (dumpItems items ++ rest) = .ok (items,rest) := by
  obtain ⟨fuel,rfl,enough⟩ := fuel_succ enough
  match items with
  | [] => rfl
  | item :: items =>
    have parts : item.plain = true ∧ plainItems items = true := by simpa [plainItems] using plain
    have small : item.within limit = true ∧ withinItems limit items = true := by simpa [withinItems] using fits
    simp only [dumpItems,List.length_append] at enough
    have size : (", ".toList).length = 2 := rfl
    exact scan_item parts.1
      (scan_dumps item parts.1 small.1 (dumpItems items ++ rest) (dumpItems_delimited items rest).1 fuel (by omega))
      (scan_items items parts.2 small.2 rest fuel (by omega))

theorem scan_members (members : List (String × Value)) (plain : plainMembers members = true)
    (fits : withinMembers limit members = true) (rest : List Char) (fuel : Nat) (enough : (dumpMembers members).length < fuel) :
    scanMembers limit fuel (dumpMembers members ++ rest) = .ok (members,rest) := by
  obtain ⟨fuel,rfl,enough⟩ := fuel_succ enough
  match members with
  | [] => rfl
  | (key,value) :: members =>
    have parts : value.plain = true ∧ plainMembers members = true := by simpa [plainMembers] using plain
    have small : value.within limit = true ∧ withinMembers limit members = true := by simpa [withinMembers] using fits
    have size : (": ".toList).length = 2 := rfl
    have comma : (", ".toList).length = 2 := rfl
    simp only [dumpMembers,List.length_append] at enough
    obtain ⟨fuel,rfl,_⟩ := fuel_succ (n := 0) (show 0 < fuel by omega)
    have first := scan_dumps value parts.1 small.1 (dumpMembers members ++ rest) (dumpMembers_delimited members rest).1 fuel
      (by omega)
    exact scan_pair (scan_member parts.1 key _ first (by omega))
      (scan_members members parts.2 small.2 rest (fuel+1) (by omega))
end

-- json.loads(json.dumps(v)) == v
theorem loadsWithin_dumps (plain : v.plain = true) (fits : v.within limit = true) : loadsWithin limit (dumps v) = .ok v := by
  obtain ⟨c,last,shape,opening⟩ := dumps_opening plain
  have scanned := scan_dumps v plain fits [] delimited_nil ((dumps v).length+1) (Nat.lt_succ_self _)
  have skipped := skip_dumps plain []
  rw [List.append_nil] at scanned skipped
  unfold loadsWithin
  rw [if_neg (by rw [shape]; exact fun same => opening.2.2.2 (Option.some.inj same)),skipped,scanned]
  rfl

theorem loads_dumps (plain : v.plain = true) : loads (dumps v) = .ok v := loadsWithin_dumps plain (within_none v)

-- ensure_ascii: what json.dumps writes is one line of visible ASCII.
def Printable (c : Char) : Prop := 32 ≤ c.toNat ∧ c.toNat ≤ 126

theorem all_printable {text : List Char} (all : text.all (fun c => 32 ≤ c.toNat && c.toNat ≤ 126) = true) :
    ∀ c ∈ text, Printable c := by
  intro c member
  have both := List.all_eq_true.mp all c member
  simpa [Printable] using both

theorem digit_printable (digit : c.isDigit = true) : Printable c := by
  have member := digit_cases digit
  simp only [String.reduceToList,List.mem_cons,List.not_mem_nil,or_false] at member
  rcases member with rfl | rfl | rfl | rfl | rfl | rfl | rfl | rfl | rfl | rfl <;> exact ⟨by decide,by decide⟩

theorem digits_printable {text : List Char} : ∀ c ∈ text.takeWhile Char.isDigit, Printable c :=
  fun _ member => digit_printable (List.mem_takeWhile_imp member)

theorem minusPart_printable (text : List Char) : ∀ c ∈ (minusPart text).1, Printable c := by
  intro c member
  unfold minusPart at member
  split at member
  · rw [List.mem_singleton.mp member]
    exact ⟨by decide,by decide⟩
  · cases member

theorem wholePart_printable (found : wholePart text = some (whole,after)) : ∀ c ∈ whole, Printable c := by
  intro c member
  cases text with
  | nil => cases found
  | cons d text =>
    simp only [wholePart] at found
    split at found
    · rename_i zero
      cases found
      rw [List.mem_singleton.mp member,zero]
      exact ⟨by decide,by decide⟩
    · split at found
      · rename_i digit
        cases found
        rcases List.mem_cons.mp member with rfl | later
        · exact digit_printable digit
        · exact digits_printable c later
      · cases found

theorem fracPart_printable (text : List Char) : ∀ c ∈ (fracPart text).1, Printable c := by
  intro c member
  unfold fracPart at member
  split at member
  · split at member
    · cases member
    · rcases List.mem_cons.mp member with rfl | later
      · exact ⟨by decide,by decide⟩
      · exact digits_printable c later
  · cases member

theorem signPart_printable (text : List Char) : ∀ c ∈ (signPart text).1, Printable c := by
  intro c member
  unfold signPart at member
  split at member
  · cases member
  · split at member
    · rename_i sign
      rw [List.mem_singleton.mp member]
      simp only [isSign,Bool.or_eq_true,beq_iff_eq] at sign
      rcases sign with rfl | rfl <;> exact ⟨by decide,by decide⟩
    · cases member

theorem expPart_printable (text : List Char) : ∀ c ∈ (expPart text).1, Printable c := by
  intro c member
  unfold expPart at member
  split at member
  · cases member
  · split at member
    · rename_i e
      dsimp only at member
      split at member
      · cases member
      · rcases List.mem_cons.mp member with rfl | later
        · rcases e with rfl | rfl <;> exact ⟨by decide,by decide⟩
        · rcases List.mem_append.mp later with sign | digit
          · exact signPart_printable _ c sign
          · exact digits_printable c digit
    · cases member

theorem numberToken_printable (found : numberToken text = some (token,after)) : ∀ c ∈ token.text, Printable c := by
  unfold numberToken at found
  simp only [Option.bind_eq_bind,Option.bind_eq_some_iff] at found
  obtain ⟨⟨digits,more⟩,first,last⟩ := found
  cases Option.some.inj last
  simp only [NumberToken.text,List.mem_append]
  rintro c (((minus | digit) | frac) | exp)
  · exact minusPart_printable _ c minus
  · exact wholePart_printable first c digit
  · exact fracPart_printable _ c frac
  · exact expPart_printable _ c exp

theorem hexDigits_printable (n : Nat) : ∀ c ∈ hexDigits n, Printable c := by
  have each : ∀ d < 16, Printable d.digitChar := by
    intro d below
    unfold Printable
    interval_cases d <;> decide
  intro c member
  simp only [hexDigits,List.mem_cons,List.not_mem_nil,or_false] at member
  rcases member with rfl | rfl | rfl | rfl <;> exact each _ (Nat.mod_lt _ (by decide))

theorem escape_printable (c : Char) : ∀ d ∈ escapeChar c, Printable d := by
  have slash : Printable '\\' := ⟨by decide,by decide⟩
  have escape : ∀ n, ∀ d ∈ '\\' :: 'u' :: hexDigits n, Printable d := by
    intro n d member
    rcases List.mem_cons.mp member with rfl | later
    · exact slash
    · rcases List.mem_cons.mp later with rfl | digit
      · exact ⟨by decide,by decide⟩
      · exact hexDigits_printable n d digit
  have short : ∀ e, Printable e → ∀ d ∈ ['\\',e], Printable d := by
    intro e visible d member
    simp only [List.mem_cons,List.not_mem_nil,or_false] at member
    rcases member with rfl | rfl
    · exact slash
    · exact visible
  unfold escapeChar
  split
  · rename_i same
    apply short
    rcases same with rfl | rfl <;> exact ⟨by decide,by decide⟩
  · split
    · exact short 'n' ⟨by decide,by decide⟩
    · split
      · exact short 'r' ⟨by decide,by decide⟩
      · split
        · exact short 't' ⟨by decide,by decide⟩
        · split
          · exact short 'f' ⟨by decide,by decide⟩
          · split
            · exact short 'b' ⟨by decide,by decide⟩
            · split
              · rename_i visible
                intro d member
                rw [List.mem_singleton.mp member]
                exact visible
              · split
                · exact escape _
                · intro d member
                  rcases List.mem_append.mp member with first | second
                  · exact escape _ d first
                  · exact escape _ d second

theorem dumpString_printable (text : String) : ∀ c ∈ dumpString text, Printable c := by
  have quote : Printable '"' := ⟨by decide,by decide⟩
  intro c member
  rcases List.mem_cons.mp member with rfl | later
  · exact quote
  · rcases List.mem_append.mp later with inner | last
    · obtain ⟨d,_,inside⟩ := List.mem_flatMap.mp inner
      exact escape_printable d c inside
    · rw [List.mem_singleton.mp last]
      exact quote

theorem repr_printable {text : String} (held : isRepr text = true) : ∀ c ∈ text.toList, Printable c := by
  simp only [isRepr,Bool.or_eq_true,beq_iff_eq] at held
  rcases held with ((rfl | rfl) | rfl) | number
  · exact all_printable rfl
  · exact all_printable rfl
  · exact all_printable rfl
  · split at number
    · rename_i token found
      have whole := numberToken_text found
      rw [List.append_nil] at whole
      rw [← whole]
      exact numberToken_printable found
    · cases number

theorem separator_printable (c : Char) (member : c ∈ ", ".toList ∨ c ∈ ": ".toList) : Printable c := by
  simp only [String.reduceToList,List.mem_cons,List.not_mem_nil,or_false] at member
  rcases member with (rfl | rfl) | rfl | rfl <;> exact ⟨by decide,by decide⟩

mutual
theorem dumps_printable (v : Value) (plain : v.plain = true) : ∀ c ∈ dumps v, Printable c := by
  match v with
  | .null => exact all_printable rfl
  | .bool true => exact all_printable rfl
  | .bool false => exact all_printable rfl
  | .int value =>
    intro c member
    rcases List.mem_append.mp member with sign | digit
    · split at sign
      · rw [List.mem_singleton.mp sign]
        exact ⟨by decide,by decide⟩
      · cases sign
    · exact digit_printable (Nat.isDigit_of_mem_toDigits (by decide) (by decide) digit)
  | .float text => exact repr_printable (by simpa [Value.plain] using plain)
  | .str text => exact dumpString_printable text
  | .arr [] => exact all_printable rfl
  | .arr (item :: items) =>
    have parts : item.plain = true ∧ plainItems items = true := by simpa [Value.plain,plainItems] using plain
    intro c member
    simp only [dumps,List.mem_cons,List.mem_append] at member
    rcases member with rfl | first | later
    · exact ⟨by decide,by decide⟩
    · exact dumps_printable item parts.1 c first
    · exact items_printable items parts.2 c later
  | .obj [] => exact all_printable rfl
  | .obj ((key,value) :: members) =>
    simp only [Value.plain,plainMembers,Bool.and_eq_true] at plain
    intro c member
    simp only [dumps,List.mem_cons,List.mem_append] at member
    rcases member with rfl | ((name | colon) | first) | later
    · exact ⟨by decide,by decide⟩
    · exact dumpString_printable key c name
    · exact separator_printable c (.inr colon)
    · exact dumps_printable value plain.2.1 c first
    · exact members_printable members plain.2.2 c later

theorem items_printable (items : List Value) (plain : plainItems items = true) :
    ∀ c ∈ dumpItems items, Printable c := by
  match items with
  | [] => exact all_printable rfl
  | item :: items =>
    have parts : item.plain = true ∧ plainItems items = true := by simpa [plainItems] using plain
    intro c member
    simp only [dumpItems,List.mem_append] at member
    rcases member with (comma | first) | later
    · exact separator_printable c (.inl comma)
    · exact dumps_printable item parts.1 c first
    · exact items_printable items parts.2 c later

theorem members_printable (members : List (String × Value)) (plain : plainMembers members = true) :
    ∀ c ∈ dumpMembers members, Printable c := by
  match members with
  | [] => exact all_printable rfl
  | (key,value) :: members =>
    have parts : value.plain = true ∧ plainMembers members = true := by simpa [plainMembers] using plain
    intro c member
    simp only [dumpMembers,List.mem_append] at member
    rcases member with (((comma | name) | colon) | first) | later
    · exact separator_printable c (.inl comma)
    · exact dumpString_printable key c name
    · exact separator_printable c (.inr colon)
    · exact dumps_printable value parts.1 c first
    · exact members_printable members parts.2 c later
end

end Json
