import SymphonyAkida.AkidaChip
import SymphonyAkida.Library.Assoc
import SymphonyAkida.Library.Regex
import Mathlib.Data.Prod.Lex
import Mathlib.Data.Rat.Defs
import Mathlib.Data.String.Basic
import Mathlib.Data.List.Infix
import Mathlib.Data.List.Sort
import Mathlib.Algebra.Order.Ring.Rat

namespace SymphonyAkida.Fleet

-- The interpreter's Unicode table of decimal digits, which is ASCII's below 128.
structure Digits where
  decimal : Char → Bool
  ascii : ∀ c : Char, c.toNat < 128 → decimal c = c.isDigit

def isSpace (c : Char) : Bool :=
  (9 ≤ c.toNat && c.toNat ≤ 13) || (28 ≤ c.toNat && c.toNat ≤ 32) || (0x2000 ≤ c.toNat && c.toNat ≤ 0x200a) ||
    [0x85,0xa0,0x1680,0x2028,0x2029,0x202f,0x205f,0x3000].contains c.toNat

def strip (s : String) : String := String.ofList ((s.toList.dropWhile isSpace).reverse.dropWhile isSpace).reverse

def products : List (String × String) := [
  ("BC.00.000.001","AKD1000"),
  ("BC.00.000.002","AKD1000"),
  ("BC.A1.003.009","AKD1500"),
  ("BC.A1.003.006","TwoNodesIP"),
  ("BC.A2.001.000","TwoNodesIPv2"),
  ("BC.B1.001.000","Akida Pico")]

def siliconNames : List (String × String) := [("NSoC_v1","AKD1000"),("NSoC_v2","AKD1000")]

def unknown : String := "Akida"

def fromVersion (version : String) : Option String := products.lookup (strip version)

-- parts[1].strip() if len(parts) > 1 else desc, of desc.split("/")
def siliconPart (desc : String) : String :=
  match desc.toList.splitOn '/' with
  | _ :: part :: _ => strip (String.ofList part)
  | _ => desc

def fromDesc (desc : String) : String :=
  let desc := strip desc
  if desc = "" then unknown
  else
    let silicon := siliconPart desc
    ((fromVersion silicon).or (siliconNames.lookup silicon)).getD (if silicon = "" then desc else silicon)

-- ->\s*device\[\d+\]\s+(\S+)(?:\s+\(([^)]+)\))?
def deviceRe (digits : Digits) : Regex := .cat [
  .text "->".toList,.star isSpace,.text "device[".toList,.plus digits.decimal,.text "]".toList,.plus isSpace,
  .group 1 (.plus fun c => !isSpace c),
  .opt (.cat [.plus isSpace,.text "(".toList,.group 2 (.plus (· ≠ ')')),.text ")".toList])]

-- \[akida-chip\] mapped (\S+) 
def mappedRe : Regex := .cat [.text "[akida-chip] mapped ".toList,.group 1 (.plus fun c => !isSpace c),.text " ".toList]

def lower (c : Char) : Bool := 'a' ≤ c && c ≤ 'z'

-- ^[a-z]+-(.+)-\d+\.log$
def logHostRe (digits : Digits) : Regex := .cat [
  .plus lower,.text "-".toList,.group 1 (.plus (· ≠ '\n')),.text "-".toList,.plus digits.decimal,.text ".log".toList,.eol]

def logSpecs : List (String × String × String) := [
  ("batch-inference","soam/akida-service/logs/si-*.log","worker READY"),
  ("image-shard-inference","soam/shard-inference/logs/si-*.log","worker READY"),
  ("serial-http-round-robin","soam/http-service/logs/http-*.log","listening on")]

def logHead : Nat := 16384

structure Files where
  -- glob.glob(pattern), in the order it lists
  glob : String → List String
  -- os.path.getmtime(path); none is OSError
  getmtime : String → Option ℚ
  -- the text of the file, opened with errors="replace"; none is OSError
  text : String → Option (List Char)

def logHost (digits : Digits) (path : String) : Option String :=
  (((logHostRe digits).matchStart (BatchWorker.basename path).toList).bind (·.group 1)).map String.ofList

-- host = _log_host(path); if not host: continue
def hostOf (digits : Digits) (path : String) : Option String := (logHost digits path).filter (· ≠ "")

def head (files : Files) (path : String) : Option (List Char) := (files.text path).map (·.take logHead)

abbrev Entry := ℚ × String

-- by_host.setdefault(host, []).append((os.path.getmtime(path), path)): the list
-- is there even where getmtime raises.
def note (digits : Digits) (files : Files) (byHost : List (String × List Entry)) (path : String) : List (String × List Entry) :=
  match hostOf digits path with
  | none => byHost
  | some host => Assoc.alter host (fun entries => entries.getD [] ++ ((files.getmtime path).map (·,path)).toList) byHost

def newestFirst (entries : List Entry) : List Entry := entries.insertionSort fun a b => toLex b ≤ toLex a

def scan (files : Files) (marker : List Char) : List Entry → Option (List Char) → Option (List Char) × Bool
  | [],chosen => (chosen,false)
  | (_,path) :: rest,chosen =>
    match head files path with
    | none => scan files marker rest chosen
    | some text =>
      if marker <:+: text then (some text,true)
      else scan files marker rest (some (chosen.getD text))

structure Info where
  ready : Bool
  device : Option String
  product : Option String
  model : Option String

def describe (digits : Digits) (ready : Bool) (chosen : List Char) : Info :=
  let device := (deviceRe digits).search chosen
  let desc := device.bind fun found => (found.group 1).map String.ofList
  let named := device.bind fun found => (found.group 2).map String.ofList
  {ready := ready
   device := desc
   product := (named.filter (· ≠ "")).or (desc.map fromDesc)
   model := ((mappedRe.search chosen).bind (·.group 1)).map String.ofList}

def inspect (digits : Digits) (files : Files) (marker : List Char) (entries : List Entry) : Option Info :=
  match scan files marker (newestFirst entries) none with
  | (none,_) => none
  | (some chosen,ready) => some (describe digits ready chosen)

def join (dir name : String) : String := String.ofList (AkidaChip.join dir.toList name.toList)

def workers (digits : Digits) (files : Files) (sharedDir app : String) : List (String × Info) :=
  match logSpecs.lookup app with
  | none => []
  | some (pattern,marker) =>
    let byHost := (files.glob (join sharedDir pattern)).foldl (note digits files) []
    Assoc.collect (inspect digits files marker.toList) byHost []

end SymphonyAkida.Fleet
