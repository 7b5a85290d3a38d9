import SymphonyAkida.BatchWorker

namespace SymphonyAkida.AkidaChip
open Json ShardWire BatchWorker

-- An akida.Model: its shapes, and the integers forward returns, flattened.
structure Model where
  inputShape : List Nat
  outputShape : List Nat
  forward : List UInt8 → Except Raised (List Int)

-- What stays the same while the process runs.
structure Node where
  modelsDir : List Char
  host : String
  device : String
  product : String
  isPrintable : Char → Bool

-- The outside of one call: the files, the akida library and the chip.
structure World where
  isfile : List Char → Bool
  jsonLoad : List Char → Except Raised Value
  model : List Char → Except Raised Model
  hasMode : String → Bool
  map : Model → String → Except Raised Unit
  asarray : Value → Except Raised (List UInt8)
  elapsedUs : Int

structure Fields where
  model : Option Model
  stem : Option String
  ishape : Option (List Nat)
  n : Option Nat
  classes : Option (List String)
  onChip : Bool
  mapError : Option String

def Fields.fresh : Fields := ⟨none,none,none,none,none,false,none⟩

def quoteMark : Char := Char.ofNat 39

def reprChar (isPrintable : Char → Bool) (mark c : Char) : List Char :=
  if c = mark ∨ c = '\\' then ['\\',c]
  else if c = '\t' then ['\\','t']
  else if c = '\n' then ['\\','n']
  else if c = '\r' then ['\\','r']
  else if isPrintable c then [c]
  else if c.toNat < 0x100 then '\\' :: 'x' :: (hexDigits c.toNat).drop 2
  else if c.toNat < 0x10000 then '\\' :: 'u' :: hexDigits c.toNat
  else '\\' :: 'U' :: (hexDigits (c.toNat/0x10000) ++ hexDigits (c.toNat%0x10000))

def reprText (isPrintable : Char → Bool) (text : List Char) : List Char :=
  let mark := if text.contains quoteMark && !text.contains '"' then '"' else quoteMark
  mark :: (text.flatMap (reprChar isPrintable mark) ++ [mark])

mutual
def reprValue (isPrintable : Char → Bool) : Value → List Char
  | .null => "None".toList
  | .bool true => "True".toList
  | .bool false => "False".toList
  | .int value => dumpInt value
  | .float text => text.toList
  | .str text => reprText isPrintable text.toList
  | .arr [] => ['[',']']
  | .arr (item :: items) => '[' :: (reprValue isPrintable item ++ reprItems isPrintable items)
  | .obj [] => ['\x7b','\x7d']
  | .obj ((key,value) :: members) =>
    '\x7b' :: (reprText isPrintable key.toList ++ ": ".toList ++ reprValue isPrintable value ++
      reprMembers isPrintable members)

def reprItems (isPrintable : Char → Bool) : List Value → List Char
  | [] => [']']
  | item :: items => ", ".toList ++ reprValue isPrintable item ++ reprItems isPrintable items

def reprMembers (isPrintable : Char → Bool) : List (String × Value) → List Char
  | [] => ['\x7d']
  | (key,value) :: members =>
    ", ".toList ++ reprText isPrintable key.toList ++ ": ".toList ++ reprValue isPrintable value ++
      reprMembers isPrintable members
end

def strValue (isPrintable : Char → Bool) : Value → String
  | .str text => text
  | other => String.ofList (reprValue isPrintable other)

def dotFbz : List Char := ['.','f','b','z']

def stemPath (path : List Char) : String :=
  let name := (basename (String.ofList path)).toList
  String.ofList (if dotFbz <:+ name then name.take (name.length-4) else name)

-- os.path.join(MODELS_DIR, name), for a name that is not absolute
def join (dir name : List Char) : List Char :=
  if dir = [] ∨ ['/'] <:+ dir then dir ++ name else dir ++ '/' :: name

def modelPath (node : Node) : Value → Except Raised (List Char)
  | .str name =>
    let path := if ['/'] <+: name.toList then name.toList else join node.modelsDir name.toList
    .ok (if dotFbz <:+ path then path else path ++ dotFbz)
  | other => .error ⟨"TypeError",s!"expected str, bytes or os.PathLike object, not {typeName other}"⟩

-- A sidecar of a model: what os.path.isfile and json.load make of it.
inductive Sidecar where
  | missing
  | unreadable
  | holds (value : Value)

def World.sidecar (world : World) (path : List Char) : Sidecar :=
  if world.isfile path then
    match world.jsonLoad path with
    | .ok value => .holds value
    | .error _ => .unreadable
  else .missing

def World.sidecars (world : World) (path : List Char) (suffixes : List String) : List Sidecar :=
  suffixes.map fun suf => world.sidecar (path.take (path.length-4) ++ suf.toList)

def classSuffixes : List String := ["_meta.json","_params.json",".classes.json",".json"]
def modeSuffixes : List String := ["_meta.json","_params.json",".json"]
def classKeys : List String := ["class_names","class_labels","classes","labels"]

def namedIn (node : Node) (n : Nat) (members : Dict) : Option (List String) :=
  classKeys.findSome? fun key =>
    match get members key with
    | some (.arr items) => if items.length = n then some (items.map (strValue node.isPrintable)) else none
    | _ => none

-- The loop of _classes over the sidecars. meta.get stands outside the try.
def classesIn (node : Node) (n : Nat) : List Sidecar → Except Raised (List String)
  | [] => .ok ((List.range n).map toString)
  | .missing :: rest => classesIn node n rest
  | .unreadable :: rest => classesIn node n rest
  | .holds (.obj members) :: rest =>
    match namedIn node n members with
    | some names => .ok names
    | none => classesIn node n rest
  | .holds other :: _ => .error ⟨"AttributeError",s!"'{typeName other}' object has no attribute 'get'"⟩

def classes (node : Node) (world : World) (path : List Char) (n : Nat) : Except Raised (List String) :=
  classesIn node n (world.sidecars path classSuffixes)

-- The loop of _map_mode. Here .get stands inside the try, and a break follows.
def mapModeIn : List Sidecar → Value
  | [] => .str "AllNps"
  | .missing :: rest => mapModeIn rest
  | .holds (.obj members) :: _ =>
    match get members "map_mode" with
    | some mode => if truthy mode then mode else .str "AllNps"
    | none => .str "AllNps"
  | _ :: _ => .str "AllNps"

def mapMode (world : World) (path : List Char) : Value := mapModeIn (world.sidecars path modeSuffixes)

-- getattr(akida.MapMode, mode_name, akida.MapMode.AllNps)
def getMode (world : World) : Value → Except Raised String
  | .str name => .ok (if world.hasMode name then name else "AllNps")
  | other => .error ⟨"TypeError",s!"attribute name must be string, not '{typeName other}'"⟩

def info (node : Node) (fields : Fields) (m : Model) (names : List String) : Value :=
  .obj [("name",fields.stem.elim .null .str),
    ("input_shape",.arr (m.inputShape.map fun (d : Nat) => .int d)),
    ("num_classes",.int m.outputShape.prod),
    ("class_names",.arr (names.map .str)),
    ("device",.str node.device),
    ("product",.str node.product),
    ("akida_mapped",.bool fields.onChip),
    ("map_error",fields.mapError.elim .null .str)]

-- Chip.load(name, allow_software)
def load (node : Node) (world : World) (fields : Fields) (name : Value) (allowSoftware : Bool) :
    Fields × Except Raised Value :=
  match modelPath node name with
  | .error raised => (fields,.error raised)
  | .ok path =>
    if !world.isfile path then (fields,.error ⟨"FileNotFoundError","no such model: " ++ String.ofList path⟩)
    else
      match world.model path with
      | .error raised => (fields,.error raised)
      | .ok m =>
        match getMode world (mapMode world path) with
        | .error raised => (fields,.error raised)
        | .ok mode =>
          match world.map m mode,allowSoftware with
          | .error raised,false => (fields,.error raised)
          | mapped,_ =>
            let fields := match mapped with
              | .ok () => {fields with onChip := true,mapError := none}
              | .error raised => {fields with onChip := false,mapError := some raised.text}
            let fields := {fields with
              model := some m
              stem := some (stemPath path)
              ishape := some m.inputShape
              n := some m.inputShape.prod}
            match classes node world path m.outputShape.prod with
            | .error raised => (fields,.error raised)
            | .ok names =>
              let fields := {fields with classes := some names}
              (fields,.ok (info node fields m names))

def unload (fields : Fields) : Fields :=
  {fields with model := none,stem := none,onChip := false,mapError := none}

def asBytes (world : World) : Tensor → Except Raised (List UInt8)
  | .bytes data => .ok data
  | .json input => world.asarray input

-- int(np.argmax(logits))
def argmax (logits : List Int) : Except Raised Nat :=
  match logits.max? with
  | some top => .ok (logits.idxOf top)
  | none => .error ⟨"ValueError","attempt to get argmax of an empty sequence"⟩

def className (classes : Option (List String)) (cls : Nat) : Except Raised String :=
  match classes with
  | some names => .ok (names.getD cls (toString cls))
  | none => .error ⟨"TypeError","object of type 'NoneType' has no len()"⟩

def shapeText (shape : List Nat) : String := String.ofList (reprValue (fun _ => true) (.arr (shape.map fun (d : Nat) => .int d)))

-- Chip.infer(arr)
def infer (node : Node) (world : World) (fields : Fields) (arr : Tensor) : Fields × Except Raised Prediction :=
  (fields,
    match fields.model with
    | none => .error ⟨"RuntimeError","no model mapped"⟩
    | some m => do
      let arr ← asBytes world arr
      if some arr.length ≠ fields.n then
        throw ⟨"ValueError",s!"input has {arr.length} values, model expects " ++
          s!"{fields.n.getD 0} {shapeText (fields.ishape.getD [])}"⟩
      let logits ← m.forward arr
      let cls ← argmax logits
      let name ← className fields.classes cls
      return ⟨cls,name,world.elapsedUs,node.host,node.device,node.product,fields.stem⟩)

inductive Call where
  | load (world : World) (name : Value) (allowSoftware : Bool)
  | unload
  | infer (world : World) (arr : Tensor)

def Call.step (node : Node) (fields : Fields) : Call → Fields × Except Raised Unit
  | .load world name allowSoftware =>
    let (fields,loaded) := AkidaChip.load node world fields name allowSoftware
    (fields,loaded.map fun _ => ())
  | .unload => (AkidaChip.unload fields,.ok ())
  | .infer world arr =>
    let (fields,predicted) := AkidaChip.infer node world fields arr
    (fields,predicted.map fun _ => ())

def run (node : Node) (fields : Fields) (calls : List Call) : Fields :=
  calls.foldl (fun fields call => (call.step node fields).1) fields

end SymphonyAkida.AkidaChip
