import SymphonyAkida.Library.JsonLines
import SymphonyAkida.Library.Assoc
import SymphonyAkida.Library.Outcome
import SymphonyAkida.EvalShardMap
import SymphonyAkida.ShardClient
import SymphonyAkida.ShardWire
import Mathlib.Data.Rat.Floor

namespace SymphonyAkida.ScoreDump
open Json JsonLines ShardWire DetectionMap EvalShardMap TiledShard

-- repr of a float, and the float of such a text.
structure Floats where
  repr : ℚ → String
  float : String → ℚ

-- The repr of a float is a JSON float, and reads back as it.
structure Floats.Faithful (floats : Floats) (x : ℚ) : Prop where
  token : isRepr (floats.repr x) = true
  back : floats.float (floats.repr x) = x

section
variable (floats : Floats)

def number (x : ℚ) : Value := .float (floats.repr x)

def listValue (f : α → Value) : Option (List α) → Value
  | none => .null
  | some items => .arr (items.map f)

def recordDict (record : ShardClient.Record) : Dict :=
  [("sample",match record.sample with | none => .null | some sample => .int sample),
    ("boxes",listValue (fun box => .arr (box.map (number floats))) record.boxes),
    ("scores",listValue (number floats) record.scores),
    ("labels",listValue (fun (label : Nat) => .int label) record.labels),
    ("truncated",listValue .bool record.truncated)]

-- The file behind dump_file once it is closed.
def dumpText (dump : List ShardClient.Record) : List Char := written (dump.map (recordDict floats))

end

def subscript (value : Value) (key : String) : Except Raised Value :=
  match value with
  | .obj members =>
    match get members key with
    | some inner => .ok inner
    | none => .error ⟨"KeyError",s!"'{key}'"⟩
  | .arr _ => .error ⟨"TypeError","list indices must be integers or slices, not str"⟩
  | .str _ => .error ⟨"TypeError","string indices must be integers, not 'str'"⟩
  | other => .error ⟨"TypeError",s!"'{typeName other}' object is not subscriptable"⟩

abbrev Records := List (Int × Value)

-- records[int(record["sample"])] = record
def addLine (rt : Runtime) (records : Records) (line : List Char) : Except Raised Records :=
  match loads line with
  | .error fault => .error ⟨"JSONDecodeError",fault.text line⟩
  | .ok record => do
    let sample ← subscript record "sample"
    let sample ← toInt rt sample
    return Assoc.alter sample (fun _ => record) records

-- The dashboard's read_dump.
def readDump (rt : Runtime) (text : List Char) : Except Raised Records := (documents text).foldlM (addLine rt) []

-- The script's.
def readDumpFilled (rt : Runtime) (path : String) (text : List Char) : Except Raised Records := do
  let records ← readDump rt text
  if records.isEmpty then .error ⟨"SystemExit",s!"{path} is empty"⟩ else return records

-- sorted(records). The client writes positions in a sample set, never negative.
def samplesOf (records : Records) : List Nat := (records.map (·.1.toNat)).insertionSort (· ≤ ·)

theorem no_scores : ([] : List ℚ).length = ([] : List (Box ℚ)).length := rfl

theorem no_labels : ([] : List Int).length = ([] : List (Box ℚ)).length := rfl

def nothing : Detected ℚ := ⟨[],[],[],no_scores,no_labels⟩

section
variable (floats : Floats)

-- An element of the lists a record holds, as np.asarray takes it.
def numberOf : Value → Except Raised ℚ
  | .float text => .ok (floats.float text)
  | .int value => .ok value
  | other => .error ⟨"TypeError",s!"float() argument must be a string or a real number, not '{typeName other}'"⟩

def itemsOf : Value → Except Raised (List Value)
  | .arr items => .ok items
  | other => .error ⟨"TypeError",s!"object of type '{typeName other}' has no len()"⟩

def labelOf : Value → Except Raised Int
  | .int value => .ok value
  | other => .error ⟨"TypeError",s!"'{typeName other}' object cannot be interpreted as an integer"⟩

def boxOf (row : Value) : Except Raised (Box ℚ) := do
  let row ← itemsOf row
  match ← row.mapM (numberOf floats) with
  | [x1,y1,x2,y2] => .ok ⟨x1,y1,x2,y2⟩
  | _ => .error ⟨"ValueError","cannot reshape array"⟩

-- record["boxes"], record["scores"], record["labels"] as build takes them: the
-- others are not read when there is no box. Lists of other lengths are refused.
def fromDump (record : Value) : Except Raised (Detected ℚ) := do
  let boxes ← subscript record "boxes"
  let scores ← subscript record "scores"
  let labels ← subscript record "labels"
  let boxes ← itemsOf boxes
  if boxes.isEmpty then return nothing
  let boxes ← boxes.mapM (boxOf floats)
  let scores ← itemsOf scores
  let scores ← scores.mapM (numberOf floats)
  let labels ← itemsOf labels
  let labels ← labels.mapM labelOf
  if same : scores.length = boxes.length ∧ labels.length = boxes.length then
    return ⟨boxes,scores,labels,same.1,same.2⟩
  else throw ⟨"IndexError","index out of bounds"⟩

end

-- An array of every frame's rows, with the place each frame's begin.
structure Ragged where
  offsets : List Nat
  boxes : List (Box ℚ)
  labels : List Int
  parallel : labels.length = boxes.length

structure Reference extends Ragged where
  scores : List ℚ
  scoresParallel : scores.length = boxes.length

-- What a TestKit serves, less the frames; a kit may lack the last two.
structure TestKit where
  path : String
  count : Nat
  labels : List String
  rawShapes : List (Int × Int)
  map50Target : ℚ
  map75Target : ℚ
  mapTarget : ℚ
  maxBoxes : Int
  groundTruth : Option Ragged
  stored : Option Reference

def Ragged.bounds (ragged : Ragged) (index : Nat) : Nat × Nat := (ragged.offsets.getD index 0,ragged.offsets.getD (index+1) 0)

def span (rows : List α) (bounds : Nat × Nat) : List α := (rows.take bounds.2).drop bounds.1

theorem span_length {xs : List α} {ys : List β} (same : xs.length = ys.length) (bounds : Nat × Nat) :
    (span xs bounds).length = (span ys bounds).length := by
  simp only [span,List.length_drop,List.length_take,same]

def Ragged.slice (ragged : Ragged) (index : Nat) : List (Box ℚ) × List Int :=
  (span ragged.boxes (ragged.bounds index),span ragged.labels (ragged.bounds index))

def Reference.slice (reference : Reference) (index : Nat) : Detected ℚ where
  boxes := span reference.boxes (reference.bounds index)
  scores := span reference.scores (reference.bounds index)
  labels := span reference.labels (reference.bounds index)
  scoresParallel := span_length reference.scoresParallel _
  labelsParallel := span_length reference.parallel _

def TestKit.hasGroundTruth (kit : TestKit) : Bool := kit.groundTruth.isSome

def TestKit.hasReference (kit : TestKit) : Bool := kit.stored.isSome

-- The kit as collect sees it.
def TestKit.kit (kit : TestKit) : Kit ℚ where
  numClasses := kit.labels.length
  rawShape index := kit.rawShapes.getD index (0,0)
  annotations index := (kit.groundTruth.map (·.slice index)).getD ([],[])
  reference index := (kit.stored.map (·.slice index)).getD nothing

structure Targets where
  map50 : ℚ
  map75 : ℚ
  map : ℚ

def TestKit.targets (kit : TestKit) : Option Targets :=
  if kit.map50Target < 0 ∨ kit.map75Target < 0 ∨ kit.mapTarget < 0 then none
  else some ⟨kit.map50Target,kit.map75Target,kit.mapTarget⟩

def outOfBounds (index size : Nat) : Raised := ⟨"IndexError",s!"index {index} is out of bounds for axis 0 with size {size}"⟩

-- collect over what boxes_of gives, which may raise. A sample beyond the kit
-- raises at raw_shapes if it has boxes, else at the offsets, which are one more.
def collectFrom (kit : TestKit) (samples : List Nat) (boxesOf : Nat → Except Raised (Detected ℚ)) (maxBoxes : Int) :
    Except Raised (List (Frame ℚ)) :=
  samples.mapM fun sample => do
    let detected ← boxesOf sample
    if detected.boxes.length ≠ 0 ∧ kit.count ≤ sample then throw (outOfBounds sample kit.count)
    match kit.groundTruth with
    | none => throw ⟨"KeyError","'ann_offsets is not a file in the archive'"⟩
    | some _ =>
      if kit.count ≤ sample then throw (outOfBounds (max sample (kit.count+1)) (kit.count+1))
      return collectFrame kit.kit (fun _ => detected) maxBoxes sample

def detectedOf (floats : Floats) (records : Records) (sample : Nat) : Except Raised (Detected ℚ) :=
  match records.lookup (sample : Int) with
  | none => .error ⟨"KeyError",toString sample⟩
  | some record => fromDump floats record

-- The row of what the fleet found, with the classes, and the reference's.
def fleetRow (floats : Floats) (kit : TestKit) (records : Records) (maxBoxes : Int) :
    Except Raised (Option (Summary ℚ) × List ℚ) := do
  let frames ← collectFrom kit (samplesOf records) (detectedOf floats records) maxBoxes
  let (perThreshold,perClass) := evaluate frames kit.labels.length
  return (summarise perThreshold,perClass)

def referenceRow (kit : TestKit) (records : Records) (maxBoxes : Int) (postThresh : ℚ) :
    Except Raised (Option (Option (Summary ℚ))) :=
  if kit.hasReference then do
    let frames ← collectFrom kit (samplesOf records) (fun sample => .ok (fromKit kit.kit postThresh sample)) maxBoxes
    return some (summarise (evaluate frames kit.labels.length).1)
  else return none

def roundHalfEven (x : ℚ) : Int :=
  if x-⌊x⌋ < 1/2 then ⌊x⌋ else if 1/2 < x-⌊x⌋ then ⌊x⌋+1 else if ⌊x⌋%2 = 0 then ⌊x⌋ else ⌊x⌋+1

def roundTo (x : ℚ) (digits : Nat) : ℚ := (roundHalfEven (x*10^digits) : ℚ)/10^digits

-- What the dashboard's score returns.
structure Accuracy where
  fleet : Option (Summary ℚ)
  perClass : List (String × ℚ)
  reference : Option (Option (Summary ℚ))
  targets : Option Targets
  postThresh : ℚ

def score (floats : Floats) (kit : TestKit) (records : Records) (maxBoxes : Int) (postThresh : ℚ) : Except Raised Accuracy := do
  let (fleet,perClass) ← fleetRow floats kit records maxBoxes
  let reference ← referenceRow kit records maxBoxes postThresh
  return {
    fleet
    perClass := (kit.labels.zip (perClass.map (roundTo · 4))).insertionSort fun a b => b.2 ≤ a.2
    reference
    targets := if (samplesOf records).length = kit.count ∧ postThresh ≤ 0 then kit.targets else none
    postThresh}

-- The result line of the script, and whether it calls the rows identical.
structure Report where
  frames : Nat
  maxBoxes : Int
  fleet : Option (Summary ℚ)
  perClass : List (String × ℚ)
  reference : Option (Option (Summary ℚ))
  targets : Option Targets
  identical : Option Bool

-- delta < 1e-9, which nan is not.
def close (a b : Option ℚ) : Bool :=
  match a,b with
  | some a,some b => decide (|a-b| < 1/10^9)
  | _,_ => false

def verdict (fleet reference : Option (Summary ℚ)) : Bool :=
  match fleet,reference with
  | some fleet,some reference =>
    close fleet.map50 reference.map50 && close fleet.map75 reference.map75 && close fleet.map reference.map
  | _,_ => false

def main (rt : Runtime) (floats : Floats) (kit : TestKit) (path : String) (text : List Char) (maxBoxes : Option Int)
    (postThresh : ℚ) : Except Raised Report := do
  let records ← readDumpFilled rt path text
  let samples := samplesOf records
  if !kit.hasGroundTruth then throw ⟨"SystemExit",s!"{kit.path} carries no ground truth"⟩
  let maxBoxes := if maxBoxes.getD 0 = 0 then kit.maxBoxes else maxBoxes.getD 0
  if samples.any fun sample => decide (kit.count ≤ sample) then
    throw ⟨"SystemExit",s!"dump references sample {samples.foldl max 0} but the kit has {kit.count} frames; was the client run against a different set?"⟩
  let (fleet,perClass) ← fleetRow floats kit records maxBoxes
  let reference ← referenceRow kit records maxBoxes postThresh
  return {
    frames := samples.length
    maxBoxes
    fleet
    perClass := kit.labels.zip (perClass.map (roundTo · 6))
    reference
    targets := if samples.length = kit.count then kit.targets else none
    identical := reference.map (verdict fleet)}

end SymphonyAkida.ScoreDump
