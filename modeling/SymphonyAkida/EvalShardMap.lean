import SymphonyAkida.DetectionMap
import SymphonyAkida.Merge

namespace SymphonyAkida.EvalShardMap
open DetectionMap TiledShard
variable {K : Type} [Field K] [LinearOrder K]

structure Detected (K : Type) where
  boxes : List (Box K)
  scores : List K
  labels : List Int
  scoresParallel : scores.length = boxes.length
  labelsParallel : labels.length = boxes.length

theorem pick_lengths {xs : List α} {ys : List β} (same : xs.length = ys.length) (keep : List Nat) :
    (pick xs keep).length = (pick ys keep).length := by
  induction keep with
  | nil => rfl
  | cons i rest ih =>
    by_cases below : i < xs.length
    · rw [pick_cons below,pick_cons (same ▸ below),List.length_cons,List.length_cons,ih]
    · have left : xs[i]? = none := List.getElem?_eq_none (Nat.le_of_not_lt below)
      have right : ys[i]? = none := List.getElem?_eq_none (same ▸ Nat.le_of_not_lt below)
      simpa [pick,left,right] using ih

def Detected.at (detected : Detected K) (keep : List Nat) : Detected K where
  boxes := pick detected.boxes keep
  scores := pick detected.scores keep
  labels := pick detected.labels keep
  scoresParallel := pick_lengths detected.scoresParallel keep
  labelsParallel := pick_lengths detected.labelsParallel keep

-- What collect and from_kit read of a TestKit. raw_shapes[sample] is the
-- height and the width.
structure Kit (K : Type) where
  numClasses : Nat
  rawShape : Nat → Int × Int
  annotations : Nat → List (Box K) × List Int
  reference : Nat → Detected K

def scaleToRaw (rawShape : Int × Int) (box : Box K) : Box K :=
  let (height,width) := rawShape
  ⟨box.x1*width,box.y1*height,box.x2*width,box.y2*height⟩

def capped (rawShape : Int × Int) (maxBoxes : Int) (detected : Detected K) : Detected K :=
  if detected.boxes.length = 0 then ⟨[],[],[],rfl,rfl⟩
  else
    let order := sliceTo (Argsort.argsort (fun i => -detected.scores.getD i 0) detected.scores.length) maxBoxes
    Detected.at ⟨detected.boxes.map (scaleToRaw rawShape),detected.scores,detected.labels,
      by rw [List.length_map]; exact detected.scoresParallel,
      by rw [List.length_map]; exact detected.labelsParallel⟩ order

def collectFrame (kit : Kit K) (boxesOf : Nat → Detected K) (maxBoxes : Int) (sample : Nat) : Frame K :=
  let kept := capped (kit.rawShape sample) maxBoxes (boxesOf sample)
  let (gtBoxes,gtLabels) := kit.annotations sample
  { detections := groupByLabel (List.zipWith Scored.mk kept.boxes kept.scores) kept.labels
    annotations := groupByLabel gtBoxes gtLabels }

def collect (kit : Kit K) (samples : List Nat) (boxesOf : Nat → Detected K) (maxBoxes : Int) : List (Frame K) :=
  samples.map (collectFrame kit boxesOf maxBoxes)

def fromKit (kit : Kit K) (postThresh : K) (sample : Nat) : Detected K :=
  let reference := kit.reference sample
  reference.at (maskIndices (reference.scores.map fun score => decide (postThresh ≤ score)))

-- What prepare_samples.convert writes beside a sample set, as far as it is read here.
structure Sidecar where
  set : String
  count : Int
  sourceNpz : String
  hasGroundTruth : Bool
deriving DecidableEq

-- min(pool, key=lambda c: c[1]): the first of the least.
def leastCount : List Sidecar → Option Sidecar
  | [] => none
  | first :: rest => some (rest.foldl (fun best side => if side.count < best.count then side else best) first)

-- The candidates, in the order glob lists the sidecars.
def candidates (isFile : String → Bool) (sidecars : List Sidecar) : List Sidecar :=
  sidecars.filter fun side => side.hasGroundTruth && isFile side.sourceNpz

def named (basename : String) (side : Sidecar) : Bool := (side.set.toList ++ ['_']).isPrefixOf basename.toList

-- none is the SystemExit.
def findSourceNpz (isFile : String → Bool) (sidecars : List Sidecar) (basename : String) (neededFrames : Int) :
    Option String :=
  let candidates := candidates isFile sidecars
  let bigEnough := candidates.filter fun side => decide (neededFrames ≤ side.count)
  match leastCount (candidates.filter (named basename)) with
  | some side => some side.sourceNpz
  | none => (leastCount bigEnough).map (·.sourceNpz)

-- The client's "%s_%s.jsonl" % (args.samples or args.model, run_id), where
-- run_id is "r%d" of the process id.
def dumpName (samples : String) (pid : Nat) : String :=
  String.ofList (samples.toList ++ ['_','r'] ++ Nat.toDigits 10 pid ++ ".jsonl".toList)

end SymphonyAkida.EvalShardMap
