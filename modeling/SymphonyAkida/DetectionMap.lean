import SymphonyAkida.Tiles
import SymphonyAkida.Library.Order

namespace SymphonyAkida.DetectionMap
open TiledShard (Box)
variable {K : Type} [Field K] [LinearOrder K]

structure Scored (K : Type) where
  box : Box K
  score : K

-- all_detections[i] and all_annotations[i], each indexed by class.
structure Frame (K : Type) where
  detections : Nat → List (Scored K)
  annotations : Nat → List (Box K)

-- np.finfo(float).eps
def machineEps : K := 1/2^52

-- IOU_THRESHOLDS, np.linspace(0.5, 0.95, num=10)
def iouThresholds : List K := (List.range 10).map fun (i : Nat) => 1/2+(i : K)*((95/100-1/2)/9)

-- The precision envelope: mpre[i - 1] = max(mpre[i - 1], mpre[i]), from the end.
def envelope : List K → List K
  | [] => []
  | p :: rest =>
    match envelope rest with
    | [] => [p]
    | q :: more => max p q :: q :: more

def area : List K → List K → K
  | r :: r' :: found,_ :: p' :: precision =>
    (if r' ≠ r then (r'-r)*p' else 0)+area (r' :: found) (p' :: precision)
  | _,_ => 0

def computeAp (found precision : List K) : K :=
  let mrec := 0 :: (found ++ [1])
  let mpre := 0 :: (precision ++ [0])
  area mrec (envelope mpre)

def overlapOf (a b : Box K) : K :=
  let width := min a.x2 b.x2-max a.x1 b.x1
  let height := min a.y2 b.y2-max a.y1 b.y1
  let intersection := max width 0*max height 0
  let areaA := (a.x2-a.x1)*(a.y2-a.y1)
  let areaB := (b.x2-b.x1)*(b.y2-b.y1)
  intersection/max (areaA+areaB-intersection) machineEps

def computeOverlap (a : List (Scored K)) (b : List (Box K)) : List (List K) :=
  a.map fun detection => b.map (overlapOf detection.box)

-- boxes[labels == c]
def groupByLabel (rows : List α) (labels : List Int) (c : Nat) : List α :=
  ((rows.zip labels).filter fun row => row.2 == (c : Int)).map (·.1)

-- int(np.argmax(overlap, axis=1)[idx]) and overlap[idx, assigned]
def assigned (overlap : List (List K)) (idx : Nat) : Nat := (Argmax.argmax (overlap.getD idx [])).getD 0

def assignedOverlap (overlap : List (List K)) (idx : Nat) : K := (overlap.getD idx []).getD (assigned overlap idx) 0

-- The true_positives of one frame and class; false_positives has the opposite
-- flag at every place.
def truePositives (iouThreshold : K) (overlap : List (List K)) : Nat → List Nat → List (Scored K) → List Bool
  | _,_,[] => []
  | idx,detected,_ :: rest =>
    if iouThreshold ≤ assignedOverlap overlap idx ∧ assigned overlap idx ∉ detected then
      true :: truePositives iouThreshold overlap (idx+1) (assigned overlap idx :: detected) rest
    else false :: truePositives iouThreshold overlap (idx+1) detected rest

def frameEntries (frame : Frame K) (label : Nat) (iouThreshold : K) (overlap : List (List K)) : List (K × Bool) :=
  let detections := frame.detections label
  (detections.map (·.score)).zip (
    if (frame.annotations label).length = 0 then detections.map fun _ => false
    else truePositives iouThreshold overlap 0 [] detections)

-- overlaps[(i, label)]
abbrev Overlaps (K : Type) := Nat → Nat → List (List K)

def entriesFrom (label : Nat) (iouThreshold : K) (overlaps : Overlaps K) : Nat → List (Frame K) → List (K × Bool)
  | _,[] => []
  | i,frame :: rest =>
    frameEntries frame label iouThreshold (overlaps i label) ++ entriesFrom label iouThreshold overlaps (i+1) rest

def numAnnotations (frames : List (Frame K)) (label : Nat) : Nat :=
  (frames.map fun frame => (frame.annotations label).length).sum

def cumsum (total : Nat) : List Bool → List Nat
  | [] => []
  | flag :: rest => (total+flag.toNat) :: cumsum (total+flag.toNat) rest

-- The flags in the order of np.argsort(-scores). numpy's default sort is not
-- stable; where scores tie, the order here is one it may give.
def ranked (entries : List (K × Bool)) : List Bool :=
  (Argsort.argsort (fun i => -(entries.map (·.1)).getD i 0) entries.length).map ((entries.map (·.2)).getD · false)

def precisionRecall (numAnnotations : Nat) (flags : List Bool) : List K × List K :=
  let cumulativeTp := cumsum 0 flags
  let cumulativeFp := cumsum 0 (flags.map (!·))
  (cumulativeTp.map fun (tp : Nat) => (tp : K)/numAnnotations,
    List.zipWith (fun (tp fp : Nat) => (tp : K)/max ((tp : K)+fp) machineEps) cumulativeTp cumulativeFp)

-- The body of the loop over the classes.
def averagePrecision (frames : List (Frame K)) (label : Nat) (iouThreshold : K) (overlaps : Overlaps K) : K :=
  if numAnnotations frames label = 0 then 0
  else
    let (found,precision) := precisionRecall (numAnnotations frames label)
      (ranked (entriesFrom label iouThreshold overlaps 0 frames))
    computeAp found precision

def averagePrecisions (frames : List (Frame K)) (numClasses : Nat) (iouThreshold : K) (overlaps : Overlaps K) :
    List K := (List.range numClasses).map fun label => averagePrecision frames label iouThreshold overlaps

-- np.mean; none is the nan of an empty array.
def mean (values : List K) : Option K := if values = [] then none else some (values.sum/values.length)

def overlapsOf (frames : List (Frame K)) (i label : Nat) : List (List K) :=
  match frames[i]? with
  | none => []
  | some frame => computeOverlap (frame.detections label) (frame.annotations label)

-- (per_threshold, per_class_ap)
def evaluate (frames : List (Frame K)) (numClasses : Nat) : List (K × Option K) × List K :=
  let aps := fun threshold => averagePrecisions frames numClasses threshold (overlapsOf frames)
  (iouThresholds.map fun threshold => (threshold,mean (aps threshold)),
    iouThresholds.foldl (fun perClass threshold =>
      List.zipWith (· + ·) perClass ((aps threshold).map (·/(iouThresholds (K := K)).length)))
      (List.replicate numClasses 0))

structure Summary (K : Type) where
  map50 : Option K
  map75 : Option K
  map : Option K

-- none is the IndexError of a dict with too few thresholds.
def summarise (perThreshold : List (K × Option K)) : Option (Summary K) := do
  let keys := (perThreshold.map (·.1)).insertionSort (· ≤ ·)
  let at_ := fun key => perThreshold.lookup key
  let map50 ← keys[0]?.bind at_
  let map75 ← keys[5]?.bind at_
  let values ← keys.mapM at_
  return ⟨map50,map75,(values.mapM id).bind mean⟩

end SymphonyAkida.DetectionMap
