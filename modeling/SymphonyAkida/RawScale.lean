import SymphonyAkida.DetectionMapSpec
import SymphonyAkida.EvalShardMap

namespace SymphonyAkida.EvalShardMap
open DetectionMap TiledShard
variable {K : Type} [Field K] [LinearOrder K] {label : Nat} {iouThreshold : K}

structure Alike (label : Nat) (frame other : Frame K) : Prop where
  scores : (frame.detections label).map (·.score) = (other.detections label).map (·.score)
  annotations : (frame.annotations label).length = (other.annotations label).length

theorem truePositives_alike {overlap : List (List K)} {detections others : List (Scored K)}
    (same : detections.length = others.length) (idx : Nat) (detected : List Nat) :
    truePositives iouThreshold overlap idx detected detections = truePositives iouThreshold overlap idx detected others := by
  induction detections generalizing others idx detected with
  | nil =>
    cases others with
    | nil => rfl
    | cons other others => cases same
  | cons detection rest ih =>
    cases others with
    | nil => cases same
    | cons other others =>
      have later := Nat.succ.inj same
      unfold truePositives
      rw [ih later,ih later]

theorem frameEntries_alike {frame other : Frame K} (alike : Alike label frame other) (overlap : List (List K)) :
    frameEntries frame label iouThreshold overlap = frameEntries other label iouThreshold overlap := by
  have size : (frame.detections label).length = (other.detections label).length := by
    simpa using congrArg List.length alike.scores
  simp only [frameEntries,alike.scores,alike.annotations,List.map_const',size,truePositives_alike size]

theorem entriesFrom_alike {frames others : List (Frame K)} (alike : List.Forall₂ (Alike label) frames others)
    {overlaps scaled : Overlaps K} (same : ∀ i, overlaps i label = scaled i label) (i : Nat) :
    entriesFrom label iouThreshold overlaps i frames = entriesFrom label iouThreshold scaled i others := by
  induction alike generalizing i with
  | nil => rfl
  | cons first _ ih => rw [entriesFrom,entriesFrom,frameEntries_alike first,same,ih]

omit [Field K] [LinearOrder K] in
theorem numAnnotations_alike {frames others : List (Frame K)} (alike : List.Forall₂ (Alike label) frames others) :
    numAnnotations frames label = numAnnotations others label := by
  unfold numAnnotations
  induction alike with
  | nil => rfl
  | cons first _ ih => rw [List.map_cons,List.map_cons,List.sum_cons,List.sum_cons,first.annotations,ih]

-- An average precision reads the scores, the numbers of annotations and the
-- overlaps, and nothing else.
theorem averagePrecision_alike {frames others : List (Frame K)} (alike : List.Forall₂ (Alike label) frames others)
    {overlaps scaled : Overlaps K} (same : ∀ i, overlaps i label = scaled i label) :
    averagePrecision frames label iouThreshold overlaps = averagePrecision others label iouThreshold scaled := by
  unfold averagePrecision
  rw [numAnnotations_alike alike,entriesFrom_alike alike same]

-- area_a + area_b - intersection
def unionArea (a b : Box K) : K :=
  (a.x2-a.x1)*(a.y2-a.y1)+(b.x2-b.x1)*(b.y2-b.y1)-
    max (min a.x2 b.x2-max a.x1 b.x1) 0*max (min a.y2 b.y2-max a.y1 b.y1) 0

def scaleFrame (rawShape : Int × Int) (frame : Frame K) : Frame K where
  detections label := (frame.detections label).map fun detection => {detection with box := scaleToRaw rawShape detection.box}
  annotations label := (frame.annotations label).map (scaleToRaw rawShape)

-- The guard against an empty union does not act.
def Guarded (frame : Frame K) (numClasses : Nat) : Prop :=
  ∀ label < numClasses, ∀ detection ∈ frame.detections label, ∀ annotation ∈ frame.annotations label,
    machineEps ≤ unionArea detection.box annotation

omit [LinearOrder K] in
theorem scaleFrame_alike (rawShape : Int × Int) (frame : Frame K) (label : Nat) :
    Alike label (scaleFrame rawShape frame) frame := by
  constructor
  · simp [scaleFrame]
  · simp [scaleFrame]

section
variable [IsStrictOrderedRing K]

omit [IsStrictOrderedRing K] in
theorem overlapOf_guarded {a b : Box K} (guarded : machineEps ≤ unionArea a b) :
    overlapOf a b = max (min a.x2 b.x2-max a.x1 b.x1) 0*max (min a.y2 b.y2-max a.y1 b.y1) 0/unionArea a b := by
  rw [← max_eq_left guarded]
  rfl

theorem side_scaled {w : K} (positive : 0 < w) (a1 a2 b1 b2 : K) :
    max (min (a2*w) (b2*w)-max (a1*w) (b1*w)) 0 = max (min a2 b2-max a1 b1) 0*w := by
  have nonneg := le_of_lt positive
  rw [← min_mul_of_nonneg _ _ nonneg,← max_mul_of_nonneg _ _ nonneg,← sub_mul,max_mul_of_nonneg _ _ nonneg,zero_mul]

theorem overlap_scaled {height width : Int} (tall : 0 < height) (wide : 0 < width) {a b : Box K}
    (before : machineEps ≤ unionArea a b) (after : machineEps ≤ unionArea (scaleToRaw (height,width) a) (scaleToRaw (height,width) b)) :
    overlapOf (scaleToRaw (height,width) a) (scaleToRaw (height,width) b) = overlapOf a b := by
  have h : (0 : K) < height := Int.cast_pos.mpr tall
  have w : (0 : K) < width := Int.cast_pos.mpr wide
  have stretched : unionArea (scaleToRaw (height,width) a) (scaleToRaw (height,width) b) =
      unionArea a b*((width : K)*height) := by
    simp only [unionArea,scaleToRaw,side_scaled h,side_scaled w]
    ring
  rw [overlapOf_guarded before,overlapOf_guarded after,stretched]
  simp only [scaleToRaw,side_scaled h,side_scaled w]
  rw [mul_mul_mul_comm,mul_div_mul_right _ _ (ne_of_gt (mul_pos w h))]

theorem overlapsOf_scaled {pairs : List (Frame K × (Int × Int))} (positive : ∀ pair ∈ pairs, 0 < pair.2.1 ∧ 0 < pair.2.2)
    (before : ∀ pair ∈ pairs, Guarded pair.1 numClasses)
    (after : ∀ pair ∈ pairs, Guarded (scaleFrame pair.2 pair.1) numClasses) (below : label < numClasses) (i : Nat) :
    overlapsOf (pairs.map fun pair => scaleFrame pair.2 pair.1) i label = overlapsOf (pairs.map (·.1)) i label := by
  unfold overlapsOf
  rw [List.getElem?_map,List.getElem?_map]
  cases found : pairs[i]? with
  | none => rfl
  | some pair =>
    have member := List.mem_of_getElem? found
    obtain ⟨tall,wide⟩ := positive pair member
    simp only [Option.map_some,computeOverlap,scaleFrame,List.map_map]
    refine List.map_congr_left fun detection inside => List.map_congr_left fun truth there => ?_
    exact overlap_scaled tall wide (before pair member label below detection inside truth there)
      (after pair member label below _ (List.mem_map.mpr ⟨detection,inside,rfl⟩) _ (List.mem_map.mpr ⟨truth,there,rfl⟩))

theorem scale_free {pairs : List (Frame K × (Int × Int))} (positive : ∀ pair ∈ pairs, 0 < pair.2.1 ∧ 0 < pair.2.2)
    (before : ∀ pair ∈ pairs, Guarded pair.1 numClasses)
    (after : ∀ pair ∈ pairs, Guarded (scaleFrame pair.2 pair.1) numClasses) :
    evaluate (pairs.map fun pair => scaleFrame pair.2 pair.1) numClasses = evaluate (pairs.map (·.1)) numClasses := by
  have alike : ∀ label, List.Forall₂ (Alike label) (pairs.map fun pair => scaleFrame pair.2 pair.1) (pairs.map (·.1)) := by
    intro label
    rw [List.forall₂_map_left_iff,List.forall₂_map_right_iff,List.forall₂_same]
    exact fun pair _ => scaleFrame_alike pair.2 pair.1 label
  have aps : ∀ threshold, averagePrecisions (pairs.map fun pair => scaleFrame pair.2 pair.1) numClasses threshold
      (overlapsOf (pairs.map fun pair => scaleFrame pair.2 pair.1)) =
        averagePrecisions (pairs.map (·.1)) numClasses threshold (overlapsOf (pairs.map (·.1))) := by
    intro threshold
    refine List.map_congr_left fun label member => ?_
    exact averagePrecision_alike (alike label) (overlapsOf_scaled positive before after (List.mem_range.mp member))
  unfold evaluate
  simp only [aps]

end

-- The frame of pairFrames, 640 by 480.
def rawPair : List (Frame ℚ × (Int × Int)) := pairFrames.map fun frame => (frame,(480,640))

theorem scale_free_pair : evaluate (rawPair.map fun pair => scaleFrame pair.2 pair.1) 1 = evaluate (rawPair.map (·.1)) 1 := by
  apply scale_free
  · decide
  · intro pair member label below
    cases List.mem_singleton.mp member
    cases Nat.lt_one_iff.mp below
    decide +kernel
  · intro pair member label below
    cases List.mem_singleton.mp member
    cases Nat.lt_one_iff.mp below
    decide +kernel

end SymphonyAkida.EvalShardMap
