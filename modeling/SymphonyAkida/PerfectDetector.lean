import SymphonyAkida.IouAgreement
import SymphonyAkida.FrameOrder

namespace SymphonyAkida.DetectionMap
open TiledShard EvalShardMap
variable {K : Type} [Field K] [LinearOrder K]

-- Annotations of one class, and detections that are exactly those boxes. The
-- scores are anything.
structure Perfect (frame : Frame K) (label : Nat) : Prop where
  x : ∀ box ∈ frame.annotations label, box.x1 < box.x2
  y : ∀ box ∈ frame.annotations label, box.y1 < box.y2
  area : ∀ box ∈ frame.annotations label, machineEps ≤ (box.x2-box.x1)*(box.y2-box.y1)
  distinct : (frame.annotations label).Nodup
  found : ((frame.detections label).map (·.box)).Perm (frame.annotations label)

theorem truePositives_all {overlap : List (List K)} {detections : List (Scored K)} {detected : List Nat}
    (reached : ∀ k < detections.length, iouThreshold ≤ assignedOverlap overlap (idx+k) ∧ assigned overlap (idx+k) ∉ detected)
    (apart : ∀ j k, j < k → k < detections.length → assigned overlap (idx+j) ≠ assigned overlap (idx+k)) :
    truePositives iouThreshold overlap idx detected detections = List.replicate detections.length true := by
  induction detections generalizing idx detected with
  | nil => rfl
  | cons detection rest ih =>
    have shift : ∀ k, idx+1+k = idx+(k+1) := fun k => by omega
    have first : iouThreshold ≤ assignedOverlap overlap idx ∧ assigned overlap idx ∉ detected := reached 0 (Nat.succ_pos _)
    unfold truePositives
    rw [if_pos first,List.length_cons,List.replicate_succ]
    congr 1
    apply ih
    · intro k below
      rw [shift]
      obtain ⟨enough,free⟩ := reached (k+1) (Nat.succ_lt_succ below)
      refine ⟨enough,fun taken => ?_⟩
      rcases List.mem_cons.mp taken with same | old
      · exact apart 0 (k+1) (Nat.succ_pos k) (Nat.succ_lt_succ below) same.symm
      · exact free old
    · intro j k less below
      rw [shift,shift]
      exact apart (j+1) (k+1) (Nat.succ_lt_succ less) (Nat.succ_lt_succ below)

section
variable [IsStrictOrderedRing K]

theorem overlapOf_above {a b : Box K} (first : a.WellFormed) (second : b.WellFormed)
    (large : machineEps ≤ (a.x2-a.x1)*(a.y2-a.y1)) : overlapOf a b = iou a b := by
  refine overlapOf_iou first second (.inr ?_)
  have shared := intersection_le_right a b
  rw [unionArea_areas first second,area_unclamped first]
  linarith

omit [IsStrictOrderedRing K] in
theorem Perfect.formed {frame : Frame K} (perfect : Perfect frame label) {box : Box K}
    (member : box ∈ frame.annotations label) : box.WellFormed :=
  ⟨le_of_lt (perfect.x box member),le_of_lt (perfect.y box member)⟩

-- The annotation a box overlaps most is its own: the others overlap it by less than 1.
theorem Perfect.own {frame : Frame K} (perfect : Perfect frame label) {box : Box K} (member : box ∈ frame.annotations label)
    (best : Argmax.argmax ((frame.annotations label).map (overlapOf box)) = some k) :
    (frame.annotations label)[k]? = some box ∧ ((frame.annotations label).map (overlapOf box))[k]? = some 1 := by
  have formed := perfect.formed member
  have large := perfect.area box member
  have self : overlapOf box box = 1 := by
    rw [overlapOf_above formed formed large]
    refine iou_self ?_
    rw [area_unclamped formed]
    exact mul_pos (sub_pos.mpr (perfect.x box member)) (sub_pos.mpr (perfect.y box member))
  obtain ⟨m,first⟩ := Argmax.argmax_spec best
  have reaches : (1 : K) ≤ m := first.most 1 (List.mem_map.mpr ⟨box,member,self⟩)
  have here := first.here
  rw [List.getElem?_map] at here
  obtain ⟨other,at_,same⟩ := Option.map_eq_some_iff.mp here
  have overlap : overlapOf box other = iou box other :=
    overlapOf_above formed (perfect.formed (List.mem_of_getElem? at_)) large
  have whole : iou box other = 1 := by
    refine le_antisymm ((iou_le_ios box other).trans (ios_le_one box other)) ?_
    rwa [← overlap,same]
  have equal := eq_of_iou whole
  subst equal
  exact ⟨at_,by rw [first.here,← same,self]⟩

theorem Perfect.assigned {frame : Frame K} (perfect : Perfect frame label) {detection : Scored K}
    (at_ : (frame.detections label)[k]? = some detection) :
    (frame.annotations label)[assigned (computeOverlap (frame.detections label) (frame.annotations label)) k]? =
        some detection.box ∧
      assignedOverlap (computeOverlap (frame.detections label) (frame.annotations label)) k = 1 := by
  have member : detection.box ∈ frame.annotations label :=
    perfect.found.subset (List.mem_map.mpr ⟨detection,List.mem_of_getElem? at_,rfl⟩)
  have row : (computeOverlap (frame.detections label) (frame.annotations label)).getD k [] =
      (frame.annotations label).map (overlapOf detection.box) := by
    rw [computeOverlap,getD_row (fun one : Scored K => (frame.annotations label).map (overlapOf one.box)) [] at_]
  unfold assignedOverlap DetectionMap.assigned
  rw [row]
  cases best : Argmax.argmax ((frame.annotations label).map (overlapOf detection.box)) with
  | none =>
    obtain ⟨first,rest,some_⟩ := List.exists_cons_of_ne_nil (List.ne_nil_of_mem member)
    rw [some_] at best
    cases best
  | some j =>
    obtain ⟨own,one⟩ := perfect.own member best
    exact ⟨own,by rw [Option.getD_some,List.getD_eq_getElem?_getD,one,Option.getD_some]⟩

theorem Perfect.assigned_apart {frame : Frame K} (perfect : Perfect frame label) {first second : Scored K}
    (left : (frame.detections label)[j]? = some first) (right : (frame.detections label)[k]? = some second)
    (same : DetectionMap.assigned (computeOverlap (frame.detections label) (frame.annotations label)) j =
      DetectionMap.assigned (computeOverlap (frame.detections label) (frame.annotations label)) k) : j = k := by
  have boxes : ((frame.detections label).map (·.box)).Nodup := perfect.found.nodup_iff.mpr perfect.distinct
  have one := (perfect.assigned left).1
  have other := (perfect.assigned right).1
  rw [same,other] at one
  have below : j < ((frame.detections label).map (·.box)).length := by
    rw [List.length_map]
    exact (List.getElem?_eq_some_iff.mp left).1
  refine (List.getElem?_inj below boxes).mp ?_
  rw [List.getElem?_map,List.getElem?_map,left,right]
  exact one.symm

theorem Perfect.flags {frame : Frame K} (perfect : Perfect frame label) (low : iouThreshold ≤ 1) :
    (ownEntries iouThreshold label frame).map (·.2) = List.replicate (frame.annotations label).length true := by
  have size : (frame.detections label).length = (frame.annotations label).length := by
    simpa using perfect.found.length_eq
  rw [ownEntries,frameEntries_flags,← size]
  split
  · rename_i none
    rw [none,List.length_eq_zero_iff.mp none]
    rfl
  · apply truePositives_all
    · intro k below
      have own := perfect.assigned (List.getElem?_eq_getElem below)
      rw [Nat.zero_add,own.2]
      exact ⟨low,List.not_mem_nil⟩
    · intro j k less below same
      rw [Nat.zero_add,Nat.zero_add] at same
      have equal := perfect.assigned_apart (List.getElem?_eq_getElem (Nat.lt_trans less below))
        (List.getElem?_eq_getElem below) same
      exact Nat.ne_of_lt less equal

theorem perfect_entries {frames : List (Frame K)} (perfect : ∀ frame ∈ frames, Perfect frame label) (low : iouThreshold ≤ 1) :
    (frames.flatMap (ownEntries iouThreshold label)).map (·.2) = List.replicate (numAnnotations frames label) true := by
  induction frames with
  | nil => rfl
  | cons frame rest ih =>
    rw [List.flatMap_cons,List.map_append,(perfect frame List.mem_cons_self).flags low,
      ih fun other member => perfect other (List.mem_cons_of_mem _ member),List.replicate_append_replicate]
    rfl

theorem perfect_precision {frames : List (Frame K)} (perfect : ∀ frame ∈ frames, Perfect frame label) (low : iouThreshold ≤ 1)
    (some_ : 0 < numAnnotations frames label) {order : List Nat}
    (perm : order.Perm (List.range (entriesFrom label iouThreshold (overlapsOf frames) 0 frames).length)) :
    averagePrecisionIn order frames label iouThreshold (overlapsOf frames) = 1 := by
  have flags := flagsIn_perm perm
  rw [entries_own,perfect_entries perfect low,← entries_own] at flags
  rw [averagePrecisionIn_gain order some_,List.perm_replicate.mp flags,AveragePrecision.gain_hits]
  exact div_self (Nat.cast_ne_zero.mpr (Nat.ne_of_gt some_))

-- Whatever order np.argsort gives equal scores.
theorem perfect_detector {frames : List (Frame K)} (below : label < numClasses)
    (perfect : ∀ frame ∈ frames, Perfect frame label) (some_ : 0 < numAnnotations frames label) (low : iouThreshold ≤ 1) :
    (averagePrecisions frames numClasses iouThreshold (overlapsOf frames))[label]? = some 1 ∧
      ∀ order, Ranking (entriesFrom label iouThreshold (overlapsOf frames) 0 frames) order →
        averagePrecisionIn order frames label iouThreshold (overlapsOf frames) = 1 := by
  constructor
  · rw [averagePrecisions,List.getElem?_map,List.getElem?_range below]
    exact congrArg some (perfect_precision perfect low some_ (Argsort.argsort_perm _ _))
  · intro order ranking
    exact perfect_precision perfect low some_ ranking.perm

end

-- Two boxes that overlap, found in the other order and with equal scores.
def foundFrames : List (Frame ℚ) :=
  [⟨fun _ => [⟨⟨1,0,3,2⟩,1/2⟩,⟨⟨0,0,2,2⟩,1/2⟩],fun _ => [⟨0,0,2,2⟩,⟨1,0,3,2⟩]⟩]

theorem perfect_detector_found :
    (averagePrecisions foundFrames 1 1 (overlapsOf foundFrames))[0]? = some 1 ∧
      ∀ order, Ranking (entriesFrom 0 1 (overlapsOf foundFrames) 0 foundFrames) order →
        averagePrecisionIn order foundFrames 0 1 (overlapsOf foundFrames) = 1 := by
  refine perfect_detector Nat.one_pos ?_ (by decide) (le_refl 1)
  intro frame member
  cases List.mem_singleton.mp member
  exact ⟨by decide +kernel,by decide +kernel,by decide +kernel,by decide +kernel,by decide +kernel⟩

end SymphonyAkida.DetectionMap
