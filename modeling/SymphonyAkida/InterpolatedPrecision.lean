import SymphonyAkida.DetectionMapSpec

namespace SymphonyAkida.DetectionMap
open AveragePrecision (hits gain hitRanks best)
variable {K : Type} [Field K] [LinearOrder K] {frames : List (Frame K)} {label : Nat} {iouThreshold : K}

def flagsIn (order : List Nat) (entries : List (K × Bool)) : List Bool := order.map ((entries.map (·.2)).getD · false)

-- The body of the loop over the classes, in the order np.argsort(-scores) returned.
def averagePrecisionIn (order : List Nat) (frames : List (Frame K)) (label : Nat) (iouThreshold : K) (overlaps : Overlaps K) : K :=
  if numAnnotations frames label = 0 then 0
  else
    let (found,precision) := precisionRecall (numAnnotations frames label)
      (flagsIn order (entriesFrom label iouThreshold overlaps 0 frames))
    computeAp found precision

-- What np.argsort(-scores) may return: where scores tie, anything.
structure Ranking (entries : List (K × Bool)) (order : List Nat) : Prop where
  perm : order.Perm (List.range entries.length)
  sorted : (order.map ((entries.map (·.1)).getD · 0)).Pairwise (· ≥ ·)

-- Overlap arrays with a column for each annotation.
def Shaped (frames : List (Frame K)) (label : Nat) (overlaps : Overlaps K) : Prop :=
  ∀ i frame, frames[i]? = some frame → ∀ row ∈ overlaps i label, row.length = (frame.annotations label).length

-- Interpolated precision: each true positive counts the best precision from its
-- rank on, over n annotations.
def Interpolated (flags : List Bool) (n : Nat) (ap : K) : Prop :=
  ∃ best : Nat → K, (∀ k < flags.length, IsGreatest
      {p | ∃ j, k ≤ j ∧ j < flags.length ∧ p = (((flags.take (j+1)).count true : Nat) : K)/(j+1 : Nat)} (best k)) ∧
    ap = ((hitRanks flags).map best).sum/n

-- A frame's true positives take different annotations of the frame.
structure MatchedOnce (frame : Frame K) (label : Nat) (iouThreshold : K) (overlap : List (List K)) : Prop where
  inside : ∀ (p : Nat) score, (frameEntries frame label iouThreshold overlap)[p]? = some (score,true) →
    assigned overlap p < (frame.annotations label).length
  once : ∀ (p q : Nat) s t, (frameEntries frame label iouThreshold overlap)[p]? = some (s,true) →
    (frameEntries frame label iouThreshold overlap)[q]? = some (t,true) → assigned overlap p = assigned overlap q → p = q

theorem overlapsOf_shaped (frames : List (Frame K)) (label : Nat) : Shaped frames label (overlapsOf frames) := by
  intro i frame found row member
  rw [overlapsOf,found] at member
  obtain ⟨detection,_,rfl⟩ := List.mem_map.mp member
  exact List.length_map _

theorem stable_ranking [IsStrictOrderedRing K] (entries : List (K × Bool)) :
    Ranking entries (Argsort.argsort (fun i => -(entries.map (·.1)).getD i 0) entries.length) := by
  refine ⟨Argsort.argsort_perm _ _,List.pairwise_map.mpr ((Argsort.argsort_sorted _ _).imp ?_)⟩
  rintro i j (less | ⟨same,_⟩)
  · exact le_of_lt (neg_lt_neg_iff.mp less)
  · exact le_of_eq (neg_inj.mp same).symm

omit [Field K] [LinearOrder K] in
theorem flagsIn_perm {entries : List (K × Bool)} (perm : order.Perm (List.range entries.length)) :
    (flagsIn order entries).Perm (entries.map (·.2)) := by
  have inside : ∀ i ∈ order, i < entries.length := fun i member => List.mem_range.mp (perm.subset member)
  rw [flagsIn,TiledShard.pick_getD Prod.snd false inside]
  exact (TiledShard.pick_perm perm).map _

section
variable {overlap : List (List K)}

-- What is already detected is not matched again.
theorem matched_fresh {detections : List (Scored K)}
    (hit : (truePositives iouThreshold overlap idx detected detections)[p]? = some true) : assigned overlap (idx+p) ∉ detected := by
  induction detections generalizing idx detected p with
  | nil => cases hit
  | cons detection rest ih =>
    unfold truePositives at hit
    split at hit
    · rename_i fresh
      cases p with
      | zero => exact fresh.2
      | succ p =>
        rw [List.getElem?_cons_succ] at hit
        have later := ih hit
        rw [Nat.add_assoc,Nat.add_comm 1 p] at later
        exact fun old => later (List.mem_cons_of_mem _ old)
    · cases p with
      | zero => cases hit
      | succ p =>
        rw [List.getElem?_cons_succ] at hit
        have later := ih hit
        rwa [Nat.add_assoc,Nat.add_comm 1 p] at later

theorem matched_once {detections : List (Scored K)} (less : p < q)
    (first : (truePositives iouThreshold overlap idx detected detections)[p]? = some true)
    (second : (truePositives iouThreshold overlap idx detected detections)[q]? = some true) :
    assigned overlap (idx+p) ≠ assigned overlap (idx+q) := by
  induction detections generalizing idx detected p q with
  | nil => cases first
  | cons detection rest ih =>
    obtain ⟨q,rfl⟩ : ∃ k, q = k+1 := ⟨q-1,by omega⟩
    have shift : ∀ k, idx+1+k = idx+(k+1) := fun k => by omega
    unfold truePositives at first second
    split at first
    · rename_i fresh
      rw [if_pos fresh,List.getElem?_cons_succ] at second
      cases p with
      | zero =>
        have later := matched_fresh second
        rw [shift] at later
        exact fun same => later (same ▸ List.mem_cons_self)
      | succ p =>
        rw [List.getElem?_cons_succ] at first
        have apart := ih (Nat.lt_of_succ_lt_succ less) first second
        rwa [shift,shift] at apart
    · rename_i stale
      rw [if_neg stale,List.getElem?_cons_succ] at second
      cases p with
      | zero => cases first
      | succ p =>
        rw [List.getElem?_cons_succ] at first
        have apart := ih (Nat.lt_of_succ_lt_succ less) first second
        rwa [shift,shift] at apart

omit [Field K] in
theorem assigned_lt {n : Nat} (shaped : ∀ row ∈ overlap, row.length = n) (some_ : 0 < n) (idx : Nat) : assigned overlap idx < n := by
  unfold assigned
  cases found : overlap[idx]? with
  | none => simpa [found,Argmax.argmax] using some_
  | some row =>
    have size := shaped row (List.mem_of_getElem? found)
    rw [List.getD_eq_getElem?_getD,found,Option.getD_some]
    cases best : Argmax.argmax row with
    | none => exact some_
    | some k =>
      obtain ⟨m,spec⟩ := Argmax.argmax_spec best
      exact size ▸ (List.getElem?_eq_some_iff.mp spec.here).1

theorem matched_room {n : Nat} (shaped : ∀ row ∈ overlap, row.length = n) (some_ : 0 < n) {detected : List Nat}
    (distinct : detected.Nodup) (inside : ∀ a ∈ detected, a < n) (idx : Nat) (detections : List (Scored K)) :
    (truePositives iouThreshold overlap idx detected detections).count true+detected.length ≤ n := by
  induction detections generalizing idx detected with
  | nil =>
    have all : detected ⊆ List.range n := fun a member => List.mem_range.mpr (inside a member)
    simpa [truePositives] using (List.subperm_of_subset distinct all).length_le
  | cons detection rest ih =>
    unfold truePositives
    split
    · rename_i fresh
      have later := ih (List.nodup_cons.mpr ⟨fresh.2,distinct⟩) (by
        intro a member
        rcases List.mem_cons.mp member with rfl | old
        · exact assigned_lt shaped some_ idx
        · exact inside a old) (idx+1)
      rw [List.length_cons] at later
      rw [List.count_cons_self]
      omega
    · simpa using ih distinct inside (idx+1)

end

theorem frameEntries_flags (frame : Frame K) (label : Nat) (iouThreshold : K) (overlap : List (List K)) :
    (frameEntries frame label iouThreshold overlap).map (·.2) =
      if (frame.annotations label).length = 0 then (frame.detections label).map fun _ => false
      else truePositives iouThreshold overlap 0 [] (frame.detections label) := by
  apply List.map_snd_zip
  rw [List.length_map]
  split
  · rw [List.length_map]
  · rw [truePositives_length]

theorem frame_matched {frame : Frame K} {overlap : List (List K)}
    (shaped : ∀ row ∈ overlap, row.length = (frame.annotations label).length) : MatchedOnce frame label iouThreshold overlap := by
  have flag : ∀ (p : Nat) s, (frameEntries frame label iouThreshold overlap)[p]? = some (s,true) →
      0 < (frame.annotations label).length ∧ (truePositives iouThreshold overlap 0 [] (frame.detections label))[p]? = some true := by
    intro p s at_
    have column := congrArg (·[p]?) (frameEntries_flags frame label iouThreshold overlap)
    simp only [List.getElem?_map,at_,Option.map_some] at column
    split at column
    · have member := List.mem_of_getElem? column.symm
      obtain ⟨_,_,same⟩ := List.mem_map.mp member
      cases same
    · rename_i some_
      exact ⟨Nat.pos_of_ne_zero some_,column.symm⟩
  constructor
  · intro p s at_
    exact assigned_lt shaped (flag p s at_).1 p
  · intro p q s t first second same
    have here := (flag p s first).2
    have there := (flag q t second).2
    rcases Nat.lt_trichotomy p q with less | equal | more
    · have apart := matched_once less here there
      rw [Nat.zero_add,Nat.zero_add] at apart
      exact absurd same apart
    · exact equal
    · have apart := matched_once more there here
      rw [Nat.zero_add,Nat.zero_add] at apart
      exact absurd same.symm apart

theorem frame_count {frame : Frame K} {overlap : List (List K)}
    (shaped : ∀ row ∈ overlap, row.length = (frame.annotations label).length) :
    ((frameEntries frame label iouThreshold overlap).map (·.2)).count true ≤ (frame.annotations label).length := by
  rw [frameEntries_flags]
  split
  · simp [List.count_replicate]
  · rename_i some_
    simpa using matched_room shaped (Nat.pos_of_ne_zero some_) List.nodup_nil (by simp) 0 (frame.detections label)

theorem entries_count {overlaps : Overlaps K} (i : Nat)
    (shaped : ∀ k frame, frames[k]? = some frame → ∀ row ∈ overlaps (i+k) label, row.length = (frame.annotations label).length) :
    ((entriesFrom label iouThreshold overlaps i frames).map (·.2)).count true ≤ numAnnotations frames label := by
  induction frames generalizing i with
  | nil => exact Nat.le_refl _
  | cons frame rest ih =>
    have here : ((frameEntries frame label iouThreshold (overlaps i label)).map (·.2)).count true ≤ _ :=
      frame_count (shaped 0 frame rfl)
    have later := ih (i+1) fun k other found => by
      rw [Nat.add_assoc,Nat.add_comm 1 k]
      exact shaped (k+1) other found
    rw [entriesFrom,List.map_append,List.count_append]
    exact Nat.add_le_add here later

section
variable [IsStrictOrderedRing K]

theorem interpolated_gain (flags : List Bool) (n : Nat) : Interpolated flags n ((gain 0 0 flags : K)/n) := by
  refine ⟨best 0 0 flags,fun k below => ?_,by rw [AveragePrecision.gain_sum]⟩
  have greatest := AveragePrecision.best_greatest (K := K) 0 0 below
  simpa only [AveragePrecision.precisionAt,Nat.zero_add] using greatest

theorem averagePrecisionIn_gain (order : List Nat) (some_ : 0 < numAnnotations frames label) (iouThreshold : K)
    (overlaps : Overlaps K) : averagePrecisionIn order frames label iouThreshold overlaps =
      gain 0 0 (flagsIn order (entriesFrom label iouThreshold overlaps 0 frames))/numAnnotations frames label := by
  unfold averagePrecisionIn
  rw [if_neg (Nat.ne_of_gt some_)]
  exact computeAp_gain _ some_

-- Whatever the order among equal scores.
theorem interpolated_precision (some_ : 0 < numAnnotations frames label) (iouThreshold : K) :
    Shaped frames label (overlapsOf frames) ∧ ∀ overlaps, Shaped frames label overlaps →
      (∃ order, Ranking (entriesFrom label iouThreshold overlaps 0 frames) order ∧
        averagePrecision frames label iouThreshold overlaps = averagePrecisionIn order frames label iouThreshold overlaps) ∧
      (∀ order, Ranking (entriesFrom label iouThreshold overlaps 0 frames) order →
        Interpolated (flagsIn order (entriesFrom label iouThreshold overlaps 0 frames)) (numAnnotations frames label)
          (averagePrecisionIn order frames label iouThreshold overlaps) ∧
        (flagsIn order (entriesFrom label iouThreshold overlaps 0 frames)).count true ≤ numAnnotations frames label ∧
        0 ≤ averagePrecisionIn order frames label iouThreshold overlaps ∧
        averagePrecisionIn order frames label iouThreshold overlaps ≤ 1) ∧
      ∀ i frame, frames[i]? = some frame → MatchedOnce frame label iouThreshold (overlaps i label) := by
  refine ⟨overlapsOf_shaped frames label,fun overlaps shaped => ⟨⟨_,stable_ranking _,rfl⟩,?_,?_⟩⟩
  · intro order ranking
    have count : (flagsIn order (entriesFrom label iouThreshold overlaps 0 frames)).count true ≤ numAnnotations frames label := by
      rw [(flagsIn_perm ranking.perm).count_eq]
      refine entries_count 0 fun k frame found => ?_
      rw [Nat.zero_add]
      exact shaped k frame found
    have positive : (0 : K) < numAnnotations frames label := Nat.cast_pos.mpr some_
    rw [averagePrecisionIn_gain order some_]
    refine ⟨interpolated_gain _ _,count,div_nonneg (AveragePrecision.gain_nonneg _ _ _) (le_of_lt positive),?_⟩
    rw [div_le_one positive]
    exact (AveragePrecision.gain_le _ (Nat.le_refl 0)).trans (Nat.cast_le.mpr count)
  · intro i frame found
    exact frame_matched (shaped i frame found)

theorem pair_ranking : Ranking (entriesFrom 0 (1/2) (overlapsOf pairFrames) 0 pairFrames) [0,1] :=
  ⟨by decide +kernel,by decide +kernel⟩

theorem interpolated_precision_pair :
    Interpolated (flagsIn [0,1] (entriesFrom 0 (1/2) (overlapsOf pairFrames) 0 pairFrames)) 1
      (averagePrecisionIn [0,1] pairFrames 0 (1/2) (overlapsOf pairFrames)) ∧
    ∀ i frame, pairFrames[i]? = some frame → MatchedOnce frame 0 (1/2) (overlapsOf pairFrames i 0) := by
  have all := @interpolated_precision ℚ _ _ pairFrames 0 _ (by decide) (1/2)
  obtain ⟨_,ranked,matched⟩ := all.2 _ all.1
  exact ⟨(ranked [0,1] pair_ranking).1,matched⟩

end

end SymphonyAkida.DetectionMap
