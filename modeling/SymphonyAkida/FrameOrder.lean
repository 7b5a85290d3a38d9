import SymphonyAkida.InterpolatedPrecision
import SymphonyAkida.ScoreGate

namespace SymphonyAkida.DetectionMap
open EvalShardMap
variable {K : Type} [Field K] [LinearOrder K] {frames others : List (Frame K)} {label : Nat} {iouThreshold : K}

theorem entries_perm (perm : frames.Perm others) (label : Nat) (iouThreshold : K) :
    (entriesFrom label iouThreshold (overlapsOf frames) 0 frames).Perm
      (entriesFrom label iouThreshold (overlapsOf others) 0 others) := by
  rw [entries_own,entries_own]
  exact perm.flatMap_right _

omit [Field K] [LinearOrder K] in
theorem numAnnotations_perm (perm : frames.Perm others) (label : Nat) :
    numAnnotations frames label = numAnnotations others label := (perm.map _).sum_eq

section
variable [IsStrictOrderedRing K]

omit [Field K] [IsStrictOrderedRing K] in
theorem strict_unique {entries more : List (K × Bool)} (left : Strict entries) (right : Strict more)
    (perm : entries.Perm more) : entries = more :=
  perm.eq_of_pairwise (fun _ _ _ _ below above => absurd above (lt_asymm below)) left right

theorem ranked_unique {entries more : List (K × Bool)} (perm : entries.Perm more) (distinct : (entries.map (·.1)).Nodup) :
    ranked entries = ranked more := by
  have left := byScore_strict distinct
  have right := byScore_strict ((perm.map (·.1)).nodup_iff.mp distinct)
  have same := (byScore_perm entries).trans (perm.trans (byScore_perm more).symm)
  rw [ranked_eq,ranked_eq,strict_unique left right same]

-- So it does not matter that np.argsort is not stable.
theorem flagsIn_ranked {entries : List (K × Bool)} {order : List Nat} (ranking : Ranking entries order)
    (distinct : (entries.map (·.1)).Nodup) : flagsIn order entries = ranked entries := by
  have inside : ∀ i ∈ order, i < entries.length := fun i member => List.mem_range.mp (ranking.perm.subset member)
  have picked := TiledShard.pick_perm ranking.perm
  have weak := ranking.sorted
  rw [TiledShard.pick_getD Prod.fst 0 inside] at weak
  have apart : ((TiledShard.pick entries order).map (·.1)).Nodup := ((picked.map (·.1)).nodup_iff).mpr distinct
  have strict : Strict (TiledShard.pick entries order) :=
    (List.pairwise_map.mp (weak.and apart)).imp fun both => lt_of_le_of_ne both.1 (Ne.symm both.2)
  rw [ranked_eq,flagsIn,TiledShard.pick_getD Prod.snd false inside,
    strict_unique strict (byScore_strict distinct) (picked.trans (byScore_perm entries).symm)]

theorem averagePrecision_perm (perm : frames.Perm others) (distinct : (classScores frames label).Nodup) (iouThreshold : K) :
    averagePrecision frames label iouThreshold (overlapsOf frames) =
      averagePrecision others label iouThreshold (overlapsOf others) := by
  rw [averagePrecision_gain,averagePrecision_gain,numAnnotations_perm perm label,
    ranked_unique (entries_perm perm label iouThreshold) (by rwa [entries_scores])]

theorem averagePrecisions_perm (perm : frames.Perm others) (distinct : ∀ label < numClasses, (classScores frames label).Nodup)
    (iouThreshold : K) : averagePrecisions frames numClasses iouThreshold (overlapsOf frames) =
      averagePrecisions others numClasses iouThreshold (overlapsOf others) := by
  refine List.map_congr_left fun label member => ?_
  exact averagePrecision_perm perm (distinct label (List.mem_range.mp member)) iouThreshold

theorem averagePrecisionIn_unique {order : List Nat} {overlaps : Overlaps K} (distinct : (classScores frames label).Nodup)
    (ranking : Ranking (entriesFrom label iouThreshold overlaps 0 frames) order) :
    averagePrecisionIn order frames label iouThreshold overlaps = averagePrecision frames label iouThreshold overlaps := by
  unfold averagePrecisionIn averagePrecision
  rw [flagsIn_ranked ranking (by rwa [entries_scores])]

omit [Field K] [LinearOrder K] [IsStrictOrderedRing K] in
theorem classScores_perm (perm : frames.Perm others) (label : Nat) :
    (classScores frames label).Perm (classScores others label) := perm.flatMap_right _

-- A frame holds its detections and its annotations, so both lists move together.
theorem evaluate_perm (perm : frames.Perm others) (numClasses : Nat)
    (distinct : ∀ label < numClasses, (classScores frames label).Nodup) :
    evaluate frames numClasses = evaluate others numClasses ∧
      ∀ label < numClasses, ∀ iouThreshold order,
        Ranking (entriesFrom label iouThreshold (overlapsOf others) 0 others) order →
          averagePrecisionIn order others label iouThreshold (overlapsOf others) =
            averagePrecision frames label iouThreshold (overlapsOf frames) := by
  constructor
  · unfold evaluate
    simp only [averagePrecisions_perm perm distinct]
  · intro label below iouThreshold order ranking
    have apart := (classScores_perm perm label).nodup_iff.mp (distinct label below)
    rw [averagePrecisionIn_unique apart ranking,averagePrecision_perm perm (distinct label below)]

end

-- The frame of pairFrames and one with a detection of its own.
def twoFrames : List (Frame ℚ) :=
  pairFrames ++ [⟨fun _ => [⟨⟨0,0,1,1⟩,7/10⟩],fun _ => [⟨0,0,1,1⟩,⟨2,2,3,3⟩]⟩]

theorem evaluate_perm_two : evaluate twoFrames 1 = evaluate twoFrames.reverse 1 :=
  (evaluate_perm twoFrames.reverse_perm.symm 1 (by decide +kernel)).1

end SymphonyAkida.DetectionMap
