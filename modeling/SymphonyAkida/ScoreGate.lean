import SymphonyAkida.DetectionMapSpec
import SymphonyAkida.EvalShardMap

namespace SymphonyAkida.EvalShardMap
open DetectionMap TiledShard
variable {K : Type} [Field K] [LinearOrder K]

section
variable {list : List α} {key : α → K}

-- In decreasing order a cut commutes with a cap, and leaves a prefix.
omit [Field K] in
theorem cut_take (decreasing : list.Pairwise fun a b => key b ≤ key a) (c : K) (k : Nat) :
    (list.filter fun a => decide (c ≤ key a)).take k = (list.take k).filter fun a => decide (c ≤ key a) := by
  induction list generalizing k with
  | nil => simp
  | cons a rest ih =>
    rw [List.pairwise_cons] at decreasing
    cases k with
    | zero => rfl
    | succ k =>
      by_cases high : c ≤ key a
      · simp only [List.filter_cons,high,decide_true,if_true,List.take_succ_cons]
        rw [ih decreasing.2]
      · have low : ∀ b ∈ rest, ¬c ≤ key b := fun b member above => high (above.trans (decreasing.1 b member))
        have none : (rest.filter fun b => decide (c ≤ key b)) = [] := by simpa using low
        have fewer : ((rest.take k).filter fun b => decide (c ≤ key b)) = [] := by
          simpa using fun b member => low b (List.mem_of_mem_take member)
        simp [high,none,fewer]

omit [Field K] in
theorem cut_front (decreasing : list.Pairwise fun a b => key b ≤ key a) (c : K) :
    (list.filter fun a => decide (c ≤ key a)) <+: list := by
  induction list with
  | nil => exact List.prefix_refl _
  | cons a rest ih =>
    rw [List.pairwise_cons] at decreasing
    by_cases high : c ≤ key a
    · rw [List.filter_cons_of_pos (by simpa using high)]
      exact List.cons_prefix_cons.mpr ⟨rfl,ih decreasing.2⟩
    · have low : ∀ b ∈ rest, ¬c ≤ key b := fun b member above => high (above.trans (decreasing.1 b member))
      have none : (rest.filter fun b => decide (c ≤ key b)) = [] := by simpa using low
      rw [List.filter_cons_of_neg (by simpa using high),none]
      exact List.nil_prefix

end

theorem pick_zipWith (f : α → β → γ) {xs : List α} {ys : List β} (same : xs.length = ys.length) (keep : List Nat) :
    pick (List.zipWith f xs ys) keep = List.zipWith f (pick xs keep) (pick ys keep) := by
  induction keep with
  | nil => rfl
  | cons i rest ih =>
    by_cases below : i < xs.length
    · have both : i < (List.zipWith f xs ys).length := by rw [List.length_zipWith]; omega
      have right : i < ys.length := same ▸ below
      rw [pick_cons both,pick_cons below,pick_cons right,List.zipWith_cons_cons,ih,List.getElem_zipWith]
    · have left : xs[i]? = none := List.getElem?_eq_none (Nat.le_of_not_lt below)
      have right : ys[i]? = none := List.getElem?_eq_none (same ▸ Nat.le_of_not_lt below)
      simpa [pick,List.getElem?_zipWith,left,right] using ih

theorem pick_take {rows : List α} (inside : ∀ i ∈ keep, i < rows.length) (k : Nat) :
    pick rows (keep.take k) = (pick rows keep).take k := by
  induction keep generalizing k with
  | nil => simp [pick]
  | cons i rest ih =>
    have below := inside i List.mem_cons_self
    cases k with
    | zero => rfl
    | succ k =>
      rw [List.take_succ_cons,pick_cons below,pick_cons below,List.take_succ_cons,
        ih fun j member => inside j (List.mem_cons_of_mem _ member)]

def Detected.rows (detected : Detected K) : List (Scored K × Int) :=
  (List.zipWith Scored.mk detected.boxes detected.scores).zip detected.labels

omit [Field K] [LinearOrder K] in
theorem rows_length (detected : Detected K) : detected.rows.length = detected.scores.length := by
  simp [Detected.rows,detected.scoresParallel,detected.labelsParallel]

omit [Field K] [LinearOrder K] in
theorem rows_scores (detected : Detected K) : detected.rows.map (·.1.score) = detected.scores := by
  apply List.ext_getElem
  · rw [List.length_map,rows_length]
  · intro i left right
    simp [Detected.rows]

omit [Field K] [LinearOrder K] in
theorem rows_at (detected : Detected K) (keep : List Nat) : (detected.at keep).rows = pick detected.rows keep := by
  have scored := pick_zipWith Scored.mk detected.scoresParallel.symm keep
  have sizes : (List.zipWith Scored.mk detected.boxes detected.scores).length = detected.labels.length := by
    simp [detected.scoresParallel,detected.labelsParallel]
  have labelled := pick_zipWith Prod.mk sizes keep
  rw [scored] at labelled
  exact labelled.symm

omit [Field K] in
theorem fromKit_rows (kit : Kit K) (postThresh : K) (sample : Nat) :
    (fromKit kit postThresh sample).rows =
      (kit.reference sample).rows.filter fun row => decide (postThresh ≤ row.1.score) := by
  rw [fromKit,rows_at,← rows_scores,List.map_map]
  exact pick_mask _ _

def Detected.ordered (detected : Detected K) : List (Scored K × Int) :=
  pick detected.rows (Argsort.argsort (fun i => -detected.scores.getD i 0) detected.scores.length)

theorem order_inside (detected : Detected K) :
    ∀ i ∈ Argsort.argsort (fun i => -detected.scores.getD i 0) detected.scores.length, i < detected.rows.length := by
  intro i member
  rw [rows_length]
  exact Argsort.mem_argsort.mp member

theorem ordered_perm (detected : Detected K) : detected.ordered.Perm detected.rows := by
  apply pick_perm
  rw [rows_length]
  exact Argsort.argsort_perm _ _

def scaleRow (rawShape : Int × Int) (row : Scored K × Int) : Scored K × Int :=
  (⟨scaleToRaw rawShape row.1.box,row.1.score⟩,row.2)

theorem capped_rows (rawShape : Int × Int) {maxBoxes : Int} (positive : 0 ≤ maxBoxes) (detected : Detected K) :
    (capped rawShape maxBoxes detected).rows = (detected.ordered.map (scaleRow rawShape)).take maxBoxes.toNat := by
  have inside := order_inside detected
  unfold capped
  split
  · rename_i empty
    have none : detected.rows = [] := List.length_eq_zero_iff.mp
      ((rows_length detected).trans (detected.scoresParallel.trans empty))
    have nothing : detected.ordered = [] := (none ▸ ordered_perm detected).eq_nil
    rw [nothing]
    simp [Detected.rows]
  · rw [rows_at,sliceTo,if_pos positive]
    have scaled : Detected.rows ⟨detected.boxes.map (scaleToRaw rawShape),detected.scores,detected.labels,
        by rw [List.length_map]; exact detected.scoresParallel,
        by rw [List.length_map]; exact detected.labelsParallel⟩ = detected.rows.map (scaleRow rawShape) := by
      apply List.ext_getElem
      · simp [Detected.rows]
      · intro i left right
        simp [Detected.rows,scaleRow]
    rw [scaled,pick_take (by simpa using inside),pick_map]
    rfl

section
variable [IsStrictOrderedRing K]

theorem ordered_strict {detected : Detected K} (distinct : detected.scores.Nodup) :
    detected.ordered.Pairwise fun a b => b.1.score < a.1.score := by
  rw [← rows_scores] at distinct
  have sorted := argsort_strict (fun row : Scored K × Int => row.1.score) distinct
  rwa [rows_scores,rows_length] at sorted

def gatedRows (kit : Kit K) (maxBoxes : Int) (gate : K) (sample : Nat) : List (Scored K × Int) :=
  (capped (kit.rawShape sample) maxBoxes (fromKit kit gate sample)).rows

omit [Field K] [IsStrictOrderedRing K] in
theorem gated_distinct {kit : Kit K} (distinct : (kit.reference sample).scores.Nodup) (gate : K) :
    (fromKit kit gate sample).scores.Nodup := by
  rw [← rows_scores,fromKit_rows]
  rw [← rows_scores] at distinct
  exact distinct.sublist (List.filter_sublist.map _)

-- Raising the gate is cutting what the lower gate left: the cap does not interfere.
theorem gatedRows_cut {kit : Kit K} (distinct : (kit.reference sample).scores.Nodup) {maxBoxes : Int}
    (positive : 0 ≤ maxBoxes) {t t' : K} (higher : t ≤ t') :
    gatedRows kit maxBoxes t' sample =
      (gatedRows kit maxBoxes t sample).filter fun row => decide (t' ≤ row.1.score) := by
  have low := ordered_strict (gated_distinct distinct t)
  have high := ordered_strict (gated_distinct distinct t')
  have cut : (fromKit kit t' sample).ordered =
      (fromKit kit t sample).ordered.filter fun row => decide (t' ≤ row.1.score) := by
    have perm : (fromKit kit t' sample).ordered.Perm
        ((fromKit kit t sample).ordered.filter fun row => decide (t' ≤ row.1.score)) := by
      refine (ordered_perm _).trans (List.Perm.trans ?_ ((ordered_perm _).filter _).symm)
      rw [fromKit_rows,fromKit_rows,List.filter_filter]
      refine List.Perm.of_eq (List.filter_congr fun row _ => ?_)
      rw [Bool.eq_iff_iff,Bool.and_eq_true,decide_eq_true_eq,decide_eq_true_eq]
      exact ⟨fun above => ⟨above,higher.trans above⟩,fun both => both.1⟩
    exact perm.eq_of_pairwise (fun a b _ _ first second => absurd first (lt_asymm second)) high (low.filter _)
  have decreasing : ((fromKit kit t sample).ordered.map (scaleRow (kit.rawShape sample))).Pairwise
      fun a b => b.1.score ≤ a.1.score :=
    List.pairwise_map.mpr (low.imp fun less => le_of_lt less)
  unfold gatedRows
  rw [capped_rows _ positive,capped_rows _ positive,cut,← cut_take decreasing,List.filter_map]
  rfl

theorem gatedRows_sorted {kit : Kit K} (distinct : (kit.reference sample).scores.Nodup) {maxBoxes : Int}
    (positive : 0 ≤ maxBoxes) (gate : K) :
    (gatedRows kit maxBoxes gate sample).Pairwise fun a b => b.1.score ≤ a.1.score := by
  unfold gatedRows
  rw [capped_rows _ positive]
  have decreasing := ordered_strict (gated_distinct distinct gate)
  exact (List.pairwise_map.mpr (decreasing.imp fun less => le_of_lt less)).sublist (List.take_sublist _ _)

theorem collect_cut {kit : Kit K} (distinct : (kit.reference sample).scores.Nodup) {maxBoxes : Int}
    (positive : 0 ≤ maxBoxes) {t t' : K} (higher : t ≤ t') (label : Nat) :
    (collectFrame kit (fromKit kit t') maxBoxes sample).detections label =
      ((collectFrame kit (fromKit kit t) maxBoxes sample).detections label).filter
        fun detection => decide (t' ≤ detection.score) := by
  have shape : ∀ gate, (collectFrame kit (fromKit kit gate) maxBoxes sample).detections label =
      ((gatedRows kit maxBoxes gate sample).filter fun row => row.2 == (label : Int)).map (·.1) := fun _ => rfl
  rw [shape,shape,gatedRows_cut distinct positive higher,List.filter_map,List.filter_filter,List.filter_filter]
  refine congrArg (List.map _) (List.filter_congr fun row _ => ?_)
  exact Bool.and_comm _ _

theorem collect_sorted {kit : Kit K} (distinct : (kit.reference sample).scores.Nodup) {maxBoxes : Int}
    (positive : 0 ≤ maxBoxes) (gate : K) (label : Nat) :
    ((collectFrame kit (fromKit kit gate) maxBoxes sample).detections label).Pairwise fun a b => b.score ≤ a.score :=
  List.pairwise_map.mpr ((gatedRows_sorted distinct positive gate).filter _)

end

theorem truePositives_append (iouThreshold : K) {overlap overlap' : List (List K)} (first last : List (Scored K))
    (idx : Nat) (detected : List Nat)
    (alike : ∀ i < first.length, overlap.getD (idx+i) [] = overlap'.getD (idx+i) []) :
    ∃ rest, truePositives iouThreshold overlap' idx detected (first ++ last) =
      truePositives iouThreshold overlap idx detected first ++ rest := by
  induction first generalizing idx detected with
  | nil => exact ⟨_,rfl⟩
  | cons detection more ih =>
    have here : overlap.getD idx [] = overlap'.getD idx [] := alike 0 (Nat.succ_pos _)
    have later : ∀ i < more.length, overlap.getD (idx+1+i) [] = overlap'.getD (idx+1+i) [] := by
      intro i below
      have at_ := alike (i+1) (Nat.succ_lt_succ below)
      rwa [Nat.add_comm i 1,← Nat.add_assoc] at at_
    have target : assigned overlap' idx = assigned overlap idx := by unfold assigned; rw [here]
    have value : assignedOverlap overlap' idx = assignedOverlap overlap idx := by
      unfold assignedOverlap; rw [here,target]
    rw [List.cons_append]
    unfold truePositives
    rw [target,value]
    split
    · obtain ⟨rest,same⟩ := ih (idx+1) (assigned overlap idx :: detected) later
      exact ⟨rest,by rw [same,List.cons_append]⟩
    · obtain ⟨rest,same⟩ := ih (idx+1) detected later
      exact ⟨rest,by rw [same,List.cons_append]⟩

def ownEntries (iouThreshold : K) (label : Nat) (frame : Frame K) : List (K × Bool) :=
  frameEntries frame label iouThreshold (computeOverlap (frame.detections label) (frame.annotations label))

theorem ownEntries_front {few more : Frame K} (annotations : few.annotations label = more.annotations label)
    (first : few.detections label <+: more.detections label) (iouThreshold : K) :
    ownEntries iouThreshold label few <+: ownEntries iouThreshold label more := by
  obtain ⟨last,whole⟩ := first
  unfold ownEntries frameEntries
  rw [annotations,← whole]
  simp only [List.map_append]
  have zipped : ∀ {scores scores' : List K} {flags rest : List Bool}, flags.length = scores.length →
      scores.zip flags <+: (scores ++ scores').zip (flags ++ rest) := by
    intro scores scores' flags rest same
    exact ⟨scores'.zip rest,by rw [List.zip_append same.symm]⟩
  split
  · exact zipped (by simp)
  · have alike : ∀ i < (few.detections label).length,
        (computeOverlap (few.detections label) (more.annotations label)).getD (0+i) [] =
          (computeOverlap (few.detections label ++ last) (more.annotations label)).getD (0+i) [] := by
      intro i below
      rw [Nat.zero_add]
      simp only [computeOverlap,List.map_append,List.getD_eq_getElem?_getD]
      rw [List.getElem?_append_left (by simpa using below)]
    obtain ⟨rest,flags⟩ := truePositives_append iouThreshold (few.detections label) last 0 [] alike
    rw [flags]
    exact zipped (by rw [truePositives_length,List.length_map])

theorem entries_own (frames : List (Frame K)) (label : Nat) (iouThreshold : K) :
    entriesFrom label iouThreshold (overlapsOf frames) 0 frames = frames.flatMap (ownEntries iouThreshold label) := by
  have later : ∀ (rest done : List (Frame K)), done ++ rest = frames →
      entriesFrom label iouThreshold (overlapsOf frames) done.length rest =
        rest.flatMap (ownEntries iouThreshold label) := by
    intro rest
    induction rest with
    | nil => intros; rfl
    | cons frame rest ih =>
      intro done whole
      have here : frames[done.length]? = some frame := by rw [← whole]; simp
      have next := ih (done ++ [frame]) (by rw [List.append_assoc]; exact whole)
      rw [List.length_append,List.length_singleton] at next
      rw [entriesFrom,next,List.flatMap_cons]
      simp only [overlapsOf,here]
      rfl
  exact later frames [] rfl

def labelScores (label : Nat) (detected : Detected K) : List K :=
  (detected.rows.filter fun row => row.2 == (label : Int)).map (·.1.score)

-- No two reference scores agree within a frame or within a class.
structure Distinct (kit : Kit K) (samples : List Nat) : Prop where
  across : ∀ sample ∈ samples, (kit.reference sample).scores.Nodup
  within : ∀ label < kit.numClasses, (samples.flatMap fun sample => labelScores label (kit.reference sample)).Nodup

theorem subperm_flatMap {f g : α → List β} {list : List α} (each : ∀ a ∈ list, (f a).Subperm (g a)) :
    (list.flatMap f).Subperm (list.flatMap g) := by
  induction list with
  | nil => exact List.Subperm.refl _
  | cons a rest ih =>
    rw [List.flatMap_cons,List.flatMap_cons]
    exact (each a List.mem_cons_self).append (ih fun b member => each b (List.mem_cons_of_mem _ member))

theorem collect_scores (kit : Kit K) {maxBoxes : Int} (positive : 0 ≤ maxBoxes) (gate : K) (label sample : Nat) :
    (((collectFrame kit (fromKit kit gate) maxBoxes sample).detections label).map (·.score)).Subperm
      (labelScores label (kit.reference sample)) := by
  have shape : ((collectFrame kit (fromKit kit gate) maxBoxes sample).detections label).map (·.score) =
      ((gatedRows kit maxBoxes gate sample).filter fun row => row.2 == (label : Int)).map (·.1.score) := List.map_map
  have scaled : (((fromKit kit gate sample).ordered.map (scaleRow (kit.rawShape sample))).filter
      fun row => row.2 == (label : Int)).map (·.1.score) =
      ((fromKit kit gate sample).ordered.filter fun row => row.2 == (label : Int)).map (·.1.score) := by
    rw [List.filter_map,List.map_map]
    rfl
  have first := ((List.take_sublist maxBoxes.toNat
    ((fromKit kit gate sample).ordered.map (scaleRow (kit.rawShape sample)))).filter
      fun row => row.2 == (label : Int)).map (·.1.score)
  have second := ((ordered_perm (fromKit kit gate sample)).filter fun row => row.2 == (label : Int)).map (·.1.score)
  have third : (((fromKit kit gate sample).rows.filter fun row => row.2 == (label : Int)).map (·.1.score)).Sublist
      (labelScores label (kit.reference sample)) := by
    rw [fromKit_rows]
    exact (List.filter_sublist.filter _).map _
  rw [shape,gatedRows,capped_rows _ positive]
  rw [scaled] at first
  exact first.subperm.trans (second.subperm.trans third.subperm)

theorem collect_distinct {kit : Kit K} (distinct : Distinct kit samples) {maxBoxes : Int} (positive : 0 ≤ maxBoxes)
    (gate : K) (below : label < kit.numClasses) :
    (classScores (collect kit samples (fromKit kit gate) maxBoxes) label).Nodup := by
  unfold classScores collect
  rw [List.flatMap_map]
  obtain ⟨list,same,inside⟩ := subperm_flatMap fun sample (_ : sample ∈ samples) =>
    collect_scores kit positive gate label sample
  exact same.nodup_iff.mp ((distinct.within label below).sublist inside)

theorem collect_annotations (kit : Kit K) (boxesOf : Nat → Detected K) (maxBoxes : Int) (sample : Nat) :
    (collectFrame kit boxesOf maxBoxes sample).annotations =
      groupByLabel (kit.annotations sample).1 (kit.annotations sample).2 := rfl

section
variable [IsStrictOrderedRing K]

theorem ownEntries_cut {kit : Kit K} (distinct : (kit.reference sample).scores.Nodup) {maxBoxes : Int}
    (positive : 0 ≤ maxBoxes) {t t' : K} (higher : t ≤ t') (label : Nat) (iouThreshold : K) :
    ownEntries iouThreshold label (collectFrame kit (fromKit kit t') maxBoxes sample) =
      (ownEntries iouThreshold label (collectFrame kit (fromKit kit t) maxBoxes sample)).filter
        fun entry => decide (t' ≤ entry.1) := by
  have sorted := collect_sorted distinct positive t label
  have cut := collect_cut distinct positive higher label
  have first : ownEntries iouThreshold label (collectFrame kit (fromKit kit t') maxBoxes sample) <+:
      ownEntries iouThreshold label (collectFrame kit (fromKit kit t) maxBoxes sample) := by
    refine ownEntries_front ?_ ?_ iouThreshold
    · rw [collect_annotations,collect_annotations]
    · rw [cut]
      exact cut_front sorted t'
  have scores : ∀ frame : Frame K, (ownEntries iouThreshold label frame).map (·.1) =
      (frame.detections label).map (·.score) := fun frame => frameEntries_scores frame label iouThreshold _
  have decreasing : (ownEntries iouThreshold label (collectFrame kit (fromKit kit t) maxBoxes sample)).Pairwise
      fun a b => b.1 ≤ a.1 := by
    have column : ((ownEntries iouThreshold label (collectFrame kit (fromKit kit t) maxBoxes sample)).map
        (·.1)).Pairwise fun a b => b ≤ a := by
      rw [scores]
      exact List.pairwise_map.mpr sorted
    exact List.pairwise_map.mp column
  have second := cut_front decreasing t'
  have size := congrArg List.length (scores (collectFrame kit (fromKit kit t') maxBoxes sample))
  have count : ((ownEntries iouThreshold label (collectFrame kit (fromKit kit t) maxBoxes sample)).filter
      fun entry => decide (t' ≤ entry.1)).length =
      (((collectFrame kit (fromKit kit t) maxBoxes sample).detections label).filter
        fun detection => decide (t' ≤ detection.score)).length := by
    have column := congrArg (List.countP fun score => decide (t' ≤ score))
      (scores (collectFrame kit (fromKit kit t) maxBoxes sample))
    rw [List.countP_map,List.countP_map] at column
    rw [← List.countP_eq_length_filter,← List.countP_eq_length_filter]
    exact column
  rw [List.length_map,List.length_map,cut,← count] at size
  exact (List.prefix_of_prefix_length_le first second (Nat.le_of_eq size)).eq_of_length size

theorem byScore_cut {entries : List (K × Bool)} (distinct : (entries.map (·.1)).Nodup) (c : K) :
    byScore (entries.filter fun entry => decide (c ≤ entry.1)) =
      (byScore entries).filter fun entry => decide (c ≤ entry.1) := by
  have perm := (byScore_perm (entries.filter fun entry => decide (c ≤ entry.1))).trans
    ((byScore_perm entries).filter _).symm
  have fewer : ((entries.filter fun entry => decide (c ≤ entry.1)).map (·.1)).Nodup :=
    distinct.sublist (List.filter_sublist.map _)
  exact perm.eq_of_pairwise (fun a b _ _ first second => absurd first (lt_asymm second))
    (byScore_strict fewer) ((byScore_strict distinct).filter _)

theorem averagePrecision_gated {kit : Kit K} (distinct : Distinct kit samples) {maxBoxes : Int} (positive : 0 ≤ maxBoxes)
    {t t' : K} (higher : t ≤ t') (below : label < kit.numClasses) (iouThreshold : K) :
    averagePrecision (collect kit samples (fromKit kit t') maxBoxes) label iouThreshold
        (overlapsOf (collect kit samples (fromKit kit t') maxBoxes)) ≤
      averagePrecision (collect kit samples (fromKit kit t) maxBoxes) label iouThreshold
        (overlapsOf (collect kit samples (fromKit kit t) maxBoxes)) := by
  have annotated : numAnnotations (collect kit samples (fromKit kit t') maxBoxes) label =
      numAnnotations (collect kit samples (fromKit kit t) maxBoxes) label := by
    unfold numAnnotations collect
    simp only [List.map_map,Function.comp_def,collect_annotations]
  have cut : (collect kit samples (fromKit kit t') maxBoxes).flatMap (ownEntries iouThreshold label) =
      ((collect kit samples (fromKit kit t) maxBoxes).flatMap (ownEntries iouThreshold label)).filter
        fun entry => decide (t' ≤ entry.1) := by
    unfold collect
    rw [List.flatMap_map,List.flatMap_map,List.filter_flatMap]
    exact List.flatMap_congr fun sample member =>
      ownEntries_cut (distinct.across sample member) positive higher label iouThreshold
  have scores := entries_scores (collect kit samples (fromKit kit t) maxBoxes) label iouThreshold
    (overlapsOf (collect kit samples (fromKit kit t) maxBoxes)) 0
  have apart := collect_distinct distinct positive t below
  rw [entries_own] at scores
  rw [averagePrecision_gain,averagePrecision_gain,entries_own,entries_own,annotated,cut]
  refine div_le_div_of_nonneg_right ?_ (Nat.cast_nonneg _)
  apply AveragePrecision.gain_mono
  apply AveragePrecision.dominated_front
  rw [ranked_eq,ranked_eq,byScore_cut (scores ▸ apart)]
  have decreasing := (byScore_strict (scores ▸ apart)).imp fun less => le_of_lt less
  exact (cut_front decreasing t').map _

-- A higher score gate never raises an average precision.
theorem gate_lowers {kit : Kit K} (distinct : Distinct kit samples) {maxBoxes : Int} (positive : 0 ≤ maxBoxes)
    {t t' : K} (higher : t ≤ t') (iouThreshold : K) :
    List.Forall₂ (· ≤ ·)
      (averagePrecisions (collect kit samples (fromKit kit t') maxBoxes) kit.numClasses iouThreshold
        (overlapsOf (collect kit samples (fromKit kit t') maxBoxes)))
      (averagePrecisions (collect kit samples (fromKit kit t) maxBoxes) kit.numClasses iouThreshold
        (overlapsOf (collect kit samples (fromKit kit t) maxBoxes))) := by
  unfold averagePrecisions
  rw [List.forall₂_map_left_iff,List.forall₂_map_right_iff,List.forall₂_same]
  intro label member
  exact averagePrecision_gated distinct positive higher (List.mem_range.mp member) iouThreshold

end

def pairKit : Kit ℚ where
  numClasses := 1
  rawShape := fun _ => (2,2)
  annotations := fun _ => ([⟨0,0,2,2⟩],[0])
  reference := fun _ => ⟨[⟨0,0,1/2,1⟩,⟨0,0,1,1⟩],[9/10,8/10],[0,0],by simp,by simp⟩

-- The higher gate drops the second detection.
theorem gate_lowers_pair : List.Forall₂ (· ≤ ·)
    (averagePrecisions (collect pairKit [0] (fromKit pairKit (17/20)) 10) 1 (3/4)
      (overlapsOf (collect pairKit [0] (fromKit pairKit (17/20)) 10)))
    (averagePrecisions (collect pairKit [0] (fromKit pairKit 0) 10) 1 (3/4)
      (overlapsOf (collect pairKit [0] (fromKit pairKit 0) 10))) := by
  have distinct : Distinct pairKit [0] := by
    constructor
    · intro sample _
      simp [pairKit]
    · intro label below
      have first : label = 0 := Nat.lt_one_iff.mp below
      subst first
      simp [pairKit,labelScores,Detected.rows]
  exact gate_lowers distinct (by decide) (by norm_num) (3/4)

end SymphonyAkida.EvalShardMap
