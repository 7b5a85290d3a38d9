import SymphonyAkida.DetectionMap
import SymphonyAkida.Detections
import SymphonyAkida.Library.AveragePrecision
import Mathlib.Algebra.Field.Rat
import Mathlib.Algebra.Order.BigOperators.Group.List
import Mathlib.Algebra.Order.Ring.Rat
import Mathlib.Data.Finset.Card
import Mathlib.Tactic.FieldSimp

namespace SymphonyAkida.DetectionMap
open AveragePrecision (hits gain Dominated)
variable {K : Type} [Field K] [LinearOrder K]

-- The columns of precisionRecall, after `tp` hits and `fp` misses.
def recalls (n tp : Nat) (flags : List Bool) : List K := (cumsum tp flags).map fun (found : Nat) => (found : K)/n

def precisions (tp fp : Nat) (flags : List Bool) : List K :=
  List.zipWith (fun (tp fp : Nat) => (tp : K)/max ((tp : K)+fp) machineEps) (cumsum tp flags)
    (cumsum fp (flags.map (!·)))

omit [Field K] in
theorem envelope_cons (p : K) (rest : List K) (more : envelope rest = q :: tail) :
    envelope (p :: rest) = max p q :: q :: tail := by
  simp only [envelope,more]

section
variable [IsStrictOrderedRing K]

theorem machineEps_le : (machineEps : K) ≤ 1 := by
  unfold machineEps
  exact div_le_one_of_le₀ (one_le_pow₀ one_le_two) (pow_nonneg zero_le_two _)

theorem seen_max (tp fp : Nat) (flag : Bool) :
    max (((tp+flag.toNat : Nat) : K)+((fp+(!flag).toNat : Nat) : K)) machineEps = ((tp+fp+1 : Nat) : K) := by
  have total : ((tp+flag.toNat : Nat) : K)+((fp+(!flag).toNat : Nat) : K) = ((tp+fp+1 : Nat) : K) := by
    rw [← Nat.cast_add]
    congr 1
    cases flag <;> simp <;> omega
  rw [total]
  apply max_eq_left
  exact machineEps_le.trans (Nat.one_le_cast.mpr (Nat.succ_pos _))

theorem precisions_cons (tp fp : Nat) (flag : Bool) (rest : List Bool) :
    (precisions tp fp (flag :: rest) : List K) =
      ((hits tp flag : Nat) : K)/((tp+fp+1 : Nat) : K) :: precisions (hits tp flag) (fp+(!flag).toNat) rest := by
  simp only [precisions,cumsum,List.map_cons,List.zipWith_cons_cons,seen_max]
  rfl

theorem seen_next (tp fp : Nat) (flag : Bool) : hits tp flag+(fp+(!flag).toNat) = tp+fp+1 := by
  unfold hits
  cases flag <;> simp <;> omega

-- The envelope of the code starts with the best precision still to come.
theorem envelope_best (flags : List Bool) (tp fp : Nat) :
    ∃ tail, envelope (precisions tp fp flags ++ [0]) = (AveragePrecision.envelope tp (tp+fp) flags : K) :: tail := by
  induction flags generalizing tp fp with
  | nil => exact ⟨[],rfl⟩
  | cons flag rest ih =>
    obtain ⟨tail,later⟩ := ih (hits tp flag) (fp+(!flag).toNat)
    rw [precisions_cons,List.cons_append,envelope_cons _ _ later,seen_next]
    exact ⟨_,rfl⟩

-- Recall moves at the hits only, by 1/n each.
theorem area_gain (flags : List Bool) {n : Nat} (positive : 0 < n) (tp fp : Nat) (x : K) :
    area ((tp : K)/n :: (recalls n tp flags ++ [1])) (x :: envelope (precisions tp fp flags ++ [0])) =
      gain tp (tp+fp) flags/n := by
  have size : (n : K) ≠ 0 := Nat.cast_ne_zero.mpr (Nat.ne_of_gt positive)
  induction flags generalizing tp fp x with
  | nil =>
    simp [recalls,precisions,cumsum,envelope,area,gain]
  | cons flag rest ih =>
    obtain ⟨tail,later⟩ := envelope_best (K := K) rest (hits tp flag) (fp+(!flag).toNat)
    obtain ⟨more,here⟩ := envelope_best (K := K) (flag :: rest) tp fp
    have step := ih (hits tp flag) (fp+(!flag).toNat) (AveragePrecision.envelope tp (tp+fp) (flag :: rest))
    have column : (recalls n tp (flag :: rest) : List K) = ((hits tp flag : Nat) : K)/n :: recalls n (hits tp flag) rest := rfl
    have split : envelope (precisions tp fp (flag :: rest) ++ [0]) =
        (AveragePrecision.envelope tp (tp+fp) (flag :: rest) : K) ::
          envelope (precisions (hits tp flag) (fp+(!flag).toNat) rest ++ [0]) := by
      rw [precisions_cons,List.cons_append,envelope_cons _ _ later] at here
      rw [precisions_cons,List.cons_append,envelope_cons _ _ later,later]
      exact congrArg (· :: _) (List.cons.inj here).1
    rw [column,split,List.cons_append]
    unfold area
    rw [step,seen_next,gain,add_div]
    congr 1
    cases flag with
    | true =>
      have moved : ((hits tp true : Nat) : K)/n-(tp : K)/n = 1/n := by
        rw [← sub_div]
        congr 1
        simp [hits]
      have differ : ((hits tp true : Nat) : K)/n ≠ (tp : K)/n := by
        rw [← sub_ne_zero,moved]
        exact one_div_ne_zero size
      rw [if_pos differ,moved,if_pos rfl,one_div_mul_eq_div]
    | false => simp [hits]

theorem computeAp_gain (flags : List Bool) {n : Nat} (positive : 0 < n) :
    computeAp (precisionRecall n flags).1 (precisionRecall n flags).2 = (gain 0 0 flags : K)/n := by
  obtain ⟨tail,here⟩ := envelope_best (K := K) flags 0 0
  have whole := area_gain (K := K) flags positive 0 0 (max 0 (AveragePrecision.envelope 0 (0+0) flags))
  have start : envelope (0 :: (precisions 0 0 flags ++ [0])) =
      max 0 (AveragePrecision.envelope 0 (0+0) flags : K) :: envelope (precisions 0 0 flags ++ [0]) := by
    rw [envelope_cons _ _ here,here]
  rw [Nat.cast_zero,zero_div] at whole
  unfold computeAp
  exact (congrArg (area _) start).trans whole

def byScore (entries : List (K × Bool)) : List (K × Bool) :=
  TiledShard.pick entries (Argsort.argsort (fun i => -(entries.map (·.1)).getD i 0) entries.length)

omit [IsStrictOrderedRing K] in
theorem ranked_eq (entries : List (K × Bool)) : ranked entries = (byScore entries).map (·.2) :=
  TiledShard.pick_getD Prod.snd false fun _ member => Argsort.mem_argsort.mp member

omit [IsStrictOrderedRing K] in
theorem byScore_perm (entries : List (K × Bool)) : (byScore entries).Perm entries :=
  TiledShard.pick_perm (Argsort.argsort_perm _ _)

def Strict (entries : List (K × Bool)) : Prop := entries.Pairwise fun a b => b.1 < a.1

theorem byScore_strict {entries : List (K × Bool)} (distinct : (entries.map (·.1)).Nodup) : Strict (byScore entries) :=
  TiledShard.argsort_strict Prod.fst distinct

omit [Field K] [IsStrictOrderedRing K] in
theorem take_cut {entries : List (K × Bool)} (strict : Strict entries) (below : k < entries.length) :
    entries.take (k+1) = entries.filter fun e => entries[k].1 ≤ e.1 := by
  have split := List.take_append_drop (k+1) entries
  have order := List.pairwise_iff_getElem.mp strict
  have before : (entries.take (k+1)).filter (fun e => entries[k].1 ≤ e.1) = entries.take (k+1) := by
    apply List.filter_eq_self.mpr
    intro e member
    obtain ⟨i,inside,rfl⟩ := List.getElem_of_mem member
    rw [List.length_take] at inside
    rw [decide_eq_true_eq,List.getElem_take]
    rcases Nat.lt_or_ge i k with less | more
    · exact le_of_lt (order i k _ _ less)
    · have same : i = k := by omega
      subst same
      exact le_refl _
  have after : (entries.drop (k+1)).filter (fun e => entries[k].1 ≤ e.1) = [] := by
    apply List.filter_eq_nil_iff.mpr
    intro e member
    obtain ⟨i,inside,rfl⟩ := List.getElem_of_mem member
    rw [List.length_drop] at inside
    rw [decide_eq_true_eq,List.getElem_drop,not_le]
    exact order k (k+1+i) below (by omega) (by omega)
  have whole := congrArg (List.filter fun e => decide (entries[k].1 ≤ e.1)) split
  rwa [List.filter_append,before,after,List.append_nil] at whole

def hitsFrom (c : K) (entries : List (K × Bool)) : Nat := entries.countP fun e => decide (c ≤ e.1) && e.2

omit [Field K] [IsStrictOrderedRing K] in
theorem take_hits {entries : List (K × Bool)} (strict : Strict entries) (below : k < entries.length) :
    ((entries.map (·.2)).take (k+1)).count true = hitsFrom entries[k].1 entries := by
  rw [← List.map_take,take_cut strict below,hitsFrom,List.count,List.countP_map,List.countP_filter]
  refine List.countP_congr fun e _ => ?_
  simp [Bool.and_comm]

theorem ranked_dominated {few more : List (K × Bool)} (scores : few.map (·.1) = more.map (·.1))
    (distinct : (more.map (·.1)).Nodup) (fewer : ∀ c, hitsFrom c few ≤ hitsFrom c more) :
    Dominated 0 0 (ranked few) (ranked more) := by
  have size : few.length = more.length := by simpa using congrArg List.length scores
  have same : (byScore few).map (·.1) = (byScore more).map (·.1) := by
    unfold byScore
    rw [← TiledShard.pick_map,← TiledShard.pick_map,scores,size]
  have long : (byScore few).length = (byScore more).length := by simpa using congrArg List.length same
  rw [ranked_eq,ranked_eq]
  refine AveragePrecision.dominated_counts (by simp [long]) fun k within => ?_
  cases k with
  | zero => simp
  | succ k =>
    rw [List.length_map] at within
    have here : k < (byScore few).length := within
    have there : k < (byScore more).length := long ▸ within
    have level : (byScore few)[k].1 = (byScore more)[k].1 := by
      have at_ := congrArg (·[k]?) same
      simpa [here,there] using at_
    rw [take_hits (byScore_strict (scores ▸ distinct)) here,take_hits (byScore_strict distinct) there,level]
    have left := (byScore_perm few).countP_eq (fun e => decide ((byScore more)[k].1 ≤ e.1) && e.2)
    have right := (byScore_perm more).countP_eq (fun e => decide ((byScore more)[k].1 ≤ e.1) && e.2)
    have bound := fewer (byScore more)[k].1
    unfold hitsFrom at bound ⊢
    rw [left,right]
    simpa using bound

-- The annotations the detections scored at least c reach.
def claimed (c iouThreshold : K) (overlap : List (List K)) : Nat → List (Scored K) → List Nat
  | _,[] => []
  | idx,detection :: rest =>
    if c ≤ detection.score ∧ iouThreshold ≤ assignedOverlap overlap idx then
      assigned overlap idx :: claimed c iouThreshold overlap (idx+1) rest
    else claimed c iouThreshold overlap (idx+1) rest

omit [IsStrictOrderedRing K] in
theorem claimed_mono {s t : K} (stricter : s ≤ t) (c : K) (overlap : List (List K)) (idx : Nat) (detections : List (Scored K)) :
    claimed c t overlap idx detections ⊆ claimed c s overlap idx detections := by
  induction detections generalizing idx with
  | nil => exact List.Subset.refl _
  | cons detection rest ih =>
    unfold claimed
    by_cases high : c ≤ detection.score ∧ t ≤ assignedOverlap overlap idx
    · rw [if_pos high,if_pos ⟨high.1,stricter.trans high.2⟩]
      exact List.cons_subset_cons _ (ih (idx+1))
    · rw [if_neg high]
      split
      · exact List.Subset.trans (ih (idx+1)) (List.subset_cons_self _ _)
      · exact ih (idx+1)

omit [IsStrictOrderedRing K] in
theorem truePositives_length (iouThreshold : K) (overlap : List (List K)) (idx : Nat) (detected : List Nat)
    (detections : List (Scored K)) :
    (truePositives iouThreshold overlap idx detected detections).length = detections.length := by
  induction detections generalizing idx detected with
  | nil => rfl
  | cons detection rest ih =>
    unfold truePositives
    split <;> rw [List.length_cons,List.length_cons,ih]

omit [Field K] [IsStrictOrderedRing K] in
theorem low_hits {detections : List (Scored K)} (low : ∀ detection ∈ detections, detection.score < c) (flags : List Bool) :
    hitsFrom c ((detections.map (·.score)).zip flags) = 0 := by
  apply List.countP_eq_zero.mpr
  rintro ⟨score,flag⟩ member
  obtain ⟨detection,inside,rfl⟩ := List.mem_map.mp (List.of_mem_zip member).1
  simp [not_le.mpr (low detection inside)]

omit [IsStrictOrderedRing K] in
theorem low_claimed {detections : List (Scored K)} (low : ∀ detection ∈ detections, detection.score < c)
    (iouThreshold : K) (overlap : List (List K)) (idx : Nat) : claimed c iouThreshold overlap idx detections = [] := by
  induction detections generalizing idx with
  | nil => rfl
  | cons detection rest ih =>
    unfold claimed
    rw [if_neg fun high => absurd high.1 (not_le.mpr (low detection List.mem_cons_self))]
    exact ih (fun other member => low other (List.mem_cons_of_mem _ member)) (idx+1)

omit [Field K] [IsStrictOrderedRing K] in
theorem hitsFrom_cons (c score : K) (flag : Bool) (rest : List (K × Bool)) :
    hitsFrom c ((score,flag) :: rest) = hitsFrom c rest+if c ≤ score ∧ flag = true then 1 else 0 := by
  rw [hitsFrom,List.countP_cons]
  simp [hitsFrom]

-- As many hits as annotations reached: which detection takes an annotation
-- first makes no difference to the count.
omit [IsStrictOrderedRing K] in
theorem matched_card {detections : List (Scored K)} (sorted : detections.Pairwise fun a b => b.score ≤ a.score)
    (c iouThreshold : K) (overlap : List (List K)) (idx : Nat) (detected : List Nat) :
    hitsFrom c ((detections.map (·.score)).zip (truePositives iouThreshold overlap idx detected detections)) =
      ((claimed c iouThreshold overlap idx detections).toFinset \ detected.toFinset).card := by
  induction detections generalizing idx detected with
  | nil => simp [hitsFrom,claimed]
  | cons detection rest ih =>
    rw [List.pairwise_cons] at sorted
    by_cases high : c ≤ detection.score
    · unfold truePositives claimed
      by_cases enough : iouThreshold ≤ assignedOverlap overlap idx
      · rw [if_pos (show c ≤ detection.score ∧ _ from ⟨high,enough⟩),List.toFinset_cons]
        by_cases taken : assigned overlap idx ∈ detected
        · rw [if_neg fun both => both.2 taken,List.map_cons,List.zip_cons_cons,hitsFrom_cons,ih sorted.2,
            Finset.insert_sdiff_of_mem _ (List.mem_toFinset.mpr taken)]
          simp
        · rw [if_pos ⟨enough,taken⟩,List.map_cons,List.zip_cons_cons,hitsFrom_cons,ih sorted.2,
            Finset.insert_sdiff_of_notMem _ (fun old => taken (List.mem_toFinset.mp old)),if_pos ⟨high,rfl⟩]
          have first : insert (assigned overlap idx)
              ((claimed c iouThreshold overlap (idx+1) rest).toFinset \ detected.toFinset) =
              insert (assigned overlap idx) ((claimed c iouThreshold overlap (idx+1) rest).toFinset \
                (assigned overlap idx :: detected).toFinset) := by
            ext a
            simp only [Finset.mem_insert,Finset.mem_sdiff,List.mem_toFinset,List.mem_cons,not_or]
            tauto
          rw [first,Finset.card_insert_of_notMem (by simp)]
      · rw [if_neg fun both => enough both.1,if_neg fun both => enough both.2,List.map_cons,List.zip_cons_cons,
          hitsFrom_cons,ih sorted.2]
        simp
    · have low : ∀ other ∈ detection :: rest, other.score < c := by
        intro other member
        rcases List.mem_cons.mp member with rfl | later
        · exact not_le.mp high
        · exact lt_of_le_of_lt (sorted.1 other later) (not_le.mp high)
      rw [low_hits low,low_claimed low]
      simp

omit [IsStrictOrderedRing K] in
theorem frame_hits {frame : Frame K} (sorted : (frame.detections label).Pairwise fun a b => b.score ≤ a.score)
    {s t : K} (stricter : s ≤ t) (overlap : List (List K)) (c : K) :
    hitsFrom c (frameEntries frame label t overlap) ≤ hitsFrom c (frameEntries frame label s overlap) := by
  unfold frameEntries
  split
  · exact Nat.le_refl _
  · rw [matched_card sorted,matched_card sorted]
    apply Finset.card_le_card
    apply Finset.sdiff_subset_sdiff _ (Finset.Subset.refl _)
    intro a member
    rw [List.mem_toFinset] at member ⊢
    exact claimed_mono stricter c overlap 0 (frame.detections label) member

omit [IsStrictOrderedRing K] in
theorem entries_hits {frames : List (Frame K)}
    (sorted : ∀ frame ∈ frames, (frame.detections label).Pairwise fun a b => b.score ≤ a.score)
    {s t : K} (stricter : s ≤ t) (overlaps : Overlaps K) (c : K) (i : Nat) :
    hitsFrom c (entriesFrom label t overlaps i frames) ≤ hitsFrom c (entriesFrom label s overlaps i frames) := by
  induction frames generalizing i with
  | nil => exact Nat.le_refl _
  | cons frame rest ih =>
    have here := frame_hits (sorted frame List.mem_cons_self) stricter (overlaps i label) c
    have later := ih (fun other member => sorted other (List.mem_cons_of_mem _ member)) (i+1)
    unfold hitsFrom at here later ⊢
    simp only [entriesFrom,List.countP_append]
    exact Nat.add_le_add here later

def classScores (frames : List (Frame K)) (label : Nat) : List K :=
  frames.flatMap fun frame => (frame.detections label).map (·.score)

omit [IsStrictOrderedRing K] in
theorem frameEntries_scores (frame : Frame K) (label : Nat) (iouThreshold : K) (overlap : List (List K)) :
    (frameEntries frame label iouThreshold overlap).map (·.1) = (frame.detections label).map (·.score) := by
  apply List.map_fst_zip
  rw [List.length_map]
  split
  · rw [List.length_map]
  · rw [truePositives_length]

omit [IsStrictOrderedRing K] in
theorem entries_scores (frames : List (Frame K)) (label : Nat) (iouThreshold : K) (overlaps : Overlaps K) (i : Nat) :
    (entriesFrom label iouThreshold overlaps i frames).map (·.1) = classScores frames label := by
  induction frames generalizing i with
  | nil => rfl
  | cons frame rest ih =>
    rw [entriesFrom,List.map_append,frameEntries_scores,ih]
    rfl

theorem averagePrecision_gain (frames : List (Frame K)) (label : Nat) (iouThreshold : K) (overlaps : Overlaps K) :
    averagePrecision frames label iouThreshold overlaps =
      gain 0 0 (ranked (entriesFrom label iouThreshold overlaps 0 frames))/numAnnotations frames label := by
  unfold averagePrecision
  split
  · rename_i none
    rw [none,Nat.cast_zero,div_zero]
  · rename_i some
    exact computeAp_gain _ (Nat.pos_of_ne_zero some)

-- The lists average_precisions is documented to take, without equal scores.
structure Ranked (frames : List (Frame K)) (numClasses : Nat) : Prop where
  sorted : ∀ frame ∈ frames, ∀ label < numClasses, (frame.detections label).Pairwise fun a b => b.score ≤ a.score
  distinct : ∀ label < numClasses, (classScores frames label).Nodup

theorem averagePrecision_stricter {frames : List (Frame K)} (lists : Ranked frames numClasses) (below : label < numClasses)
    {s t : K} (stricter : s ≤ t) (overlaps : Overlaps K) :
    averagePrecision frames label t overlaps ≤ averagePrecision frames label s overlaps := by
  rw [averagePrecision_gain,averagePrecision_gain]
  refine div_le_div_of_nonneg_right (AveragePrecision.gain_mono (ranked_dominated ?_ ?_ fun c => ?_)) (Nat.cast_nonneg _)
  · rw [entries_scores,entries_scores]
  · rw [entries_scores]
    exact lists.distinct label below
  · exact entries_hits (fun frame member => lists.sorted frame member label below) stricter overlaps c 0

theorem averagePrecisions_stricter {frames : List (Frame K)} (lists : Ranked frames numClasses) {s t : K}
    (stricter : s ≤ t) (overlaps : Overlaps K) :
    List.Forall₂ (· ≤ ·) (averagePrecisions frames numClasses t overlaps)
      (averagePrecisions frames numClasses s overlaps) := by
  unfold averagePrecisions
  rw [List.forall₂_map_left_iff,List.forall₂_map_right_iff,List.forall₂_same]
  intro label member
  exact averagePrecision_stricter lists (List.mem_range.mp member) stricter overlaps

theorem mean_mono {few more : List K} (below : List.Forall₂ (· ≤ ·) few more) :
    ∀ a ∈ mean more, ∀ b ∈ mean few, b ≤ a := by
  intro a first b second
  unfold mean at first second
  split at first
  · cases first
  · split at second
    · cases second
    · cases Option.some.inj first
      cases Option.some.inj second
      rw [below.length_eq]
      exact div_le_div_of_nonneg_right below.sum_le_sum (Nat.cast_nonneg _)

theorem mean_le {values : List K} (below : ∀ v ∈ values, v ≤ a) : ∀ b ∈ mean values, b ≤ a := by
  intro b found
  unfold mean at found
  split at found
  · cases found
  · rename_i some
    cases Option.some.inj found
    have size : (0 : K) < values.length := Nat.cast_pos.mpr (List.length_pos_iff.mpr some)
    rw [div_le_iff₀ size,mul_comm]
    simpa using List.sum_le_card_nsmul values a below

def mapAt (frames : List (Frame K)) (numClasses : Nat) (threshold : K) : Option K :=
  mean (averagePrecisions frames numClasses threshold (overlapsOf frames))

theorem mapAt_stricter {frames : List (Frame K)} (lists : Ranked frames numClasses) {s t : K} (stricter : s ≤ t) :
    ∀ a ∈ mapAt frames numClasses s, ∀ b ∈ mapAt frames numClasses t, b ≤ a :=
  mean_mono (averagePrecisions_stricter lists stricter (overlapsOf frames))

theorem thresholds_sorted : (iouThresholds (K := K)).Pairwise (· ≤ ·) := by
  refine List.pairwise_map.mpr (List.pairwise_lt_range.imp fun {i j} less => ?_)
  have step : (0 : K) ≤ (95/100-1/2)/9 := by norm_num
  have cast : (i : K) ≤ j := Nat.cast_le.mpr (Nat.le_of_lt less)
  linarith [mul_le_mul_of_nonneg_right cast step]

theorem lookup_map {keys : List κ} [DecidableEq κ] (f : κ → β) (member : key ∈ keys) :
    (keys.map fun key => (key,f key)).lookup key = some (f key) := by
  induction keys with
  | nil => cases member
  | cons first rest ih =>
    rw [List.map_cons,List.lookup_cons]
    by_cases same : key = first
    · subst same
      simp
    · have other : (key == first) = false := by simpa using same
      rw [other]
      exact ih ((List.mem_cons.mp member).resolve_left same)

theorem mapM_some {xs : List α} {g : α → Option β} {f : α → β} (all : ∀ x ∈ xs, g x = some (f x)) :
    xs.mapM g = some (xs.map f) := by
  induction xs with
  | nil => rfl
  | cons x rest ih =>
    rw [List.mapM_cons,all x List.mem_cons_self,ih fun y member => all y (List.mem_cons_of_mem _ member)]
    rfl

theorem mapM_mem {xs : List (Option α)} {ys : List α} (ran : xs.mapM id = some ys) (member : y ∈ ys) : some y ∈ xs := by
  induction xs generalizing ys with
  | nil => cases ran; cases member
  | cons x rest ih =>
    rw [List.mapM_cons] at ran
    obtain ⟨first,here,ran⟩ := Option.bind_eq_some_iff.mp ran
    obtain ⟨later,there,made⟩ := Option.bind_eq_some_iff.mp ran
    cases Option.some.inj made
    rcases List.mem_cons.mp member with rfl | old
    · exact List.mem_cons.mpr (.inl here.symm)
    · exact List.mem_cons_of_mem _ (ih there old)

theorem summarise_evaluate (frames : List (Frame K)) (numClasses : Nat) :
    ∃ first sixth, first ∈ iouThresholds ∧ (∀ t ∈ iouThresholds, first ≤ t) ∧ sixth ∈ iouThresholds ∧
      summarise (evaluate frames numClasses).1 = some ⟨mapAt frames numClasses first,mapAt frames numClasses sixth,
        ((iouThresholds.map (mapAt frames numClasses)).mapM id).bind mean⟩ := by
  have shape : (evaluate frames numClasses).1 = iouThresholds.map fun t => (t,mapAt frames numClasses t) := rfl
  have keys : (iouThresholds.map fun t => (t,mapAt frames numClasses t)).map (·.1) = iouThresholds := by
    rw [List.map_map]
    exact List.map_id _
  have size : (iouThresholds (K := K)).length = 10 := rfl
  have sorted := List.pairwise_iff_getElem.mp (thresholds_sorted (K := K))
  have low : 0 < (iouThresholds (K := K)).length := by rw [size]; decide
  have middle : 5 < (iouThresholds (K := K)).length := by rw [size]; decide
  refine ⟨iouThresholds[0],iouThresholds[5],List.getElem_mem low,?_,List.getElem_mem middle,?_⟩
  · intro t member
    obtain ⟨i,inside,rfl⟩ := List.getElem_of_mem member
    rcases Nat.eq_zero_or_pos i with rfl | more
    · exact le_refl _
    · exact sorted 0 i low inside more
  · rw [shape]
    unfold summarise
    rw [keys,thresholds_sorted.insertionSort_eq]
    simp only [List.getElem?_eq_getElem low,List.getElem?_eq_getElem middle,Option.bind_some]
    rw [lookup_map _ (List.getElem_mem low),lookup_map _ (List.getElem_mem middle),
      mapM_some fun t member => lookup_map (mapAt frames numClasses) member]
    rfl

-- A stricter IoU threshold never raises an average precision, nor what is
-- computed from them.
theorem stricter_iou {frames : List (Frame K)} (lists : Ranked frames numClasses) :
    (∀ overlaps s t, s ≤ t → List.Forall₂ (· ≤ ·) (averagePrecisions frames numClasses t overlaps)
      (averagePrecisions frames numClasses s overlaps)) ∧
    (evaluate frames numClasses).1.Pairwise (fun low high => low.1 ≤ high.1 ∧ ∀ a ∈ low.2, ∀ b ∈ high.2, b ≤ a) ∧
    ∃ summary, summarise (evaluate frames numClasses).1 = some summary ∧
      (0 < numClasses → summary.map50.isSome ∧ summary.map75.isSome ∧ summary.map.isSome) ∧
      (∀ a ∈ summary.map50, ∀ b ∈ summary.map75, b ≤ a) ∧ ∀ a ∈ summary.map50, ∀ b ∈ summary.map, b ≤ a := by
  refine ⟨fun overlaps s t stricter => averagePrecisions_stricter lists stricter overlaps,?_,?_⟩
  · refine List.pairwise_map.mpr (thresholds_sorted.imp fun {s t} stricter => ⟨stricter,?_⟩)
    exact mapAt_stricter lists stricter
  obtain ⟨first,sixth,_,least,inside,made⟩ := summarise_evaluate frames numClasses
  refine ⟨_,made,?_,mapAt_stricter lists (least sixth inside),?_⟩
  · intro some
    have number : ∀ t, ∃ v, mapAt frames numClasses t = Option.some v := by
      intro t
      have filled : averagePrecisions frames numClasses t (overlapsOf frames) ≠ [] := by
        unfold averagePrecisions
        rw [Ne,List.map_eq_nil_iff,List.range_eq_nil]
        exact Nat.ne_of_gt some
      exact ⟨_,if_neg filled⟩
    choose value known using number
    have all : (iouThresholds.map (mapAt frames numClasses)).mapM id = Option.some (iouThresholds.map value) := by
      rw [List.mapM_map]
      exact mapM_some fun t _ => known t
    rw [all,known,known]
    exact ⟨rfl,rfl,rfl⟩
  · intro a top b average
    obtain ⟨values,all,within⟩ := Option.bind_eq_some_iff.mp average
    refine mean_le (fun v member => ?_) b within
    obtain ⟨t,place,same⟩ := List.mem_map.mp (mapM_mem all member)
    exact mapAt_stricter lists (least t place) a top v same

end

-- Two detections of one object; the second only counts where the first fails.
def pairFrames : List (Frame ℚ) :=
  [⟨fun _ => [⟨⟨0,0,1,2⟩,9/10⟩,⟨⟨0,0,2,2⟩,8/10⟩],fun _ => [⟨0,0,2,2⟩]⟩]

theorem stricter_iou_pair :
    (∀ overlaps s t, s ≤ t → List.Forall₂ (· ≤ ·) (averagePrecisions pairFrames 1 t overlaps)
      (averagePrecisions pairFrames 1 s overlaps)) ∧
    (evaluate pairFrames 1).1.Pairwise (fun low high => low.1 ≤ high.1 ∧ ∀ a ∈ low.2, ∀ b ∈ high.2, b ≤ a) ∧
    ∃ summary, summarise (evaluate pairFrames 1).1 = some summary ∧
      (0 < 1 → summary.map50.isSome ∧ summary.map75.isSome ∧ summary.map.isSome) ∧
      (∀ a ∈ summary.map50, ∀ b ∈ summary.map75, b ≤ a) ∧ ∀ a ∈ summary.map50, ∀ b ∈ summary.map, b ≤ a := by
  apply stricter_iou
  constructor
  · intro frame member label _
    cases List.mem_singleton.mp member
    simp
    norm_num
  · intro label _
    simp [classScores,pairFrames]

end SymphonyAkida.DetectionMap
