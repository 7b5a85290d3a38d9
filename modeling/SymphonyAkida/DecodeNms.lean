import SymphonyAkida.DecodeExact
import SymphonyAkida.SuppressionLaw

namespace SymphonyAkida.TiledShard
open Outcome
variable {K : Type} [Field K] [LinearOrder K] {numClasses : Nat} {nmsThreshold : K}
  {found : List (Candidate K numClasses)} {scores : List K} {c i k : Nat}

-- In the walk over class c, i zeroes j when both are labelled c and overlap.
def Struck (nmsThreshold : K) (found : List (Candidate K numClasses)) (c i j : Nat) : Prop :=
  ∃ a b, found[i]? = some a ∧ found[j]? = some b ∧ nmsThreshold ≤ iou a.box b.box ∧ a.label = c ∧ b.label = c

open Classical in
theorem strike_value (nmsThreshold : K) (found : List (Candidate K numClasses)) (c i j k : Nat) (scores : List K) :
    (strike nmsThreshold found c i scores j).getD k 0 =
      if k = j ∧ Struck nmsThreshold found c i j then 0 else scores.getD k 0 := by
  unfold strike
  split
  · rename_i a b first second
    have struck : Struck nmsThreshold found c i j ↔ nmsThreshold ≤ iou a.box b.box ∧ a.label = c ∧ b.label = c := by
      simp [Struck,first,second]
    rw [struck]
    by_cases same : k = j
    · subst same
      split
      · rename_i zero
        rw [zero,ite_self]
      · rename_i some_
        have below : k < scores.length := by
          by_contra beyond
          exact some_ (by simp [not_lt.mp beyond])
        split
        · rename_i hit
          rw [if_pos ⟨rfl,hit⟩]
          simp [below]
        · rename_i missed
          rw [if_neg fun both => missed both.2]
    · have apart : ¬(k = j ∧ nmsThreshold ≤ iou a.box b.box ∧ a.label = c ∧ b.label = c) := fun both => same both.1
      simp only [apart,if_false]
      split
      · rfl
      · split
        · simp [List.getElem?_set_ne (Ne.symm same)]
        · rfl
  · rename_i none
    rw [if_neg]
    intro given
    obtain ⟨rfl,a,b,first,second,_⟩ := given
    exact none a b first second

open Classical in
theorem strikes_value (later : List Nat) (scores : List K) :
    (later.foldl (strike nmsThreshold found c i) scores).getD k 0 =
      if k ∈ later ∧ Struck nmsThreshold found c i k then 0 else scores.getD k 0 := by
  induction later generalizing scores with
  | nil => simp
  | cons j later ih =>
    rw [List.foldl_cons,ih,strike_value]
    by_cases struck : Struck nmsThreshold found c i k
    · by_cases here : k = j
      · subst here
        simp [struck]
      · simp [struck,here]
    · have missed : ¬(k = j ∧ Struck nmsThreshold found c i j) := by
        intro given
        obtain ⟨rfl,hit⟩ := given
        exact struck hit
      simp [struck,missed]

theorem walk_value (nmsThreshold : K) (found : List (Candidate K numClasses)) (c k : Nat) (order : List Nat) (scores : List K) :
    (nmsWalk nmsThreshold found c order scores).getD k 0 = scores.getD k 0 ∨
      (nmsWalk nmsThreshold found c order scores).getD k 0 = 0 := by
  induction order generalizing scores with
  | nil => exact .inl rfl
  | cons i rest ih =>
    unfold nmsWalk
    split
    · exact ih scores
    · rcases ih (rest.foldl (strike nmsThreshold found c i) scores) with same | zero
      · rw [same,strikes_value]
        split
        · exact .inr rfl
        · exact .inl rfl
      · exact .inr zero

theorem walk_unstruck (order : List Nat) (scores : List K)
    (free : k ∈ order → ∀ i, ¬Struck nmsThreshold found c i k) :
    (nmsWalk nmsThreshold found c order scores).getD k 0 = scores.getD k 0 := by
  induction order generalizing scores with
  | nil => rfl
  | cons i rest ih =>
    have later : k ∈ rest → ∀ i, ¬Struck nmsThreshold found c i k := fun member => free (List.mem_cons_of_mem _ member)
    unfold nmsWalk
    split
    · exact ih scores later
    · rw [ih _ later,strikes_value,if_neg]
      intro given
      obtain ⟨member,struck⟩ := given
      exact later member i struck

theorem walk_free (nmsThreshold : K) (found : List (Candidate K numClasses)) (c : Nat) (order : List Nat) (scores : List K)
    (distinct : order.Nodup) :
    order.Pairwise fun i j => (nmsWalk nmsThreshold found c order scores).getD i 0 ≠ 0 → classScore found c i ≠ 0 →
      Struck nmsThreshold found c i j → (nmsWalk nmsThreshold found c order scores).getD j 0 = 0 := by
  induction order generalizing scores with
  | nil => exact List.Pairwise.nil
  | cons i rest ih =>
    obtain ⟨fresh,distinct⟩ := List.nodup_cons.mp distinct
    unfold nmsWalk
    rw [List.pairwise_cons]
    refine ⟨fun j member kept scored struck => ?_,ih _ distinct⟩
    rw [walk_unstruck rest _ fun again => absurd again fresh] at kept
    have alive : ¬(scores.getD i 0 = 0 ∨ classScore found c i = 0) := by
      intro given
      rcases given with zero | none
      · rw [if_pos (.inl zero)] at kept
        exact kept zero
      · exact scored none
    rw [if_neg alive]
    rcases walk_value nmsThreshold found c j rest
      (rest.foldl (strike nmsThreshold found c i) scores) with same | zero
    · rw [same,strikes_value,if_pos ⟨member,struck⟩]
    · exact zero

-- What loses its score is struck by an earlier one that keeps its own.
theorem walk_covers (R : Nat → Nat → Prop) (order : List Nat) (scores : List K) (distinct : order.Nodup)
    (sorted : order.Pairwise R) (member : k ∈ order) (alive : scores.getD k 0 ≠ 0)
    (lost : (nmsWalk nmsThreshold found c order scores).getD k 0 = 0) :
    ∃ i ∈ order, R i k ∧ (nmsWalk nmsThreshold found c order scores).getD i 0 ≠ 0 ∧ Struck nmsThreshold found c i k := by
  induction order generalizing scores with
  | nil => cases member
  | cons i rest ih =>
    obtain ⟨fresh,distinct⟩ := List.nodup_cons.mp distinct
    rw [List.pairwise_cons] at sorted
    unfold nmsWalk at lost ⊢
    generalize after : (if scores.getD i 0 = 0 ∨ classScore found c i = 0 then scores
      else rest.foldl (strike nmsThreshold found c i) scores) = next at lost ⊢
    have own : next.getD i 0 = scores.getD i 0 := by
      rw [← after]
      split
      · rfl
      · rw [strikes_value,if_neg fun both => fresh both.1]
    rcases List.mem_cons.mp member with rfl | later
    · rw [walk_unstruck rest _ fun again => absurd again fresh,own] at lost
      exact absurd lost alive
    · by_cases still : next.getD k 0 = 0
      · have hit : scores.getD i 0 ≠ 0 ∧ Struck nmsThreshold found c i k := by
          rw [← after] at still
          split at still
          · exact absurd still alive
          · rename_i active
            rw [strikes_value] at still
            split at still
            · rename_i both
              exact ⟨fun zero => active (.inl zero),both.2⟩
            · exact absurd still alive
        refine ⟨i,List.mem_cons_self,sorted.1 k later,?_,hit.2⟩
        rw [walk_unstruck rest _ fun again => absurd again fresh,own]
        exact hit.1
      · obtain ⟨j,inside,earlier,kept,struck⟩ := ih next distinct sorted.2 later still lost
        exact ⟨j,List.mem_cons_of_mem _ inside,earlier,kept,struck⟩

def walkClass (np : Numpy K) (nmsThreshold : K) (found : List (Candidate K numClasses)) (scores : List K) (c : Nat) :
    List K :=
  nmsWalk nmsThreshold found c (np.argsort (found.map (·.classes.toList.getD c 0))).reverse scores

theorem classes_frame (np : Numpy K) (at_ : found[k]? = some one) (classes : List Nat) (scores : List K)
    (other : one.label ∉ classes) : (classes.foldl (walkClass np nmsThreshold found) scores).getD k 0 = scores.getD k 0 := by
  induction classes generalizing scores with
  | nil => rfl
  | cons c classes ih =>
    rw [List.foldl_cons,ih _ fun later => other (List.mem_cons_of_mem _ later)]
    refine walk_unstruck _ scores fun _ i struck => ?_
    obtain ⟨_,b,_,same,_,_,label⟩ := struck
    cases at_.symm.trans same
    exact other (by rw [label]; exact List.mem_cons_self)

theorem nms_class (np : Numpy K) (nmsThreshold : K) (found : List (Candidate K numClasses)) (below : c < numClasses) :
    ∃ scores, ∀ k one, found[k]? = some one → one.label = c → scores.getD k 0 = one.score ∧
      (nmsScores np nmsThreshold found).getD k 0 = (walkClass np nmsThreshold found scores c).getD k 0 := by
  obtain ⟨before,after,split⟩ := List.append_of_mem (List.mem_range.mpr below)
  have distinct : (before ++ c :: after).Nodup := split ▸ List.nodup_range
  rw [List.nodup_append,List.nodup_cons] at distinct
  have first : c ∉ before := fun member => distinct.2.2 c member c List.mem_cons_self rfl
  refine ⟨before.foldl (walkClass np nmsThreshold found) (found.map (·.score)),fun k one at_ label => ⟨?_,?_⟩⟩
  · rw [classes_frame np at_ before _ (by rw [label]; exact first)]
    simp [at_]
  · have whole : nmsScores np nmsThreshold found =
        (before ++ c :: after).foldl (walkClass np nmsThreshold found) (found.map (·.score)) := by
      rw [← split]
      rfl
    rw [whole,List.foldl_append,List.foldl_cons,classes_frame np at_ after _ (by rw [label]; exact distinct.2.1.1)]

def ownScore (found : List (Candidate K numClasses)) (k : Nat) : K :=
  (found[k]?).elim 0 fun one => one.classes.toList.getD one.label 0

def Rivals (nmsThreshold : K) (found : List (Candidate K numClasses)) (i j : Nat) : Prop :=
  i ≠ j ∧ ∃ c, Struck nmsThreshold found c i j

def Outscores (found : List (Candidate K numClasses)) (i j : Nat) : Prop := ownScore found j < ownScore found i

instance (found : List (Candidate K numClasses)) : IsStrictOrder Nat (Outscores found) where
  irrefl i := lt_irrefl (ownScore found i)
  trans _ _ _ first second := lt_trans second first

theorem walk_order (np : Numpy K) (found : List (Candidate K numClasses)) (c : Nat) :
    let order := (np.argsort (found.map (·.classes.toList.getD c 0))).reverse
    order.Nodup ∧ (∀ k, k ∈ order ↔ k < found.length) ∧
      order.Pairwise fun i j => classScore found c j ≤ classScore found c i := by
  have perm := np.argsort_perm (found.map (·.classes.toList.getD c 0))
  rw [List.length_map] at perm
  refine ⟨List.nodup_reverse.mpr (perm.nodup_iff.mpr List.nodup_range),?_,?_⟩
  · intro k
    rw [List.mem_reverse,perm.mem_iff,List.mem_range]
  · have keys : ∀ k, (found.map (·.classes.toList.getD c 0)).getD k 0 = classScore found c k := by
      intro k
      unfold classScore
      cases at_ : found[k]? <;> simp [at_]
    have sorted := List.pairwise_map.mp (np.argsort_sorted (found.map (·.classes.toList.getD c 0)))
    refine List.pairwise_reverse.mpr (sorted.imp fun {i j} less => ?_)
    rwa [keys,keys] at less

-- What the NMS needs of the candidates: labels are classes, and neither score is 0.
structure Ranked (objThreshold : K) (one : Candidate K numClasses) : Prop where
  label : one.label < numClasses
  own : 0 < one.classes.toList.getD one.label 0
  score : 0 < one.score
  passes : objThreshold < one.score

def DistinctScores (found : List (Candidate K numClasses)) : Prop :=
  ∀ i j a b, found[i]? = some a → found[j]? = some b → i ≠ j → a.label = b.label → ownScore found i ≠ ownScore found j

theorem rivals_label (rivals : Rivals nmsThreshold found i j) : ∃ a b, found[i]? = some a ∧ found[j]? = some b ∧
    a.label = b.label ∧ Struck nmsThreshold found a.label i j := by
  obtain ⟨_,c,struck⟩ := rivals
  obtain ⟨a,b,first,second,_,rfl,same⟩ := id struck
  exact ⟨a,b,first,second,same.symm,struck⟩

omit [LinearOrder K] in
theorem classScore_own (at_ : found[k]? = some one) : classScore found one.label k = ownScore found k := by
  simp [classScore,ownScore,at_]

theorem nms_kernel (np : Numpy K) (ranked : ∀ one ∈ found, Ranked objThreshold one) (distinct : DistinctScores found) :
    Greedy.IsKernel (Rivals nmsThreshold found) (Outscores found) {k | k < found.length}
      {k | k < found.length ∧ (nmsScores np nmsThreshold found).getD k 0 ≠ 0} := by
  refine ⟨fun k member => member.1,?_,?_⟩
  · rintro i ⟨_,first⟩ j ⟨_,second⟩ less rivals
    obtain ⟨a,b,left,right,same,struck⟩ := rivals_label rivals
    obtain ⟨scores,meaning⟩ := nms_class np nmsThreshold found (ranked a (List.mem_of_getElem? left)).label
    obtain ⟨nodup,inside,sorted⟩ := walk_order np found a.label
    rw [(meaning i a left rfl).2] at first
    rw [(meaning j b right same.symm).2] at second
    have free := walk_free nmsThreshold found a.label _ scores nodup
    have scored : classScore found a.label i ≠ 0 := by
      have own := (ranked a (List.mem_of_getElem? left)).own
      simp only [classScore,left,Option.elim_some]
      exact ne_of_gt own
    rcases Greedy.either (sorted.and free) ((inside i).mpr ‹_›) ((inside j).mpr ‹_›) rivals.1 with ⟨_,loses⟩ | ⟨more,_⟩
    · exact second (loses first scored struck)
    · rw [classScore_own left,same,classScore_own right] at more
      exact absurd less (not_lt.mpr more)
  · intro j below
    by_cases kept : (nmsScores np nmsThreshold found).getD j 0 = 0
    · obtain ⟨b,right⟩ : ∃ b, found[j]? = some b := ⟨_,List.getElem?_eq_getElem below⟩
      obtain ⟨scores,meaning⟩ := nms_class np nmsThreshold found (ranked b (List.mem_of_getElem? right)).label
      obtain ⟨nodup,inside,sorted⟩ := walk_order np found b.label
      have alive : scores.getD j 0 ≠ 0 := by
        rw [(meaning j b right rfl).1]
        exact ne_of_gt (ranked b (List.mem_of_getElem? right)).score
      rw [(meaning j b right rfl).2] at kept
      have ordered := sorted.and (List.nodup_iff_pairwise_ne.mp nodup)
      obtain ⟨i,member,⟨least,apart⟩,stays,struck⟩ := walk_covers _ _ scores nodup ordered ((inside j).mpr below) alive kept
      obtain ⟨a,_,left,same,_,label,_⟩ := id struck
      refine .inr ⟨i,⟨(inside i).mp member,?_⟩,⟨apart,_,struck⟩,?_⟩
      · rw [(meaning i a left label).2]
        exact stays
      · rw [← label,classScore_own left,label,classScore_own right] at least
        exact lt_of_le_of_ne least (distinct j i b a right left (Ne.symm apart) label.symm)
    · exact .inl ⟨below,kept⟩

-- The candidates as detections scored for their own label, numbered in tileIds.
def byOwnScore (found : List (Candidate K numClasses)) : TileDetections K where
  boxes := found.map (·.box)
  scores := found.map fun one => one.classes.toList.getD one.label 0
  labels := found.map fun one => (one.label : Int)
  classes := some ⟨numClasses,found.map (·.classes.toList),classRows_width found⟩
  tileIds := List.range found.length
  truncated := none

omit [LinearOrder K] in
theorem byOwnScore_parallel (found : List (Candidate K numClasses)) : Parallel (byOwnScore found) := by
  refine ⟨by simp [byOwnScore],by simp [byOwnScore],?_,by simp [byOwnScore],by simp [byOwnScore]⟩
  intro array same
  cases Option.some.inj same
  simp [byOwnScore]

theorem own_overlaps (first : found[i]? = some a) (second : found[j]? = some b) :
    Overlaps (byOwnScore found) nmsThreshold iou i j ↔ a.label = b.label ∧ nmsThreshold ≤ iou a.box b.box := by
  simp [Overlaps,byOwnScore,first,second]

theorem own_before (found : List (Candidate K numClasses)) (prefer : Bool) (i j : Nat) :
    VisitedBefore (byOwnScore found) prefer i j ↔
      Outscores found i j ∨ ownScore found i = ownScore found j ∧ i < j := by
  have score : ∀ k, (byOwnScore found).scores.getD k 0 = ownScore found k := by
    intro k
    cases at_ : found[k]? <;> simp [byOwnScore,ownScore,at_]
  have flag : ∀ k, cutOff (byOwnScore found) k = false := fun _ => rfl
  simp only [VisitedBefore,flag,score,Outscores]
  simp

theorem law_kernel (law : Law (byOwnScore found) nmsThreshold iou prefer false keep) (distinct : DistinctScores found) :
    Greedy.IsKernel (Rivals nmsThreshold found) (Outscores found) {k | k < found.length} {k | k ∈ keep} := by
  have size : (byOwnScore found).boxes.length = found.length := by simp [byOwnScore]
  refine ⟨?_,?_,?_⟩
  · intro k member
    exact size ▸ ((law.kept k).mp member).1
  · intro i first j second less rivals
    obtain ⟨a,b,left,right,same,_,_,here,there,hit,_⟩ := rivals_label rivals
    cases left.symm.trans here
    cases right.symm.trans there
    rcases ((law.kept j).mp second).2 with barred | spared
    · cases barred
    · exact spared i first ((own_before found prefer i j).mpr (.inl less)) ((own_overlaps left right).mpr ⟨same,hit⟩)
  · intro j below
    by_cases kept : j ∈ keep
    · exact .inl kept
    · right
      have struck : ∃ i ∈ keep, VisitedBefore (byOwnScore found) prefer i j ∧
          Overlaps (byOwnScore found) nmsThreshold iou i j := by
        by_contra none
        refine kept ((law.kept j).mpr ⟨size.symm ▸ below,.inr fun i inside before overlapped => ?_⟩)
        exact none ⟨i,inside,before,overlapped⟩
      obtain ⟨i,inside,before,overlapped⟩ := struck
      have within : i < found.length := size ▸ ((law.kept i).mp inside).1
      have left := List.getElem?_eq_getElem within
      have right := List.getElem?_eq_getElem (show j < found.length from below)
      obtain ⟨same,hit⟩ := (own_overlaps left right).mp overlapped
      have apart : i ≠ j := fun equal => kept (equal ▸ inside)
      refine ⟨i,inside,⟨apart,_,_,_,left,right,hit,same,rfl⟩,?_⟩
      rcases (own_before found prefer i j).mp before with less | ⟨equal,_⟩
      · exact less
      · exact absurd equal (distinct i j _ _ left right apart same)

theorem strike_length (nmsThreshold : K) (found : List (Candidate K numClasses)) (c i j : Nat) (scores : List K) :
    (strike nmsThreshold found c i scores j).length = scores.length := by
  unfold strike
  split
  · split
    · rfl
    · split
      · exact List.length_set
      · rfl
  · rfl

theorem strikes_length (later : List Nat) (scores : List K) :
    (later.foldl (strike nmsThreshold found c i) scores).length = scores.length := by
  induction later generalizing scores with
  | nil => rfl
  | cons j later ih =>
    rw [List.foldl_cons,ih,strike_length]

theorem walk_length (order : List Nat) (scores : List K) :
    (nmsWalk nmsThreshold found c order scores).length = scores.length := by
  induction order generalizing scores with
  | nil => rfl
  | cons i rest ih =>
    unfold nmsWalk
    rw [ih]
    split
    · rfl
    · exact strikes_length rest scores

theorem nms_length (np : Numpy K) (nmsThreshold : K) (found : List (Candidate K numClasses)) :
    (nmsScores np nmsThreshold found).length = found.length := by
  have all : ∀ (classes : List Nat) (scores : List K),
      (classes.foldl (walkClass np nmsThreshold found) scores).length = scores.length := by
    intro classes
    induction classes with
    | nil => exact fun _ => rfl
    | cons c classes ih => exact fun scores => (ih _).trans (walk_length _ scores)
  exact (all _ _).trans (List.length_map _)

theorem filter_rescored {found : List (Candidate K numClasses)} {scores : List K} (same : scores.length = found.length)
    (zeroed : ∀ k one, found[k]? = some one → scores.getD k 0 = one.score ∨ scores.getD k 0 = 0)
    (nonneg : 0 ≤ objThreshold) (ranked : ∀ one ∈ found, Ranked objThreshold one) :
    (rescored found scores).filter (objThreshold < ·.score) =
      ((found.zip (scores.map (decide <| · ≠ 0))).filter (·.2)).map (·.1) := by
  induction found generalizing scores with
  | nil => rfl
  | cons one found ih =>
    cases scores with
    | nil => cases same
    | cons s scores =>
      have later := ih (Nat.succ.inj same) (fun k other at_ => zeroed (k+1) other at_)
        fun other member => ranked other (List.mem_cons_of_mem _ member)
      have first := ranked one List.mem_cons_self
      have whole : rescored (one :: found) (s :: scores) = {one with score := s} :: rescored found scores := rfl
      rw [whole,List.map_cons,List.zip_cons_cons,List.filter_cons,List.filter_cons,later]
      rcases zeroed 0 one rfl with kept | lost
      · cases (show s = one.score from kept)
        simp [first.passes,ne_of_gt first.score]
      · cases (show s = 0 from lost)
        simp [nonneg]

theorem pick_zip {rows : List α} {mask : List Bool} (same : mask.length = rows.length) :
    pick rows (maskIndices mask) = ((rows.zip mask).filter (·.2)).map (·.1) := by
  have taken := pick_mask (rows.zip mask) (·.2)
  rw [List.map_snd_zip (Nat.le_of_eq same)] at taken
  rw [← taken,← pick_map,List.map_fst_zip (Nat.le_of_eq same.symm)]

theorem nms_value {np : Numpy K} (ranked : ∀ one ∈ found, Ranked objThreshold one) (at_ : found[k]? = some one) :
    (nmsScores np nmsThreshold found).getD k 0 = one.score ∨ (nmsScores np nmsThreshold found).getD k 0 = 0 := by
  obtain ⟨scores,meaning⟩ := nms_class np nmsThreshold found (ranked one (List.mem_of_getElem? at_)).label
  obtain ⟨before,after⟩ := meaning k one at_ rfl
  rw [after,← before]
  exact walk_value nmsThreshold found one.label k _ scores

theorem mask_mem {scores : List K} :
    k ∈ maskIndices (scores.map (decide <| · ≠ 0)) ↔ k < scores.length ∧ scores.getD k 0 ≠ 0 := by
  simp only [maskIndices,List.mem_filter,List.mem_range,List.length_map]
  refine and_congr_right fun below => ?_
  simp [below]

theorem pick_indices {keep : List Nat} (inside : ∀ k ∈ keep, k < n) : pick (List.range n) keep = keep := by
  induction keep with
  | nil => rfl
  | cons k rest ih =>
    have below : k < (List.range n).length := by
      rw [List.length_range]
      exact inside k List.mem_cons_self
    rw [pick_cons below,ih fun j member => inside j (List.mem_cons_of_mem _ member),List.getElem_range]

theorem marked_kept [IsStrictOrderedRing K] {np : Numpy K} (ranked : ∀ one ∈ found, Ranked objThreshold one)
    (distinct : DistinctScores found) (law : Law (byOwnScore found) nmsThreshold iou prefer false keep) :
    maskIndices ((nmsScores np nmsThreshold found).map (decide <| · ≠ 0)) = keep := by
  have same := Greedy.IsKernel.unique (Set.finite_lt_nat found.length) (nms_kernel np ranked distinct)
    (law_kernel law distinct)
  have members : ∀ k, k ∈ maskIndices ((nmsScores np nmsThreshold found).map (decide <| · ≠ 0)) ↔ k ∈ keep := by
    intro k
    have both : k < found.length ∧ (nmsScores np nmsThreshold found).getD k 0 ≠ 0 ↔ k ∈ keep := Set.ext_iff.mp same k
    rw [← both,mask_mem,nms_length]
  have apart : (maskIndices ((nmsScores np nmsThreshold found).map (decide <| · ≠ 0))).Pairwise (· < ·) :=
    List.pairwise_lt_range.filter _
  have perm := (List.perm_ext_iff_of_nodup (apart.imp Nat.ne_of_lt) (law.ascending.imp Nat.ne_of_lt)).mpr members
  exact perm.eq_of_pairwise (fun a b _ _ first second => absurd first (Nat.lt_asymm second)) apart law.ascending

theorem decoded_ranked [IsStrictOrderedRing K] {np : Numpy K} (exact : Exact np) {output : Output K}
    (ran : candidates np output anchors numClasses objThreshold = .ok found) (member : one ∈ found) :
    Ranked objThreshold one := by
  obtain ⟨m,first,positive,passed,under⟩ := (decoded_labelled exact ran member).best
  have own : one.classes.toList.getD one.label 0 = m := by simp [List.getD_eq_getElem?_getD,first.here]
  have below := (List.getElem?_eq_some_iff.mp first.here).1
  refine ⟨by simpa using below,own ▸ positive,lt_of_lt_of_le positive under,lt_of_lt_of_le passed under⟩

theorem decode_nms [IsStrictOrderedRing K] {np : Numpy K} (exact : Exact np) {output : Output K} (nonneg : 0 ≤ objThreshold)
    (ran : candidates np output anchors numClasses objThreshold = .ok found) (distinct : DistinctScores found)
    (nmsThreshold : K) (prefer : Bool) : ∃ kept, perClassNms (byOwnScore found) nmsThreshold prefer = .ok kept ∧
      decodeTile np output anchors numClasses objThreshold nmsThreshold = .ok (entryOf (pick found kept.tileIds)) ∧
      kept.boxes = (pick found kept.tileIds).map (·.box) ∧
      kept.labels = (pick found kept.tileIds).map (fun one => (one.label : Int)) ∧
      (∀ k < found.length, k ∈ kept.tileIds ↔ (nmsScores np nmsThreshold found).getD k 0 ≠ 0) ∧
      (∀ k < found.length, (nmsScores np nmsThreshold found).getD k 0 ≠ 0 →
        objThreshold < (nmsScores np nmsThreshold found).getD k 0) ∧
      (pick found kept.tileIds).Pairwise fun a b => a.label = b.label → iou a.box b.box < nmsThreshold := by
  have ranked : ∀ one ∈ found, Ranked objThreshold one := fun one member => decoded_ranked exact ran member
  obtain ⟨keep,kept,suppressed,law,picked⟩ := suppress_law (byOwnScore_parallel found) nmsThreshold iou prefer false
  have inside : ∀ k ∈ keep, k < found.length := fun k member => by
    have below := ((law.kept k).mp member).1
    rwa [byOwnScore,List.length_map] at below
  have numbers : kept.tileIds = keep := by
    rw [picked.tileIds]
    exact pick_indices inside
  have marked : maskIndices ((nmsScores np nmsThreshold found).map (decide <| · ≠ 0)) = keep := marked_kept ranked distinct law
  have decoded : decodeTile np output anchors numClasses objThreshold nmsThreshold = .ok (entryOf (pick found keep)) := by
    have size := nms_length np nmsThreshold found
    unfold decodeTile
    rw [ran,ok_bind]
    dsimp only
    rw [filter_rescored size (fun k one at_ => nms_value ranked at_) nonneg ranked,← pick_zip (by rw [List.length_map,size]),marked]
    rfl
  refine ⟨kept,suppressed,?_⟩
  rw [numbers]
  refine ⟨decoded,?_,?_,?_,?_,?_⟩
  · rw [picked.boxes,byOwnScore,pick_map]
  · rw [picked.labels,byOwnScore,pick_map]
  · intro k below
    rw [← marked,mask_mem,nms_length]
    exact and_iff_right below
  · intro k below left
    have at_ := List.getElem?_eq_getElem below
    rcases nms_value ranked at_ with same | zero
    · rw [same]
      exact (ranked _ (List.getElem_mem below)).passes
    · exact absurd zero left
  · refine List.pairwise_filterMap.mpr (law.ascending.imp_of_mem fun {i j} first second less a left b right same => ?_)
    have apart := law_apart law iou_comm first second (Nat.ne_of_lt less)
    rw [own_overlaps left right] at apart
    exact not_le.mp fun hit => apart ⟨same,hit⟩

def powers : Numpy ℚ := .exact (fun x => 2^x.floor) fun _ => le_of_lt (zpow_pos two_pos _)

theorem powers_exact : Exact powers := ⟨fun _ => zpow_pos two_pos _,fun _ => rfl⟩

-- Three boxes about one centre, the first two of one class.
def centred : Output ℚ := ⟨1,1,[0,0,0,0,3,4,0,0, 0,0,0,0,2,4,0,0, 0,0,0,0,1,0,4,0]⟩

def centredAnchors : List (ℚ × ℚ) := [(1,1),(3/4,3/4),(1/2,1/2)]

theorem decode_nms_centred : ∃ found : List (Candidate ℚ 3), candidates powers centred centredAnchors 3 (3/10) = .ok found ∧
    found.map (fun one => (one.box,one.label)) = [(⟨0,0,1,1⟩,0),(⟨1/8,1/8,7/8,7/8⟩,0),(⟨1/4,1/4,3/4,3/4⟩,1)] ∧
    ∃ kept, perClassNms (byOwnScore found) (1/2) true = .ok kept ∧ kept.tileIds = [0,2] ∧
      decodeTile powers centred centredAnchors 3 (3/10) (1/2) = .ok (entryOf (pick found kept.tileIds)) ∧
      kept.boxes = [⟨0,0,1,1⟩,⟨1/4,1/4,3/4,3/4⟩] ∧ (nmsScores powers (1/2) found).getD 1 0 = 0 ∧
      (pick found kept.tileIds).Pairwise fun a b => a.label = b.label → iou a.box b.box < 1/2 := by
  have ran : (candidates powers centred centredAnchors 3 (3/10)).toOption.map
      (·.map fun one => (one.box,one.label)) = some [(⟨0,0,1,1⟩,0),(⟨1/8,1/8,7/8,7/8⟩,0),(⟨1/4,1/4,3/4,3/4⟩,1)] := by
    decide +kernel
  obtain ⟨found,returned,shape⟩ := Option.map_eq_some_iff.mp ran
  have first := toOption_ok returned
  have own : (candidates powers centred centredAnchors 3 (3/10) >>= fun found =>
      perClassNms (byOwnScore found) (1/2) true).toOption.map (fun kept => (kept.tileIds,kept.boxes)) =
        some ([0,2],[⟨0,0,1,1⟩,⟨1/4,1/4,3/4,3/4⟩]) := by decide +kernel
  have scores : (candidates powers centred centredAnchors 3 (3/10)).toOption.map
      (fun found => (byOwnScore found).scores) = some [64/81,32/45,16/27] := by decide +kernel
  rw [returned,Option.map_some,Option.some.injEq] at scores
  have distinct : DistinctScores found := by
    intro i j a b left right apart _ same
    have nodup : (byOwnScore found).scores.Nodup := by
      rw [scores]
      decide +kernel
    have column : ∀ k one, found[k]? = some one → (byOwnScore found).scores[k]? = some (ownScore found k) := by
      intro k one at_
      simp [byOwnScore,ownScore,at_]
    have inside : i < (byOwnScore found).scores.length := (List.getElem?_eq_some_iff.mp (column i a left)).1
    exact apart ((List.getElem?_inj inside nodup).mp (by rw [column i a left,column j b right,same]))
  obtain ⟨kept,suppressed,decoded,_,_,left,_,separate⟩ := decode_nms powers_exact (by norm_num) first distinct (1/2) true
  rw [first,ok_bind,suppressed] at own
  obtain ⟨ids,boxes⟩ := Prod.mk.inj (Option.some.inj own)
  refine ⟨found,first,shape,kept,suppressed,ids,decoded,boxes,?_,separate⟩
  have size : found.length = 3 := by simpa using congrArg List.length shape
  by_contra some_
  have member := (left 1 (by omega)).mpr some_
  rw [ids] at member
  exact absurd member (by decide)

end SymphonyAkida.TiledShard
