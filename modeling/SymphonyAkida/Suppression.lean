import SymphonyAkida.Detections
import SymphonyAkida.Library.Greedy
import SymphonyAkida.Library.Order
import Mathlib.Data.Prod.Lex

namespace SymphonyAkida.TiledShard
variable {K : Type} [Field K] [LinearOrder K]

-- The visiting order of _greedy_suppress. np.lexsort takes the last key as
-- primary, so complete boxes lead and the score breaks ties.
def visitOrder (detections : TileDetections K) (preferComplete : Bool) : List Nat :=
  let score := fun i => -detections.scores.getD i 0
  let num := detections.boxes.length
  match preferComplete,detections.truncated with
  | true,some truncated => Argsort.argsort (fun i => toLex (truncated.getD i false,score i)) num
  | _,_ => Argsort.argsort score num

def eligible (detections : TileDetections K) (onlyTruncatedVictims : Bool) (j : Nat) : Bool :=
  match onlyTruncatedVictims,detections.truncated with
  | true,some truncated => truncated.getD j false
  | _,_ => true

def victims (detections : TileDetections K) (threshold : K) (overlap : Box K → Box K → K)
    (onlyTruncatedVictims : Bool) (idx j : Nat) : Bool :=
  j ≠ idx && detections.labels.getD idx 0 == detections.labels.getD j 0 &&
    decide (threshold ≤ overlap (detections.boxes.getD idx default) (detections.boxes.getD j default)) &&
    eligible detections onlyTruncatedVictims j

def suppressStep (num : Nat) (victims : Nat → Nat → Bool) (state : List Nat × List Bool) (idx : Nat) :
    List Nat × List Bool :=
  let (keep,suppressed) := state
  if suppressed.getD idx false then state
  else (keep ++ [idx],(List.range num).map fun j => suppressed.getD j false || victims idx j)

-- `overlap` is score_matrix_fn at one pair of boxes.
def greedySuppress (detections : TileDetections K) (threshold : K) (overlap : Box K → Box K → K)
    (preferComplete onlyTruncatedVictims : Bool) : Except Error (TileDetections K) :=
  let num := detections.boxes.length
  if num = 0 then .ok detections
  else
    let loop := (visitOrder detections preferComplete).foldl
      (suppressStep num (victims detections threshold overlap onlyTruncatedVictims))
      ([],List.replicate num false)
    index detections (loop.1.insertionSort (· ≤ ·))

def perClassNms (detections : TileDetections K) (iouThreshold : K) (preferComplete : Bool) :
    Except Error (TileDetections K) := greedySuppress detections iouThreshold iou preferComplete false

def suppressContained (detections : TileDetections K) (iosThreshold : K)
    (preferComplete onlyTruncatedVictims : Bool) : Except Error (TileDetections K) :=
  greedySuppress detections iosThreshold ios preferComplete onlyTruncatedVictims

-- The mask is a way to remember which earlier choice hit what.
theorem loop_select (hits : Nat → Nat → Bool) (order : List Nat) (inside : ∀ i ∈ order, i < num)
    (mask : ∀ j < num, suppressed.getD j false = keep.any (hits · j)) :
    (order.foldl (suppressStep num hits) (keep,suppressed)).1 = Greedy.select hits keep order := by
  induction order generalizing keep suppressed with
  | nil => rfl
  | cons idx rest ih =>
    have below := inside idx List.mem_cons_self
    have later : ∀ i ∈ rest, i < num := fun i member => inside i (List.mem_cons_of_mem _ member)
    rw [List.foldl_cons]
    unfold suppressStep Greedy.select
    simp only [mask idx below]
    split
    · exact ih later mask
    · refine ih later fun j less => ?_
      simp only [List.getD_eq_getElem?_getD,List.getElem?_map,List.getElem?_range less,
        Option.map_some,Option.getD_some,List.any_append,List.any_cons,List.any_nil,Bool.or_false]
      rw [← List.getD_eq_getElem?_getD,mask j less]

-- truncated[i], and False throughout when there is no such array.
def cutOff (detections : TileDetections K) (i : Nat) : Bool := detections.truncated.elim false (·.getD i false)

-- Complete boxes before truncated ones when these are preferred, then the
-- higher score, then the lower index.
def VisitedBefore (detections : TileDetections K) (preferComplete : Bool) (i j : Nat) : Prop :=
  (preferComplete = true ∧ cutOff detections i = false ∧ cutOff detections j = true) ∨
    ((preferComplete = true → cutOff detections i = cutOff detections j) ∧
      (detections.scores.getD j 0 < detections.scores.getD i 0 ∨
        detections.scores.getD i 0 = detections.scores.getD j 0 ∧ i < j))

-- The same label, and i overlaps j by the threshold.
def Overlaps (detections : TileDetections K) (threshold : K) (overlap : Box K → Box K → K) (i j : Nat) : Prop :=
  detections.labels.getD i 0 = detections.labels.getD j 0 ∧
    threshold ≤ overlap (detections.boxes.getD i default) (detections.boxes.getD j default)

-- The indices greedy suppression keeps.
structure Law (detections : TileDetections K) (threshold : K) (overlap : Box K → Box K → K)
    (preferComplete onlyTruncatedVictims : Bool) (keep : List Nat) : Prop where
  ascending : keep.Pairwise (· < ·)
  kept : ∀ k, k ∈ keep ↔ k < detections.boxes.length ∧ (eligible detections onlyTruncatedVictims k = false ∨
    ∀ i ∈ keep, VisitedBefore detections preferComplete i k → ¬Overlaps detections threshold overlap i k)

variable {detections out : TileDetections K} {rows : List (Row K)} {threshold : K}
  {overlap : Box K → Box K → K} {prefer only : Bool}

theorem visit_nodup (detections : TileDetections K) (prefer : Bool) :
    (visitOrder detections prefer).Nodup := by
  unfold visitOrder
  split <;> exact Argsort.argsort_nodup _ _

def chosen (detections : TileDetections K) (threshold : K) (overlap : Box K → Box K → K)
    (prefer only : Bool) : List Nat :=
  Greedy.select (victims detections threshold overlap only) [] (visitOrder detections prefer)

theorem visited_mem (detections : TileDetections K) (prefer : Bool) :
    i ∈ visitOrder detections prefer ↔ i < detections.boxes.length := by
  unfold visitOrder
  split <;> exact Argsort.mem_argsort

theorem victims_iff : victims detections threshold overlap only i j = true ↔
    j ≠ i ∧ Overlaps detections threshold overlap i j ∧ eligible detections only j = true := by
  simp only [victims,Overlaps,Bool.and_eq_true,decide_eq_true_eq,beq_iff_eq]
  tauto

theorem visited_total (detections : TileDetections K) (prefer : Bool) (apart : i ≠ j) :
    VisitedBefore detections prefer i j ∨ VisitedBefore detections prefer j i := by
  have ranked : ∀ s t : K, (t < s ∨ s = t ∧ i < j) ∨ (s < t ∨ t = s ∧ j < i) := by
    intro s t
    rcases lt_trichotomy s t with less | same | more
    · exact .inr (.inl less)
    · rcases Nat.lt_or_gt_of_ne apart with first | first
      · exact .inl (.inr ⟨same,first⟩)
      · exact .inr (.inr ⟨same.symm,first⟩)
    · exact .inl (.inl more)
  by_cases flags : prefer = true → cutOff detections i = cutOff detections j
  · rcases ranked (detections.scores.getD i 0) (detections.scores.getD j 0) with first | second
    · exact .inl (.inr ⟨flags,first⟩)
    · exact .inr (.inr ⟨fun on => (flags on).symm,second⟩)
  · obtain ⟨on,differ⟩ := Classical.not_imp.mp flags
    cases left : cutOff detections i with
    | false =>
      cases right : cutOff detections j with
      | false => exact absurd (left.trans right.symm) differ
      | true => exact .inl (.inl ⟨on,left,right⟩)
    | true =>
      cases right : cutOff detections j with
      | false => exact .inr (.inl ⟨on,right,left⟩)
      | true => exact absurd (left.trans right.symm) differ

theorem visited_asymm (first : VisitedBefore detections prefer i j) : ¬VisitedBefore detections prefer j i := by
  intro second
  rcases first with ⟨on,open_,shut⟩ | ⟨same,first⟩
  · rcases second with ⟨_,bad,_⟩ | ⟨same,_⟩
    · rw [bad] at shut; cases shut
    · have equal := same on; rw [open_,shut] at equal; cases equal
  · rcases second with ⟨on,open_,shut⟩ | ⟨_,second⟩
    · have equal := same on; rw [open_,shut] at equal; cases equal
    · rcases first with less | ⟨equal,less⟩
      · rcases second with more | ⟨equal,_⟩
        · exact lt_asymm less more
        · exact ne_of_gt less equal.symm
      · rcases second with more | ⟨_,more⟩
        · exact ne_of_lt more equal
        · exact Nat.lt_asymm less more

theorem visited_sorted [IsStrictOrderedRing K] (detections : TileDetections K) (prefer : Bool) :
    (visitOrder detections prefer).Pairwise (VisitedBefore detections prefer) := by
  have apart := visit_nodup detections prefer
  unfold visitOrder at apart ⊢
  split at apart
  · rename_i truncated some_
    refine ((Argsort.argsort_sorted _ _).and apart).imp fun {i j} both => ?_
    obtain ⟨ordered,differ⟩ := both
    simp only [Argsort.before,Prod.Lex.toLex_lt_toLex,neg_lt_neg_iff,toLex_inj,Prod.mk.injEq,neg_inj] at ordered
    have flag : ∀ k, cutOff detections k = truncated.getD k false := fun k => by rw [cutOff,some_]; rfl
    unfold VisitedBefore
    rw [flag,flag]
    rcases ordered with (flags | ⟨flags,score⟩) | ⟨⟨flags,score⟩,least⟩
    · exact .inl ⟨rfl,Bool.lt_iff.mp flags⟩
    · exact .inr ⟨fun _ => flags,.inl score⟩
    · exact .inr ⟨fun _ => flags,.inr ⟨score,Nat.lt_of_le_of_ne least differ⟩⟩
  · rename_i prefer _ _ plain
    refine ((Argsort.argsort_sorted _ _).and apart).imp fun {i j} both => ?_
    obtain ⟨ordered,differ⟩ := both
    simp only [Argsort.before,neg_lt_neg_iff,neg_inj] at ordered
    have flags : prefer = true → cutOff detections i = cutOff detections j := by
      intro on
      cases same : detections.truncated with
      | none => simp [cutOff,same]
      | some truncated => exact (plain truncated on same).elim
    rcases ordered with score | ⟨score,least⟩
    · exact .inr ⟨flags,.inl score⟩
    · exact .inr ⟨flags,.inr ⟨score,Nat.lt_of_le_of_ne least differ⟩⟩

theorem chosen_mem_lt (member : k ∈ chosen detections threshold overlap prefer only) :
    k < detections.boxes.length := by
  obtain ⟨more,same,inside⟩ := Greedy.select_mono (victims detections threshold overlap only) []
    (visitOrder detections prefer)
  rw [chosen,same,List.nil_append] at member
  exact (visited_mem detections prefer).mp (inside.subset member)

theorem greedySuppress_chosen (detections : TileDetections K) (threshold : K) (overlap : Box K → Box K → K)
    (prefer only : Bool) : greedySuppress detections threshold overlap prefer only =
      if detections.boxes.length = 0 then .ok detections
      else index detections ((chosen detections threshold overlap prefer only).insertionSort (· ≤ ·)) := by
  unfold greedySuppress
  dsimp only
  rw [loop_select _ _ fun i member => (visited_mem detections prefer).mp member]
  · rfl
  · intro j below
    simp [below]

section
variable [IsStrictOrderedRing K]

theorem chosen_law (detections : TileDetections K) (threshold : K) (overlap : Box K → Box K → K)
    (prefer only : Bool) : Law detections threshold overlap prefer only
      ((chosen detections threshold overlap prefer only).insertionSort (· ≤ ·)) := by
  obtain ⟨more,same,inside⟩ := Greedy.select_mono (victims detections threshold overlap only) []
    (visitOrder detections prefer)
  rw [List.nil_append] at same
  have distinct : (chosen detections threshold overlap prefer only).Nodup := by
    rw [chosen,same]; exact (visit_nodup detections prefer).sublist inside
  have ordered : (chosen detections threshold overlap prefer only).Pairwise (VisitedBefore detections prefer) := by
    rw [chosen,same]; exact (visited_sorted detections prefer).sublist inside
  have free : (chosen detections threshold overlap prefer only).Pairwise
      fun i j => victims detections threshold overlap only i j = false :=
    Greedy.select_free List.Pairwise.nil
  refine ⟨?_,fun k => ?_⟩
  · have sorted := List.pairwise_insertionSort (· ≤ ·) (chosen detections threshold overlap prefer only)
    have apart := (List.perm_insertionSort (· ≤ ·)
      (chosen detections threshold overlap prefer only)).nodup_iff.mpr distinct
    exact (sorted.and apart).imp fun both => Nat.lt_of_le_of_ne both.1 both.2
  simp only [List.mem_insertionSort]
  constructor
  · intro member
    refine ⟨chosen_mem_lt member,?_⟩
    cases may : eligible detections only k with
    | false => exact .inl rfl
    | true =>
      refine .inr fun i kept before overlapped => ?_
      have apart : i ≠ k := by
        rintro rfl
        exact visited_asymm before before
      rcases Greedy.either (ordered.and free) kept member apart with ⟨_,missed⟩ | ⟨after,_⟩
      · rw [victims_iff.mpr ⟨Ne.symm apart,overlapped,may⟩] at missed
        cases missed
      · exact visited_asymm before after
  · intro given
    obtain ⟨below,spared⟩ := given
    have covered : k ∈ chosen detections threshold overlap prefer only ∨
        ∃ i ∈ chosen detections threshold overlap prefer only,
          victims detections threshold overlap only i k = true ∧ VisitedBefore detections prefer i k :=
      Greedy.select_covers (VisitedBefore detections prefer) (visited_sorted detections prefer) (by simp)
        ((visited_mem detections prefer).mpr below)
    rcases covered with kept | ⟨i,kept,hit,before⟩
    · exact kept
    · obtain ⟨_,overlapped,may⟩ := victims_iff.mp hit
      rcases spared with barred | spared
      · rw [may] at barred; cases barred
      · exact absurd overlapped (spared i kept before)

end

def Precedes (preferComplete : Bool) (rows : List (Row K)) (i j : Nat) : Prop :=
  ∃ a b, rows[i]? = some a ∧ rows[j]? = some b ∧
    ((preferComplete = true ∧ a.truncated = false ∧ b.truncated = true) ∨
      ((preferComplete = true → a.truncated = b.truncated) ∧
        (b.score < a.score ∨ a.score = b.score ∧ i ≤ j)))

def Hits (threshold : K) (overlap : Box K → Box K → K) (onlyTruncatedVictims : Bool)
    (rows : List (Row K)) (i j : Nat) : Prop :=
  ∃ a b, rows[i]? = some a ∧ rows[j]? = some b ∧ j ≠ i ∧ a.label = b.label ∧
    threshold ≤ overlap a.box b.box ∧ (onlyTruncatedVictims = true → b.truncated = true)

-- What greedy suppression leaves: in index order, no survivor removed by an
-- earlier one, everything else removed by an earlier survivor.
structure Survivors (threshold : K) (overlap : Box K → Box K → K)
    (preferComplete onlyTruncatedVictims : Bool) (rows : List (Row K)) (keep : List Nat) : Prop where
  sorted : keep.Pairwise (· < ·)
  inside : ∀ i ∈ keep, i < rows.length
  free : ∀ i ∈ keep, ∀ j ∈ keep, Precedes preferComplete rows i j →
    ¬Hits threshold overlap onlyTruncatedVictims rows i j
  covers : ∀ j < rows.length, j ∈ keep ∨ ∃ i ∈ keep,
    Hits threshold overlap onlyTruncatedVictims rows i j ∧ Precedes preferComplete rows i j

theorem getD_column {rows : List α} (f : α → β) (default : β) (below : i < rows.length) :
    (rows.map f).getD i default = f rows[i] := by simp [below]

theorem victims_hits (shown : Shown detections rows) (first : i < rows.length) (second : j < rows.length) :
    victims detections threshold overlap only i j = true ↔ Hits threshold overlap only rows i j := by
  have at_ : eligible detections only j = true ↔ (only = true → rows[j].truncated = true) := by
    unfold eligible
    rw [shown.truncated]
    cases only <;> simp [second]
  simp only [victims,at_,shown.labels,shown.boxes,getD_column _ _ first,getD_column _ _ second,
    Bool.and_eq_true,decide_eq_true_eq,beq_iff_eq,Hits,List.getElem?_eq_getElem first,
    List.getElem?_eq_getElem second,Option.some.injEq]
  constructor
  · intro given
    obtain ⟨⟨⟨other,label⟩,hit⟩,may⟩ := given
    exact ⟨_,_,rfl,rfl,other,label,hit,may⟩
  · intro given
    obtain ⟨_,_,rfl,rfl,other,label,hit,may⟩ := given
    exact ⟨⟨⟨other,label⟩,hit⟩,may⟩

theorem visited_precedes (shown : Shown detections rows) (first : i < rows.length) (second : j < rows.length)
    (apart : i ≠ j) : VisitedBefore detections prefer i j ↔ Precedes prefer rows i j := by
  have flag : ∀ k, (below : k < rows.length) → cutOff detections k = rows[k].truncated := fun k below => by
    simp [cutOff,shown.truncated,below]
  have least : i ≤ j ↔ i < j := Nat.le_iff_lt_or_eq.trans (or_iff_left apart)
  simp only [VisitedBefore,Precedes,flag i first,flag j second,shown.scores,getD_column _ _ first,getD_column _ _ second,
    List.getElem?_eq_getElem first,List.getElem?_eq_getElem second,Option.some.injEq,exists_and_left,exists_eq_left',least]

theorem Law.survivors (shown : Shown detections rows) (law : Law detections threshold overlap prefer only keep) :
    Survivors threshold overlap prefer only rows keep := by
  have size : detections.boxes.length = rows.length := by simp [shown.boxes]
  have inside : ∀ i ∈ keep, i < rows.length := fun i member => size ▸ ((law.kept i).mp member).1
  refine ⟨law.ascending,inside,?_,?_⟩
  · intro i first j second before hit
    obtain ⟨apart,overlapped,may⟩ := victims_iff.mp ((victims_hits shown (inside i first) (inside j second)).mpr hit)
    rcases ((law.kept j).mp second).2 with barred | spared
    · rw [may] at barred; cases barred
    · exact spared i first ((visited_precedes shown (inside i first) (inside j second) (Ne.symm apart)).mpr before) overlapped
  · intro j below
    by_cases kept : j ∈ keep
    · exact .inl kept
    · right
      by_contra none
      refine kept ((law.kept j).mpr ⟨size.symm ▸ below,?_⟩)
      cases may : eligible detections only j with
      | false => exact .inl rfl
      | true =>
        refine .inr fun i member before overlapped => none ?_
        have apart : i ≠ j := fun equal => kept (equal ▸ member)
        exact ⟨i,member,(victims_hits shown (inside i member) below).mp (victims_iff.mpr ⟨Ne.symm apart,overlapped,may⟩),
          (visited_precedes shown (inside i member) below apart).mp before⟩

theorem greedySuppress_eq (shown : Shown detections rows) :
    greedySuppress detections threshold overlap prefer only =
      if rows = [] then .ok detections
      else index detections ((chosen detections threshold overlap prefer only).insertionSort (· ≤ ·)) := by
  have size : detections.boxes.length = rows.length := by simp [shown.boxes]
  rw [greedySuppress_chosen]
  simp only [size,List.length_eq_zero_iff]

variable [IsStrictOrderedRing K]

theorem chosen_survive (shown : Shown detections rows) : Survivors threshold overlap prefer only rows
    ((chosen detections threshold overlap prefer only).insertionSort (· ≤ ·)) :=
  (chosen_law detections threshold overlap prefer only).survivors shown

def suppressKept (detections : TileDetections K) (threshold : K) (overlap : Box K → Box K → K) (prefer only : Bool) : List Nat :=
  (chosen detections threshold overlap prefer only).insertionSort (· ≤ ·)

theorem suppress_shown (shown : Shown detections rows)
    (ran : greedySuppress detections threshold overlap prefer only = .ok out) :
    Survivors threshold overlap prefer only rows (suppressKept detections threshold overlap prefer only) ∧
      Shown out (pick rows (suppressKept detections threshold overlap prefer only)) := by
  have survive : Survivors threshold overlap prefer only rows (suppressKept detections threshold overlap prefer only) :=
    chosen_survive shown
  rw [greedySuppress_eq shown] at ran
  split at ran
  · rename_i empty
    cases ran
    subst empty
    have none : suppressKept detections threshold overlap prefer only = [] :=
      List.eq_nil_iff_forall_not_mem.mpr fun i member => Nat.not_lt_zero i (survive.inside i member)
    rw [none]
    exact ⟨none ▸ survive,shown⟩
  · exact ⟨survive,(index_shown shown ran).2⟩

theorem suppress_total (shown : Shown detections rows) (classed : Classed width detections rows) :
    ∃ keep out, Survivors threshold overlap prefer only rows keep ∧
      greedySuppress detections threshold overlap prefer only = .ok out ∧
      Shown out (pick rows keep) ∧ Classed width out (pick rows keep) := by
  rw [greedySuppress_eq shown]
  split
  · rename_i empty
    subst empty
    exact ⟨[],detections,⟨List.Pairwise.nil,by simp,by simp,by simp⟩,rfl,shown,classed⟩
  · obtain ⟨out,ran,kept⟩ := index_total shown classed (chosen_survive shown).inside
    exact ⟨_,out,chosen_survive shown,ran,(index_shown shown ran).2,kept⟩

end SymphonyAkida.TiledShard
