import SymphonyAkida.Suppression
import Mathlib.Algebra.Field.Rat
import Mathlib.Algebra.Order.Ring.Rat

namespace SymphonyAkida.TiledShard
open Outcome
variable {K : Type} [Field K] [LinearOrder K]

-- The arrays of a detection set have one length; classes and truncated may be None.
structure Parallel (detections : TileDetections K) : Prop where
  scores : detections.scores.length = detections.boxes.length
  labels : detections.labels.length = detections.boxes.length
  classes : ∀ array, detections.classes = some array → array.rows.length = detections.boxes.length
  tileIds : detections.tileIds.length = detections.boxes.length
  truncated : ∀ array, detections.truncated = some array → array.length = detections.boxes.length

structure Picked (detections : TileDetections K) (keep : List Nat) (out : TileDetections K) : Prop where
  boxes : out.boxes = pick detections.boxes keep
  scores : out.scores = pick detections.scores keep
  labels : out.labels = pick detections.labels keep
  classes : out.classes.map (fun array => (array.width,array.rows)) =
    detections.classes.map fun array => (array.width,pick array.rows keep)
  tileIds : out.tileIds = pick detections.tileIds keep
  truncated : out.truncated = detections.truncated.map (pick · keep)

variable {detections out : TileDetections K} {threshold : K} {overlap : Box K → Box K → K} {prefer only : Bool}

omit [Field K] [LinearOrder K] in
theorem index_picked (parallel : Parallel detections) (inside : ∀ i ∈ keep, i < detections.boxes.length) :
    ∃ out, index detections keep = .ok out ∧ Picked detections keep out := by
  have scores : take detections.scores keep = .ok (pick detections.scores keep) := take_inside (by rwa [parallel.scores])
  have labels : take detections.labels keep = .ok (pick detections.labels keep) := take_inside (by rwa [parallel.labels])
  have tileIds : take detections.tileIds keep = .ok (pick detections.tileIds keep) := take_inside (by rwa [parallel.tileIds])
  have classes : ∃ taken, takeOptional (·.take keep) detections.classes = .ok taken ∧
      taken.map (fun array => (array.width,array.rows)) =
        detections.classes.map fun array => (array.width,pick array.rows keep) := by
    cases same : detections.classes with
    | none => exact ⟨none,rfl,rfl⟩
    | some array =>
      obtain ⟨taken,ran,width,rows⟩ := array.take_inside (by rwa [parallel.classes array same])
      exact ⟨some taken,by simp only [takeOptional,ran]; rfl,by simp [width,rows]⟩
  have truncated : takeOptional (take · keep) detections.truncated =
      .ok (detections.truncated.map (pick · keep)) := by
    cases same : detections.truncated with
    | none => rfl
    | some array =>
      have flags : take array keep = .ok (pick array keep) := take_inside (by rwa [parallel.truncated array same])
      simp only [takeOptional,flags]
      rfl
  obtain ⟨taken,ran,same⟩ := classes
  unfold index
  rw [take_inside inside,scores,labels,ran,tileIds,truncated]
  exact ⟨_,rfl,rfl,rfl,rfl,same,rfl,rfl⟩

omit [Field K] [LinearOrder K] in
theorem nothing_picked (parallel : Parallel detections) (empty : detections.boxes = []) :
    Picked detections [] detections := by
  obtain ⟨boxes,scores,labels,classes,tileIds,truncated⟩ := detections
  cases empty
  obtain ⟨first,second,third,fourth,fifth⟩ := parallel
  refine ⟨rfl,List.eq_nil_of_length_eq_zero first,List.eq_nil_of_length_eq_zero second,?_,
    List.eq_nil_of_length_eq_zero fourth,?_⟩
  · cases classes with
    | none => rfl
    | some array =>
      have none := List.eq_nil_of_length_eq_zero (third array rfl)
      simp [none,pick]
  · cases truncated with
    | none => rfl
    | some array => exact congrArg some (List.eq_nil_of_length_eq_zero (fifth array rfl))

variable [IsStrictOrderedRing K]

theorem suppress_law (parallel : Parallel detections) (threshold : K) (overlap : Box K → Box K → K)
    (prefer only : Bool) : ∃ keep out, greedySuppress detections threshold overlap prefer only = .ok out ∧
      Law detections threshold overlap prefer only keep ∧ Picked detections keep out := by
  rw [greedySuppress_chosen]
  have law := chosen_law detections threshold overlap prefer only
  obtain ⟨out,ran,picked⟩ := index_picked parallel fun k member => ((law.kept k).mp member).1
  split
  · rename_i empty
    refine ⟨[],detections,rfl,⟨List.Pairwise.nil,fun k => by simp [empty]⟩,?_⟩
    exact nothing_picked parallel (List.length_eq_zero_iff.mp empty)
  · exact ⟨_,out,ran,law,picked⟩

omit [IsStrictOrderedRing K] in
theorem law_apart (law : Law detections threshold overlap prefer false keep)
    (symmetric : ∀ a b, overlap a b = overlap b a) (first : i ∈ keep) (second : j ∈ keep) (apart : i ≠ j) :
    ¬Overlaps detections threshold overlap i j := by
  rcases visited_total detections prefer apart with before | before
  · rcases ((law.kept j).mp second).2 with barred | spared
    · cases barred
    · exact spared i first before
  · rcases ((law.kept i).mp first).2 with barred | spared
    · cases barred
    · intro overlapped
      refine spared j second before ⟨overlapped.1.symm,?_⟩
      rw [symmetric]
      exact overlapped.2

omit [IsStrictOrderedRing K] in
theorem complete_first (complete : cutOff detections k = false) (before : VisitedBefore detections true i k) :
    cutOff detections i = false := by
  rcases before with ⟨_,open_,_⟩ | ⟨same,_⟩
  · exact open_
  · exact (same rfl).trans complete

-- Which detections greedy suppression keeps. Preferring complete ones, it keeps
-- or drops a complete one with no regard to those that are cut off.
theorem greedy_suppression (parallel : Parallel detections) (threshold : K) (overlap : Box K → Box K → K)
    (prefer only : Bool) : ∃ keep out, greedySuppress detections threshold overlap prefer only = .ok out ∧
      Law detections threshold overlap prefer only keep ∧ Picked detections keep out ∧
      (prefer = true → ∀ k < detections.boxes.length, cutOff detections k = false →
        (k ∈ keep ↔ eligible detections only k = false ∨ ∀ i ∈ keep, cutOff detections i = false →
          VisitedBefore detections prefer i k → ¬Overlaps detections threshold overlap i k)) := by
  obtain ⟨keep,out,ran,law,picked⟩ := suppress_law parallel threshold overlap prefer only
  refine ⟨keep,out,ran,law,picked,?_⟩
  rintro rfl k below complete
  rw [law.kept k]
  constructor
  · intro given
    obtain ⟨_,barred | spared⟩ := given
    · exact .inl barred
    · exact .inr fun i kept _ before => spared i kept before
  · intro given
    rcases given with barred | spared
    · exact ⟨below,.inl barred⟩
    · exact ⟨below,.inr fun i kept before => spared i kept (complete_first complete before) before⟩

omit [Field K] [LinearOrder K] [IsStrictOrderedRing K] in
theorem eligible_cut (only : Bool) (cut : cutOff detections k = true) : eligible detections only k = true := by
  unfold cutOff at cut
  unfold eligible
  split
  · rename_i truncated same
    rw [same] at cut
    exact cut
  · rfl

theorem intersection_le (a b : Box K) : intersection a b ≤ a.area := by
  have narrower : ∀ low high l h : K, side (max low l) (min high h) ≤ side low high := fun low high l h =>
    max_le_max (le_refl 0) (sub_le_sub (min_le_left _ _) (le_max_left _ _))
  exact mul_le_mul (narrower _ _ _ _) (narrower _ _ _ _) (le_max_left _ _) (le_max_left _ _)

-- A complete box, a fragment inside it that scores more, and a second one apart.
def wholeAndParts : TileDetections ℚ where
  boxes := [⟨0,0,1/2,1/2⟩,⟨0,0,1/2,1/4⟩,⟨1/2,1/2,1,1⟩]
  scores := [7/10,9/10,8/10]
  labels := [3,3,3]
  classes := none
  tileIds := [0,1,2]
  truncated := some [false,true,true]

theorem wholeAndParts_parallel : Parallel wholeAndParts :=
  ⟨rfl,rfl,by simp [wholeAndParts],rfl,by simp [wholeAndParts]⟩

theorem greedy_suppression_parts : ∃ keep out,
    greedySuppress wholeAndParts (7/10) ios true true = .ok out ∧
      Law wholeAndParts (7/10) ios true true keep ∧ Picked wholeAndParts keep out ∧
      (true = true → ∀ k < wholeAndParts.boxes.length, cutOff wholeAndParts k = false →
        (k ∈ keep ↔ eligible wholeAndParts true k = false ∨ ∀ i ∈ keep, cutOff wholeAndParts i = false →
          VisitedBefore wholeAndParts true i k → ¬Overlaps wholeAndParts (7/10) ios i k)) :=
  greedy_suppression wholeAndParts_parallel (7/10) ios true true

-- A box that holds enough of another, and of whose own area less is held.
theorem ios_area {a b : Box K} (positive : 0 < threshold) (inside : threshold ≤ ios a b) (apart : ios b a < threshold) :
    b.area < a.area := by
  unfold ios at inside apart
  split at inside
  · rename_i area
    have shared : 0 < intersection a b := by
      have most := lt_of_lt_of_le positive inside
      rwa [div_pos_iff_of_pos_right area] at most
    rw [intersection_comm b a] at apart
    split at apart
    · rename_i other
      have less := lt_of_lt_of_le apart inside
      rw [div_lt_div_iff_of_pos_left shared other area] at less
      exact less
    · rename_i none
      exact absurd (lt_of_lt_of_le shared (intersection_le a b)) none
  · exact absurd inside (not_le.mpr positive)

-- A truncated detection may stay inside another of its label only when that one
-- is truncated too, comes later, and is the larger of the two.
theorem contained_kept (parallel : Parallel detections) (positive : 0 < threshold) :
    ∃ keep out, suppressContained detections threshold true true = .ok out ∧ Picked detections keep out ∧
      ∀ b ∈ keep, cutOff detections b = true → ∀ a ∈ keep, a ≠ b → Overlaps detections threshold ios a b →
        cutOff detections a = true ∧ VisitedBefore detections true b a ∧ ¬Overlaps detections threshold ios b a ∧
        (detections.boxes.getD b default).area < (detections.boxes.getD a default).area := by
  obtain ⟨keep,out,ran,law,picked⟩ := suppress_law parallel threshold ios true true
  refine ⟨keep,out,ran,picked,?_⟩
  intro b second cut a first apart held
  have may := eligible_cut true cut
  have later : ¬VisitedBefore detections true a b := by
    intro before
    rcases ((law.kept b).mp second).2 with barred | spared
    · rw [may] at barred; cases barred
    · exact spared a first before held
  have before : VisitedBefore detections true b a := (visited_total detections true apart).resolve_left later
  have fragment : cutOff detections a = true := by
    rcases before with ⟨_,open_,_⟩ | ⟨same,_⟩
    · rw [cut] at open_; cases open_
    · exact (same rfl).symm.trans cut
  have missed : ¬Overlaps detections threshold ios b a := by
    rcases ((law.kept a).mp first).2 with barred | spared
    · rw [eligible_cut true fragment] at barred; cases barred
    · exact spared b second before
  refine ⟨fragment,before,missed,ios_area positive held.2 (not_le.mp fun reaches => missed ⟨held.1.symm,reaches⟩)⟩

-- Two fragments, the second inside the first.
def nested : TileDetections ℚ where
  boxes := [⟨0,0,1/2,1/2⟩,⟨0,0,1/4,1/4⟩]
  scores := [8/10,9/10]
  labels := [3,3]
  classes := none
  tileIds := [0,1]
  truncated := some [true,true]

theorem nested_parallel : Parallel nested := ⟨rfl,rfl,by simp [nested],rfl,by simp [nested]⟩

theorem contained_kept_nested :
    ∃ keep out, suppressContained nested (7/10) true true = .ok out ∧ Picked nested keep out ∧
      ∀ b ∈ keep, cutOff nested b = true → ∀ a ∈ keep, a ≠ b → Overlaps nested (7/10) ios a b →
        cutOff nested a = true ∧ VisitedBefore nested true b a ∧ ¬Overlaps nested (7/10) ios b a ∧
        (nested.boxes.getD b default).area < (nested.boxes.getD a default).area :=
  contained_kept nested_parallel (by norm_num)

-- The inner one scores more, so it is kept before the outer one is looked at.
theorem nested_survives : ¬∀ (detections out : TileDetections ℚ) (threshold : ℚ), Parallel detections →
    0 < threshold → threshold ≤ 1 → suppressContained detections threshold true true = .ok out →
    ∀ (i j : Nat) a b, i ≠ j → out.boxes[i]? = some a → out.boxes[j]? = some b →
      out.labels[i]? = out.labels[j]? → cutOff out j = true → threshold ≤ ios a b → a = b := by
  intro absorbed
  have ran : (suppressContained nested (7/10) true true).toOption.map
      (fun out => (out.boxes,out.labels,out.truncated)) =
        some (nested.boxes,nested.labels,nested.truncated) := by decide +kernel
  obtain ⟨out,found,same⟩ := Option.map_eq_some_iff.mp ran
  simp only [Prod.mk.injEq] at same
  obtain ⟨boxes,labels,truncated⟩ := same
  have equal := absorbed nested out (7/10) nested_parallel (by decide +kernel) (by decide +kernel) (toOption_ok found) 0 1
    ⟨0,0,1/2,1/2⟩ ⟨0,0,1/4,1/4⟩ (by decide) (by rw [boxes]; rfl) (by rw [boxes]; rfl) (by rw [labels]; rfl)
    (by rw [cutOff,truncated]; rfl) (by decide +kernel)
  exact absurd equal (by decide +kernel)

end SymphonyAkida.TiledShard
