import SymphonyAkida.Tiles
import SymphonyAkida.Library.Outcome
import SymphonyAkida.Library.Order

namespace SymphonyAkida.TiledShard
open Outcome

-- A two-dimensional class-score array: `width` scores in every row.
structure Classes (K : Type) where
  width : Nat
  rows : List (List K)
  rect : ∀ row ∈ rows, row.length = width

-- Detections as parallel arrays. `truncated` is True when a tile seam still
-- cuts the box off.
structure TileDetections (K : Type) where
  boxes : List (Box K)
  scores : List K
  labels : List Int
  classes : Option (Classes K)
  tileIds : List Nat
  truncated : Option (List Bool)

def emptyDetections (numClasses : Option Nat) : TileDetections K where
  boxes := []
  scores := []
  labels := []
  classes := numClasses.map fun width => ⟨width,[],by simp⟩
  tileIds := []
  truncated := some []

def take (array : List α) (keep : List Nat) : Except Error (List α) :=
  match keep with
  | [] => .ok []
  | i :: rest =>
    match array[i]? with
    | none => .error .indexError
    | some x => (take array rest).map (x :: ·)

theorem take_mem {array : List α} (ran : take array keep = .ok out) : ∀ x ∈ out, x ∈ array := by
  induction keep generalizing out with
  | nil => cases ran; simp
  | cons i rest ih =>
    unfold take at ran
    cases found : array[i]? with
    | none => simp [found] at ran
    | some x =>
      cases later : take array rest with
      | error e => simp [found,later,Except.map] at ran
      | ok xs =>
        simp only [found,later,Except.map,Except.ok.injEq] at ran
        subst ran
        intro y member
        rcases List.mem_cons.mp member with rfl | old
        · exact List.mem_of_getElem? found
        · exact ih later y old

def Classes.take (classes : Classes K) (keep : List Nat) : Except Error (Classes K) :=
  match ran : TiledShard.take classes.rows keep with
  | .error e => .error e
  | .ok rows => .ok ⟨classes.width,rows,fun row member => classes.rect row (take_mem ran row member)⟩

def takeOptional (pick : α → Except Error α) : Option α → Except Error (Option α)
  | none => .ok none
  | some array => (pick array).map some

def index (detections : TileDetections K) (keep : List Nat) : Except Error (TileDetections K) := do
  let boxes ← take detections.boxes keep
  let scores ← take detections.scores keep
  let labels ← take detections.labels keep
  let classes ← takeOptional (·.take keep) detections.classes
  let tileIds ← take detections.tileIds keep
  let truncated ← takeOptional (take · keep) detections.truncated
  return {boxes,scores,labels,classes,tileIds,truncated}

-- A boolean mask selects the indices it holds True at, and must have the
-- length of every array it is applied to.
def maskIndices (mask : List Bool) : List Nat := (List.range mask.length).filter (mask.getD · false)

def indexMask (detections : TileDetections K) (mask : List Bool) :
    Except Error (TileDetections K) :=
  if detections.boxes.length = mask.length ∧ detections.scores.length = mask.length ∧
      detections.labels.length = mask.length ∧ detections.classes.all (·.rows.length = mask.length) ∧
      detections.tileIds.length = mask.length ∧ detections.truncated.all (·.length = mask.length) then
    index detections (maskIndices mask)
  else .error .indexError

structure Row (K : Type) where
  box : Box K
  score : K
  label : Int
  classes : List K
  tileId : Nat
  truncated : Bool

-- Arrays that are columns of one list of rows. The class array may be missing
-- or, when only some tiles carried one, out of step: it has its own relation.
structure Shown (detections : TileDetections K) (rows : List (Row K)) : Prop where
  boxes : detections.boxes = rows.map (·.box)
  scores : detections.scores = rows.map (·.score)
  labels : detections.labels = rows.map (·.label)
  tileIds : detections.tileIds = rows.map (·.tileId)
  truncated : detections.truncated = some (rows.map (·.truncated))

def Classed (width : Option Nat) (detections : TileDetections K) (rows : List (Row K)) : Prop :=
  detections.classes.map (fun classes => (classes.width,classes.rows)) =
    width.map fun width => (width,rows.map (·.classes))

def pick (rows : List α) (keep : List Nat) : List α := keep.filterMap (rows[·]?)

theorem mem_pick {rows : List α} : x ∈ pick rows keep ↔ ∃ i ∈ keep, rows[i]? = some x := by
  simp [pick]

theorem pick_map (f : α → β) (rows : List α) (keep : List Nat) :
    pick (rows.map f) keep = (pick rows keep).map f := by
  simp [pick,List.map_filterMap]

theorem pick_cons {rows : List α} (below : i < rows.length) : pick rows (i :: keep) = rows[i] :: pick rows keep := by
  simp [pick,below]

theorem pick_eq_map {rows : List α} (inside : ∀ i ∈ keep, i < rows.length) :
    (pick rows keep).map some = keep.map (rows[·]?) := by
  induction keep with
  | nil => rfl
  | cons i rest ih =>
    have below := inside i List.mem_cons_self
    rw [pick_cons below,List.map_cons,List.map_cons,ih fun j member => inside j (List.mem_cons_of_mem _ member)]
    simp [below]

theorem pick_length {rows : List α} (inside : ∀ i ∈ keep, i < rows.length) : (pick rows keep).length = keep.length := by
  simpa using congrArg List.length (pick_eq_map inside)

theorem pick_getElem? {rows : List α} (inside : ∀ i ∈ keep, i < rows.length) (k : Nat) :
    (pick rows keep)[k]? = keep[k]?.bind (rows[·]?) := by
  have same := congrArg (·[k]?) (pick_eq_map inside)
  simp only [List.getElem?_map] at same
  cases at_ : keep[k]? with
  | none =>
    rw [at_,Option.map_none,Option.map_eq_none_iff] at same
    exact same
  | some i =>
    have below := inside i (List.mem_of_getElem? at_)
    rw [at_,Option.map_some,List.getElem?_eq_getElem below] at same
    cases found : (pick rows keep)[k]? with
    | none => simp [found] at same
    | some x => simpa [found,below] using same

theorem getD_row {rows : List α} (f : α → β) (default : β) (found : rows[i]? = some a) :
    (rows.map f).getD i default = f a := by simp [found]

theorem pick_range (rows : List α) : pick rows (List.range rows.length) = rows := by
  apply List.map_injective_iff.mpr (Option.some_injective α)
  rw [pick_eq_map fun i member => List.mem_range.mp member]
  apply List.ext_getElem
  · simp
  · intro i left right
    have below : i < rows.length := by simpa using right
    simp [below]

theorem pick_perm {rows : List α} (order : keep.Perm (List.range rows.length)) : (pick rows keep).Perm rows := by
  have picked := order.filterMap (rows[·]?)
  have whole := pick_range rows
  unfold pick at whole
  rwa [whole] at picked

section
variable {K : Type} [Field K] [LinearOrder K] [IsStrictOrderedRing K]

-- What np.argsort(-column) picks comes out in decreasing order of the column.
theorem pick_descending (f : α → K) {rows : List α} {order : List Nat}
    (sorted : order.Pairwise (Argsort.before fun i => -(rows.map f).getD i 0)) :
    (pick rows order).Pairwise fun a b => f b ≤ f a := by
  refine List.pairwise_filterMap.mpr (sorted.imp fun {i j} before a left b right => ?_)
  have first : (rows.map f).getD i 0 = f a := by simp [left]
  have second : (rows.map f).getD j 0 = f b := by simp [right]
  rw [Argsort.before,first,second,neg_lt_neg_iff,neg_inj] at before
  rcases before with less | ⟨same,_⟩
  · exact le_of_lt less
  · exact le_of_eq same.symm

theorem argsort_strict (f : α → K) {rows : List α} (distinct : (rows.map f).Nodup) :
    (pick rows (Argsort.argsort (fun i => -(rows.map f).getD i 0) rows.length)).Pairwise fun a b => f b < f a := by
  have weak := pick_descending f (Argsort.argsort_sorted (fun i => -(rows.map f).getD i 0) rows.length)
  have differ : (pick rows (Argsort.argsort (fun i => -(rows.map f).getD i 0) rows.length)).Pairwise
      fun a b => f a ≠ f b :=
    List.pairwise_map.mp (((pick_perm (Argsort.argsort_perm _ _)).map f).nodup_iff.mpr distinct)
  exact (weak.and differ).imp fun both => lt_of_le_of_ne both.1 (Ne.symm both.2)

end

theorem pick_getD {rows : List α} (f : α → β) (default : β) (inside : ∀ i ∈ keep, i < rows.length) :
    keep.map ((rows.map f).getD · default) = (pick rows keep).map f := by
  induction keep with
  | nil => rfl
  | cons i rest ih =>
    have below := inside i List.mem_cons_self
    rw [pick_cons below,List.map_cons,List.map_cons,ih fun j member => inside j (List.mem_cons_of_mem _ member)]
    simp [below]

theorem pick_pick {rows : List α} (inside : ∀ i ∈ keep, i < rows.length) (again : List Nat) :
    pick (pick rows keep) again = pick rows (pick keep again) := by
  simp only [pick,List.filterMap_filterMap]
  congr 1
  funext k
  exact pick_getElem? inside k

theorem take_eq (array : List α) (keep : List Nat) : take array keep =
    if keep.all (· < array.length) then .ok (pick array keep) else .error .indexError := by
  induction keep with
  | nil => rfl
  | cons i rest ih =>
    unfold take
    by_cases below : i < array.length
    · rw [ih]
      by_cases all : rest.all (· < array.length) = true
      · simp only [List.getElem?_eq_getElem below,List.all_cons,below,decide_true,Bool.true_and,all,
          if_true,pick_cons below]
        rfl
      · simp only [List.getElem?_eq_getElem below,List.all_cons,below,decide_true,Bool.true_and,all]
        rfl
    · simp [below]

theorem take_ok {array : List α} (ran : take array keep = .ok out) :
    (∀ i ∈ keep, i < array.length) ∧ out = pick array keep := by
  rw [take_eq] at ran
  split at ran
  · rename_i all
    cases ran
    exact ⟨by simpa using all,rfl⟩
  · cases ran

theorem take_inside {array : List α} (inside : ∀ i ∈ keep, i < array.length) : take array keep = .ok (pick array keep) := by
  rw [take_eq,if_pos (by simpa using inside)]

theorem take_column {rows : List α} (inside : ∀ i ∈ keep, i < rows.length) (f : α → β) :
    take (rows.map f) keep = .ok ((pick rows keep).map f) := by
  rw [take_inside (by simpa using inside),pick_map]

@[simp] theorem orRaise_some (error : Error) (a : α) : orRaise error (some a) = .ok a := rfl

theorem Classes.take_ok {classes out : Classes K} (ran : classes.take keep = .ok out) :
    out.width = classes.width ∧ out.rows = pick classes.rows keep := by
  unfold Classes.take at ran
  split at ran
  · cases ran
  · rename_i rows taken
    cases ran
    exact ⟨rfl,(TiledShard.take_ok taken).2⟩

theorem Classes.take_inside (classes : Classes K) (inside : ∀ i ∈ keep, i < classes.rows.length) :
    ∃ out, classes.take keep = .ok out ∧ out.width = classes.width ∧ out.rows = pick classes.rows keep := by
  cases ran : classes.take keep with
  | ok out => exact ⟨out,rfl,Classes.take_ok ran⟩
  | error e =>
    unfold Classes.take at ran
    split at ran
    · rename_i error taken
      rw [TiledShard.take_inside inside] at taken
      cases taken
    · cases ran

theorem index_shown (shown : Shown detections rows) (ran : index detections keep = .ok out) :
    (∀ i ∈ keep, i < rows.length) ∧ Shown out (pick rows keep) := by
  unfold index at ran
  obtain ⟨boxes,hBoxes,ran⟩ := bind_ok ran
  obtain ⟨scores,hScores,ran⟩ := bind_ok ran
  obtain ⟨labels,hLabels,ran⟩ := bind_ok ran
  obtain ⟨classes,hClasses,ran⟩ := bind_ok ran
  obtain ⟨tileIds,hTiles,ran⟩ := bind_ok ran
  obtain ⟨truncated,hTruncated,ran⟩ := bind_ok ran
  cases ran
  rw [shown.boxes] at hBoxes
  rw [shown.scores] at hScores
  rw [shown.labels] at hLabels
  rw [shown.tileIds] at hTiles
  rw [shown.truncated] at hTruncated
  have inside := (take_ok hBoxes).1
  rw [List.length_map] at inside
  refine ⟨inside,?_,?_,?_,?_,?_⟩
  · rw [(take_ok hBoxes).2,pick_map]
  · rw [(take_ok hScores).2,pick_map]
  · rw [(take_ok hLabels).2,pick_map]
  · rw [(take_ok hTiles).2,pick_map]
  · simp only [takeOptional] at hTruncated
    cases taken : take (rows.map (·.truncated)) keep with
    | error e => simp [taken,Except.map] at hTruncated
    | ok array =>
      simp only [taken,Except.map,Except.ok.injEq] at hTruncated
      rw [← hTruncated,(take_ok taken).2,pick_map]

theorem index_total (shown : Shown detections rows) (classed : Classed width detections rows)
    (inside : ∀ i ∈ keep, i < rows.length) :
    ∃ out, index detections keep = .ok out ∧ Classed width out (pick rows keep) := by
  unfold index
  rw [shown.boxes,shown.scores,shown.labels,shown.tileIds,shown.truncated]
  simp only [take_column inside,takeOptional]
  cases classes : detections.classes with
  | none =>
    cases width with
    | some w => simp [Classed,classes] at classed
    | none => exact ⟨_,rfl,rfl⟩
  | some array =>
    cases width with
    | none => simp [Classed,classes] at classed
    | some w =>
      simp only [Classed,classes,Option.map_some,Option.some.injEq,Prod.mk.injEq] at classed
      obtain ⟨out,taken,same,picked⟩ := Classes.take_inside array 
        (by rw [classed.2]; simpa using inside)
      simp only [taken]
      refine ⟨_,rfl,?_⟩
      simp only [Classed,Option.map_some,same,picked,classed,pick_map]

theorem maskIndices_inside (mask : List Bool) : ∀ i ∈ maskIndices mask, i < mask.length := by
  intro i member
  exact List.mem_range.mp (List.mem_filter.mp member).1

theorem pick_mask (rows : List α) (keep : α → Bool) :
    pick rows (maskIndices (rows.map keep)) = rows.filter keep := by
  unfold pick maskIndices
  rw [List.filterMap_filter]
  induction rows with
  | nil => rfl
  | cons x rest ih =>
    rw [List.map_cons,List.length_cons,List.range_succ_eq_map,List.filterMap_cons,List.filterMap_map]
    rw [List.filter_cons,← ih]
    cases keep x <;> simp

theorem mask_inside (rows : List α) (keep : α → Bool) :
    ∀ i ∈ maskIndices (rows.map keep), i < rows.length := by
  intro i member
  simpa using maskIndices_inside _ i member

theorem indexMask_shown {rows : List (Row K)} (shown : Shown detections rows) (keep : Row K → Bool)
    (ran : indexMask detections (rows.map keep) = .ok out) : Shown out (rows.filter keep) := by
  unfold indexMask at ran
  split at ran
  · rw [← pick_mask]
    exact (index_shown shown ran).2
  · cases ran

theorem indexMask_total {rows : List (Row K)} (shown : Shown detections rows) (classed : Classed width detections rows)
    (keep : Row K → Bool) : ∃ out, indexMask detections (rows.map keep) = .ok out ∧
      Classed width out (rows.filter keep) := by
  have aligned : detections.classes.all (·.rows.length = rows.length) = true := by
    cases classes : detections.classes with
    | none => rfl
    | some array =>
      cases width with
      | none => simp [Classed,classes] at classed
      | some w =>
        simp only [Classed,classes,Option.map_some,Option.some.injEq,Prod.mk.injEq] at classed
        simp [classed.2]
  unfold indexMask
  rw [if_pos (by simp [shown.boxes,shown.scores,shown.labels,shown.tileIds,shown.truncated,aligned])]
  rw [← pick_mask]
  exact index_total shown classed (mask_inside rows keep)

end SymphonyAkida.TiledShard
