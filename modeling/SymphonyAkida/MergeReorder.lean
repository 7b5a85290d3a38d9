import SymphonyAkida.MergeRenaming
import Mathlib.Algebra.Field.Rat
import Mathlib.Algebra.Order.Ring.Rat

namespace SymphonyAkida.TiledShard
open Outcome
variable {K : Type} [Field K] [LinearOrder K] {params : MergeParams K} {frameSize : Int} {edgeEps : K}
  {order : List Nat}

-- The same detections of one tile in another order.
def Reordered (entry entry' : TileEntry K) : Prop :=
  ∃ inner : List Nat, inner.Perm (List.range entry.boxes.length) ∧ entry'.boxes = pick entry.boxes inner ∧
    entry'.scores = pick entry.scores inner ∧ entry'.labels = pick entry.labels inner ∧
    entry'.classes.map (fun array => (array.width,array.rows)) =
      entry.classes.map fun array => (array.width,pick array.rows inner)

def inputItems (frameSize : Int) (edgeEps : K) (tileId : Nat) (pairs : List (Tile × TileEntry K)) :
    List (Row K × Seams) := (inputRows frameSize edgeEps tileId pairs).zip (inputSeams frameSize edgeEps pairs)

def entryItem (frameSize : Int) (edgeEps : K) (tileId : Nat) (tile : Tile) (entry : TileEntry K) (j : Nat) :
    Row K × Seams :=
  (entryRow frameSize edgeEps tileId tile entry j,boxSeams tile frameSize edgeEps (entry.boxes.getD j default))

theorem input_aligned (frameSize : Int) (edgeEps : K) (tileId : Nat) (pairs : List (Tile × TileEntry K)) :
    (inputRows frameSize edgeEps tileId pairs).length = (inputSeams frameSize edgeEps pairs).length := by
  simpa using congrArg List.length (inputRows_flags frameSize edgeEps pairs tileId)

theorem inputItems_columns (frameSize : Int) (edgeEps : K) (tileId : Nat) (pairs : List (Tile × TileEntry K)) :
    (inputItems frameSize edgeEps tileId pairs).map (·.1) = inputRows frameSize edgeEps tileId pairs ∧
      (inputItems frameSize edgeEps tileId pairs).map (·.2) = inputSeams frameSize edgeEps pairs := by
  have size := input_aligned frameSize edgeEps tileId pairs
  exact ⟨List.map_fst_zip (Nat.le_of_eq size),List.map_snd_zip (Nat.le_of_eq size.symm)⟩

theorem inputItems_cons (frameSize : Int) (edgeEps : K) (tileId : Nat) (tile : Tile) (entry : TileEntry K)
    (rest : List (Tile × TileEntry K)) : inputItems frameSize edgeEps tileId ((tile,entry) :: rest) =
      (List.range entry.boxes.length).map (entryItem frameSize edgeEps tileId tile entry) ++
        inputItems frameSize edgeEps (tileId+1) rest := by
  have cuts : seamTruncations entry.boxes tile frameSize edgeEps =
      (List.range entry.boxes.length).map fun j => boxSeams tile frameSize edgeEps (entry.boxes.getD j default) :=
    (map_range_getD entry.boxes default (boxSeams tile frameSize edgeEps) rfl).symm
  rw [inputItems,inputRows,inputSeams,List.zip_append (by simp [entryRows,cuts]),entryRows,cuts,List.zip_map']
  rfl

theorem mem_inputItems {pairs : List (Tile × TileEntry K)} : x ∈ inputItems frameSize edgeEps tileId pairs ↔
    ∃ (t : Nat) (tile : Tile) (entry : TileEntry K) (j : Nat), pairs[t]? = some (tile,entry) ∧
      j < entry.boxes.length ∧ x = entryItem frameSize edgeEps (tileId+t) tile entry j := by
  induction pairs generalizing tileId with
  | nil => simp [inputItems,inputRows]
  | cons pair rest ih =>
    obtain ⟨tile,entry⟩ := pair
    rw [inputItems_cons,List.mem_append,ih,List.mem_map]
    constructor
    · intro given
      rcases given with ⟨j,below,rfl⟩ | ⟨t,other,held,j,found,below,rfl⟩
      · exact ⟨0,tile,entry,j,rfl,List.mem_range.mp below,rfl⟩
      · exact ⟨t+1,other,held,j,found,below,by rw [Nat.add_right_comm,Nat.add_assoc]⟩
    · intro given
      obtain ⟨t,other,held,j,found,below,rfl⟩ := given
      cases t with
      | zero =>
        rw [List.getElem?_cons_zero,Option.some.injEq,Prod.mk.injEq] at found
        obtain ⟨rfl,rfl⟩ := found
        exact .inl ⟨j,List.mem_range.mpr below,rfl⟩
      | succ t =>
        exact .inr ⟨t,other,held,j,by simpa using found,below,by rw [Nat.add_right_comm,Nat.add_assoc]⟩

theorem inputItems_wide {pairs : List (Tile × TileEntry K)}
    (same : ∀ pair ∈ pairs, pair.2.boxes.length ≠ 0 → pair.2.classes.map (·.width) = width) :
    ∀ x ∈ inputItems frameSize edgeEps tileId pairs, x.1.classes.length = width.getD 0 := by
  intro x member
  obtain ⟨t,tile,entry,j,found,below,rfl⟩ := mem_inputItems.mp member
  rw [← same (tile,entry) (List.mem_of_getElem? found) (Nat.ne_of_gt (Nat.zero_lt_of_lt below))]
  exact entryRow_width frameSize edgeEps _ tile below

theorem inputItems_flags {pairs : List (Tile × TileEntry K)} :
    ∀ x ∈ inputItems frameSize edgeEps tileId pairs, x.1.truncated = !x.2.isEmpty := by
  intro x member
  obtain ⟨t,tile,entry,j,_,_,rfl⟩ := mem_inputItems.mp member
  rfl

theorem inputItems_scores (frameSize : Int) (edgeEps : K) (tileId : Nat) (pairs : List (Tile × TileEntry K)) :
    (inputItems frameSize edgeEps tileId pairs).map (·.1.score) = pairs.flatMap (·.2.scores) := by
  induction pairs generalizing tileId with
  | nil => rfl
  | cons pair rest ih =>
    obtain ⟨tile,entry⟩ := pair
    have scores := (entryRows_columns frameSize edgeEps entry tileId tile).2.1
    rw [inputItems_cons,List.map_append,ih,List.flatMap_cons,← scores,entryRows,List.map_map,List.map_map]
    rfl

-- The same call with the tiles in another order, order[k] the k-th of them.
structure Permuted (order : List Nat) (tiles tiles' : List Tile) (perTile perTile' : List (TileEntry K)) : Prop where
  all : order.Perm (List.range tiles.length)
  places : tiles' = pick tiles order
  entries : List.Forall₂ Reordered (pick perTile order) perTile'

theorem reordered_item {entry entry' : TileEntry K} {inner : List Nat} {j k : Nat}
    (boxes : entry'.boxes = pick entry.boxes inner) (scores : entry'.scores = pick entry.scores inner)
    (labels : entry'.labels = pick entry.labels inner)
    (classes : entry'.classes.map (fun array => (array.width,array.rows)) =
      entry.classes.map fun array => (array.width,pick array.rows inner))
    (inside : ∀ i ∈ inner, i < entry.boxes.length) (found : inner[k]? = some j) (tileId : Nat) (tile : Tile) :
    entryItem frameSize edgeEps tileId tile entry' k = entryItem frameSize edgeEps tileId tile entry j := by
  have column : ∀ {β : Type} (xs : List β) (default : β), xs.length = entry.boxes.length →
      (pick xs inner).getD k default = xs.getD j default := by
    intro β xs default size
    rw [List.getD_eq_getElem?_getD,List.getD_eq_getElem?_getD,pick_getElem? (size ▸ inside),found,Option.bind_some]
  have rows : entry'.classes.elim [] (·.rows.getD k []) = entry.classes.elim [] (·.rows.getD j []) := by
    cases held : entry.classes with
    | none =>
      rw [held,Option.map_none,Option.map_eq_none_iff] at classes
      rw [classes]
      rfl
    | some array =>
      rw [held,Option.map_some,Option.map_eq_some_iff] at classes
      obtain ⟨array',held',same⟩ := classes
      rw [Prod.mk.injEq] at same
      rw [held',Option.elim_some,Option.elim_some,same.2]
      exact column array.rows [] (entry.classesParallel array held)
  unfold entryItem entryRow
  rw [boxes,scores,labels,rows,column entry.boxes default rfl,column entry.scores 0 entry.scoresParallel,
    column entry.labels 0 entry.labelsParallel]

theorem forall₂_right {R : α → β → Prop} (related : List.Forall₂ R xs ys) {i : Nat} (found : ys[i]? = some y) :
    ∃ x, xs[i]? = some x ∧ R x y := by
  obtain ⟨below,rfl⟩ := List.getElem?_eq_some_iff.mp found
  have within : i < xs.length := related.length_eq ▸ below
  exact ⟨xs[i],List.getElem?_eq_getElem within,related.get within below⟩

theorem forall₂_left {R : α → β → Prop} (related : List.Forall₂ R xs ys) {i : Nat} (found : xs[i]? = some x) :
    ∃ y, ys[i]? = some y ∧ R x y := forall₂_right related.flip found

section
variable {tiles tiles' : List Tile} {perTile perTile' : List (TileEntry K)}

omit [Field K] [LinearOrder K] in
theorem Permuted.inside (permuted : Permuted order tiles tiles' perTile perTile') : ∀ t ∈ order, t < tiles.length :=
  fun _ member => List.mem_range.mp (permuted.all.mem_iff.mp member)

omit [Field K] [LinearOrder K] in
theorem Permuted.nodup (permuted : Permuted order tiles tiles' perTile perTile') : order.Nodup :=
  permuted.all.nodup_iff.mpr List.nodup_range

omit [Field K] [LinearOrder K] in
theorem Permuted.sizes (permuted : Permuted order tiles tiles' perTile perTile') (sizes : perTile.length = tiles.length) :
    perTile'.length = tiles'.length := by
  rw [← permuted.entries.length_eq,permuted.places,pick_length permuted.inside,
    pick_length fun t member => sizes ▸ permuted.inside t member]

omit [Field K] [LinearOrder K] in
theorem Permuted.back (permuted : Permuted order tiles tiles' perTile perTile') (sizes : perTile.length = tiles.length)
    {k : Nat} (found : (tiles'.zip perTile')[k]? = some (tile,entry')) : ∃ t entry, order[k]? = some t ∧
      (tiles.zip perTile)[t]? = some (tile,entry) ∧ Reordered entry entry' := by
  obtain ⟨first,second⟩ := List.getElem?_zip_eq_some.mp found
  obtain ⟨entry,third,reordered⟩ := forall₂_right permuted.entries second
  rw [permuted.places,pick_getElem? permuted.inside,Option.bind_eq_some_iff] at first
  obtain ⟨t,place,at_⟩ := first
  rw [pick_getElem? fun t member => sizes ▸ permuted.inside t member,place,Option.bind_some] at third
  exact ⟨t,entry,place,List.getElem?_zip_eq_some.mpr ⟨at_,third⟩,reordered⟩

omit [Field K] [LinearOrder K] in
theorem Permuted.forth (permuted : Permuted order tiles tiles' perTile perTile') (sizes : perTile.length = tiles.length)
    {t : Nat} (found : (tiles.zip perTile)[t]? = some (tile,entry)) : ∃ entry',
      (tiles'.zip perTile')[order.idxOf t]? = some (tile,entry') ∧ Reordered entry entry' := by
  obtain ⟨first,second⟩ := List.getElem?_zip_eq_some.mp found
  have member : t ∈ order :=
    permuted.all.mem_iff.mpr (List.mem_range.mpr (List.getElem?_eq_some_iff.mp first).1)
  have place := List.getElem?_idxOf member
  obtain ⟨entry',third,reordered⟩ := forall₂_left permuted.entries (i := order.idxOf t) (x := entry) (by
    rw [pick_getElem? fun t member => sizes ▸ permuted.inside t member,place]
    exact second)
  refine ⟨entry',List.getElem?_zip_eq_some.mpr ⟨?_,third⟩,reordered⟩
  rw [permuted.places,pick_getElem? permuted.inside,place]
  exact first

theorem Permuted.items (permuted : Permuted order tiles tiles' perTile perTile') (sizes : perTile.length = tiles.length) :
    {x | x ∈ inputItems frameSize edgeEps 0 (tiles'.zip perTile')} =
      renamedInput order.idxOf '' {x | x ∈ inputItems frameSize edgeEps 0 (tiles.zip perTile)} := by
  ext x
  constructor
  · intro member
    obtain ⟨k,tile,entry',i,found,below,rfl⟩ := mem_inputItems.mp member
    obtain ⟨t,entry,place,first,inner,perm,boxes,scores,labels,classes⟩ := permuted.back sizes found
    have inside : ∀ i ∈ inner, i < entry.boxes.length := fun i held => List.mem_range.mp (perm.mem_iff.mp held)
    rw [boxes,pick_length inside] at below
    have at_ := List.getElem?_eq_getElem below
    refine ⟨_,mem_inputItems.mpr ⟨t,tile,entry,inner[i],first,inside _ (List.getElem_mem below),rfl⟩,?_⟩
    have number : order.idxOf t = k := by
      obtain ⟨within,rfl⟩ := List.getElem?_eq_some_iff.mp place
      exact permuted.nodup.idxOf_getElem k within
    rw [reordered_item boxes scores labels classes inside at_,Nat.zero_add,Nat.zero_add,← number]
    rfl
  · intro given
    obtain ⟨_,member,rfl⟩ := given
    obtain ⟨t,tile,entry,j,found,below,rfl⟩ := mem_inputItems.mp member
    obtain ⟨entry',second,inner,perm,boxes,scores,labels,classes⟩ := permuted.forth sizes found
    have inside : ∀ i ∈ inner, i < entry.boxes.length := fun i held => List.mem_range.mp (perm.mem_iff.mp held)
    have held : j ∈ inner := perm.mem_iff.mpr (List.mem_range.mpr below)
    have place := List.getElem?_idxOf held
    refine mem_inputItems.mpr ⟨order.idxOf t,tile,entry',inner.idxOf j,second,?_,?_⟩
    · rw [boxes,pick_length inside]
      exact List.idxOf_lt_length_of_mem held
    · rw [reordered_item boxes scores labels classes inside place,Nat.zero_add,Nat.zero_add]
      rfl

omit [Field K] [LinearOrder K] in
theorem reordered_shape {entry entry' : TileEntry K} (reordered : Reordered entry entry') :
    entry'.boxes.length = entry.boxes.length ∧ entry'.scores.Perm entry.scores ∧
      entry'.classes.map (·.width) = entry.classes.map (·.width) := by
  obtain ⟨inner,perm,boxes,scores,_,classes⟩ := reordered
  refine ⟨?_,?_,?_⟩
  · rw [boxes,pick_length fun i held => List.mem_range.mp (perm.mem_iff.mp held),perm.length_eq,List.length_range]
  · rw [scores]
    exact pick_perm (entry.scoresParallel.symm ▸ perm)
  · have widths := congrArg (Option.map Prod.fst) classes
    simpa [Option.map_map,Function.comp_def] using widths

omit [Field K] [LinearOrder K] in
theorem Permuted.entry (permuted : Permuted order tiles tiles' perTile perTile') (member : entry' ∈ perTile') :
    ∃ entry ∈ perTile, Reordered entry entry' := by
  obtain ⟨k,below,rfl⟩ := List.getElem_of_mem member
  obtain ⟨entry,found,reordered⟩ := forall₂_right permuted.entries (List.getElem?_eq_getElem below)
  obtain ⟨t,_,place⟩ := mem_pick.mp (List.mem_of_getElem? found)
  exact ⟨entry,List.mem_of_getElem? place,reordered⟩

omit [Field K] [LinearOrder K] in
theorem Permuted.scores (permuted : Permuted order tiles tiles' perTile perTile')
    (sizes : perTile.length = tiles.length) : (perTile'.flatMap (·.scores)).Perm (perTile.flatMap (·.scores)) := by
  have each : ∀ {xs ys : List (TileEntry K)}, List.Forall₂ Reordered xs ys →
      (ys.flatMap (·.scores)).Perm (xs.flatMap (·.scores)) := by
    intro xs ys related
    induction related with
    | nil => exact .nil
    | cons first _ ih => exact (reordered_shape first).2.1.append ih
  exact (each permuted.entries).trans ((pick_perm (sizes ▸ permuted.all)).flatMap_right _)

omit [Field K] [LinearOrder K] in
theorem zip_entries (sizes : perTile.length = tiles.length) : (tiles.zip perTile).map (·.2) = perTile :=
  List.map_snd_zip (Nat.le_of_eq sizes)

omit [Field K] [LinearOrder K] in
theorem zip_entry (sizes : perTile.length = tiles.length) (member : entry ∈ perTile) :
    ∃ pair ∈ tiles.zip perTile, pair.2 = entry := by
  rw [← zip_entries sizes] at member
  exact List.mem_map.mp member

omit [Field K] [LinearOrder K] in
theorem zip_scores (sizes : perTile.length = tiles.length) :
    (tiles.zip perTile).flatMap (·.2.scores) = perTile.flatMap (·.scores) := by
  conv_rhs => rw [← zip_entries sizes,List.flatMap_map]

theorem input_filled {pairs : List (Tile × TileEntry K)} (member : pair ∈ pairs) (filled : pair.2.boxes.length ≠ 0) :
    inputRows frameSize edgeEps tileId pairs ≠ [] := by
  obtain ⟨t,below,rfl⟩ := List.getElem_of_mem member
  have item : entryItem frameSize edgeEps (tileId+t) pairs[t].1 pairs[t].2 0 ∈
      inputItems frameSize edgeEps tileId pairs :=
    mem_inputItems.mpr ⟨t,_,_,0,List.getElem?_eq_getElem below,Nat.pos_of_ne_zero filled,rfl⟩
  intro empty
  rw [inputItems,empty,List.zip_nil_left] at item
  cases item

theorem gatherTile_classes (ran : gatherTile frameSize edgeEps pool tileId tile entry = .ok later)
    (array : Classes K) : array ∈ later.classes ↔
      array ∈ pool.classes ∨ (entry.boxes.length ≠ 0 ∧ entry.classes = some array) := by
  simp only [gatherTile,TileEntry.cast_id] at ran
  by_cases empty : entry.boxes.length = 0
  · rw [if_pos empty] at ran
    cases ran
    exact ⟨.inl,fun held => held.elim id fun filled => absurd empty filled.1⟩
  · rw [if_neg empty] at ran
    obtain ⟨framed,_,rfl⟩ := map_ok ran
    rw [List.mem_append,Option.mem_toList]
    exact or_congr_right (and_iff_right empty).symm

theorem gather_classes (pairs : List (Tile × TileEntry K))
    (ran : gather frameSize edgeEps tileId pairs pool = .ok later) (array : Classes K) : array ∈ later.classes ↔
      array ∈ pool.classes ∨ ∃ pair ∈ pairs, pair.2.boxes.length ≠ 0 ∧ pair.2.classes = some array := by
  induction pairs generalizing tileId pool with
  | nil => cases ran; simp
  | cons pair rest ih =>
    obtain ⟨tile,entry⟩ := pair
    obtain ⟨middle,first,second⟩ := bind_ok ran
    rw [ih second,gatherTile_classes first,or_assoc]
    simp only [List.mem_cons,exists_eq_or_imp]

omit [Field K] [LinearOrder K] in
theorem concatClasses_ok {arrays : List (Classes K)} (ran : concatClasses arrays = .ok whole) (first : a ∈ arrays)
    (second : b ∈ arrays) : a.width = b.width := by
  unfold concatClasses at ran
  split at ran
  · cases first
  · rename_i head rest
    split at ran
    · rename_i same
      have all : ∀ array ∈ head :: rest, array.width = head.width := by
        intro array member
        rcases List.mem_cons.mp member with rfl | later
        · rfl
        · exact same array later
      rw [all a first,all b second]
    · cases ran

def Uniform (perTile : List (TileEntry K)) : Prop :=
  ∀ a ∈ perTile, ∀ b ∈ perTile, a.boxes.length ≠ 0 → b.boxes.length ≠ 0 → a.classes.isSome = b.classes.isSome

variable {out out' : TileDetections K} {first second : TileEntry K}

theorem merge_filled (ran : mergeTileDetections perTile tiles frameSize params = .ok out) (member : entry ∈ perTile)
    (filled : entry.boxes.length ≠ 0) : frameSize ≠ 0 ∧ inputRows frameSize params.edgeEps 0 (tiles.zip perTile) ≠ [] := by
  obtain ⟨sizes,frame⟩ := merge_frame ran
  obtain ⟨pair,inside,rfl⟩ := zip_entry sizes member
  have rows : inputRows frameSize params.edgeEps 0 (tiles.zip perTile) ≠ [] := input_filled inside filled
  exact ⟨frame rows,rows⟩

-- A run with detections, up to NMS: the pool, what it concatenates and the stage.
structure Pooled (perTile : List (TileEntry K)) (tiles : List Tile) (frameSize : Int) (params : MergeParams K)
    (pool : Pool K) (classes : Option (Classes K)) (stage : TileDetections K) : Prop where
  shown : PoolShown pool (inputRows frameSize params.edgeEps 0 (tiles.zip perTile))
    (inputSeams frameSize params.edgeEps (tiles.zip perTile))
  gathered : gather frameSize params.edgeEps 0 (tiles.zip perTile) {} = .ok pool
  concat : concatClasses pool.classes = .ok classes
  staged : nmsStage params pool = .ok stage

theorem merge_pooled (ran : mergeTileDetections perTile tiles frameSize params = .ok out)
    (rows : inputRows frameSize params.edgeEps 0 (tiles.zip perTile) ≠ []) :
    ∃ pool classes stage, Pooled perTile tiles frameSize params pool classes stage := by
  obtain ⟨pool,gathering,ran⟩ := bind_ok ran
  have shown := gatherAll_shown gathering
  rw [if_neg (by rwa [shown.boxes,List.map_eq_nil_iff])] at ran
  obtain ⟨stage,staged,_⟩ := bind_ok ran
  have again := staged
  obtain ⟨_,pooled,_⟩ := bind_ok again
  obtain ⟨classes,concat,_⟩ := map_ok pooled
  exact ⟨pool,classes,stage,shown,(gatherAll_ok gathering).2,concat,staged⟩

theorem Pooled.classes {classes : Option (Classes K)} {stage : TileDetections K}
    (pooled : Pooled perTile tiles frameSize params pool classes stage) (sizes : perTile.length = tiles.length)
    (member : entry ∈ perTile) (filled : entry.boxes.length ≠ 0) (held : entry.classes = some array) :
    array ∈ pool.classes := by
  obtain ⟨pair,inside,rfl⟩ := zip_entry sizes member
  exact (gather_classes _ pooled.gathered array).mpr (.inr ⟨pair,inside,filled,held⟩)

theorem merge_widths (ran : mergeTileDetections perTile tiles frameSize params = .ok out) (left : first ∈ perTile)
    (filled : first.boxes.length ≠ 0) (held : first.classes = some a) (right : second ∈ perTile)
    (filled' : second.boxes.length ≠ 0) (held' : second.classes = some b) : a.width = b.width := by
  have sizes := (merge_frame ran).1
  obtain ⟨pool,classes,stage,pooled⟩ := merge_pooled ran (merge_filled ran left filled).2
  exact concatClasses_ok pooled.concat (pooled.classes sizes left filled held) (pooled.classes sizes right filled' held')

theorem merge_width (uniform : Uniform perTile) (ran : mergeTileDetections perTile tiles frameSize params = .ok out) :
    ∃ width, ∀ entry ∈ perTile, entry.boxes.length ≠ 0 → entry.classes.map (·.width) = width := by
  by_cases any : ∃ entry ∈ perTile, entry.boxes.length ≠ 0
  · obtain ⟨first,left,filled⟩ := any
    refine ⟨first.classes.map (·.width),fun entry member some => ?_⟩
    have both := uniform first left entry member filled some
    cases held : first.classes with
    | none =>
      rw [held,Option.isSome_none] at both
      rw [Option.map_none,Option.map_eq_none_iff]
      exact Option.isSome_eq_false_iff.mp both.symm |> Option.isNone_iff_eq_none.mp
    | some a =>
      rw [held,Option.isSome_some] at both
      obtain ⟨b,held'⟩ := Option.isSome_iff_exists.mp both.symm
      rw [held',Option.map_some,Option.map_some,merge_widths ran left filled held member some held']
  · exact ⟨none,fun entry member filled => absurd ⟨entry,member,filled⟩ any⟩

-- The two results hold the same rows, in whatever order, up to the numbering
-- of the tiles, with class arrays of one width.
def SameRows (name : Nat → Nat) (out out' : TileDetections K) : Prop :=
  ∃ rows rows', Shown out rows ∧ Shown out' rows' ∧ rows'.Perm (rows.map (renamed name)) ∧
    (rows ≠ [] → ∃ width, Classed width out rows ∧ Classed width out' rows')

theorem rows_items {pairs : List (Tile × TileEntry K)} :
    inputRows frameSize edgeEps tileId pairs = [] ↔ ∀ x, x ∉ inputItems frameSize edgeEps tileId pairs := by
  rw [← (inputItems_columns frameSize edgeEps tileId pairs).1,List.map_eq_nil_iff,List.eq_nil_iff_forall_not_mem]

theorem Permuted.rows_empty (permuted : Permuted order tiles tiles' perTile perTile')
    (sizes : perTile.length = tiles.length) : inputRows frameSize edgeEps 0 (tiles'.zip perTile') = [] ↔
      inputRows frameSize edgeEps 0 (tiles.zip perTile) = [] := by
  rw [rows_items,rows_items]
  constructor
  · intro none x member
    have image : renamedInput order.idxOf x ∈ {x | x ∈ inputItems frameSize edgeEps 0 (tiles'.zip perTile')} := by
      rw [permuted.items sizes]
      exact ⟨x,member,rfl⟩
    exact none _ image
  · intro none x member
    obtain ⟨y,inside,_⟩ := (permuted.items sizes).subset member
    exact none y inside

theorem faithful_order (permuted : Permuted order tiles tiles' perTile perTile') :
    Faithful order.idxOf {x | x ∈ inputItems frameSize edgeEps 0 (tiles.zip perTile)} := by
  intro x left y right same
  have listed : ∀ {x : Row K × Seams}, x ∈ inputItems frameSize edgeEps 0 (tiles.zip perTile) →
      x.1.tileId ∈ order := by
    intro x member
    obtain ⟨t,tile,entry,j,found,_,rfl⟩ := mem_inputItems.mp member
    refine permuted.all.mem_iff.mpr (List.mem_range.mpr ?_)
    have below := (List.getElem?_eq_some_iff.mp (List.getElem?_zip_eq_some.mp found).1).1
    rwa [entryItem,entryRow,Nat.zero_add]
  exact (List.idxOf_inj (listed left)).mp same

variable [IsStrictOrderedRing K]

theorem merge_permuted (permuted : Permuted order tiles tiles' perTile perTile')
    (distinct : (perTile.flatMap (·.scores)).Nodup) (unbounded : params.maxBoxes = none) (uniform : Uniform perTile)
    (ran : mergeTileDetections perTile tiles frameSize params = .ok out) :
    ∃ out', mergeTileDetections perTile' tiles' frameSize params = .ok out' ∧ SameRows order.idxOf out out' := by
  obtain ⟨sizes,_⟩ := merge_frame ran
  obtain ⟨width,same⟩ := merge_width uniform ran
  have same' : ∀ entry ∈ perTile', entry.boxes.length ≠ 0 → entry.classes.map (·.width) = width := by
    intro entry' member filled
    obtain ⟨entry,inside,reordered⟩ := permuted.entry member
    obtain ⟨size,_,widths⟩ := reordered_shape reordered
    rw [widths]
    exact same entry inside (size ▸ filled)
  have frame : ∀ entry ∈ perTile, entry.boxes.length ≠ 0 → frameSize ≠ 0 :=
    fun _ member filled => (merge_filled ran member filled).1
  have frame' : ∀ entry ∈ perTile', entry.boxes.length ≠ 0 → frameSize ≠ 0 := by
    intro entry' member filled
    obtain ⟨entry,inside,reordered⟩ := permuted.entry member
    exact frame entry inside ((reordered_shape reordered).1 ▸ filled)
  obtain ⟨out',ran',second⟩ := merge_total params (permuted.sizes sizes) frame' same'
  obtain ⟨again,twice,first⟩ := merge_total params sizes frame same
  cases ran.symm.trans twice
  refine ⟨out',ran',?_⟩
  by_cases empty : inputRows frameSize params.edgeEps 0 (tiles.zip perTile) = []
  · obtain ⟨_,width,rfl⟩ := (merge_cases ran).resolve_right fun filled => filled.1 empty
    obtain ⟨_,width',rfl⟩ := (merge_cases ran').resolve_right fun filled =>
      filled.1 ((permuted.rows_empty sizes).mpr empty)
    exact ⟨[],[],empty_shown width,empty_shown width',.nil,fun filled => absurd rfl filled⟩
  · obtain ⟨fusedA,containedA,keptA,traceA,shownA,classedA⟩ := first.resolve_left fun none => empty none.1
    obtain ⟨fusedB,containedB,keptB,traceB,shownB,classedB⟩ := second.resolve_left fun none =>
      empty ((permuted.rows_empty sizes).mp none.1)
    refine ⟨_,_,shownA,shownB,?_,fun _ => ⟨width,classedA,classedB⟩⟩
    have columns := inputItems_columns frameSize params.edgeEps 0 (tiles.zip perTile)
    have columns' := inputItems_columns frameSize params.edgeEps 0 (tiles'.zip perTile')
    rw [← columns.1,← columns.2] at traceA
    rw [← columns'.1,← columns'.2] at traceB
    have scores : ((inputItems frameSize params.edgeEps 0 (tiles.zip perTile)).map (·.1.score)).Nodup := by
      rwa [inputItems_scores,zip_scores sizes]
    have scores' : ((inputItems frameSize params.edgeEps 0 (tiles'.zip perTile')).map (·.1.score)).Nodup := by
      rw [inputItems_scores,zip_scores (permuted.sizes sizes)]
      exact (permuted.scores sizes).nodup_iff.mpr distinct
    exact traces_renamed unbounded (faithful_order permuted) scores scores' inputItems_flags
      (inputItems_wide fun pair member => same pair.2 (List.of_mem_zip member).2) (permuted.items sizes) traceA traceB

end

end SymphonyAkida.TiledShard
