import SymphonyAkida.MergeReorder
import Mathlib.Algebra.Order.BigOperators.Group.List

namespace SymphonyAkida.TiledShard
open Outcome
variable {K : Type} [Field K] [LinearOrder K] {params : MergeParams K} {frameSize : Int} {edgeEps seamIou : K}
  {detections out : TileDetections K} {rows : List (Row K)} {seams : List Seams} {array : Classes K}

omit [Field K] [LinearOrder K] in
theorem take_classes {classes : Classes K} (ran : classes.take keep = .ok picked) :
    ∀ i ∈ keep, i < classes.rows.length := by
  unfold Classes.take at ran
  split at ran
  · cases ran
  · rename_i _ taken
    exact (take_ok taken).1

omit [Field K] [LinearOrder K] in
theorem index_classes (held : detections.classes = some array) (ran : index detections keep = .ok out) :
    ∀ i ∈ keep, i < array.rows.length := by
  unfold index at ran
  obtain ⟨_,_,ran⟩ := bind_ok ran
  obtain ⟨_,_,ran⟩ := bind_ok ran
  obtain ⟨_,_,ran⟩ := bind_ok ran
  obtain ⟨_,taken,_⟩ := bind_ok ran
  rw [held,takeOptional] at taken
  obtain ⟨_,taken,_⟩ := map_ok taken
  exact take_classes taken

omit [Field K] in
theorem fuseGroup_classes (held : detections.classes = some array)
    (ran : fuseGroup detections seams members = .ok fused) : ∀ i ∈ members, i < array.rows.length := by
  unfold fuseGroup at ran
  obtain ⟨_,_,ran⟩ := bind_ok ran
  obtain ⟨_,_,ran⟩ := bind_ok ran
  obtain ⟨_,_,ran⟩ := bind_ok ran
  obtain ⟨_,_,ran⟩ := bind_ok ran
  obtain ⟨_,_,ran⟩ := bind_ok ran
  obtain ⟨_,_,ran⟩ := bind_ok ran
  obtain ⟨_,_,ran⟩ := bind_ok ran
  obtain ⟨_,_,ran⟩ := bind_ok ran
  obtain ⟨row,classes,_⟩ := bind_ok ran
  have inside : ∀ {classes : Option (Classes K)} {row}, classes = some array →
      fuseClasses classes members = .ok row → ∀ i ∈ members, i < array.rows.length := by
    rintro _ row rfl ran
    unfold fuseClasses at ran
    dsimp only at ran
    split at ran
    · cases ran
    · rename_i _ taken
      exact take_classes taken
  exact inside held classes

omit [Field K] in
theorem fuseAll_classes (held : detections.classes = some array) (ran : fuseAll detections seams parts = .ok fused) :
    ∀ part ∈ parts, ∀ i ∈ part, i < array.rows.length := by
  induction parts generalizing fused with
  | nil => simp
  | cons members rest ih =>
    unfold fuseAll at ran
    obtain ⟨_,first,ran⟩ := bind_ok ran
    obtain ⟨_,later,_⟩ := bind_ok ran
    intro part member
    rcases List.mem_cons.mp member with rfl | other
    · exact fuseGroup_classes held first
    · exact ih later part other

-- Fusion reads the class row of every detection, or leaves them alone.
theorem fuse_short (shown : ShownBut detections rows) (held : detections.classes = some array)
    (short : array.rows.length < rows.length) (ran : fuseSeamFragments detections seams seamIou = .ok out) :
    out = {detections with truncated := some (seams.map (!·.isEmpty))} := by
  have size : detections.boxes.length = rows.length := by rw [shown.boxes,List.length_map]
  have again : ShownBut {detections with truncated := some (seams.map (!·.isEmpty))} rows :=
    ⟨shown.boxes,shown.scores,shown.labels,shown.tileIds⟩
  obtain ⟨groups,found,partition⟩ := fuse_groups seams seamIou again
  unfold fuseSeamFragments at ran
  simp only [size,found] at ran
  split at ran
  · cases ran
    rfl
  · split at ran
    · cases ran
      rfl
    · obtain ⟨_,all,_⟩ := map_ok ran
      obtain ⟨part,member,inside⟩ := partition.cover array.rows.length short
      exact absurd (fuseAll_classes (by exact held) all part member _ inside) (Nat.lt_irrefl _)

def bare (entry : TileEntry K) : Nat := if entry.classes.isSome then 0 else entry.boxes.length

def unclassed (entries : List (TileEntry K)) : Nat := (entries.map bare).sum

theorem gatherTile_rows (ran : gatherTile frameSize edgeEps pool tileId tile entry = .ok later) :
    (later.classes.flatMap (·.rows)).length + unclassed [entry] + pool.boxes.length =
      later.boxes.length + (pool.classes.flatMap (·.rows)).length := by
  simp only [gatherTile,TileEntry.cast_id] at ran
  by_cases empty : entry.boxes.length = 0
  · rw [if_pos empty] at ran
    cases ran
    simp [unclassed,bare,empty,Nat.add_comm]
  · rw [if_neg empty] at ran
    obtain ⟨framed,framing,rfl⟩ := map_ok ran
    have size : framed.length = entry.boxes.length := by
      unfold tileBoxesToFrame at framing
      split at framing
      · cases framing
      · rw [← Except.ok.inj framing,List.length_map]
    cases held : entry.classes with
    | none =>
      simp [unclassed,bare,held,size]
      omega
    | some array =>
      have parallel := entry.classesParallel array held
      simp [unclassed,bare,held,size,parallel]
      omega

theorem gather_rows (pairs : List (Tile × TileEntry K))
    (ran : gather frameSize edgeEps tileId pairs pool = .ok later) :
    (later.classes.flatMap (·.rows)).length + unclassed (pairs.map (·.2)) + pool.boxes.length =
      later.boxes.length + (pool.classes.flatMap (·.rows)).length := by
  induction pairs generalizing tileId pool with
  | nil =>
    cases ran
    simp [unclassed,Nat.add_comm]
  | cons pair rest ih =>
    obtain ⟨tile,entry⟩ := pair
    obtain ⟨middle,first,second⟩ := bind_ok ran
    have here := gatherTile_rows first
    have later := ih second
    have split : unclassed (entry :: rest.map (·.2)) = unclassed [entry] + unclassed (rest.map (·.2)) := by
      simp [unclassed]
    rw [List.map_cons,split]
    omega

omit [Field K] [LinearOrder K] in
theorem unclassed_pos {entries : List (TileEntry K)} (member : entry ∈ entries) (filled : entry.boxes.length ≠ 0)
    (none : entry.classes = none) : 0 < unclassed entries := by
  have most : bare entry ≤ unclassed entries := List.le_sum_of_mem (List.mem_map_of_mem member)
  have size : bare entry = entry.boxes.length := by simp [bare,none]
  exact Nat.lt_of_lt_of_le (Nat.pos_of_ne_zero filled) (size ▸ most)

omit [Field K] [LinearOrder K] in
theorem concatClasses_rows {arrays : List (Classes K)} (ran : concatClasses arrays = .ok whole)
    (filled : arrays ≠ []) : ∃ array, whole = some array ∧ array.rows = arrays.flatMap (·.rows) := by
  cases arrays with
  | nil => exact absurd rfl filled
  | cons first rest =>
    unfold concatClasses at ran
    dsimp only at ran
    split at ran
    · cases ran
      exact ⟨_,rfl,rfl⟩
    · cases ran

variable [IsStrictOrderedRing K]

theorem suppress_short {overlap : Box K → Box K → K} {prefer only : Bool} (shown : Shown detections rows)
    (held : detections.classes = some array) (filled : rows ≠ [])
    (ran : greedySuppress detections threshold overlap prefer only = .ok out) :
    ∃ keep, Survivors threshold overlap prefer only rows keep ∧ ∀ i ∈ keep, i < array.rows.length := by
  rw [greedySuppress_eq shown,if_neg filled] at ran
  exact ⟨_,chosen_survive shown,index_classes held ran⟩

-- With too few class rows the last detection has to be struck out.
theorem nms_short {pool : Pool K} (shown : PoolShown pool rows seams)
    (pooled : concatClasses pool.classes = .ok (some array)) (short : array.rows.length < rows.length)
    (ran : nmsStage params pool = .ok out) :
    ∃ i, i ≠ rows.length-1 ∧ Precedes params.preferComplete rows i (rows.length-1) := by
  have filled : rows ≠ [] := by
    rintro rfl
    exact absurd short (Nat.not_lt_zero _)
  obtain ⟨first,gathered,ran⟩ := bind_ok ran
  obtain ⟨second,fusing,ran⟩ := bind_ok ran
  obtain ⟨third,containing,ran⟩ := bind_ok ran
  have shownFirst := Pool.detections_shown shown gathered
  unfold Pool.detections at gathered
  rw [pooled] at gathered
  cases gathered
  have same : Shown second rows ∧ second.classes = some array := by
    cases on : params.fuseSeams with
    | false =>
      rw [on] at fusing
      cases fusing
      exact ⟨shownFirst,rfl⟩
    | true =>
      rw [on,shown.seams] at fusing
      cases fuse_short ⟨shownFirst.boxes,shownFirst.scores,shownFirst.labels,shownFirst.tileIds⟩ rfl short fusing
      exact ⟨⟨shownFirst.boxes,shownFirst.scores,shownFirst.labels,shownFirst.tileIds,
        by rw [shown.truncated]⟩,rfl⟩
  obtain ⟨shownSecond,held⟩ := same
  have struck : ∃ threshold overlap only keep, Survivors threshold overlap params.preferComplete only rows keep ∧
      ∀ i ∈ keep, i < array.rows.length := by
    split at containing
    · obtain ⟨keep,survivors,inside⟩ := suppress_short shownSecond held filled containing
      exact ⟨_,_,_,keep,survivors,inside⟩
    · cases containing
      obtain ⟨keep,survivors,inside⟩ := suppress_short shownSecond held filled ran
      exact ⟨_,_,_,keep,survivors,inside⟩
  obtain ⟨_,_,_,keep,survivors,inside⟩ := struck
  have last : rows.length-1 < rows.length := Nat.sub_lt (List.length_pos_iff.mpr filled) Nat.one_pos
  rcases survivors.covers _ last with kept | ⟨i,_,hit,less⟩
  · exact absurd (inside _ kept) (by omega)
  · obtain ⟨_,_,_,_,differ,_⟩ := hit
    exact ⟨i,differ.symm,less⟩

section
variable {tiles tiles' : List Tile} {perTile perTile' : List (TileEntry K)} {order : List Nat}

omit [Field K] [LinearOrder K] [IsStrictOrderedRing K] in
theorem mixed_entries (mixed : ¬Uniform perTile) :
    (∃ entry ∈ perTile, entry.boxes.length ≠ 0 ∧ ∃ array, entry.classes = some array) ∧
      ∃ entry ∈ perTile, entry.boxes.length ≠ 0 ∧ entry.classes = none := by
  unfold Uniform at mixed
  push Not at mixed
  obtain ⟨a,first,b,second,filled,filled',differ⟩ := mixed
  cases heldA : a.classes with
  | none =>
    cases heldB : b.classes with
    | none => rw [heldA,heldB] at differ; exact absurd rfl differ
    | some array => exact ⟨⟨b,second,filled',array,heldB⟩,a,first,filled,heldA⟩
  | some array =>
    cases heldB : b.classes with
    | none => exact ⟨⟨a,first,filled,array,heldA⟩,b,second,filled',heldB⟩
    | some _ => rw [heldA,heldB] at differ; exact absurd rfl differ

theorem mixed_struck (mixed : ¬Uniform perTile)
    (ran : mergeTileDetections perTile tiles frameSize params = .ok out) :
    ∃ i, i ≠ (inputRows frameSize params.edgeEps 0 (tiles.zip perTile)).length-1 ∧
      Precedes params.preferComplete (inputRows frameSize params.edgeEps 0 (tiles.zip perTile)) i
        ((inputRows frameSize params.edgeEps 0 (tiles.zip perTile)).length-1) := by
  obtain ⟨⟨some,member,filled,array,held⟩,none,member',filled',bare⟩ := mixed_entries mixed
  have sizes := (merge_frame ran).1
  obtain ⟨pool,classes,stage,pooled⟩ := merge_pooled ran (merge_filled ran member filled).2
  have any : pool.classes ≠ [] := List.ne_nil_of_mem (pooled.classes sizes member filled held)
  obtain ⟨joined,rfl,same⟩ := concatClasses_rows pooled.concat any
  refine nms_short pooled.shown pooled.concat ?_ pooled.staged
  have count := gather_rows _ pooled.gathered
  rw [zip_entries sizes] at count
  have lacking := unclassed_pos member' filled' bare
  have size : pool.boxes.length = (inputRows frameSize params.edgeEps 0 (tiles.zip perTile)).length := by
    rw [pooled.shown.boxes,List.length_map]
  rw [same,← size]
  simp only [List.flatMap_nil,List.length_nil] at count
  omega

omit [Field K] [LinearOrder K] [IsStrictOrderedRing K] in
theorem Permuted.mixed (permuted : Permuted order tiles tiles' perTile perTile')
    (sizes : perTile.length = tiles.length) (mixed : ¬Uniform perTile) : ¬Uniform perTile' := by
  intro uniform
  apply mixed
  have counterpart : ∀ entry ∈ perTile, ∃ entry' ∈ perTile', Reordered entry entry' := by
    intro entry member
    obtain ⟨⟨tile,entry⟩,inside,rfl⟩ := zip_entry sizes member
    obtain ⟨t,place⟩ := List.mem_iff_getElem?.mp inside
    obtain ⟨entry',found,reordered⟩ := permuted.forth sizes place
    exact ⟨entry',List.mem_of_getElem? (List.getElem?_zip_eq_some.mp found).2,reordered⟩
  intro a first b second filled filled'
  obtain ⟨a',first',sameA⟩ := counterpart a first
  obtain ⟨b',second',sameB⟩ := counterpart b second
  obtain ⟨sizeA,_,widthA⟩ := reordered_shape sameA
  obtain ⟨sizeB,_,widthB⟩ := reordered_shape sameB
  have both := uniform a' first' b' second' (sizeA ▸ filled) (sizeB ▸ filled')
  have flagA := congrArg Option.isSome widthA
  have flagB := congrArg Option.isSome widthB
  rw [Option.isSome_map,Option.isSome_map] at flagA flagB
  rw [← flagA,← flagB,both]

def lastly (n k : Nat) : List Nat := (List.range n).erase k ++ [k]

theorem lastly_perm (below : k < n) : (lastly n k).Perm (List.range n) :=
  (List.perm_append_singleton k _).trans (List.perm_cons_erase (List.mem_range.mpr below)).symm

theorem pick_lastly {rows : List α} (found : rows[k]? = some x) :
    pick rows (lastly rows.length k) = pick rows ((List.range rows.length).erase k) ++ [x] := by
  simp [pick,lastly,found]

def shuffle (entry : TileEntry K) (inner : List Nat) (perm : inner.Perm (List.range entry.boxes.length)) :
    TileEntry K where
  boxes := pick entry.boxes inner
  scores := pick entry.scores inner
  labels := pick entry.labels inner
  classes := entry.classes.map fun array => ⟨array.width,pick array.rows inner,by
    intro row member
    obtain ⟨_,_,found⟩ := mem_pick.mp member
    exact array.rect row (List.mem_of_getElem? found)⟩
  scoresParallel := by
    rw [(pick_perm (entry.scoresParallel.symm ▸ perm)).length_eq,(pick_perm perm).length_eq,entry.scoresParallel]
  labelsParallel := by
    rw [(pick_perm (entry.labelsParallel.symm ▸ perm)).length_eq,(pick_perm perm).length_eq,entry.labelsParallel]
  classesParallel := by
    intro array held
    obtain ⟨old,kept,rfl⟩ := Option.map_eq_some_iff.mp held
    have parallel := entry.classesParallel old kept
    rw [(pick_perm (parallel.symm ▸ perm)).length_eq,(pick_perm perm).length_eq,parallel]

omit [Field K] [LinearOrder K] [IsStrictOrderedRing K] in
theorem shuffle_reordered (entry : TileEntry K) {inner : List Nat}
    (perm : inner.Perm (List.range entry.boxes.length)) :
    Reordered entry (shuffle entry inner perm) :=
  ⟨inner,perm,rfl,rfl,rfl,by simp [shuffle,Function.comp_def]⟩

omit [Field K] [LinearOrder K] [IsStrictOrderedRing K] in
theorem reordered_refl (entry : TileEntry K) : Reordered entry entry := by
  refine ⟨List.range entry.boxes.length,.refl _,(pick_range _).symm,?_,?_,?_⟩
  · rw [← entry.scoresParallel,pick_range]
  · rw [← entry.labelsParallel,pick_range]
  · cases held : entry.classes with
    | none => rfl
    | some array => rw [Option.map_some,Option.map_some,← entry.classesParallel array held,pick_range]

omit [IsStrictOrderedRing K] in
theorem inputItems_append (left right : List (Tile × TileEntry K)) (tileId : Nat) :
    inputItems frameSize edgeEps tileId (left ++ right) =
      inputItems frameSize edgeEps tileId left ++ inputItems frameSize edgeEps (tileId+left.length) right := by
  induction left generalizing tileId with
  | nil => rfl
  | cons pair rest ih =>
    obtain ⟨tile,entry⟩ := pair
    rw [List.cons_append,inputItems_cons,ih,inputItems_cons,List.append_assoc,List.length_cons]
    rw [Nat.add_assoc,Nat.add_comm 1]

omit [IsStrictOrderedRing K] in
theorem permuted_last (sizes : perTile.length = tiles.length)
    (member : x ∈ inputItems frameSize edgeEps 0 (tiles.zip perTile)) :
    ∃ order tiles' perTile', Permuted order tiles tiles' perTile perTile' ∧
      (inputItems frameSize edgeEps 0 (tiles'.zip perTile')).getLast? = some (renamedInput order.idxOf x) := by
  obtain ⟨t,tile,entry,j,found,below,rfl⟩ := mem_inputItems.mp member
  obtain ⟨first,second⟩ := List.getElem?_zip_eq_some.mp found
  have within : t < tiles.length := (List.getElem?_eq_some_iff.mp first).1
  have earlier : ∀ i ∈ (List.range tiles.length).erase t, i < tiles.length :=
    fun i held => List.mem_range.mp (List.mem_of_mem_erase held)
  have perm := lastly_perm below
  have permuted : Permuted (lastly tiles.length t) tiles (pick tiles (lastly tiles.length t)) perTile
      (pick perTile ((List.range tiles.length).erase t) ++ [shuffle entry (lastly entry.boxes.length j) perm]) := by
    refine ⟨lastly_perm within,rfl,?_⟩
    rw [← sizes,pick_lastly second]
    exact List.rel_append (List.forall₂_same.mpr fun entry _ => reordered_refl entry)
      (.cons (shuffle_reordered entry perm) .nil)
  refine ⟨_,_,_,permuted,?_⟩
  have number : (lastly tiles.length t).idxOf t = ((List.range tiles.length).erase t).length := by
    have fresh : t ∉ (List.range tiles.length).erase t := fun again =>
      ((List.Nodup.mem_erase_iff List.nodup_range).mp again).1 rfl
    rw [lastly,List.idxOf_append_of_notMem fresh]
    simp
  have zipped : (pick tiles (lastly tiles.length t)).zip
      (pick perTile ((List.range tiles.length).erase t) ++ [shuffle entry (lastly entry.boxes.length j) perm]) =
      (pick tiles ((List.range tiles.length).erase t)).zip (pick perTile ((List.range tiles.length).erase t)) ++
        [(tile,shuffle entry (lastly entry.boxes.length j) perm)] := by
    rw [pick_lastly first,List.zip_append]
    · rfl
    · rw [pick_length earlier,pick_length fun i held => sizes ▸ earlier i held]
  have place : ((pick tiles ((List.range tiles.length).erase t)).zip
      (pick perTile ((List.range tiles.length).erase t))).length = (lastly tiles.length t).idxOf t := by
    rw [List.length_zip,pick_length earlier,pick_length fun i held => sizes ▸ earlier i held,Nat.min_self,number]
  obtain ⟨m,whole⟩ : ∃ m, entry.boxes.length = m+1 := ⟨entry.boxes.length-1,by omega⟩
  have final : (lastly entry.boxes.length j)[m]? = some j := by
    have count : ((List.range entry.boxes.length).erase j).length = m := by
      rw [List.length_erase_of_mem (List.mem_range.mpr below),List.length_range,whole,Nat.add_sub_cancel]
    rw [lastly,← count]
    exact List.getElem?_concat_length
  have size : (shuffle entry (lastly entry.boxes.length j) perm).boxes.length = m+1 :=
    (pick_perm perm).length_eq.trans whole
  have inside : ∀ i ∈ lastly entry.boxes.length j, i < entry.boxes.length :=
    fun i held => List.mem_range.mp (perm.mem_iff.mp held)
  have item : ∀ k, entryItem frameSize edgeEps k tile (shuffle entry (lastly entry.boxes.length j) perm) m =
      entryItem frameSize edgeEps k tile entry j := by
    intro k
    exact reordered_item rfl rfl rfl (by simp [shuffle,Function.comp_def]) inside final k tile
  rw [zipped,inputItems_append,inputItems_cons,size,List.range_succ,List.map_append,List.map_singleton,item,place]
  rw [show ∀ k, inputItems frameSize edgeEps k [] = [] from fun _ => rfl,List.append_nil,← List.append_assoc,
    List.getLast?_concat,Nat.zero_add,Nat.zero_add]
  rfl

-- Put the detection that is visited first at the end, and its class row is missing.
theorem mixed_raises (sizes : perTile.length = tiles.length) (distinct : (perTile.flatMap (·.scores)).Nodup)
    (mixed : ¬Uniform perTile) (frameSize : Int) (params : MergeParams K) :
    ∃ order tiles' perTile', Permuted order tiles tiles' perTile perTile' ∧
      ∀ out, mergeTileDetections perTile' tiles' frameSize params ≠ .ok out := by
  obtain ⟨⟨entry,member,filled,_⟩,_⟩ := mixed_entries mixed
  obtain ⟨pair,inside,rfl⟩ := zip_entry sizes member
  have rows : inputRows frameSize params.edgeEps 0 (tiles.zip perTile) ≠ [] := input_filled inside filled
  have least : ∃ top ∈ inputRows frameSize params.edgeEps 0 (tiles.zip perTile),
      ∀ row ∈ inputRows frameSize params.edgeEps 0 (tiles.zip perTile), ¬Before params.preferComplete row top :=
    Greedy.exists_first rows
  obtain ⟨top,held,first⟩ := least
  rw [← (inputItems_columns frameSize params.edgeEps 0 (tiles.zip perTile)).1,List.mem_map] at held
  obtain ⟨x,held,rfl⟩ := held
  obtain ⟨order,tiles',perTile',permuted,last⟩ := permuted_last sizes held
  refine ⟨order,tiles',perTile',permuted,fun out ran => ?_⟩
  have columns := (inputItems_columns frameSize params.edgeEps 0 (tiles'.zip perTile')).1
  obtain ⟨i,differ,ordered⟩ := mixed_struck (permuted.mixed sizes mixed) ran
  obtain ⟨a,b,atI,_⟩ := id ordered
  have final : (inputRows frameSize params.edgeEps 0 (tiles'.zip perTile'))[
      (inputRows frameSize params.edgeEps 0 (tiles'.zip perTile')).length-1]? = some (renamed order.idxOf x.1) := by
    rw [← List.getLast?_eq_getElem?,← columns,List.getLast?_map,last]
    rfl
  have scores : ((inputRows frameSize params.edgeEps 0 (tiles'.zip perTile')).map (·.score)).Nodup := by
    rw [← columns,List.map_map]
    have whole := inputItems_scores frameSize params.edgeEps 0 (tiles'.zip perTile')
    rw [zip_scores (permuted.sizes sizes)] at whole
    exact whole ▸ (permuted.scores sizes).nodup_iff.mpr distinct
  have earlier := precedes_before scores differ atI final ordered
  have listed := List.mem_of_getElem? atI
  rw [← columns,List.mem_map] at listed
  obtain ⟨y',inside',rfl⟩ := listed
  obtain ⟨y,origin,rfl⟩ := (permuted.items sizes).subset inside'
  refine first y.1 ?_ earlier
  rw [← (inputItems_columns frameSize params.edgeEps 0 (tiles.zip perTile)).1]
  exact List.mem_map.mpr ⟨y,origin,rfl⟩

theorem rounded_order_free (distinct : (perTile.flatMap (·.scores)).Nodup) (unbounded : params.maxBoxes = none)
    (ran : mergeTileDetections perTile tiles frameSize params = .ok out) :
    (∀ order tiles' perTile', Permuted order tiles tiles' perTile perTile' →
      ∃ out', mergeTileDetections perTile' tiles' frameSize params = .ok out' ∧ SameRows order.idxOf out out') ↔
      Uniform perTile := by
  constructor
  · intro free
    by_contra mixed
    obtain ⟨order,tiles',perTile',permuted,raises⟩ :=
      mixed_raises (merge_frame ran).1 distinct mixed frameSize params
    obtain ⟨out',returned,_⟩ := free order tiles' perTile' permuted
    exact raises out' returned
  · intro uniform order tiles' perTile' permuted
    exact merge_permuted permuted distinct unbounded uniform ran

omit [Field K] [LinearOrder K] [IsStrictOrderedRing K] in
-- Rounding and reordering commute, so what is a reordering of the rounded
-- entries comes from one of the entries.
theorem reordered_cast (float32 : K → K) {entry : TileEntry K} {rounded : TileEntry K} :
    Reordered (entry.cast float32) rounded ↔ ∃ entry', Reordered entry entry' ∧ rounded = entry'.cast float32 := by
  have classes : ∀ inner : List Nat, (entry.cast float32).classes.map (fun array => (array.width,pick array.rows inner)) =
      entry.classes.map fun array => (array.width,(pick array.rows inner).map (·.map float32)) := by
    intro inner
    simp only [TileEntry.cast,Option.map_map,Function.comp_def,pick_map]
  constructor
  · rintro ⟨inner,perm,boxes,scores,labels,columns⟩
    have own : inner.Perm (List.range entry.boxes.length) := by simpa [TileEntry.cast] using perm
    refine ⟨shuffle entry inner own,shuffle_reordered entry own,?_⟩
    rw [classes] at columns
    obtain ⟨b,s,l,c,_,_,_⟩ := rounded
    simp only [TileEntry.cast,shuffle] at boxes scores labels columns ⊢
    subst boxes scores labels
    simp only [pick_map,TileEntry.mk.injEq,true_and,Option.map_map,Function.comp_def]
    cases c with
    | none =>
      cases held : entry.classes with
      | none => rfl
      | some array => rw [held] at columns; cases columns
    | some array =>
      cases held : entry.classes with
      | none => rw [held] at columns; cases columns
      | some old =>
        rw [held] at columns
        simp only [Option.map_some,Option.some.injEq,Prod.mk.injEq] at columns
        obtain ⟨width,rows,_⟩ := array
        obtain ⟨rfl,rfl⟩ := columns
        rfl
  · rintro ⟨entry',⟨inner,perm,boxes,scores,labels,columns⟩,rfl⟩
    refine ⟨inner,by simpa [TileEntry.cast] using perm,?_,?_,?_,?_⟩
    · simp only [TileEntry.cast,boxes,pick_map]
    · simp only [TileEntry.cast,scores,pick_map]
    · exact labels
    · rw [classes]
      have rounded := congrArg (Option.map fun pair : Nat × List (List K) => (pair.1,pair.2.map (·.map float32))) columns
      simpa only [TileEntry.cast,Option.map_map,Function.comp_def] using rounded

omit [Field K] [LinearOrder K] [IsStrictOrderedRing K] in
theorem permuted_cast (float32 : K → K) {rounded : List (TileEntry K)} :
    Permuted order tiles tiles' (perTile.map (·.cast float32)) rounded ↔
      ∃ perTile', Permuted order tiles tiles' perTile perTile' ∧ rounded = perTile'.map (·.cast float32) := by
  have entries : ∀ (given rounded : List (TileEntry K)), List.Forall₂ Reordered (given.map (·.cast float32)) rounded ↔
      ∃ given', List.Forall₂ Reordered given given' ∧ rounded = given'.map (·.cast float32) := by
    intro given
    induction given with
    | nil =>
      intro rounded
      rw [List.map_nil,List.forall₂_nil_left_iff]
      constructor
      · rintro rfl
        exact ⟨[],.nil,rfl⟩
      · rintro ⟨_,related,rfl⟩
        rw [List.forall₂_nil_left_iff.mp related]
        rfl
    | cons entry rest ih =>
      intro rounded
      rw [List.map_cons,List.forall₂_cons_left_iff]
      constructor
      · rintro ⟨one,others,first,later,rfl⟩
        obtain ⟨entry',reordered,rfl⟩ := (reordered_cast float32).mp first
        obtain ⟨rest',related,rfl⟩ := (ih others).mp later
        exact ⟨entry' :: rest',.cons reordered related,rfl⟩
      · rintro ⟨given',related,rfl⟩
        obtain ⟨entry',rest',reordered,later,rfl⟩ := List.forall₂_cons_left_iff.mp related
        exact ⟨_,_,(reordered_cast float32).mpr ⟨entry',reordered,rfl⟩,(ih _).mpr ⟨rest',later,rfl⟩,rfl⟩
  constructor
  · rintro ⟨all,places,related⟩
    rw [pick_map,entries] at related
    obtain ⟨perTile',related,rfl⟩ := related
    exact ⟨perTile',⟨all,places,related⟩,rfl⟩
  · rintro ⟨perTile',⟨all,places,related⟩,rfl⟩
    refine ⟨all,places,?_⟩
    rw [pick_map,entries]
    exact ⟨perTile',related,rfl⟩

omit [Field K] [LinearOrder K] [IsStrictOrderedRing K] in
theorem uniform_cast (float32 : K → K) : Uniform (perTile.map (·.cast float32)) ↔ Uniform perTile := by
  simp [Uniform,TileEntry.cast]

-- The order of the tiles and of their detections does not matter, exactly when
-- the class arrays are all there or all missing.
theorem merge_order_free {float32 : K → K} (distinct : (perTile.flatMap fun entry => entry.scores.map float32).Nodup)
    (unbounded : params.maxBoxes = none) (ran : mergeTileDetections perTile tiles frameSize params float32 = .ok out) :
    (∀ order tiles' perTile', Permuted order tiles tiles' perTile perTile' →
      ∃ out', mergeTileDetections perTile' tiles' frameSize params float32 = .ok out' ∧ SameRows order.idxOf out out') ↔
      Uniform perTile := by
  rw [merge_cast] at ran
  have scores : ((perTile.map (·.cast float32)).flatMap (·.scores)).Nodup := by
    rw [List.flatMap_map]
    exact distinct
  rw [← uniform_cast float32,← rounded_order_free scores unbounded ran]
  constructor
  · intro free order tiles' rounded permuted
    obtain ⟨perTile',own,rfl⟩ := (permuted_cast float32).mp permuted
    rw [← merge_cast]
    exact free order tiles' perTile' own
  · intro free order tiles' perTile' permuted
    rw [merge_cast]
    exact free order tiles' _ ((permuted_cast float32).mpr ⟨perTile',permuted,rfl⟩)

end

-- Rounding to 24 binary places.
def roundHalf (x : ℚ) : ℚ := ((x*2^24+1/2).floor : ℚ)/2^24

theorem merge_order_free_halves : ∃ out,
    mergeTileDetections [leftHalf,rightHalf] [⟨"top_left",0,0,224⟩,⟨"top_right",224,0,224⟩] 448 {} roundHalf = .ok out ∧
    out.boxes = [⟨1/4,1/8,3/4,3/8⟩] ∧
    ∀ order tiles' perTile',
      Permuted order [⟨"top_left",0,0,224⟩,⟨"top_right",224,0,224⟩] tiles' [leftHalf,rightHalf] perTile' →
      ∃ out', mergeTileDetections perTile' tiles' 448 {} roundHalf = .ok out' ∧ SameRows order.idxOf out out' := by
  have returned : (mergeTileDetections [leftHalf,rightHalf]
      [⟨"top_left",0,0,224⟩,⟨"top_right",224,0,224⟩] 448 {} roundHalf).toOption.map (·.boxes) = some [⟨1/4,1/8,3/4,3/8⟩] := by
    decide +kernel
  obtain ⟨out,found,boxes⟩ := Option.map_eq_some_iff.mp returned
  have uniform : Uniform [leftHalf,rightHalf] := by
    intro a first b second _ _
    simp only [List.mem_cons,List.not_mem_nil,or_false] at first second
    rcases first with rfl | rfl <;> rcases second with rfl | rfl <;> rfl
  have scores : ([leftHalf,rightHalf].flatMap fun entry => entry.scores.map roundHalf).Nodup := by decide +kernel
  exact ⟨out,toOption_ok found,boxes,(merge_order_free scores rfl (toOption_ok found)).mpr uniform⟩

-- A whole object without a class row, and a cut piece of it with one.
def wholeBare : TileEntry ℚ where
  boxes := [⟨1/4,1/4,3/4,3/4⟩]
  scores := [9/10]
  labels := [5]
  classes := none
  scoresParallel := by simp
  labelsParallel := by simp
  classesParallel := by rintro array same; cases same

def pieceClassed : TileEntry ℚ where
  boxes := [⟨3/5,3/5,1,1⟩]
  scores := [8/10]
  labels := [5]
  classes := some ⟨2,[[1/10,8/10]],by simp⟩
  scoresParallel := by simp
  labelsParallel := by simp
  classesParallel := by rintro array same; cases same; rfl

-- In one order the whole object gets the class row of the piece, in the other
-- the merge raises.
theorem tile_order_matters :
    (mergeTileDetections [wholeBare,pieceClassed] [⟨"whole",0,0,448⟩,⟨"top_left",0,0,224⟩] 448 {}).toOption.map
      (fun out => (out.scores,out.classes.map (·.rows))) = some ([9/10],some [[1/10,8/10]]) ∧
    (mergeTileDetections [pieceClassed,wholeBare] [⟨"top_left",0,0,224⟩,⟨"whole",0,0,448⟩] 448 {}).toOption.isNone ∧
    ¬∀ (perTile perTile' : List (TileEntry ℚ)) (tiles tiles' : List Tile) (frameSize : Int) (params : MergeParams ℚ)
      (order : List Nat) (out : TileDetections ℚ), Permuted order tiles tiles' perTile perTile' →
      (perTile.flatMap (·.scores)).Nodup → params.maxBoxes = none →
      mergeTileDetections perTile tiles frameSize params = .ok out →
      ∃ out', mergeTileDetections perTile' tiles' frameSize params = .ok out' ∧ SameRows order.idxOf out out' := by
  have first : (mergeTileDetections [wholeBare,pieceClassed]
      [⟨"whole",0,0,448⟩,⟨"top_left",0,0,224⟩] 448 {}).toOption.map
      (fun out => (out.scores,out.classes.map (·.rows))) = some ([9/10],some [[1/10,8/10]]) := by decide +kernel
  have second : (mergeTileDetections [pieceClassed,wholeBare]
      [⟨"top_left",0,0,224⟩,⟨"whole",0,0,448⟩] 448 {}).toOption.isNone = true := by decide +kernel
  refine ⟨first,second,fun free => ?_⟩
  obtain ⟨out,found,_⟩ := Option.map_eq_some_iff.mp first
  have permuted : Permuted [1,0] [⟨"whole",0,0,448⟩,⟨"top_left",0,0,224⟩] [⟨"top_left",0,0,224⟩,⟨"whole",0,0,448⟩]
      [wholeBare,pieceClassed] [pieceClassed,wholeBare] :=
    ⟨by decide,rfl,.cons (reordered_refl _) (.cons (reordered_refl _) .nil)⟩
  obtain ⟨out',returned,_⟩ := free _ _ _ _ 448 {} [1,0] out permuted (by decide +kernel) rfl (toOption_ok found)
  rw [returned] at second
  cases second

end SymphonyAkida.TiledShard
