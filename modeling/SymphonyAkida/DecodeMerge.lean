import SymphonyAkida.DecodeNms
import SymphonyAkida.MergeProvenance
import SymphonyAkida.MergeComplete

namespace SymphonyAkida.TiledShard
open Outcome
variable {K : Type} [Field K] [LinearOrder K] {np : Numpy K} {numClasses : Nat} {params : MergeParams K}
  {rows fused : List (Row K)} {seams : List Seams}

-- What holds of the input rows, and of a group's fused row when it holds of the
-- members, holds of every row NMS leaves.
theorem stage_rows (P : Row K → Prop) (trace : IsNms params rows seams fused contained kept)
    (base : ∀ row ∈ rows, P row)
    (fuses : ∀ (members : List (Row K)) cut row, (∀ m ∈ members, P m) →
      (∀ a ∈ members, ∀ b ∈ members, a.label = b.label) → fuseRow members cut = some row → P row) :
    ∀ row ∈ pick (pick fused contained) kept, P row := by
  have fusedRows : ∀ row ∈ fused, P row := by
    cases on : params.fuseSeams with
    | false =>
      rw [trace.apart on]
      exact base
    | true =>
      obtain ⟨parts,fusion⟩ := trace.fusion on
      intro row member
      have listed : some row ∈ fused.map some := List.mem_map.mpr ⟨row,member,rfl⟩
      rw [← fusion.made] at listed
      obtain ⟨part,inside,made⟩ := List.mem_map.mp listed
      refine fuses _ _ row (fun m place => ?_) (part_labels fusion inside) made
      obtain ⟨i,_,found⟩ := mem_pick.mp place
      exact base m (List.mem_of_getElem? found)
  intro row member
  obtain ⟨_,_,first⟩ := mem_pick.mp member
  obtain ⟨_,_,second⟩ := mem_pick.mp (List.mem_of_getElem? first)
  exact fusedRows row (List.mem_of_getElem? second)

theorem inputRows_mem {pairs : List (Tile × TileEntry K)} (member : row ∈ inputRows frameSize edgeEps tileId pairs) :
    ∃ tile entry id j, (tile,entry) ∈ pairs ∧ j < entry.boxes.length ∧
      row = entryRow frameSize edgeEps id tile entry j := by
  induction pairs generalizing tileId with
  | nil => cases member
  | cons pair rest ih =>
    obtain ⟨tile,entry⟩ := pair
    rcases List.mem_append.mp member with here | later
    · obtain ⟨j,below,rfl⟩ := List.mem_map.mp here
      exact ⟨tile,entry,tileId,j,List.mem_cons_self,List.mem_range.mp below,rfl⟩
    · obtain ⟨tile,entry,id,j,inside,below,same⟩ := ih later
      exact ⟨tile,entry,id,j,List.mem_cons_of_mem _ inside,below,same⟩

structure Tile.Within (tile : Tile) (frameSize : Int) : Prop where
  x0 : 0 ≤ tile.x0
  y0 : 0 ≤ tile.y0
  size : 0 < tile.size
  x1 : tile.x1 ≤ frameSize
  y1 : tile.y1 ≤ frameSize

-- A box that starts inside the frame and has an extent, wherever it ends.
structure Visible (box : Box K) : Prop where
  left : 0 ≤ box.x1 ∧ box.x1 < 1
  right : box.x1 < box.x2
  top : 0 ≤ box.y1 ∧ box.y1 < 1
  bottom : box.y1 < box.y2

section
variable [IsStrictOrderedRing K]

theorem framed_span {low high : K} {start size frameSize : Int} (inside : 0 ≤ low ∧ low < 1) (wide : low < high)
    (begins : 0 ≤ start) (some_ : 0 < size) (ends : start+size ≤ frameSize) :
    (0 ≤ low*((size : K)/frameSize)+(start : K)/frameSize ∧ low*((size : K)/frameSize)+(start : K)/frameSize < 1) ∧
      low*((size : K)/frameSize)+(start : K)/frameSize < high*((size : K)/frameSize)+(start : K)/frameSize := by
  have frame : (0 : K) < frameSize := Int.cast_pos.mpr (lt_of_lt_of_le some_ (le_trans (by omega) ends))
  have extent : (0 : K) < size := Int.cast_pos.mpr some_
  have origin : (0 : K) ≤ start := Int.cast_nonneg begins
  have room : (start : K)+size ≤ frameSize := by exact_mod_cast ends
  have scale : (0 : K) < (size : K)/frameSize := div_pos extent frame
  have shorter : low*(size : K) < size := by
    have less := mul_lt_mul_of_pos_right inside.2 extent
    rwa [one_mul] at less
  refine ⟨⟨add_nonneg (mul_nonneg inside.1 (le_of_lt scale)) (div_nonneg origin (le_of_lt frame)),?_⟩,?_⟩
  · rw [← mul_div_assoc,← add_div,div_lt_one frame]
    linarith
  · exact add_lt_add_left (mul_lt_mul_of_pos_right wide scale) _

theorem framed_visible {gridH gridW : Nat} {box : Box K} (inGrid : InGrid gridH gridW box) {tile : Tile}
    (within : tile.Within frameSize) : Visible (boxToFrame tile frameSize box) := by
  obtain ⟨x,wide⟩ := framed_span inGrid.left inGrid.right.1 within.x0 within.size within.x1
  obtain ⟨y,tall⟩ := framed_span inGrid.top inGrid.bottom.1 within.y0 within.size within.y1
  exact ⟨x,wide,y,tall⟩

theorem clip_area {box : Box K} (visible : Visible box) : hasArea box.clip = true := by
  have span : ∀ {low high : K}, 0 ≤ low ∧ low < 1 → low < high → 0 < min 1 (max 0 high)-min 1 (max 0 low) := by
    intro low high inside wide
    rw [max_eq_right inside.1,min_eq_right (le_of_lt inside.2),sub_pos]
    exact lt_min inside.2 (lt_of_lt_of_le wide (le_max_right 0 high))
  simp only [hasArea,Box.clip,Bool.and_eq_true]
  exact ⟨decide_eq_true (span visible.left visible.right),decide_eq_true (span visible.top visible.bottom)⟩

omit [IsStrictOrderedRing K] in
-- The lows of an enclosing box are a member's own, its highs are above it.
theorem encloses_visible {box : Box K} {boxes : Set (Box K)} (encloses : Encloses box boxes)
    (visible : ∀ member ∈ boxes, Visible member) : Visible box := by
  obtain ⟨⟨first,inLeft,left⟩,_⟩ := encloses.left
  obtain ⟨⟨second,inTop,top⟩,_⟩ := encloses.top
  dsimp only at left top
  refine ⟨left ▸ (visible first inLeft).left,?_,top ▸ (visible second inTop).top,?_⟩
  · rw [← left]
    exact lt_of_lt_of_le (visible first inLeft).right (encloses.right.2 ⟨first,inLeft,rfl⟩)
  · rw [← top]
    exact lt_of_lt_of_le (visible second inTop).bottom (encloses.bottom.2 ⟨second,inTop,rfl⟩)

def Decoded (np : Numpy K) (anchors : List (K × K)) (numClasses : Nat) (objThreshold : K) (entry : TileEntry K) : Prop :=
  ∃ output nmsThreshold, decodeTile np output anchors numClasses objThreshold nmsThreshold = .ok entry

omit [IsStrictOrderedRing K] in
theorem decoded_entry (ran : decodeTile np output anchors numClasses objThreshold nmsThreshold = .ok entry) :
    ∃ found kept : List (Candidate K numClasses), candidates np output anchors numClasses objThreshold = .ok found ∧
      entry = entryOf kept ∧ ∀ one ∈ kept, ∃ old ∈ found, one.box = old.box := by
  obtain ⟨found,first,ran⟩ := bind_ok ran
  cases ran
  refine ⟨found,_,first,rfl,?_⟩
  intro one member
  obtain ⟨old,inside,s,_,rfl⟩ := rescored_mem (List.mem_filter.mp member).1
  exact ⟨old,inside,rfl⟩

theorem decoded_boxes (exact : Exact np) (anchored : ∀ anchor ∈ anchors, 0 < anchor.1 ∧ 0 < anchor.2)
    (ran : decodeTile np output anchors numClasses objThreshold nmsThreshold = .ok entry) :
    ∀ box ∈ entry.boxes, InGrid output.gridH output.gridW box := by
  obtain ⟨found,kept,first,rfl,same⟩ := decoded_entry ran
  intro box member
  obtain ⟨one,inside,rfl⟩ := List.mem_map.mp member
  obtain ⟨old,listed,box_⟩ := same one inside
  rw [box_]
  exact decoded_in_grid exact anchored first listed

omit [IsStrictOrderedRing K] in
theorem decoded_width (decoded : Decoded np anchors numClasses objThreshold entry) :
    entry.classes.map (·.width) = some numClasses := by
  obtain ⟨output,nmsThreshold,ran⟩ := decoded
  obtain ⟨_,kept,_,rfl,_⟩ := decoded_entry ran
  rfl

theorem decoded_visible (exact : Exact np) (anchored : ∀ anchor ∈ anchors, 0 < anchor.1 ∧ 0 < anchor.2)
    {perTile : List (TileEntry K)} {tiles : List Tile}
    (decoded : ∀ entry ∈ perTile, Decoded np anchors numClasses objThreshold entry)
    (within : ∀ tile ∈ tiles, tile.Within frameSize) (edgeEps : K) :
    ∀ row ∈ inputRows frameSize edgeEps 0 (tiles.zip perTile), Visible row.box := by
  intro row member
  obtain ⟨tile,entry,id,j,paired,below,rfl⟩ := inputRows_mem member
  obtain ⟨onTile,inside⟩ := List.of_mem_zip paired
  obtain ⟨output,nmsThreshold,ran⟩ := decoded entry inside
  have listed : entry.boxes.getD j default ∈ entry.boxes := by
    rw [List.getD_eq_getElem?_getD,List.getElem?_eq_getElem below,Option.getD_some]
    exact List.getElem_mem below
  exact framed_visible (decoded_boxes exact anchored ran _ listed) (within tile onTile)

theorem finish_keeps (visible : ∀ row ∈ rows, Visible row.box) (unlimited : params.maxBoxes = none) :
    (finishRows params rows).length = rows.length := by
  have all : rows.filter (stays params.clip) = rows := by
    refine List.filter_eq_self.mpr fun row member => ?_
    unfold stays
    rw [clip_area (visible row member),Bool.or_true]
  rw [finishRows_eq,all,pick_length (ranks_inside _ _),unlimited,ranks,List.length_map]
  exact (Argsort.argsort_perm _ _).length_eq.trans List.length_range

omit [IsStrictOrderedRing K] in
theorem nms_visible (visible : ∀ row ∈ rows, Visible row.box) (trace : IsNms params rows seams fused contained kept) :
    ∀ row ∈ pick (pick fused contained) kept, Visible row.box := by
  refine stage_rows (fun row => Visible row.box) trace visible ?_
  intro members cut row each common made
  have sums : Sums none {row | row ∈ members} _ row := fuseRow_sums made common (by simp)
  refine encloses_visible sums.box ?_
  rintro _ ⟨member,inside,rfl⟩
  exact each member inside

theorem clip_keeps_decoded (exact : Exact np) (anchored : ∀ anchor ∈ anchors, 0 < anchor.1 ∧ 0 < anchor.2)
    {perTile : List (TileEntry K)} {tiles : List Tile}
    (decoded : ∀ entry ∈ perTile, Decoded np anchors numClasses objThreshold entry)
    (sizes : perTile.length = tiles.length) (within : ∀ tile ∈ tiles, tile.Within frameSize)
    (unlimited : params.maxBoxes = none) :
    (∀ output nmsThreshold entry, decodeTile np output anchors numClasses objThreshold nmsThreshold = .ok entry →
      ∀ box ∈ entry.boxes, InGrid output.gridH output.gridW box) ∧
    ∃ out, mergeTileDetections perTile tiles frameSize params = .ok out ∧
      ((∀ entry ∈ perTile, entry.boxes = []) ∧ out.boxes = [] ∨
        ∃ stage, (gatherAll perTile tiles frameSize params >>= nmsStage params) = .ok stage ∧
          out.boxes.length = stage.boxes.length) := by
  refine ⟨fun output nmsThreshold entry ran => decoded_boxes exact anchored ran,?_⟩
  have frame : ∀ entry ∈ perTile, entry.boxes.length ≠ 0 → frameSize ≠ 0 := by
    intro entry member _
    have some_ : tiles ≠ [] := List.length_pos_iff.mp (sizes ▸ List.length_pos_of_mem member)
    obtain ⟨tile,inside⟩ := List.exists_mem_of_ne_nil tiles some_
    obtain ⟨x0,_,size,x1,_⟩ := within tile inside
    unfold Tile.x1 at x1
    omega
  obtain ⟨out,ran,_⟩ := merge_total params sizes frame (fun entry member _ => decoded_width (decoded entry member))
  refine ⟨out,ran,?_⟩
  rcases merge_cases ran with ⟨empty,width,rfl⟩ | ⟨_,stage,fused,contained,kept,staged,trace,shown,last⟩
  · exact .inl ⟨fun entry member => List.eq_nil_of_length_eq_zero (rows_empty sizes empty entry member),rfl⟩
  · refine .inr ⟨stage,staged,?_⟩
    have visible := nms_visible (decoded_visible exact anchored decoded within params.edgeEps) trace
    rw [last.boxes,shown.boxes,List.length_map,List.length_map,finish_keeps visible unlimited]

end

-- The cells of the left tile hold nothing and the half of an object; those of
-- the right one its other half and an object beyond the frame.
def leftCells : Output ℚ := ⟨1,2,[0,0,0,0,-3,0,0,0, 0,0,0,0,3,4,0,0]⟩
def rightCells : Output ℚ := ⟨1,2,[0,0,0,0,2,4,0,0, 0,0,1,0,3,0,0,4]⟩

theorem cells_decoded : ∃ left right : TileEntry ℚ, decodeTile powers leftCells [(1,1/2)] 3 (1/2) (1/2) = .ok left ∧
    decodeTile powers rightCells [(1,1/2)] 3 (1/2) (1/2) = .ok right ∧ left.boxes = [⟨1/2,1/4,1,3/4⟩] ∧
    right.boxes = [⟨0,1/4,1/2,3/4⟩,⟨1/4,1/4,5/4,3/4⟩] ∧ right.labels = [0,2] ∧
    right.classes.map (·.rows) = some [[32/45,0,0],[0,0,64/81]] := by
  have first : (decodeTile powers leftCells [(1,1/2)] 3 (1/2) (1/2)).toOption.map (·.boxes) = some [⟨1/2,1/4,1,3/4⟩] := by
    decide +kernel
  have second : (decodeTile powers rightCells [(1,1/2)] 3 (1/2) (1/2)).toOption.map
      (fun entry => (entry.boxes,entry.labels,entry.classes.map (·.rows))) =
        some ([⟨0,1/4,1/2,3/4⟩,⟨1/4,1/4,5/4,3/4⟩],[0,2],some [[32/45,0,0],[0,0,64/81]]) := by decide +kernel
  obtain ⟨left,ranLeft,boxes⟩ := Option.map_eq_some_iff.mp first
  obtain ⟨right,ranRight,shape⟩ := Option.map_eq_some_iff.mp second
  simp only [Prod.mk.injEq] at shape
  exact ⟨left,right,toOption_ok ranLeft,toOption_ok ranRight,boxes,shape⟩

theorem cells_entries {left right : TileEntry ℚ} (ranLeft : decodeTile powers leftCells [(1,1/2)] 3 (1/2) (1/2) = .ok left)
    (ranRight : decodeTile powers rightCells [(1,1/2)] 3 (1/2) (1/2) = .ok right) :
    ∀ entry ∈ [left,right], Decoded powers [(1,1/2)] 3 (1/2) entry := by
  simp only [List.forall_mem_cons]
  exact ⟨⟨leftCells,1/2,ranLeft⟩,⟨rightCells,1/2,ranRight⟩,by simp⟩

theorem clip_keeps_decoded_pair : ∃ left right out stage, decodeTile powers leftCells [(1,1/2)] 3 (1/2) (1/2) = .ok left ∧
    decodeTile powers rightCells [(1,1/2)] 3 (1/2) (1/2) = .ok right ∧
    right.boxes = [⟨0,1/4,1/2,3/4⟩,⟨1/4,1/4,5/4,3/4⟩] ∧ InGrid 1 2 (⟨1/4,1/4,5/4,3/4⟩ : Box ℚ) ∧
    mergeTileDetections [left,right] pairTiles 448 {} = .ok out ∧
    (gatherAll [left,right] pairTiles 448 {} >>= nmsStage {}) = .ok stage ∧
    stage.boxes = [⟨1/4,1/8,3/4,3/8⟩,⟨5/8,1/8,9/8,3/8⟩] ∧ out.boxes = [⟨1/4,1/8,3/4,3/8⟩,⟨5/8,1/8,1,3/8⟩] ∧
    out.boxes.length = stage.boxes.length := by
  obtain ⟨left,right,ranLeft,ranRight,boxesLeft,boxes,_⟩ := cells_decoded
  have merged : (decodeTile powers leftCells [(1,1/2)] 3 (1/2) (1/2) >>= fun left =>
      decodeTile powers rightCells [(1,1/2)] 3 (1/2) (1/2) >>= fun right =>
      mergeTileDetections [left,right] pairTiles 448 {}).toOption.map (·.boxes) =
        some [⟨1/4,1/8,3/4,3/8⟩,⟨5/8,1/8,1,3/8⟩] := by decide +kernel
  have before : (decodeTile powers leftCells [(1,1/2)] 3 (1/2) (1/2) >>= fun left =>
      decodeTile powers rightCells [(1,1/2)] 3 (1/2) (1/2) >>= fun right =>
      gatherAll [left,right] pairTiles 448 {} >>= nmsStage {}).toOption.map (·.boxes) =
        some [⟨1/4,1/8,3/4,3/8⟩,⟨5/8,1/8,9/8,3/8⟩] := by decide +kernel
  rw [ranLeft,ok_bind,ranRight,ok_bind] at merged before
  have within : ∀ tile ∈ pairTiles, tile.Within 448 := by
    simp only [pairTiles,List.forall_mem_cons]
    exact ⟨⟨by decide,by decide,by decide,by decide,by decide⟩,⟨by decide,by decide,by decide,by decide,by decide⟩,by simp⟩
  have unlimited : ({} : MergeParams ℚ).maxBoxes = none := rfl
  obtain ⟨grid,out,ran,kept⟩ := clip_keeps_decoded powers_exact (by norm_num) (cells_entries ranLeft ranRight) rfl within unlimited
  rw [ran] at merged
  rcases kept with ⟨empty,_⟩ | ⟨stage,staged,size⟩
  · have none := empty left (by simp)
    rw [boxesLeft] at none
    cases none
  · rw [staged] at before
    exact ⟨left,right,out,stage,ranLeft,ranRight,boxes,grid _ _ _ ranRight _ (by simp [boxes]),ran,staged,
      Option.some.inj before,Option.some.inj merged,size⟩

end SymphonyAkida.TiledShard
