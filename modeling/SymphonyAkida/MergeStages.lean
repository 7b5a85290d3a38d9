import SymphonyAkida.FinishSpec

namespace SymphonyAkida.TiledShard
open Outcome
variable {K : Type} [Field K] [LinearOrder K] {detections out : TileDetections K} {rows : List (Row K)}
  {params : MergeParams K} {pool : Pool K}

-- The rows the stages up to NMS go through: `fused` after the first, then the
-- indices containment and NMS keep.
structure IsNms (params : MergeParams K) (rows : List (Row K)) (seams : List Seams) (fused : List (Row K))
    (contained kept : List Nat) : Prop where
  fusion : params.fuseSeams = true → ∃ parts, IsFusion rows seams params.seamIou parts fused
  apart : params.fuseSeams = false → fused = rows
  inside : contained.Nodup ∧ ∀ i ∈ contained, i < fused.length
  containment : params.iosThresh ≤ 1 →
    Survivors params.iosThresh ios params.preferComplete params.onlyTruncatedVictims fused contained
  everything : ¬params.iosThresh ≤ 1 → contained = List.range fused.length
  nms : Survivors params.nmsIou iou params.preferComplete false (pick fused contained) kept

omit [Field K] in
theorem survivors_distinct {only prefer : Bool} (survivors : Survivors threshold overlap prefer only rows keep) :
    keep.Nodup := survivors.sorted.imp fun less => Nat.ne_of_lt less

theorem fusion_stage (shown : Shown detections rows) (aligned : seams.length = rows.length)
    (ran : (if params.fuseSeams then fuseSeamFragments detections seams params.seamIou
      else .ok detections) = .ok out) :
    ∃ fused, Shown out fused ∧
      (params.fuseSeams = true → IsFusion rows seams params.seamIou (fuseGroups detections seams params.seamIou) fused) ∧
      (params.fuseSeams = false → fused = rows) := by
  cases on : params.fuseSeams with
  | false =>
    rw [on] at ran
    cases ran
    exact ⟨rows,shown,by simp,fun _ => rfl⟩
  | true =>
    rw [on] at ran
    obtain ⟨fused,fusion,after⟩ := fuse_shown
      ⟨shown.boxes,shown.scores,shown.labels,shown.tileIds⟩ aligned ran
    exact ⟨fused,after,fun _ => fusion,by simp⟩

def containedKept (params : MergeParams K) (detections : TileDetections K) : List Nat :=
  if params.iosThresh ≤ 1 then
    suppressKept detections params.iosThresh ios params.preferComplete params.onlyTruncatedVictims
  else List.range detections.boxes.length

-- The detections behind each row that NMS leaves: the groups of the fusion, and
-- of these what the suppressions keep. `places` names the pool's detections.
def nmsOrigins (params : MergeParams K) (pool : Pool K) (places : List α) : Except Error (List (List α)) := do
  let detections ← pool.detections
  let groups :=
    if params.fuseSeams then fuseGroups detections pool.seams params.seamIou
    else alone detections.boxes.length
  let detections ← (
    if params.fuseSeams then fuseSeamFragments detections pool.seams params.seamIou
    else .ok detections)
  let contained := containedKept params detections
  let detections ← (
    if params.iosThresh ≤ 1 then
      suppressContained detections params.iosThresh params.preferComplete params.onlyTruncatedVictims
    else .ok detections)
  let kept := suppressKept detections params.nmsIou iou params.preferComplete false
  return (pick (pick groups contained) kept).map (pick places)

section
variable [IsStrictOrderedRing K]

theorem containment_stage (shown : Shown detections rows)
    (ran : (if params.iosThresh ≤ 1 then
      suppressContained detections params.iosThresh params.preferComplete params.onlyTruncatedVictims
      else .ok detections) = .ok out) :
    let contained := containedKept params detections
    Shown out (pick rows contained) ∧ contained.Nodup ∧ (∀ i ∈ contained, i < rows.length) ∧
      (params.iosThresh ≤ 1 →
        Survivors params.iosThresh ios params.preferComplete params.onlyTruncatedVictims rows contained) ∧
      (¬params.iosThresh ≤ 1 → contained = List.range rows.length) := by
  unfold containedKept
  dsimp only
  split at ran
  · rename_i low
    obtain ⟨survivors,after⟩ := suppress_shown shown ran
    rw [if_pos low]
    exact ⟨after,survivors_distinct survivors,survivors.inside,fun _ => survivors,absurd low⟩
  · rename_i high
    cases ran
    have size : detections.boxes.length = rows.length := by rw [shown.boxes,List.length_map]
    rw [if_neg high,size,pick_range]
    exact ⟨shown,List.nodup_range,by simp,fun low => absurd low high,fun _ => rfl⟩

omit [IsStrictOrderedRing K] in
theorem fusion_total (shown : Shown detections rows) (classed : Classed width detections rows)
    (aligned : seams.length = rows.length) :
    ∃ out fused, (if params.fuseSeams then fuseSeamFragments detections seams params.seamIou
      else .ok detections) = .ok out ∧ Shown out fused ∧ Classed width out fused ∧
      (params.fuseSeams = true → ∃ parts, IsFusion rows seams params.seamIou parts fused) ∧
      (params.fuseSeams = false → fused = rows) := by
  cases on : params.fuseSeams with
  | false => exact ⟨detections,rows,rfl,shown,classed,by simp,fun _ => rfl⟩
  | true =>
    obtain ⟨out,parts,fused,ran,fusion,after,columns⟩ := fuse_total
      ⟨shown.boxes,shown.scores,shown.labels,shown.tileIds⟩ classed aligned
    exact ⟨out,fused,ran,after,columns,fun _ => ⟨parts,fusion⟩,by simp⟩

theorem containment_total (shown : Shown detections rows) (classed : Classed width detections rows) :
    ∃ out contained, (if params.iosThresh ≤ 1 then
      suppressContained detections params.iosThresh params.preferComplete params.onlyTruncatedVictims
      else .ok detections) = .ok out ∧ Shown out (pick rows contained) ∧
      Classed width out (pick rows contained) ∧ contained.Nodup ∧ (∀ i ∈ contained, i < rows.length) ∧
      (params.iosThresh ≤ 1 →
        Survivors params.iosThresh ios params.preferComplete params.onlyTruncatedVictims rows contained) ∧
      (¬params.iosThresh ≤ 1 → contained = List.range rows.length) := by
  split
  · rename_i low
    obtain ⟨keep,out,survivors,ran,after,columns⟩ := suppress_total shown classed
    exact ⟨out,keep,ran,after,columns,survivors_distinct survivors,survivors.inside,fun _ => survivors,
      absurd low⟩
  · rename_i high
    refine ⟨detections,List.range rows.length,rfl,?_,?_,List.nodup_range,by simp,
      fun low => absurd low high,fun _ => rfl⟩
    · rw [pick_range]; exact shown
    · rw [pick_range]; exact classed

theorem nms_traced (shown : PoolShown pool rows seams) (ran : nmsStage params pool = .ok out) (places : List α) :
    ∃ parts fused contained kept, IsNms params rows seams fused contained kept ∧ Shown out (pick (pick fused contained) kept) ∧
      nmsOrigins params pool places = .ok ((pick (pick parts contained) kept).map (pick places)) ∧
      (params.fuseSeams = true → IsFusion rows seams params.seamIou parts fused) ∧
      (params.fuseSeams = false → parts = alone rows.length) := by
  obtain ⟨first,gathered,ran⟩ := bind_ok ran
  obtain ⟨second,fusing,ran⟩ := bind_ok ran
  obtain ⟨third,containing,ran⟩ := bind_ok ran
  have shown₁ := Pool.detections_shown shown gathered
  have size : first.boxes.length = rows.length := by rw [shown₁.boxes,List.length_map]
  have origins : nmsOrigins params pool places = .ok ((pick (pick
      (if params.fuseSeams then fuseGroups first pool.seams params.seamIou else alone first.boxes.length)
      (containedKept params second)) (suppressKept third params.nmsIou iou params.preferComplete false)).map (pick places)) := by
    unfold nmsOrigins
    rw [gathered,ok_bind,fusing,ok_bind,containing,ok_bind]
    rfl
  rw [shown.seams] at fusing origins
  obtain ⟨fused,shown₂,fusion,apart⟩ := fusion_stage shown₁ shown.aligned fusing
  obtain ⟨shown₃,distinct,inside,containment,everything⟩ := containment_stage shown₂ containing
  obtain ⟨nms,shown₄⟩ := suppress_shown shown₃ ran
  refine ⟨_,fused,_,_,⟨fun on => ⟨_,fusion on⟩,apart,⟨distinct,inside⟩,containment,everything,nms⟩,shown₄,origins,?_,?_⟩
  · intro on
    rw [if_pos on]
    exact fusion on
  · intro off
    rw [if_neg (by simp [off]),size]

theorem nms_shown (shown : PoolShown pool rows seams) (ran : nmsStage params pool = .ok out) :
    ∃ fused contained kept, IsNms params rows seams fused contained kept ∧
      Shown out (pick (pick fused contained) kept) := by
  obtain ⟨_,fused,contained,kept,trace,after,_⟩ := nms_traced shown ran (List.range 0)
  exact ⟨fused,contained,kept,trace,after⟩

theorem nms_total (shown : PoolShown pool rows seams) (classed : PoolClassed width pool rows)
    (filled : rows ≠ []) : ∃ out fused contained kept, nmsStage params pool = .ok out ∧
      IsNms params rows seams fused contained kept ∧ Shown out (pick (pick fused contained) kept) ∧
      Classed width out (pick (pick fused contained) kept) := by
  obtain ⟨first,gathered,classed₁⟩ := Pool.detections_total classed filled
  have shown₁ := Pool.detections_shown shown gathered
  obtain ⟨second,fused,fusing,shown₂,classed₂,fusion,apart⟩ := fusion_total shown₁ classed₁ shown.aligned
  obtain ⟨third,contained,containing,shown₃,classed₃,distinct,inside,containment,everything⟩ :=
    containment_total shown₂ classed₂
  obtain ⟨kept,out,nms,suppressing,shown₄,classed₄⟩ := suppress_total shown₃ classed₃
  refine ⟨out,fused,contained,kept,?_,⟨fusion,apart,⟨distinct,inside⟩,containment,everything,nms⟩,
    shown₄,classed₄⟩
  rw [← shown.seams] at fusing
  unfold nmsStage
  rw [gathered,ok_bind,fusing,ok_bind,containing,ok_bind]
  exact suppressing

theorem merge_cases (ran : mergeTileDetections perTile tiles frameSize params = .ok out) :
    (inputRows frameSize params.edgeEps 0 (tiles.zip perTile) = [] ∧ ∃ width, out = emptyDetections width) ∨
    inputRows frameSize params.edgeEps 0 (tiles.zip perTile) ≠ [] ∧ ∃ stage fused contained kept,
      (gatherAll perTile tiles frameSize params >>= nmsStage params) = .ok stage ∧
      IsNms params (inputRows frameSize params.edgeEps 0 (tiles.zip perTile))
        (inputSeams frameSize params.edgeEps (tiles.zip perTile)) fused contained kept ∧
      Shown stage (pick (pick fused contained) kept) ∧
      Shown out (finishRows params (pick (pick fused contained) kept)) := by
  obtain ⟨pool,gathering,ran⟩ := bind_ok ran
  have shown := gatherAll_shown gathering
  split at ran
  · rename_i empty
    cases ran
    rw [shown.boxes,List.map_eq_nil_iff] at empty
    exact .inl ⟨empty,_,rfl⟩
  · rename_i filled
    rw [shown.boxes,List.map_eq_nil_iff] at filled
    obtain ⟨stage,first,second⟩ := bind_ok ran
    obtain ⟨fused,contained,kept,trace,after⟩ := nms_shown shown first
    refine .inr ⟨filled,stage,fused,contained,kept,?_,trace,after,finish_shown after second⟩
    rw [gathering,ok_bind,first]

theorem merge_total {perTile : List (TileEntry K)} {tiles : List Tile} (params : MergeParams K)
    (sizes : perTile.length = tiles.length) (frame : ∀ entry ∈ perTile, entry.boxes.length ≠ 0 → frameSize ≠ 0)
    (same : ∀ entry ∈ perTile, entry.boxes.length ≠ 0 → entry.classes.map (·.width) = width) :
    ∃ out, mergeTileDetections perTile tiles frameSize params = .ok out ∧
      ((inputRows frameSize params.edgeEps 0 (tiles.zip perTile) = [] ∧
        ∃ width, out = emptyDetections width) ∨
      ∃ fused contained kept,
        IsNms params (inputRows frameSize params.edgeEps 0 (tiles.zip perTile))
          (inputSeams frameSize params.edgeEps (tiles.zip perTile)) fused contained kept ∧
        Shown out (finishRows params (pick (pick fused contained) kept)) ∧
        Classed width out (finishRows params (pick (pick fused contained) kept))) := by
  obtain ⟨pool,gathering,classed⟩ := gatherAll_total sizes frame same
  have shown := gatherAll_shown gathering
  unfold mergeTileDetections
  rw [gathering,ok_bind]
  split
  · rename_i empty
    rw [shown.boxes,List.map_eq_nil_iff] at empty
    exact ⟨_,rfl,.inl ⟨empty,_,rfl⟩⟩
  · rename_i filled
    rw [shown.boxes,List.map_eq_nil_iff] at filled
    obtain ⟨stage,fused,contained,kept,first,trace,after,columns⟩ := nms_total shown classed filled
    obtain ⟨out,second,last⟩ := finish_total after columns
    refine ⟨out,?_,.inr ⟨fused,contained,kept,trace,finish_shown after second,last⟩⟩
    rw [first,ok_bind,second]

omit [Field K] [LinearOrder K] [IsStrictOrderedRing K] in
theorem empty_shown (width : Option Nat) : Shown (emptyDetections width : TileDetections K) [] :=
  ⟨rfl,rfl,rfl,rfl,rfl⟩

theorem merge_shown (ran : mergeTileDetections perTile tiles frameSize params = .ok out) : ∃ rows, Shown out rows := by
  rcases merge_cases ran with ⟨_,width,rfl⟩ | ⟨_,_,_,_,_,_,_,_,shown⟩
  · exact ⟨[],empty_shown width⟩
  · exact ⟨_,shown⟩

omit [Field K] [IsStrictOrderedRing K] in
theorem fuseRow_score {members : List (Row K)} (made : fuseRow members cut = some row) :
    ∃ old ∈ members, old.score = row.score := by
  unfold fuseRow at made
  simp only [Option.bind_eq_bind,Option.bind_eq_some_iff] at made
  obtain ⟨_,_,_,_,_,_,score,top,whole⟩ := made
  cases Option.some.inj whole
  exact List.mem_map.mp (Argmax.largest_spec top).1

omit [IsStrictOrderedRing K] in
theorem fused_score (trace : IsNms params rows seams fused contained kept) (member : row ∈ fused) :
    ∃ old ∈ rows, old.score = row.score := by
  cases on : params.fuseSeams with
  | false =>
    rw [trace.apart on] at member
    exact ⟨row,member,rfl⟩
  | true =>
    obtain ⟨parts,fusion⟩ := trace.fusion on
    have listed : some row ∈ fused.map some := List.mem_map.mpr ⟨row,member,rfl⟩
    rw [← fusion.made] at listed
    obtain ⟨part,_,made⟩ := List.mem_map.mp listed
    obtain ⟨old,inside,same⟩ := fuseRow_score made
    obtain ⟨i,_,found⟩ := mem_pick.mp inside
    exact ⟨old,List.mem_of_getElem? found,same⟩

omit [IsStrictOrderedRing K] in
theorem inputRows_score {pairs : List (Tile × TileEntry K)} (member : row ∈ inputRows frameSize edgeEps tileId pairs) :
    ∃ pair ∈ pairs, row.score ∈ pair.2.scores := by
  induction pairs generalizing tileId with
  | nil => cases member
  | cons pair rest ih =>
    obtain ⟨tile,entry⟩ := pair
    rcases List.mem_append.mp member with here | later
    · refine ⟨_,List.mem_cons_self,?_⟩
      rw [← (entryRows_columns frameSize edgeEps entry tileId tile).2.1]
      exact List.mem_map.mpr ⟨row,here,rfl⟩
    · obtain ⟨other,inside,scored⟩ := ih later
      exact ⟨other,List.mem_cons_of_mem _ inside,scored⟩

theorem merged_score (ran : mergeTileDetections perTile tiles frameSize params = .ok out) (shown : Shown out rows)
    (member : row ∈ rows) : ∃ entry ∈ perTile, ∃ score ∈ entry.scores, ∃ truncated,
      row.score = scaled params.truncatedPenalty score truncated := by
  have scored : row.score ∈ out.scores := by
    rw [shown.scores]
    exact List.mem_map.mpr ⟨row,member,rfl⟩
  rcases merge_cases ran with ⟨_,width,rfl⟩ | ⟨_,_,fused,contained,kept,_,trace,_,last⟩
  · cases scored
  · rw [last.scores] at scored
    obtain ⟨final,inside,same⟩ := List.mem_map.mp scored
    obtain ⟨middle,picked,rfl⟩ := List.mem_map.mp inside
    obtain ⟨_,_,first⟩ := mem_pick.mp picked
    obtain ⟨_,_,second⟩ := mem_pick.mp (List.mem_of_getElem? first)
    obtain ⟨_,_,third⟩ := mem_pick.mp (List.mem_of_getElem? second)
    obtain ⟨old,input,score⟩ := fused_score trace (List.mem_of_getElem? third)
    obtain ⟨pair,paired,place⟩ := inputRows_score input
    refine ⟨pair.2,(List.of_mem_zip paired).2,old.score,place,middle.truncated,?_⟩
    rw [← same,finishRow_eq,score]

end

end SymphonyAkida.TiledShard
