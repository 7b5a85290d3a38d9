import SymphonyAkida.Merge

namespace SymphonyAkida.TiledShard
open Outcome
variable {K : Type} [Field K] [LinearOrder K]

def entryRow (frameSize : Int) (edgeEps : K) (tileId : Nat) (tile : Tile) (entry : TileEntry K) (j : Nat) :
    Row K where
  box := boxToFrame tile frameSize (entry.boxes.getD j default)
  score := entry.scores.getD j 0
  label := entry.labels.getD j 0
  classes := entry.classes.elim [] (·.rows.getD j [])
  tileId := tileId
  truncated := !(boxSeams tile frameSize edgeEps (entry.boxes.getD j default)).isEmpty

def entryRows (frameSize : Int) (edgeEps : K) (tileId : Nat) (tile : Tile) (entry : TileEntry K) :
    List (Row K) := (List.range entry.boxes.length).map (entryRow frameSize edgeEps tileId tile entry)

-- The input detections in the order of the pool, and their seam sets.
def inputRows (frameSize : Int) (edgeEps : K) : Nat → List (Tile × TileEntry K) → List (Row K)
  | _,[] => []
  | tileId,(tile,entry) :: rest =>
    entryRows frameSize edgeEps tileId tile entry ++ inputRows frameSize edgeEps (tileId+1) rest

def inputSeams (frameSize : Int) (edgeEps : K) : List (Tile × TileEntry K) → List Seams
  | [] => []
  | (tile,entry) :: rest =>
    seamTruncations entry.boxes tile frameSize edgeEps ++ inputSeams frameSize edgeEps rest

theorem map_range_getD (xs : List α) (default : α) (f : α → β) (size : xs.length = n) :
    (List.range n).map (fun j => f (xs.getD j default)) = xs.map f := by
  subst size
  exact List.ext_getElem (by simp) fun i left right => by
    have below : i < xs.length := by simpa using left
    simp [below]

variable {frameSize : Int} {edgeEps : K} {pool later : Pool K}

theorem entryRows_columns (frameSize : Int) (edgeEps : K) (entry : TileEntry K) (tileId : Nat) (tile : Tile) :
    (entryRows frameSize edgeEps tileId tile entry).map (·.box) = entry.boxes.map (boxToFrame tile frameSize) ∧
    (entryRows frameSize edgeEps tileId tile entry).map (·.score) = entry.scores ∧
    (entryRows frameSize edgeEps tileId tile entry).map (·.label) = entry.labels ∧
    (entryRows frameSize edgeEps tileId tile entry).map (·.tileId) =
      List.replicate entry.boxes.length tileId ∧
    (entryRows frameSize edgeEps tileId tile entry).map (·.truncated) =
      (seamTruncations entry.boxes tile frameSize edgeEps).map (!·.isEmpty) := by
  simp only [entryRows,List.map_map]
  refine ⟨?_,?_,?_,?_,?_⟩
  · exact map_range_getD entry.boxes default (boxToFrame tile frameSize) rfl
  · have whole := map_range_getD entry.scores 0 id entry.scoresParallel
    simpa [entryRow,Function.comp_def] using whole
  · have whole := map_range_getD entry.labels 0 id entry.labelsParallel
    simpa [entryRow,Function.comp_def] using whole
  · simp [entryRow,Function.comp_def]
  · rw [seamTruncations,List.map_map]
    exact map_range_getD entry.boxes default
      ((!·.isEmpty) ∘ boxSeams tile frameSize edgeEps) rfl

structure PoolShown (pool : Pool K) (rows : List (Row K)) (cuts : List Seams) : Prop where
  boxes : pool.boxes = rows.map (·.box)
  scores : pool.scores = rows.map (·.score)
  labels : pool.labels = rows.map (·.label)
  tileIds : pool.tileIds = rows.map (·.tileId)
  seams : pool.seams = cuts
  truncated : rows.map (·.truncated) = cuts.map (!·.isEmpty)

theorem entryRows_empty (frameSize : Int) (edgeEps : K) {entry : TileEntry K} (empty : entry.boxes.length = 0)
    (tileId : Nat) (tile : Tile) :
    entryRows frameSize edgeEps tileId tile entry = [] ∧
      seamTruncations entry.boxes tile frameSize edgeEps = [] := by
  rw [List.length_eq_zero_iff] at empty
  simp [entryRows,seamTruncations,empty]

theorem gatherTile_shown (shown : PoolShown pool rows cuts)
    (ran : gatherTile frameSize edgeEps pool tileId tile entry = .ok later) :
    PoolShown later (rows ++ entryRows frameSize edgeEps tileId tile entry)
      (cuts ++ seamTruncations entry.boxes tile frameSize edgeEps) := by
  simp only [gatherTile,TileEntry.cast_id] at ran
  by_cases empty : entry.boxes.length = 0
  · simp only [empty,if_true] at ran
    cases ran
    obtain ⟨noRows,noSeams⟩ := entryRows_empty frameSize edgeEps empty tileId tile
    rw [noRows,noSeams,List.append_nil,List.append_nil]
    exact ⟨shown.boxes,shown.scores,shown.labels,shown.tileIds,shown.seams,shown.truncated⟩
  · simp only [empty,if_false,tileBoxesToFrame] at ran
    split at ran
    · cases ran
    · cases ran
      obtain ⟨boxes,scores,labels,tileIds,flags⟩ :=
        entryRows_columns frameSize edgeEps entry tileId tile
      refine ⟨?_,?_,?_,?_,?_,?_⟩ <;> simp only [List.map_append]
      · rw [shown.boxes,boxes]
      · rw [shown.scores,scores]
      · rw [shown.labels,labels]
      · rw [shown.tileIds,tileIds]
      · rw [shown.seams]
      · rw [shown.truncated,flags]

theorem gather_shown (pairs : List (Tile × TileEntry K)) (shown : PoolShown pool rows cuts)
    (ran : gather frameSize edgeEps tileId pairs pool = .ok later) :
    PoolShown later (rows ++ inputRows frameSize edgeEps tileId pairs)
      (cuts ++ inputSeams frameSize edgeEps pairs) := by
  induction pairs generalizing pool rows cuts tileId with
  | nil => cases ran; simpa [inputRows,inputSeams] using shown
  | cons pair rest ih =>
    obtain ⟨tile,entry⟩ := pair
    obtain ⟨middle,first,second⟩ := bind_ok ran
    have whole := ih (gatherTile_shown shown first) second
    simpa only [inputRows,inputSeams,List.append_assoc] using whole

theorem gatherAll_ok (ran : gatherAll perTile tiles frameSize params = .ok pool) :
    perTile.length = tiles.length ∧ gather frameSize params.edgeEps 0 (tiles.zip perTile) {} = .ok pool := by
  unfold gatherAll at ran
  split at ran
  · cases ran
  · rename_i sizes
    exact ⟨not_not.mp sizes,ran⟩

theorem gatherAll_shown (ran : gatherAll perTile tiles frameSize params = .ok pool) :
    PoolShown pool (inputRows frameSize params.edgeEps 0 (tiles.zip perTile))
      (inputSeams frameSize params.edgeEps (tiles.zip perTile)) := by
  have none : PoolShown ({} : Pool K) [] [] := ⟨rfl,rfl,rfl,rfl,rfl,rfl⟩
  exact gather_shown _ none (gatherAll_ok ran).2

omit [Field K] [LinearOrder K] in
theorem PoolShown.aligned (shown : PoolShown pool rows cuts) : cuts.length = rows.length := by
  simpa using (congrArg List.length shown.truncated).symm

omit [Field K] [LinearOrder K] in
theorem Pool.detections_shown (shown : PoolShown pool rows cuts) (ran : pool.detections = .ok out) :
    Shown out rows := by
  unfold Pool.detections at ran
  cases classes : concatClasses pool.classes with
  | error e => simp [classes,Except.map] at ran
  | ok array =>
    simp only [classes,Except.map,Except.ok.injEq] at ran
    subst ran
    exact ⟨shown.boxes,shown.scores,shown.labels,shown.tileIds,by rw [shown.truncated,shown.seams]⟩

structure PoolClassed (width : Option Nat) (pool : Pool K) (rows : List (Row K)) : Prop where
  widths : ∀ array ∈ pool.classes, some array.width = width
  columns : width.isSome → pool.classes.flatMap (·.rows) = rows.map (·.classes)
  filled : width.isSome → rows ≠ [] → pool.classes ≠ []

theorem entryRows_classes (frameSize : Int) (edgeEps : K) {entry : TileEntry K}
    (classes : entry.classes = some array) (tileId : Nat) (tile : Tile) :
    (entryRows frameSize edgeEps tileId tile entry).map (·.classes) = array.rows := by
  have whole := map_range_getD array.rows [] id (entry.classesParallel array classes)
  simpa [entryRows,entryRow,classes,Function.comp_def] using whole

theorem gatherTile_total (edgeEps : K) (classed : PoolClassed width pool rows)
    (frame : entry.boxes.length ≠ 0 → frameSize ≠ 0) (same : entry.boxes.length ≠ 0 → entry.classes.map (·.width) = width) (tileId : Nat) (tile : Tile) :
    ∃ later, gatherTile frameSize edgeEps pool tileId tile entry = .ok later ∧
      PoolClassed width later (rows ++ entryRows frameSize edgeEps tileId tile entry) := by
  simp only [gatherTile,TileEntry.cast_id]
  obtain ⟨widths,columns,filled⟩ := classed
  by_cases empty : entry.boxes.length = 0
  · rw [if_pos empty,(entryRows_empty frameSize edgeEps empty tileId tile).1,List.append_nil]
    exact ⟨_,rfl,widths,columns,filled⟩
  · rw [if_neg empty]
    simp only [tileBoxesToFrame,if_neg (frame empty)]
    have same := same empty
    refine ⟨_,rfl,?_,?_,?_⟩
    · intro array member
      rcases List.mem_append.mp member with old | last
      · exact widths array old
      · have held : entry.classes = some array := by simpa using last
        simpa [held] using same
    · intro some
      obtain ⟨w,rfl⟩ := Option.isSome_iff_exists.mp some
      obtain ⟨array,held,_⟩ := Option.map_eq_some_iff.mp same
      simp only [List.flatMap_append,columns some,List.map_append,held,Option.toList_some,
        List.flatMap_cons,List.flatMap_nil,List.append_nil,
        entryRows_classes frameSize edgeEps held tileId tile]
    · intro some _
      obtain ⟨w,rfl⟩ := Option.isSome_iff_exists.mp some
      obtain ⟨array,held,_⟩ := Option.map_eq_some_iff.mp same
      simp [held]

theorem gather_total (pairs : List (Tile × TileEntry K)) (classed : PoolClassed width pool rows)
    (frame : ∀ pair ∈ pairs, pair.2.boxes.length ≠ 0 → frameSize ≠ 0)
    (same : ∀ pair ∈ pairs, pair.2.boxes.length ≠ 0 → pair.2.classes.map (·.width) = width) (tileId : Nat) :
    ∃ later, gather frameSize edgeEps tileId pairs pool = .ok later ∧
      PoolClassed width later (rows ++ inputRows frameSize edgeEps tileId pairs) := by
  induction pairs generalizing pool rows tileId with
  | nil => exact ⟨pool,rfl,by simpa [inputRows] using classed⟩
  | cons pair rest ih =>
    obtain ⟨tile,entry⟩ := pair
    obtain ⟨middle,ran,kept⟩ := gatherTile_total edgeEps classed (frame (tile,entry) List.mem_cons_self)
      (same (tile,entry) List.mem_cons_self) tileId tile
    obtain ⟨later,whole,last⟩ := ih kept (fun other member => frame other (List.mem_cons_of_mem _ member))
      (fun other member => same other (List.mem_cons_of_mem _ member)) (tileId+1)
    refine ⟨later,?_,by simpa only [inputRows,List.append_assoc] using last⟩
    simp only [gather,ran,ok_bind,whole]

theorem gatherAll_total {params : MergeParams K} {perTile : List (TileEntry K)} {tiles : List Tile}
    (sizes : perTile.length = tiles.length) (frame : ∀ entry ∈ perTile, entry.boxes.length ≠ 0 → frameSize ≠ 0)
    (same : ∀ entry ∈ perTile, entry.boxes.length ≠ 0 → entry.classes.map (·.width) = width) :
    ∃ pool, gatherAll perTile tiles frameSize params = .ok pool ∧
      PoolClassed width pool (inputRows frameSize params.edgeEps 0 (tiles.zip perTile)) := by
  unfold gatherAll
  rw [if_neg (by simpa using sizes)]
  have none : PoolClassed width ({} : Pool K) [] := ⟨by simp,by simp,by simp⟩
  exact gather_total _ none (fun pair member => frame pair.2 (List.of_mem_zip member).2)
    (fun pair member => same pair.2 (List.of_mem_zip member).2) 0

omit [Field K] [LinearOrder K] in
theorem Pool.detections_total (classed : PoolClassed width pool rows) (filled : rows ≠ []) :
    ∃ out, pool.detections = .ok out ∧ Classed width out rows := by
  obtain ⟨widths,columns,some⟩ := classed
  unfold Pool.detections
  cases classes : pool.classes with
  | nil =>
    cases width with
    | none => exact ⟨_,rfl,rfl⟩
    | some w => exact absurd classes (some rfl filled)
  | cons first rest =>
    rw [classes] at widths columns
    cases width with
    | none => exact absurd (widths first List.mem_cons_self) (by simp)
    | some w =>
      have same : ∀ array ∈ rest, array.width = first.width := fun array member =>
        Option.some.inj ((widths array (List.mem_cons_of_mem _ member)).trans
          (widths first List.mem_cons_self).symm)
      refine ⟨_,by simp only [concatClasses,dif_pos same]; rfl,?_⟩
      simp only [Classed,Option.map_some,Option.some.injEq,Prod.mk.injEq]
      exact ⟨Option.some.inj (widths first List.mem_cons_self),columns rfl⟩

end SymphonyAkida.TiledShard
