import SymphonyAkida.MergeStages
import SymphonyAkida.Library.Classes
import Mathlib.Algebra.Field.Rat
import Mathlib.Algebra.Order.Ring.Rat

namespace SymphonyAkida.TiledShard
open Outcome
variable {K : Type} [Field K] [LinearOrder K] {out : TileDetections K} {rows fused : List (Row K)}
  {params : MergeParams K} {seams : List Seams}

def inputPlaces : Nat → List (Tile × TileEntry K) → List (Nat × Nat)
  | _,[] => []
  | tileId,(_,entry) :: rest =>
    (List.range entry.boxes.length).map (Prod.mk tileId) ++ inputPlaces (tileId+1) rest

omit [Field K] [LinearOrder K] in
theorem places_from (pairs : List (Tile × TileEntry K)) : ∀ place ∈ inputPlaces tileId pairs, tileId ≤ place.1 := by
  induction pairs generalizing tileId with
  | nil => simp [inputPlaces]
  | cons pair rest ih =>
    obtain ⟨tile,entry⟩ := pair
    intro place member
    rcases List.mem_append.mp member with here | later
    · obtain ⟨j,_,rfl⟩ := List.mem_map.mp here
      exact Nat.le_refl _
    · exact Nat.le_of_succ_le (ih place later)

omit [Field K] [LinearOrder K] in
theorem places_nodup (pairs : List (Tile × TileEntry K)) (tileId : Nat) : (inputPlaces tileId pairs).Nodup := by
  induction pairs generalizing tileId with
  | nil => exact List.nodup_nil
  | cons pair rest ih =>
    obtain ⟨tile,entry⟩ := pair
    refine List.nodup_append.mpr ⟨?_,ih (tileId+1),?_⟩
    · exact List.nodup_range.map (Prod.mk_right_injective tileId)
    · rintro place here other later rfl
      obtain ⟨j,_,rfl⟩ := List.mem_map.mp here
      exact Nat.not_succ_le_self _ (places_from rest _ later)

theorem input_at (frameSize : Int) (edgeEps : K) {pairs : List (Tile × TileEntry K)}
    (found : pairs[t]? = some (tile,entry)) (below : j < entry.boxes.length) (tileId : Nat) :
    ∃ d : Nat, (inputPlaces tileId pairs)[d]? = some (tileId+t,j) ∧
      (inputRows frameSize edgeEps tileId pairs)[d]? =
        some (entryRow frameSize edgeEps (tileId+t) tile entry j) ∧
      (inputSeams frameSize edgeEps pairs)[d]? =
        some (boxSeams tile frameSize edgeEps (entry.boxes.getD j default)) := by
  induction pairs generalizing tileId t with
  | nil => simp at found
  | cons pair rest ih =>
    obtain ⟨first,held⟩ := pair
    cases t with
    | zero =>
      rw [List.getElem?_cons_zero,Option.some.injEq,Prod.mk.injEq] at found
      obtain ⟨rfl,rfl⟩ := found
      refine ⟨j,?_,?_,?_⟩
      · rw [inputPlaces,List.getElem?_append_left (by simpa using below)]
        simp [below]
      · rw [inputRows,List.getElem?_append_left (by simpa [entryRows] using below)]
        simp [entryRows,below]
      · rw [inputSeams,List.getElem?_append_left (by simpa [seamTruncations] using below)]
        simp [seamTruncations,below]
    | succ t =>
      obtain ⟨d,place,row,cut⟩ := ih (by simpa using found) (tileId+1)
      have shift : tileId+1+t = tileId+(t+1) := by omega
      rw [shift] at place row
      refine ⟨held.boxes.length+d,?_,?_,?_⟩
      · rw [inputPlaces,List.getElem?_append_right (by simp),List.length_map,List.length_range,
          Nat.add_sub_cancel_left]
        exact place
      · rw [inputRows,List.getElem?_append_right (by simp [entryRows])]
        simpa [entryRows] using row
      · rw [inputSeams,List.getElem?_append_right (by simp [seamTruncations])]
        simpa [seamTruncations] using cut

theorem uncut_alone {seamIou : K} (uncut : seams.getD d [] = []) (related : Relation.EqvGen (SeamJoin rows seams seamIou) i j) :
    i = d ↔ j = d := by
  refine iff_of_eq (Classes.constant (· = d) (fun x y join => ?_) related)
  have cut : seams.getD x [] ≠ [] ∧ seams.getD y [] ≠ [] := by
    obtain ⟨_,⟨_,_,_,_,_,high,low,_⟩ | ⟨_,_,_,_,_,high,low,_⟩⟩ := join
    · exact ⟨seams_cut high,seams_cut low⟩
    · exact ⟨seams_cut low,seams_cut high⟩
  refine propext ⟨?_,?_⟩
  · rintro rfl; exact absurd uncut cut.1
  · rintro rfl; exact absurd uncut cut.2

theorem uncut_fused {seamIou : K} (fusion : IsFusion rows seams seamIou parts fused) (found : rows[d]? = some row)
    (uncut : seams.getD d [] = []) (whole : row.truncated = false) :
    ∃ f : Nat, parts[f]? = some [d] ∧ fused[f]? = some row := by
  obtain ⟨below,rfl⟩ := List.getElem?_eq_some_iff.mp found
  obtain ⟨part,member,inside⟩ := fusion.components.cover d below
  have single : part = [d] := Counting.eq_singleton (fusion.components.filled part member).2 inside
    fun i other => (uncut_alone uncut ((fusion.components.classes part member d inside i
      (fusion.components.inside part member i other)).mp other)).mp rfl
  subst single
  obtain ⟨f,within,at_⟩ := List.getElem_of_mem member
  have known : parts[f]? = some [d] := by rw [List.getElem?_eq_getElem within,at_]
  refine ⟨f,known,?_⟩
  have made := congrArg (·[f]?) fusion.made
  simp only [List.getElem?_map,known,Option.map_some,pick_single below,fuseRow_single,isCut,
    List.headD_cons,uncut,List.isEmpty_nil,Bool.not_true] at made
  obtain ⟨row,held,same⟩ := Option.map_eq_some_iff.mp made.symm
  rw [held,Option.some.inj same]
  exact congrArg some (by rw [← whole])

omit [Field K] [LinearOrder K] in
theorem places_length (pairs : List (Tile × TileEntry K)) (tileId : Nat) :
    (inputPlaces tileId pairs).length = (pairs.map fun pair => pair.2.boxes.length).sum := by
  induction pairs generalizing tileId with
  | nil => rfl
  | cons pair rest ih => simp [inputPlaces,ih]

theorem rows_length (frameSize : Int) (edgeEps : K) (pairs : List (Tile × TileEntry K)) (tileId : Nat) :
    (inputRows frameSize edgeEps tileId pairs).length = (pairs.map fun pair => pair.2.boxes.length).sum := by
  induction pairs generalizing tileId with
  | nil => rfl
  | cons pair rest ih => simp [inputRows,entryRows,ih]

theorem rows_empty {perTile : List (TileEntry K)} {tiles : List Tile} (sizes : perTile.length = tiles.length)
    (empty : inputRows frameSize edgeEps tileId (tiles.zip perTile) = []) : ∀ entry ∈ perTile, entry.boxes.length = 0 := by
  intro entry member
  obtain ⟨t,below,rfl⟩ := List.getElem_of_mem member
  have paired : (tiles.zip perTile)[t]? = some (tiles[t],perTile[t]) := by
    rw [List.getElem?_eq_getElem (by rw [List.length_zip]; omega),List.getElem_zip]
  rcases Nat.eq_zero_or_pos perTile[t].boxes.length with none | some_
  · exact none
  · obtain ⟨d,_,found,_⟩ := input_at frameSize edgeEps paired some_ tileId
    rw [empty] at found
    cases found

variable {contained kept : List Nat}

-- The groups of the fused rows, an uncut detection alone in its own.
structure OwnGroups (rows : List (Row K)) (seams : List Seams) (fused : List (Row K)) (parts : List (List Nat)) : Prop where
  size : parts.length = fused.length
  distinct : parts.Nodup
  below : ∀ part ∈ parts, ∀ i ∈ part, i < rows.length
  own : ∀ d row, rows[d]? = some row → seams.getD d [] = [] → row.truncated = false →
    ∃ f : Nat, parts[f]? = some [d] ∧ fused[f]? = some row

theorem groups_own (trace : IsNms params rows seams fused contained kept)
    (fusion : params.fuseSeams = true → IsFusion rows seams params.seamIou parts fused)
    (apart : params.fuseSeams = false → parts = alone rows.length) : OwnGroups rows seams fused parts := by
  cases on : params.fuseSeams with
  | true =>
    have made := fusion on
    refine ⟨?_,made.components.heads_nodup.of_map,made.components.inside,fun d row => uncut_fused made⟩
    simpa using congrArg List.length made.made
  | false =>
    have same := trace.apart on
    have single := apart on
    subst same single
    refine ⟨by simp [alone],?_,by simp [alone],?_⟩
    · exact List.nodup_range.map fun i j equal => (List.cons.inj equal).1
    · intro d row found _ _
      have below := (List.getElem?_eq_some_iff.mp found).1
      exact ⟨d,by simp [alone,below],found⟩

-- Containment may only remove truncated boxes.
theorem uncut_contained (trace : IsNms params rows seams fused contained kept)
    (only : params.onlyTruncatedVictims = true) (found : fused[f]? = some row) (whole : row.truncated = false) :
    f ∈ contained := by
  have below := (List.getElem?_eq_some_iff.mp found).1
  by_cases low : params.iosThresh ≤ 1
  · rcases (trace.containment low).covers f below with here | ⟨_,_,⟨_,b,_,other,_,_,_,victim⟩,_⟩
    · exact here
    · cases found.symm.trans other
      rw [victim only] at whole
      cases whole
  · rw [trace.everything low]
    exact List.mem_range.mpr below

-- NMS may only remove it for a complete box that scores at least as much.
theorem uncut_nms {middle : List (Row K)}
    (survivors : Survivors params.nmsIou iou params.preferComplete false middle kept)
    (prefer : params.preferComplete = true) (found : middle[m]? = some row) (whole : row.truncated = false) :
    m ∈ kept ∨ ∃ i ∈ kept, i ≠ m ∧ ∃ other, middle[i]? = some other ∧ other.label = row.label ∧
      other.truncated = false ∧ row.score ≤ other.score ∧ params.nmsIou ≤ iou other.box row.box := by
  rcases survivors.covers m (List.getElem?_eq_some_iff.mp found).1 with here | ⟨i,member,hit,before⟩
  · exact .inl here
  · obtain ⟨a,b,left,right,apart,label,overlaps,_⟩ := hit
    obtain ⟨a',b',left',right',ordered⟩ := before
    cases left.symm.trans left'
    cases right.symm.trans right'
    cases found.symm.trans right
    rcases ordered with ⟨_,_,cut⟩ | ⟨flags,score⟩
    · rw [whole] at cut; cases cut
    · refine .inr ⟨i,member,Ne.symm apart,a,left,label,(flags prefer).trans whole,?_,overlaps⟩
      rcases score with less | ⟨same,_⟩
      · exact le_of_lt less
      · exact le_of_eq same.symm

theorem pick_twice {rows : List α} {e m f : Nat} (first : ∀ i ∈ contained, i < rows.length)
    (second : ∀ m ∈ kept, m < (pick rows contained).length) (atKept : kept[e]? = some m)
    (atContained : contained[m]? = some f) : (pick (pick rows contained) kept)[e]? = rows[f]? := by
  rw [pick_getElem? second,atKept,Option.bind_some,pick_getElem? first,atContained,Option.bind_some]

def Holds (detections : TileDetections K) (k : Nat) (box : Box K) (score : K) (label : Int)
    (truncated : Bool) : Prop :=
  detections.boxes[k]? = some box ∧ detections.scores[k]? = some score ∧
    detections.labels[k]? = some label ∧ detections.truncated.bind (·[k]?) = some truncated

omit [Field K] [LinearOrder K] in
theorem shown_holds {detections : TileDetections K} (shown : Shown detections rows) (found : rows[k]? = some row) :
    Holds detections k row.box row.score row.label row.truncated := by
  unfold Holds
  rw [shown.boxes,shown.scores,shown.labels,shown.truncated]
  simp [found]

-- A row stands for the detection of a place alone, as that was.
def Represented (origins : List (List (Nat × Nat))) (out : TileDetections K) (place : Nat × Nat) (box : Box K)
    (score : K) (label : Int) : Prop := ∃ k : Nat, origins[k]? = some [place] ∧ Holds out k box score label false

-- NMS dropped its row, and kept another complete detection.
def Outranked (nmsIou : K) (origins : List (List (Nat × Nat))) (stage : TileDetections K) (place : Nat × Nat)
    (box : Box K) (score : K) (label : Int) : Prop :=
  [place] ∉ origins ∧ ∃ e other higher, Holds stage e other higher label false ∧ score ≤ higher ∧ nmsIou ≤ iou other box

-- The detections behind each row of the result: of those behind the NMS rows
-- what the clip leaves, by rank.
def finishOrigins (params : MergeParams K) (stage : TileDetections K) (origins : List α) : Except Error (List α) :=
  (if params.clip then clipStage stage else .ok stage).map fun clipped =>
    let left := if params.clip then pick origins (maskIndices (stage.boxes.map fun box => hasArea box.clip)) else origins
    pick left (rankOrder params.maxBoxes (penalize params.truncatedPenalty clipped))

-- Those behind the rows of the NMS stage and of the result, each by its tile and
-- its index in the tile's entry.
def mergeOrigins (perTile : List (TileEntry K)) (tiles : List Tile) (frameSize : Int) (params : MergeParams K) :
    Except Error (List (List (Nat × Nat)) × List (List (Nat × Nat))) := do
  let pool ← gatherAll perTile tiles frameSize params
  if pool.boxes = [] then .ok ([],[])
  else
    let origins ← nmsOrigins params pool (inputPlaces 0 (tiles.zip perTile))
    let stage ← nmsStage params pool
    let last ← finishOrigins params stage origins
    return (origins,last)

theorem finish_traced {stage : TileDetections K} {origins : List α} (shown : Shown stage rows)
    (ran : finishStages params stage = .ok out) (aligned : origins.length = rows.length) :
    finishOrigins params stage origins = .ok (pick origins (finishPicks params rows)) := by
  obtain ⟨middle,first,_⟩ := bind_ok ran
  have ranked := penalize_shown (clipStage_shown shown params.clip first) params.truncatedPenalty
  rw [finish_rows] at ranked
  have left : (if params.clip then pick origins (maskIndices (stage.boxes.map fun box => hasArea box.clip)) else origins) =
      pick origins (maskIndices (rows.map (stays params.clip))) := by
    cases params.clip with
    | true => simp only [if_true,shown.boxes,List.map_map]; rfl
    | false =>
      have all : maskIndices (rows.map (stays false)) = List.range origins.length := by
        rw [maskIndices,List.length_map,← aligned]
        exact List.filter_eq_self.mpr fun i member => by simp [← aligned,List.mem_range.mp member]
      rw [all,pick_range]
      rfl
  unfold finishOrigins
  rw [first]
  simp only [Except.map,left,rankOrder_eq ranked]
  rw [pick_pick (aligned ▸ mask_inside rows _)]
  rfl

theorem finishRow_whole (params : MergeParams K) (whole : row.truncated = false) :
    finishRow params row = {row with box := if params.clip then row.box.clip else row.box} := by
  rw [finishRow_eq,whole,scaled,if_neg Bool.false_ne_true,mul_one]

variable [IsStrictOrderedRing K] {stage : TileDetections K} {places : List (Nat × Nat)}

theorem finish_at {params : MergeParams K} {stage : List (Row K)} {e : Nat} (unbounded : params.maxBoxes = none)
    (found : stage[e]? = some row) (stay : stays params.clip row = true) : ∃ k : Nat,
    (finishPicks params stage)[k]? = some e ∧ (finishRows params stage)[k]? = some (finishRow params row) := by
  have finish := finish_spec params stage
  obtain ⟨k,_,atK⟩ := List.getElem_of_mem (finish.all unbounded e row found stay)
  have place : (finishPicks params stage)[k]? = some e := by
    rw [← atK]
    exact List.getElem?_eq_getElem _
  refine ⟨k,place,?_⟩
  rw [finishRows,List.getElem?_map,pick_getElem? finish.below,place,Option.bind_some,found,Option.map_some]

omit [Field K] [LinearOrder K] [IsStrictOrderedRing K] in
theorem pick_place {place : Nat × Nat} {group : List Nat} (distinct : places.Nodup) (at_ : places[d]? = some place)
    (below : ∀ i ∈ group, i < places.length) (same : pick places group = [place]) : group = [d] := by
  have size := pick_length below
  rw [same] at size
  obtain ⟨i,rfl⟩ := List.length_eq_one_iff.mp size.symm
  have inside := below i (List.mem_singleton.mpr rfl)
  rw [pick_cons inside] at same
  have equal : places[i]? = places[d]? := by rw [at_,List.getElem?_eq_getElem inside,(List.cons.inj same).1]
  rw [(List.getElem?_inj inside distinct).mp equal]

omit [IsStrictOrderedRing K] in
-- The groups are picked where their rows are.
theorem OwnGroups.picked (trace : IsNms params rows seams fused contained kept) (groups : OwnGroups rows seams fused parts) :
    (∀ i ∈ contained, i < parts.length) ∧ (∀ m ∈ kept, m < (pick parts contained).length) ∧
      (pick (pick parts contained) kept).length = (pick (pick fused contained) kept).length := by
  have first : ∀ i ∈ contained, i < parts.length := by
    rw [groups.size]
    exact trace.inside.2
  have second : ∀ m ∈ kept, m < (pick parts contained).length := by
    rw [pick_length first,← pick_length trace.inside.2]
    exact trace.nms.inside
  exact ⟨first,second,by rw [pick_length second,pick_length trace.nms.inside]⟩

omit [IsStrictOrderedRing K] in
-- Only its own group is at its place, so where NMS did not keep that no row has it.
theorem uncut_dropped (trace : IsNms params rows seams fused contained kept) (groups : OwnGroups rows seams fused parts)
    (distinct : places.Nodup) (aligned : places.length = rows.length) (at_ : places[d]? = some place)
    (part : parts[f]? = some [d]) (placeM : contained[m]? = some f) (dropped : m ∉ kept) :
    [place] ∉ (pick (pick parts contained) kept).map (pick places) := by
  intro listed
  obtain ⟨group,picked,same⟩ := List.mem_map.mp listed
  obtain ⟨m',keeps,atGroup⟩ := mem_pick.mp picked
  rw [pick_getElem? (groups.picked trace).1,Option.bind_eq_some_iff] at atGroup
  obtain ⟨f',placeM',part'⟩ := atGroup
  have below : ∀ j ∈ group, j < places.length := by
    rw [aligned]
    exact groups.below group (List.mem_of_getElem? part')
  rw [pick_place distinct at_ below same] at part'
  have equal : f = f' := (List.getElem?_inj (List.getElem?_eq_some_iff.mp part).1 groups.distinct).mp (part.trans part'.symm)
  subst equal
  have sameM : m = m' := (List.getElem?_inj (List.getElem?_eq_some_iff.mp placeM).1 trace.inside.1).mp (placeM.trans placeM'.symm)
  exact dropped (sameM ▸ keeps)

theorem uncut_finished {middle : List (Row K)} {e : Nat} (shownOut : Shown out (finishRows params middle))
    (unbounded : params.maxBoxes = none) (aligned : origins.length = middle.length) (originE : origins[e]? = some [place])
    (rowE : middle[e]? = some row) (whole : row.truncated = false) :
    Represented (pick origins (finishPicks params middle)) out place (if params.clip then row.box.clip else row.box)
        row.score row.label ∨
      params.clip = true ∧ hasArea row.box.clip = false := by
  cases stay : stays params.clip row with
  | true =>
    obtain ⟨k,placeK,rowK⟩ := finish_at unbounded rowE stay
    have last := shown_holds shownOut rowK
    rw [finishRow_whole params whole,whole] at last
    have below : ∀ i ∈ finishPicks params middle, i < origins.length := by
      rw [aligned]
      exact (finish_spec params middle).below
    exact .inl ⟨k,by rw [pick_getElem? below,placeK,Option.bind_some,originE],last⟩
  | false => exact .inr (by simpa [stays] using stay)

theorem uncut_traced (trace : IsNms params rows seams fused contained kept) (groups : OwnGroups rows seams fused parts)
    (shownStage : Shown stage (pick (pick fused contained) kept))
    (shownOut : Shown out (finishRows params (pick (pick fused contained) kept)))
    (prefer : params.preferComplete = true) (only : params.onlyTruncatedVictims = true)
    (unbounded : params.maxBoxes = none) (distinct : places.Nodup) (aligned : places.length = rows.length)
    (sources : origins = (pick (pick parts contained) kept).map (pick places)) (found : rows[d]? = some row)
    (at_ : places[d]? = some place) (uncut : seams.getD d [] = []) (whole : row.truncated = false) :
    Outranked params.nmsIou origins stage place row.box row.score row.label ∨
    Represented origins stage place row.box row.score row.label ∧
      (Represented (pick origins (finishPicks params (pick (pick fused contained) kept))) out place
          (if params.clip then row.box.clip else row.box) row.score row.label ∨
        params.clip = true ∧ hasArea row.box.clip = false) := by
  have first := trace.inside.2
  have second := trace.nms.inside
  obtain ⟨firstParts,secondParts,size⟩ := groups.picked trace
  obtain ⟨f,part,held⟩ := groups.own d row found uncut whole
  obtain ⟨m,_,atM⟩ := List.getElem_of_mem (uncut_contained trace only held whole)
  have placeM : contained[m]? = some f := by rw [← atM]; exact List.getElem?_eq_getElem _
  have middle : (pick fused contained)[m]? = some row := by
    rw [pick_getElem? first,placeM,Option.bind_some,held]
  by_cases here : m ∈ kept
  · obtain ⟨e,_,atE⟩ := List.getElem_of_mem here
    have placeE : kept[e]? = some m := by rw [← atE]; exact List.getElem?_eq_getElem _
    have single : pick places [d] = [place] := by
      obtain ⟨below,same⟩ := List.getElem?_eq_some_iff.mp at_
      rw [pick_cons below,same]
      rfl
    have originE : origins[e]? = some [place] := by
      rw [sources,List.getElem?_map,(pick_twice firstParts secondParts placeE placeM).trans part,Option.map_some,single]
    have rowE : (pick (pick fused contained) kept)[e]? = some row :=
      (pick_twice first second placeE placeM).trans held
    have own := shown_holds shownStage rowE
    rw [whole] at own
    have length : origins.length = (pick (pick fused contained) kept).length := by rw [sources,List.length_map,size]
    exact .inr ⟨⟨e,originE,own⟩,uncut_finished shownOut unbounded length originE rowE whole⟩
  · rcases uncut_nms trace.nms prefer middle whole with inside | ⟨i,member,_,other,atOther,label,cut,score,overlaps⟩
    · exact absurd inside here
    obtain ⟨e,_,atE⟩ := List.getElem_of_mem member
    have placeE : kept[e]? = some i := by rw [← atE]; exact List.getElem?_eq_getElem _
    have rowE : (pick (pick fused contained) kept)[e]? = some other := by
      rw [pick_getElem? second,placeE,Option.bind_some,atOther]
    have last := shown_holds shownStage rowE
    rw [label,cut] at last
    refine .inl ⟨?_,e,other.box,other.score,last,score,overlaps⟩
    rw [sources]
    exact uncut_dropped trace groups distinct aligned at_ part placeM here

omit [IsStrictOrderedRing K] in
theorem uncut_located {edgeEps : K} {tiles : List Tile} {perTile : List (TileEntry K)} {t j : Nat}
    (atTile : tiles[t]? = some tile) (atEntry : perTile[t]? = some entry)
    (atBox : entry.boxes[j]? = some box) (atScore : entry.scores[j]? = some score)
    (atLabel : entry.labels[j]? = some label) (uncut : boxSeams tile frameSize edgeEps box = []) :
    ∃ (d : Nat) (row : Row K), (inputRows frameSize edgeEps 0 (tiles.zip perTile))[d]? = some row ∧
      (inputPlaces 0 (tiles.zip perTile))[d]? = some (t,j) ∧
      (inputSeams frameSize edgeEps (tiles.zip perTile)).getD d [] = [] ∧ row.truncated = false ∧
      row.box = boxToFrame tile frameSize box ∧ row.score = score ∧ row.label = label := by
  have pair : (tiles.zip perTile)[t]? = some (tile,entry) := by
    rw [List.getElem?_zip_eq_some]
    exact ⟨atTile,atEntry⟩
  obtain ⟨d,place,row,cut⟩ := input_at frameSize edgeEps pair (List.getElem?_eq_some_iff.mp atBox).1 0
  rw [Nat.zero_add] at place row
  have same : entry.boxes.getD j default = box := by simp [atBox]
  rw [same,uncut] at cut
  refine ⟨d,_,row,place,by simp [cut],?_,?_,?_,?_⟩
  · simp only [entryRow,same,uncut,List.isEmpty_nil,Bool.not_true]
  · simp only [entryRow,same]
  · simp [entryRow,atScore]
  · simp [entryRow,atLabel]

-- No complete detection is lost. Where NMS dropped its row there is another; where
-- NMS kept it, it stands in the result in a row of its own, or has no area left.
theorem complete_kept (prefer : params.preferComplete = true) (only : params.onlyTruncatedVictims = true)
    (unbounded : params.maxBoxes = none) (ran : mergeTileDetections perTile tiles frameSize params = .ok out) :
    ∃ nms last, mergeOrigins perTile tiles frameSize params = .ok (nms,last) ∧ last.length = out.boxes.length ∧
      ∀ (t j : Nat) tile entry box score label,
        tiles[t]? = some tile → perTile[t]? = some entry → entry.boxes[j]? = some box →
        entry.scores[j]? = some score → entry.labels[j]? = some label →
        boxSeams tile frameSize params.edgeEps box = [] →
        ∃ stage, (gatherAll perTile tiles frameSize params >>= nmsStage params) = .ok stage ∧
          nms.length = stage.boxes.length ∧
          let framed := boxToFrame tile frameSize box
          (Outranked params.nmsIou nms stage (t,j) framed score label ∨
            Represented nms stage (t,j) framed score label ∧
              (Represented last out (t,j) (if params.clip then framed.clip else framed) score label ∨
                params.clip = true ∧ hasArea framed.clip = false)) := by
  obtain ⟨pool,gathering,after⟩ := bind_ok ran
  have shown := gatherAll_shown gathering
  unfold mergeOrigins
  rw [gathering,ok_bind]
  split at after
  · rename_i empty
    cases after
    rw [if_pos empty]
    refine ⟨[],[],rfl,rfl,?_⟩
    intro t j tile entry box score label atTile atEntry atBox atScore atLabel uncut
    obtain ⟨d,row,found,_⟩ := uncut_located atTile atEntry atBox atScore atLabel uncut
    rw [shown.boxes,List.map_eq_nil_iff] at empty
    rw [empty] at found
    cases found
  · rename_i filled
    obtain ⟨stage,staged,finished⟩ := bind_ok after
    obtain ⟨parts,fused,contained,kept,trace,shownStage,origins,fusion,apart⟩ :=
      nms_traced shown staged (inputPlaces 0 (tiles.zip perTile))
    have groups := groups_own trace fusion apart
    have aligned : (inputPlaces 0 (tiles.zip perTile)).length =
        (inputRows frameSize params.edgeEps 0 (tiles.zip perTile)).length :=
      (places_length _ 0).trans (rows_length frameSize params.edgeEps _ 0).symm
    obtain ⟨_,_,size⟩ := groups.picked trace
    have last : finishOrigins params stage ((pick (pick parts contained) kept).map (pick (inputPlaces 0 (tiles.zip perTile)))) = _ :=
      finish_traced shownStage finished (by rw [List.length_map,size])
    have shownOut := finish_shown shownStage finished
    rw [if_neg filled,origins,ok_bind,staged,ok_bind,last,ok_bind]
    refine ⟨_,_,rfl,?_,?_⟩
    · have below : ∀ i ∈ finishPicks params (pick (pick fused contained) kept),
          i < ((pick (pick parts contained) kept).map (pick (inputPlaces 0 (tiles.zip perTile)))).length := by
        rw [List.length_map,size]
        exact (finish_spec params _).below
      rw [pick_length below,shownOut.boxes,List.length_map,finishRows,List.length_map,
        pick_length (finish_spec params _).below]
    intro t j tile entry box score label atTile atEntry atBox atScore atLabel uncut
    obtain ⟨d,row,found,place,cut,whole,framed,scored,labelled⟩ :=
      uncut_located atTile atEntry atBox atScore atLabel uncut
    have known := uncut_traced trace groups shownStage shownOut prefer only unbounded
      (places_nodup (tiles.zip perTile) 0) aligned rfl found place cut whole
    rw [framed,scored,labelled] at known
    refine ⟨stage,?_,?_,known⟩
    · rw [ok_bind,staged]
    · rw [List.length_map,size,shownStage.boxes,List.length_map]

-- An object cut in two, and on the left three whole boxes: the second is
-- outranked by the first, the third lies above the frame.
def leftTile : TileEntry ℚ where
  boxes := [⟨1/2,1/4,1,3/4⟩,⟨1/4,1/4,3/4,3/4⟩,⟨1/4,1/4,3/4,5/8⟩,⟨1/4,-1/2,1/2,-1/4⟩]
  scores := [9/10,8/10,7/10,6/10]
  labels := [6,3,3,7]
  classes := none
  scoresParallel := rfl
  labelsParallel := rfl
  classesParallel := by simp

def rightTile : TileEntry ℚ where
  boxes := [⟨0,1/4,1/2,3/4⟩]
  scores := [5/10]
  labels := [6]
  classes := none
  scoresParallel := rfl
  labelsParallel := rfl
  classesParallel := by simp

def pairTiles : List Tile := [⟨"top_left",0,0,224⟩,⟨"top_right",224,0,224⟩]

theorem complete_kept_pair : ∃ (out stage : TileDetections ℚ),
    mergeTileDetections [leftTile,rightTile] pairTiles 448 {} = .ok out ∧ out.scores = [9/10,8/10] ∧
    mergeOrigins [leftTile,rightTile] pairTiles 448 {} =
      .ok ([[(0,0),(1,0)],[(0,1)],[(0,3)]],[[(0,0),(1,0)],[(0,1)]]) ∧
    Represented [[(0,0),(1,0)],[(0,1)]] out (0,1) ⟨1/8,1/8,3/8,3/8⟩ (8/10) 3 ∧
    Outranked (1/2) [[(0,0),(1,0)],[(0,1)],[(0,3)]] stage (0,2) ⟨1/8,1/8,3/8,5/16⟩ (7/10) 3 ∧
    hasArea (⟨1/8,-1/4,1/4,-1/8⟩ : Box ℚ).clip = false := by
  have ran : (mergeTileDetections [leftTile,rightTile] pairTiles 448 {}).toOption.map (·.scores) = some [9/10,8/10] := by
    decide +kernel
  obtain ⟨out,found,scores⟩ := Option.map_eq_some_iff.mp ran
  have traced : (mergeOrigins [leftTile,rightTile] pairTiles 448 {}).toOption =
      some ([[(0,0),(1,0)],[(0,1)],[(0,3)]],[[(0,0),(1,0)],[(0,1)]]) := by decide +kernel
  have origins := toOption_ok traced
  obtain ⟨nms,last,again,_,every⟩ := complete_kept rfl rfl rfl (toOption_ok found)
  obtain ⟨rfl,rfl⟩ := Prod.mk.inj (Except.ok.inj (origins.symm.trans again))
  have first : boxToFrame (K := ℚ) ⟨"top_left",0,0,224⟩ 448 ⟨1/4,1/4,3/4,3/4⟩ = ⟨1/8,1/8,3/8,3/8⟩ := by decide +kernel
  have second : boxToFrame (K := ℚ) ⟨"top_left",0,0,224⟩ 448 ⟨1/4,1/4,3/4,5/8⟩ = ⟨1/8,1/8,3/8,5/16⟩ := by decide +kernel
  have third : boxToFrame (K := ℚ) ⟨"top_left",0,0,224⟩ 448 ⟨1/4,-1/2,1/2,-1/4⟩ = ⟨1/8,-1/4,1/4,-1/8⟩ := by decide +kernel
  have inside : (⟨1/8,1/8,3/8,3/8⟩ : Box ℚ).clip = ⟨1/8,1/8,3/8,3/8⟩ := by decide +kernel
  obtain ⟨_,_,_,kept⟩ := every 0 1 _ _ _ _ _ rfl rfl rfl rfl rfl (by decide +kernel)
  obtain ⟨stage,_,_,dropped⟩ := every 0 2 _ _ _ _ _ rfl rfl rfl rfl rfl (by decide +kernel)
  obtain ⟨_,_,_,lost⟩ := every 0 3 _ _ _ _ _ rfl rfl rfl rfl rfl (by decide +kernel)
  -- What stands in a list of origins is there.
  have listed : ∀ {origins : List (List (Nat × Nat))} {held : TileDetections ℚ} {place box score label},
      Represented origins held place box score label → [place] ∈ origins := by
    rintro origins held place box score label ⟨k,at_,_⟩
    exact List.mem_of_getElem? at_
  simp only [first,inside,ite_self] at kept
  simp only [second] at dropped
  simp only [third] at lost
  refine ⟨out,stage,toOption_ok found,scores,origins,?_,?_,?_⟩
  · rcases kept with ⟨absent,_⟩ | ⟨_,here | ⟨_,empty⟩⟩
    · exact absurd (by decide) absent
    · exact here
    · exact absurd empty (by decide +kernel)
  · rcases dropped with outranked | ⟨here,_⟩
    · exact outranked
    · exact absurd (listed here) (by decide)
  · rcases lost with ⟨absent,_⟩ | ⟨_,here | ⟨_,empty⟩⟩
    · exact absurd (by decide) absent
    · exact absurd (listed here) (by decide)
    · exact empty

end SymphonyAkida.TiledShard
