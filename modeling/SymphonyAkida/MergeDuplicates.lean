import SymphonyAkida.MergeStages
import Mathlib.Algebra.Field.Rat
import Mathlib.Algebra.Order.Ring.Rat

namespace SymphonyAkida.TiledShard
open Outcome
variable {K : Type} [Field K] [LinearOrder K] {out : TileDetections K} {rows : List (Row K)}
  {params : MergeParams K}

omit [Field K] in
theorem precedes_total {prefer : Bool} (first : rows[i]? = some a) (second : rows[j]? = some b) :
    Precedes prefer rows i j ∨ Precedes prefer rows j i := by
  by_cases flags : prefer = true → a.truncated = b.truncated
  · rcases lt_trichotomy b.score a.score with less | same | more
    · exact .inl ⟨a,b,first,second,.inr ⟨flags,.inl less⟩⟩
    · rcases Nat.le_total i j with le | ge
      · exact .inl ⟨a,b,first,second,.inr ⟨flags,.inr ⟨same.symm,le⟩⟩⟩
      · exact .inr ⟨b,a,second,first,.inr ⟨fun on => (flags on).symm,.inr ⟨same,ge⟩⟩⟩
    · exact .inr ⟨b,a,second,first,.inr ⟨fun on => (flags on).symm,.inl more⟩⟩
  · obtain ⟨on,differ⟩ := Classical.not_imp.mp flags
    cases open_ : a.truncated with
    | false =>
      have shut : b.truncated = true := by simpa [open_] using differ
      exact .inl ⟨a,b,first,second,.inl ⟨on,open_,shut⟩⟩
    | true =>
      have other : b.truncated = false := by simpa [open_] using differ
      exact .inr ⟨b,a,second,first,.inl ⟨on,other,open_⟩⟩

omit [Field K] in
theorem survivors_apart {threshold : K} {overlap : Box K → Box K → K} {prefer : Bool}
    (survivors : Survivors threshold overlap prefer false rows keep) (comm : ∀ a b, overlap a b = overlap b a)
    (first : i ∈ keep) (second : j ∈ keep) (differ : i ≠ j) (left : rows[i]? = some a)
    (right : rows[j]? = some b) (label : a.label = b.label) : overlap a.box b.box < threshold := by
  apply lt_of_not_ge
  intro overlaps
  rcases precedes_total left right with before | after
  · exact survivors.free i first j second before
      ⟨a,b,left,right,Ne.symm differ,label,overlaps,by simp⟩
  · refine survivors.free j second i first after ⟨b,a,right,left,differ,label.symm,?_,by simp⟩
    rw [comm]
    exact overlaps

-- What the merge returns, before and after the clip: `unclipped` are boxes the
-- NMS stage returned, at distinct places.
structure Apart (params : MergeParams K) (stage out : TileDetections K) (picks : List Nat) : Prop where
  distinct : picks.Nodup
  inside : ∀ i ∈ picks, i < stage.boxes.length
  boxes : out.boxes = (pick stage.boxes picks).map fun box => if params.clip then box.clip else box
  labels : out.labels = pick stage.labels picks
  apart : ∀ (k l : Nat) a b, k ≠ l → (pick stage.boxes picks)[k]? = some a → (pick stage.boxes picks)[l]? = some b →
    out.labels[k]? = out.labels[l]? → iou a b < params.nmsIou

variable [IsStrictOrderedRing K]

theorem finish_apart {stage : TileDetections K} (shown : Shown stage (pick rows kept))
    (nms : Survivors params.nmsIou iou params.preferComplete false rows kept)
    (last : Shown out (finishRows params (pick rows kept))) :
    Apart params stage out (finishPicks params (pick rows kept)) := by
  have finish := finish_spec params (pick rows kept)
  have labels : out.labels = pick stage.labels (finishPicks params (pick rows kept)) := by
    rw [last.labels,shown.labels,pick_map,finishRows,List.map_map]
    apply List.map_congr_left
    intro row _
    rw [Function.comp_apply,finishRow_eq]
  refine ⟨finish.distinct,?_,?_,labels,?_⟩
  · intro i member
    rw [shown.boxes,List.length_map]
    exact finish.below i member
  · rw [last.boxes,shown.boxes,pick_map,finishRows,List.map_map,List.map_map]
    apply List.map_congr_left
    intro row _
    rw [Function.comp_apply,finishRow_eq]
    rfl
  · intro k l a b differ left right label
    rw [labels,shown.labels,pick_map,List.getElem?_map,List.getElem?_map] at label
    rw [shown.boxes,pick_map,List.getElem?_map,Option.map_eq_some_iff] at left right
    obtain ⟨first,atFirst,rfl⟩ := left
    obtain ⟨second,atSecond,rfl⟩ := right
    rw [atFirst,atSecond,Option.map_some,Option.map_some,Option.some.injEq] at label
    -- The two output places are two places in the NMS order, and those two
    -- indices NMS kept.
    rw [pick_getElem? finish.below,Option.bind_eq_some_iff] at atFirst atSecond
    obtain ⟨i,placeI,atI⟩ := atFirst
    obtain ⟨j,placeJ,atJ⟩ := atSecond
    rw [pick_getElem? nms.inside,Option.bind_eq_some_iff] at atI atJ
    obtain ⟨p,keptP,found⟩ := atI
    obtain ⟨q,keptQ,other⟩ := atJ
    refine survivors_apart nms iou_comm (List.mem_of_getElem? keptP) (List.mem_of_getElem? keptQ) ?_
      found other label
    rintro rfl
    have same : i = j := (List.getElem?_inj (List.getElem?_eq_some_iff.mp keptP).1
      (survivors_distinct nms)).mp (keptP.trans keptQ.symm)
    subst same
    exact differ ((List.getElem?_inj (List.getElem?_eq_some_iff.mp placeI).1 finish.distinct).mp
      (placeI.trans placeJ.symm))

-- No duplicates among the boxes NMS saw, and none among the returned ones
-- where the clip had nothing to cut.
theorem returned_apart (ran : mergeTileDetections perTile tiles frameSize params = .ok out) :
    out.boxes = [] ∨ ∃ stage picks,
      (gatherAll perTile tiles frameSize params >>= nmsStage params) = .ok stage ∧
      Apart params stage out picks ∧
      ∀ (k l : Nat) a b, k ≠ l → (pick stage.boxes picks)[k]? = some a → (pick stage.boxes picks)[l]? = some b →
        a.insideFrame → b.insideFrame → out.labels[k]? = out.labels[l]? →
        out.boxes[k]? = some a ∧ out.boxes[l]? = some b ∧ iou a b < params.nmsIou := by
  rcases merge_cases ran with ⟨_,width,rfl⟩ | ⟨_,stage,fused,contained,kept,staged,trace,shown,last⟩
  · exact .inl rfl
  · have apart := finish_apart shown trace.nms last
    have held : ∀ (k : Nat) (box : Box K), box.insideFrame →
        (pick stage.boxes (finishPicks params (pick (pick fused contained) kept)))[k]? = some box →
        out.boxes[k]? = some box := by
      intro k box inside found
      rw [apart.boxes,List.getElem?_map,found]
      simp [clip_inside box inside]
    refine .inr ⟨stage,_,staged,apart,?_⟩
    intro k l a b differ left right insideA insideB label
    exact ⟨held k a insideA left,held l b insideB right,apart.apart k l a b differ left right label⟩

-- Two overshooting boxes of one label, an IoU of 1/3 apart until both are cut
-- to the same quarter of the frame.
def overshooting : TileEntry ℚ where
  boxes := [⟨1/2,1/2,1,1⟩,⟨1/2,1/2,2,1⟩]
  scores := [9/10,8/10]
  labels := [0,0]
  classes := none
  scoresParallel := by simp
  labelsParallel := by simp
  classesParallel := by simp

theorem returned_apart_overshooting : ∃ out,
    mergeTileDetections [overshooting] [⟨"whole",0,0,448⟩] 448 {} = .ok out ∧
    (out.boxes = [] ∨ ∃ stage picks,
      (gatherAll [overshooting] [⟨"whole",0,0,448⟩] 448 {} >>= nmsStage {}) = .ok stage ∧
      Apart {} stage out picks ∧
      ∀ (k l : Nat) a b, k ≠ l → (pick stage.boxes picks)[k]? = some a → (pick stage.boxes picks)[l]? = some b →
        a.insideFrame → b.insideFrame → out.labels[k]? = out.labels[l]? →
        out.boxes[k]? = some a ∧ out.boxes[l]? = some b ∧ iou a b < 1/2) := by
  obtain ⟨out,ran,_⟩ := @merge_total ℚ _ _ _ 448 none [overshooting] [⟨"whole",0,0,448⟩] {} rfl
    (fun _ _ _ => by decide)
    (by simp [overshooting])
  exact ⟨out,ran,returned_apart ran⟩

theorem clip_duplicates : ¬∀ (perTile : List (TileEntry ℚ)) (tiles : List Tile) (frameSize : Int)
    (params : MergeParams ℚ) (out : TileDetections ℚ), params.clip = true → 0 < params.nmsIou →
    (∀ tile ∈ tiles, 0 ≤ tile.x0 ∧ 0 ≤ tile.y0 ∧ 0 < tile.size ∧ tile.x1 ≤ frameSize ∧ tile.y1 ≤ frameSize) →
    mergeTileDetections perTile tiles frameSize params = .ok out →
    ∀ (k l : Nat) a b, k ≠ l → out.boxes[k]? = some a → out.boxes[l]? = some b →
      out.labels[k]? = out.labels[l]? → iou a b < params.nmsIou := by
  intro apart
  have ran : (mergeTileDetections [overshooting] [⟨"whole",0,0,448⟩] 448 {}).toOption.map
      (fun out => (out.boxes,out.labels)) =
        some ([⟨1/2,1/2,1,1⟩,⟨1/2,1/2,1,1⟩],[0,0]) := by decide +kernel
  obtain ⟨out,found,same⟩ := Option.map_eq_some_iff.mp ran
  rw [Prod.mk.injEq] at same
  have returned : mergeTileDetections [overshooting] [⟨"whole",0,0,448⟩] 448 {} = .ok out := toOption_ok found
  have less := apart _ _ _ _ out rfl (by norm_num) (by decide) returned 0 1 _ _ (by decide)
    (by rw [same.1]; rfl) (by rw [same.1]; rfl) (by rw [same.2]; rfl)
  exact absurd less (by decide +kernel)

end SymphonyAkida.TiledShard
