import SymphonyAkida.MergeStages
import Mathlib.Algebra.Field.Rat
import Mathlib.Algebra.Order.Group.MinMax
import Mathlib.Algebra.Order.Ring.Rat
import Mathlib.Tactic.FieldSimp
import Mathlib.Tactic.Ring
import Mathlib.Tactic.Linarith

namespace SymphonyAkida.TiledShard
open Outcome

-- The symmetries of the square frame that exchange or reverse its axes.
inductive Symmetry | transpose | mirrorX | mirrorY
deriving DecidableEq

namespace Symmetry

def box {K : Type} [Field K] : Symmetry → Box K → Box K
  | .transpose,b => ⟨b.y1,b.x1,b.y2,b.x2⟩
  | .mirrorX,b => ⟨1-b.x2,b.y1,1-b.x1,b.y2⟩
  | .mirrorY,b => ⟨b.x1,1-b.y2,b.x2,1-b.y1⟩

def tile (frameSize : Int) : Symmetry → Tile → Tile
  | .transpose,t => {t with x0 := t.y0,y0 := t.x0}
  | .mirrorX,t => {t with x0 := frameSize-t.x0-t.size}
  | .mirrorY,t => {t with y0 := frameSize-t.y0-t.size}

def axis : Symmetry → Axis → Axis
  | .transpose,a => a.other
  | _,a => a

def swaps : Symmetry → Axis → Bool
  | .mirrorX,.x => true
  | .mirrorY,.y => true
  | _,_ => false

def key (g : Symmetry) (k : Axis × Edge) : Axis × Edge :=
  (g.axis k.1,match g.swaps k.1,k.2 with
    | false,edge => edge
    | true,.low => .high
    | true,.high => .low)

theorem key_key (g : Symmetry) (k : Axis × Edge) : g.key (g.key k) = k := by
  obtain ⟨axis,edge⟩ := k
  cases g <;> cases axis <;> cases edge <;> rfl

def allKeys : Seams := [(.x,.low),(.x,.high),(.y,.low),(.y,.high)]

theorem mem_allKeys (k : Axis × Edge) : k ∈ allKeys := by
  obtain ⟨axis,edge⟩ := k
  cases axis <;> cases edge <;> simp [allKeys]

def keys (g : Symmetry) (cut : Seams) : Seams := allKeys.filter fun k => g.key k ∈ cut

theorem mem_keys (g : Symmetry) (cut : Seams) (k : Axis × Edge) : k ∈ g.keys cut ↔ g.key k ∈ cut := by
  simp [keys,mem_allKeys]

theorem keys_empty (g : Symmetry) (cut : Seams) : g.keys cut = [] ↔ cut = [] := by
  simp only [List.eq_nil_iff_forall_not_mem,mem_keys]
  constructor
  · intro none k member
    exact none (g.key k) (by rwa [key_key])
  · intro none k
    exact none (g.key k)

theorem isEmpty_keys (g : Symmetry) (cut : Seams) : (g.keys cut).isEmpty = cut.isEmpty := by
  rw [Bool.eq_iff_iff,List.isEmpty_iff,List.isEmpty_iff,keys_empty]

section
variable {K : Type} [Field K]

def entry (g : Symmetry) (entry : TileEntry K) : TileEntry K where
  boxes := entry.boxes.map g.box
  scores := entry.scores
  labels := entry.labels
  classes := entry.classes
  scoresParallel := by rw [List.length_map]; exact entry.scoresParallel
  labelsParallel := by rw [List.length_map]; exact entry.labelsParallel
  classesParallel := by
    intro array held
    rw [List.length_map]
    exact entry.classesParallel array held

def detections (g : Symmetry) (detections : TileDetections K) : TileDetections K :=
  {detections with boxes := detections.boxes.map g.box}

def pool (g : Symmetry) (pool : Pool K) : Pool K :=
  {pool with boxes := pool.boxes.map g.box,seams := pool.seams.map g.keys}

end

section
variable {K : Type} [Field K] [LinearOrder K] [IsStrictOrderedRing K]

theorem toFrame (g : Symmetry) (tile : Tile) (frame : frameSize ≠ 0) (box : Box K) :
    boxToFrame (g.tile frameSize tile) frameSize (g.box box) = g.box (boxToFrame tile frameSize box) := by
  have whole : (frameSize : K) ≠ 0 := Int.cast_ne_zero.mpr frame
  cases g with
  | transpose => rfl
  | mirrorX =>
    simp only [boxToFrame,Symmetry.tile,Symmetry.box,Int.cast_sub,Box.mk.injEq,true_and,and_true]
    constructor
    · field_simp; ring
    · field_simp; ring
  | mirrorY =>
    simp only [boxToFrame,Symmetry.tile,Symmetry.box,Int.cast_sub,Box.mk.injEq,true_and]
    constructor
    · field_simp; ring
    · field_simp; ring

def isSeam (sides : SeamSides) : Axis × Edge → Bool
  | (.x,.low) => sides.left
  | (.x,.high) => sides.right
  | (.y,.low) => sides.top
  | (.y,.high) => sides.bottom

theorem seamChecks_eq (tile : Tile) (frameSize : Int) :
    seamChecks tile frameSize = allKeys.filter (isSeam (tile.seamSides frameSize)) := by
  unfold seamChecks
  generalize tile.seamSides frameSize = sides
  obtain ⟨left,right,top,bottom⟩ := sides
  cases left <;> cases right <;> cases top <;> cases bottom <;> rfl

theorem isSeam_tile (g : Symmetry) (tile : Tile) (frameSize : Int) (k : Axis × Edge) :
    isSeam ((g.tile frameSize tile).seamSides frameSize) k = isSeam (tile.seamSides frameSize) (g.key k) := by
  obtain ⟨axis,edge⟩ := k
  cases g <;> cases axis <;> cases edge <;> apply decide_eq_decide.mpr <;>
    simp only [Tile.x1,Tile.y1,Symmetry.tile] <;> omega

omit [LinearOrder K] [IsStrictOrderedRing K] in
theorem low_box (g : Symmetry) (box : Box K) (axis : Axis) :
    (g.box box).low axis = if g.swaps axis then 1-box.high (g.axis axis) else box.low (g.axis axis) := by
  cases g <;> cases axis <;> rfl

omit [LinearOrder K] [IsStrictOrderedRing K] in
theorem high_box (g : Symmetry) (box : Box K) (axis : Axis) :
    (g.box box).high axis = if g.swaps axis then 1-box.low (g.axis axis) else box.high (g.axis axis) := by
  cases g <;> cases axis <;> rfl

theorem touching_box (g : Symmetry) (edgeEps : K) (box : Box K) (k : Axis × Edge) :
    touching edgeEps (g.box box) k = touching edgeEps box (g.key k) := by
  obtain ⟨axis,edge⟩ := k
  cases edge with
  | low =>
    simp only [touching,key,low_box]
    cases g.swaps axis with
    | false => rfl
    | true => exact decide_eq_decide.mpr sub_le_comm
  | high =>
    simp only [touching,key,high_box]
    cases g.swaps axis with
    | false => rfl
    | true =>
      refine decide_eq_decide.mpr ?_
      simp only [if_true]
      exact sub_le_sub_iff_left 1

theorem boxSeams_box (g : Symmetry) (tile : Tile) (frameSize : Int) (edgeEps : K) (box : Box K) :
    boxSeams (g.tile frameSize tile) frameSize edgeEps (g.box box) = g.keys (boxSeams tile frameSize edgeEps box) := by
  simp only [boxSeams,keys,seamChecks_eq,List.filter_filter]
  refine List.filter_congr fun k _ => ?_
  simp [isSeam_tile,touching_box,mem_allKeys]

theorem projectionIou_box (g : Symmetry) (a b : Box K) (axis : Axis) :
    projectionIou (g.box a) (g.box b) axis = projectionIou a b (g.axis axis) := by
  simp only [projectionIou,low_box,high_box]
  cases g.swaps axis with
  | false => rfl
  | true => simp only [if_true,max_sub_sub_left,min_sub_sub_left,sub_sub_sub_cancel_left]

omit [IsStrictOrderedRing K] in
theorem projectionIou_comm (a b : Box K) (axis : Axis) : projectionIou a b axis = projectionIou b a axis := by
  simp only [projectionIou,max_comm (a.low axis),min_comm (a.high axis),add_comm (max (a.high axis-a.low axis) 0)]

-- low and high exchange their roles where the symmetry reverses the axis.
theorem fragmentsJoin_box (g : Symmetry) (low high : Box K) (axis : Axis) (seamIou : K) :
    fragmentsJoin (g.box low) (g.box high) axis seamIou =
      if g.swaps axis then fragmentsJoin high low (g.axis axis) seamIou
      else fragmentsJoin low high (g.axis axis) seamIou := by
  have across : g.axis axis.other = (g.axis axis).other := by cases g <;> cases axis <;> rfl
  simp only [fragmentsJoin,low_box,high_box,projectionIou_box,across]
  cases g.swaps axis with
  | false => rfl
  | true =>
    have first : 1-high.high (g.axis axis)+seamTol < 1-low.high (g.axis axis) ↔
        low.high (g.axis axis)+seamTol < high.high (g.axis axis) := by
      constructor <;> intro less <;> linarith
    have second : 1-high.low (g.axis axis)+seamTol < 1-low.low (g.axis axis) ↔
        low.low (g.axis axis)+seamTol < high.low (g.axis axis) := by
      constructor <;> intro less <;> linarith
    have third : 1-low.low (g.axis axis) < 1-high.high (g.axis axis)-seamTol ↔
        high.high (g.axis axis) < low.low (g.axis axis)-seamTol := by
      constructor <;> intro less <;> linarith
    simp only [if_true,first,second,third,projectionIou_comm low high]
    split_ifs <;> rfl

omit [IsStrictOrderedRing K] in
theorem side_box (p q : K) : side (1-q) (1-p) = side p q := by
  simp only [side,sub_sub_sub_cancel_left]

omit [IsStrictOrderedRing K] in
theorem area_box (g : Symmetry) (box : Box K) : (g.box box).area = box.area := by
  cases g with
  | transpose => exact mul_comm _ _
  | mirrorX => simp only [Box.area,Symmetry.box,side_box]
  | mirrorY => simp only [Box.area,Symmetry.box,side_box]

theorem intersection_box (g : Symmetry) (a b : Box K) : intersection (g.box a) (g.box b) = intersection a b := by
  cases g with
  | transpose => exact mul_comm _ _
  | mirrorX => simp only [intersection,Symmetry.box,max_sub_sub_left,min_sub_sub_left,side_box]
  | mirrorY => simp only [intersection,Symmetry.box,max_sub_sub_left,min_sub_sub_left,side_box]

theorem iou_box (g : Symmetry) (a b : Box K) : iou (g.box a) (g.box b) = iou a b := by
  simp only [iou,area_box,intersection_box]

theorem ios_box (g : Symmetry) (a b : Box K) : ios (g.box a) (g.box b) = ios a b := by
  simp only [ios,area_box,intersection_box]

theorem clip_one_sub (p : K) : min 1 (max 0 (1-p)) = 1-min 1 (max 0 p) := by
  have inner : max 0 (1-p) = 1-min 1 p := by
    have step := max_sub_sub_left (1 : K) 1 p
    rwa [sub_self] at step
  have outer : min 1 (1-min 1 p) = 1-max 0 (min 1 p) := by
    have step := min_sub_sub_left (1 : K) 0 (min 1 p)
    rwa [sub_zero] at step
  rw [inner,outer,max_min_distrib_left,max_eq_right (zero_le_one' K)]

theorem clip_box (g : Symmetry) (box : Box K) : (g.box box).clip = g.box box.clip := by
  cases g with
  | transpose => rfl
  | mirrorX => simp only [Box.clip,Symmetry.box,clip_one_sub]
  | mirrorY => simp only [Box.clip,Symmetry.box,clip_one_sub]

omit [IsStrictOrderedRing K] in
theorem hasArea_box (g : Symmetry) (box : Box K) : hasArea (g.box box) = hasArea box := by
  cases g with
  | transpose => exact Bool.and_comm _ _
  | mirrorX =>
    have width : 0 < (1-box.x1)-(1-box.x2) ↔ 0 < box.x2-box.x1 := by rw [sub_sub_sub_cancel_left]
    exact congrArg (· && _) (decide_eq_decide.mpr width)
  | mirrorY =>
    have height : 0 < (1-box.y1)-(1-box.y2) ↔ 0 < box.y2-box.y1 := by rw [sub_sub_sub_cancel_left]
    exact congrArg (_ && ·) (decide_eq_decide.mpr height)

theorem foldl_min_sub (xs : List K) (x : K) : (xs.map (1-·)).foldl min (1-x) = 1-xs.foldl max x := by
  induction xs generalizing x with
  | nil => rfl
  | cons y rest ih => rw [List.map_cons,List.foldl_cons,List.foldl_cons,min_sub_sub_left,ih]

theorem foldl_max_sub (xs : List K) (x : K) : (xs.map (1-·)).foldl max (1-x) = 1-xs.foldl min x := by
  induction xs generalizing x with
  | nil => rfl
  | cons y rest ih => rw [List.map_cons,List.foldl_cons,List.foldl_cons,max_sub_sub_left,ih]

theorem enclose_box (g : Symmetry) (boxes : List (Box K)) : enclose (boxes.map g.box) = (enclose boxes).map g.box := by
  cases boxes with
  | nil => cases g <;> rfl
  | cons first rest =>
    cases g with
    | transpose => simp [enclose,Function.comp_def,Symmetry.box,Argmax.least,Argmax.largest]
    | mirrorX =>
      have low := foldl_min_sub (rest.map (·.x2)) first.x2
      have high := foldl_max_sub (rest.map (·.x1)) first.x1
      rw [List.map_map] at low high
      simp [enclose,Symmetry.box,Argmax.least,Argmax.largest,← low,← high,Function.comp_def]
    | mirrorY =>
      have low := foldl_min_sub (rest.map (·.y2)) first.y2
      have high := foldl_max_sub (rest.map (·.y1)) first.y1
      rw [List.map_map] at low high
      simp [enclose,Symmetry.box,Argmax.least,Argmax.largest,← low,← high,Function.comp_def]

theorem getD_keys (g : Symmetry) (seams : List Seams) (i : Nat) :
    (seams.map g.keys).getD i [] = g.keys (seams.getD i []) := by
  have nothing : g.keys [] = [] := (g.keys_empty []).mpr rfl
  simp only [List.getD_eq_getElem?_getD,List.getElem?_map]
  cases seams[i]? with
  | none => exact nothing.symm
  | some cut => rfl

omit [LinearOrder K] [IsStrictOrderedRing K] in
theorem getD_boxes (g : Symmetry) {boxes : List (Box K)} (below : i < boxes.length) :
    (boxes.map g.box).getD i default = g.box (boxes.getD i default) := by
  simp [below]

theorem halves_turned (g : Symmetry) (detections : TileDetections K) (seams : List Seams) (seamIou : K) (axis : Axis)
    (first : low < detections.boxes.length) (second : high < detections.boxes.length) :
    halves (g.detections detections) (seams.map g.keys) seamIou axis low high =
      if g.swaps axis then halves detections seams seamIou (g.axis axis) high low
      else halves detections seams seamIou (g.axis axis) low high := by
  simp only [halves,Symmetry.detections,getD_keys,getD_boxes g first,getD_boxes g second,mem_keys,fragmentsJoin_box,key]
  cases g.swaps axis with
  | false => rfl
  | true =>
    simp only [if_true]
    exact decide_eq_decide.mpr (by rw [and_left_comm])

theorem tests_turned (g : Symmetry) (detections : TileDetections K) (seams : List Seams) (seamIou : K)
    (first : i < detections.boxes.length) (second : j < detections.boxes.length) :
    ([Axis.x,Axis.y].flatMap fun axis => [(i,j),(j,i)].flatMap fun pair =>
      if halves (g.detections detections) (seams.map g.keys) seamIou axis pair.1 pair.2 then [(i,j)] else []) =
    [Axis.x,Axis.y].flatMap fun axis => [(i,j),(j,i)].flatMap fun pair =>
      if halves detections seams seamIou axis pair.1 pair.2 then [(i,j)] else [] := by
  have turn := fun axis => halves_turned g detections seams seamIou axis first second
  have back := fun axis => halves_turned g detections seams seamIou axis second first
  simp only [List.flatMap_cons,List.flatMap_nil,List.append_nil,turn,back]
  cases g <;> simp only [Symmetry.axis,swaps,Axis.other,if_true,Bool.false_eq_true,if_false] <;>
    cases halves detections seams seamIou .x i j <;> cases halves detections seams seamIou .x j i <;>
    cases halves detections seams seamIou .y i j <;> cases halves detections seams seamIou .y j i <;> rfl

theorem unions_turned (g : Symmetry) (detections : TileDetections K) (seams : List Seams) (seamIou : K) :
    unions (g.detections detections) (seams.map g.keys) seamIou = unions detections seams seamIou := by
  have size : (g.detections detections).boxes.length = detections.boxes.length := List.length_map _
  unfold unions
  simp only [size,getD_keys,keys_empty]
  refine List.flatMap_congr fun i first => ?_
  split
  · rfl
  · refine List.flatMap_congr fun j second => ?_
    have left := List.mem_range.mp first
    have right := List.mem_range.mp (List.mem_filter.mp second).1
    rw [tests_turned g detections seams seamIou left right]
    rfl

theorem take_map (f : α → β) (array : List α) (keep : List Nat) :
    take (array.map f) keep = (take array keep).map (List.map f) := by
  rw [take_eq,take_eq,List.length_map,pick_map]
  split <;> rfl

theorem orRaise_map (error : Error) (x : Option α) (f : α → β) : orRaise error (x.map f) = (orRaise error x).map f := by
  cases x with
  | none => rfl
  | some a => rfl

def fused (g : Symmetry) {width : Nat} (row : Fused K width) : Fused K width := {row with box := g.box row.box}

theorem fuseGroup_turned (g : Symmetry) (detections : TileDetections K) (seams : List Seams) (members : List Nat) :
    fuseGroup (g.detections detections) (seams.map g.keys) members =
      (fuseGroup detections seams members).map g.fused := by
  have boxes : take (g.detections detections).boxes members = (take detections.boxes members).map (List.map g.box) :=
    take_map g.box detections.boxes members
  unfold fuseGroup
  rw [boxes,map_bind]
  refine bind_congr_map fun picked => bind_congr_map fun scores => bind_congr_map fun bestAt =>
    bind_congr_map fun best => ?_
  rw [enclose_box,orRaise_map,map_bind]
  refine bind_congr_map fun whole => bind_congr_map fun score => bind_congr_map fun label =>
    bind_congr_map fun tileId => bind_congr_map fun classes => ?_
  simp only [getD_keys,isEmpty_keys]
  rfl

theorem fuseAll_turned (g : Symmetry) (detections : TileDetections K) (seams : List Seams) (parts : List (List Nat)) :
    fuseAll (g.detections detections) (seams.map g.keys) parts =
      (fuseAll detections seams parts).map (List.map g.fused) := by
  induction parts with
  | nil => rfl
  | cons members rest ih =>
    -- The two runs have types that agree only after unfolding, so no rewriting.
    have first : (fuseGroup (g.detections detections) (seams.map g.keys) members >>= fun row =>
        fuseAll (g.detections detections) (seams.map g.keys) rest >>= fun later => pure (row :: later)) =
        (fuseGroup detections seams members >>= fun row =>
          fuseAll (g.detections detections) (seams.map g.keys) rest >>= fun later => pure (g.fused row :: later)) :=
      (congrArg (· >>= _) (fuseGroup_turned g detections seams members)).trans (map_bind _ _ _)
    refine first.trans (bind_congr_map fun row => ?_)
    exact (congrArg (· >>= _) ih).trans ((map_bind _ _ _).trans (bind_congr_map fun later => rfl))

omit [Field K] [LinearOrder K] [IsStrictOrderedRing K] in
theorem classes_same {a b : Classes K} (width : a.width = b.width) (rows : a.rows = b.rows) : a = b := by
  cases a
  cases b
  cases width
  cases rows
  rfl

theorem fuse_turned (g : Symmetry) (detections : TileDetections K) (seams : List Seams) (seamIou : K) :
    fuseSeamFragments (g.detections detections) (seams.map g.keys) seamIou =
      (fuseSeamFragments detections seams seamIou).map g.detections := by
  have size : (g.detections detections).boxes.length = detections.boxes.length := List.length_map _
  have flags : (seams.map g.keys).map (!·.isEmpty) = seams.map (!·.isEmpty) := by
    rw [List.map_map]
    refine List.map_congr_left fun cut _ => ?_
    rw [Function.comp_apply,isEmpty_keys]
  have joins : unions {g.detections detections with truncated := some (seams.map (!·.isEmpty))} (seams.map g.keys)
      seamIou = unions {detections with truncated := some (seams.map (!·.isEmpty))} seams seamIou :=
    unions_turned g {detections with truncated := some (seams.map (!·.isEmpty))} seams seamIou
  unfold fuseSeamFragments
  simp only [size,flags,joins]
  split
  · rfl
  · generalize (UnionFind.unionAll (List.range detections.boxes.length)
      (unions {detections with truncated := some (seams.map (!·.isEmpty))} seams seamIou)).bind
        (groupByRoot detections.boxes.length) = found
    cases found with
    | none => rfl
    | some groups =>
      simp only
      split
      · rfl
      · have all : ∀ other, other = seams.map (!·.isEmpty) →
            fuseAll {g.detections detections with truncated := some other} (seams.map g.keys) (sortedGroups groups) =
              (fuseAll {detections with truncated := some (seams.map (!·.isEmpty))} seams (sortedGroups groups)).map
                (List.map g.fused) := by
          rintro _ rfl
          exact fuseAll_turned g {detections with truncated := some (seams.map (!·.isEmpty))} seams _
        refine (congrArg (Except.map _) (all _ flags)).trans ?_
        cases fuseAll {detections with truncated := some (seams.map (!·.isEmpty))} seams (sortedGroups groups) with
        | error e => rfl
        | ok rows =>
          refine congrArg Except.ok ?_
          simp only [Symmetry.detections,TileDetections.mk.injEq,Option.some.injEq]
          refine ⟨?_,List.map_map,List.map_map,?_,List.map_map,List.map_map⟩
          · have turned : (rows.map (·.box)).map g.box = rows.map fun row => g.box row.box := List.map_map
            exact List.map_map.trans turned.symm
          · exact congrArg (Option.map · detections.classes) (funext fun _ =>
              classes_same rfl List.filterMap_map)

omit [LinearOrder K] [IsStrictOrderedRing K] in
theorem index_turned (g : Symmetry) (detections : TileDetections K) (keep : List Nat) :
    index (g.detections detections) keep = (index detections keep).map g.detections := by
  have boxes : take (g.detections detections).boxes keep = (take detections.boxes keep).map (List.map g.box) :=
    take_map g.box detections.boxes keep
  unfold index
  rw [boxes,map_bind]
  exact bind_congr_map fun picked => bind_congr_map fun scores => bind_congr_map fun labels =>
    bind_congr_map fun classes => bind_congr_map fun tileIds => bind_congr_map fun truncated => rfl

omit [IsStrictOrderedRing K] in
theorem visit_inside (detections : TileDetections K) (prefer : Bool) :
    ∀ i ∈ visitOrder detections prefer, i < detections.boxes.length := by
  intro i member
  unfold visitOrder at member
  split at member <;> exact Argsort.mem_argsort.mp member

omit [IsStrictOrderedRing K] in
theorem suppress_turned (g : Symmetry) (detections : TileDetections K) (threshold : K) {overlap : Box K → Box K → K}
    (alike : ∀ a b, overlap (g.box a) (g.box b) = overlap a b) (prefer only : Bool) :
    greedySuppress (g.detections detections) threshold overlap prefer only =
      (greedySuppress detections threshold overlap prefer only).map g.detections := by
  have size : (g.detections detections).boxes.length = detections.boxes.length := List.length_map _
  have order : visitOrder (g.detections detections) prefer = visitOrder detections prefer := by
    unfold visitOrder
    rw [size]
    rfl
  have hits : ∀ i < detections.boxes.length, ∀ j < detections.boxes.length,
      victims (g.detections detections) threshold overlap only i j = victims detections threshold overlap only i j := by
    intro i first j second
    have at_ := getD_boxes g first
    have other := getD_boxes g second
    unfold victims
    simp only [Symmetry.detections,at_,other,alike]
    rfl
  have loop : ∀ state, (visitOrder detections prefer).foldl
      (suppressStep detections.boxes.length (victims (g.detections detections) threshold overlap only)) state =
      (visitOrder detections prefer).foldl
        (suppressStep detections.boxes.length (victims detections threshold overlap only)) state := by
    intro state
    refine List.foldl_ext _ _ state fun before i visited => ?_
    have first := visit_inside detections prefer i visited
    unfold suppressStep
    have row : ((List.range detections.boxes.length).map fun j => before.2.getD j false ||
        victims (g.detections detections) threshold overlap only i j) =
        (List.range detections.boxes.length).map fun j => before.2.getD j false ||
          victims detections threshold overlap only i j :=
      List.map_congr_left fun j below => by rw [hits i first j (List.mem_range.mp below)]
    simp only [row]
  unfold greedySuppress
  simp only [size,order,loop,index_turned]
  split <;> rfl

theorem clipStage_turned (g : Symmetry) (detections : TileDetections K) :
    clipStage (g.detections detections) = (clipStage detections).map g.detections := by
  have boxes : (detections.boxes.map g.box).map Box.clip = (detections.boxes.map Box.clip).map g.box := by
    simp only [List.map_map,Function.comp_def,clip_box]
  have mask : ((detections.boxes.map Box.clip).map g.box).map hasArea = (detections.boxes.map Box.clip).map hasArea := by
    simp only [List.map_map,Function.comp_def,hasArea_box]
  have turned := index_turned g {detections with boxes := detections.boxes.map Box.clip}
    (maskIndices ((detections.boxes.map Box.clip).map hasArea))
  unfold clipStage indexMask
  simp only [Symmetry.detections,boxes,mask,List.length_map] at turned ⊢
  rw [turned]
  split <;> rfl

omit [IsStrictOrderedRing K] in
theorem penalize_turned (g : Symmetry) (truncatedPenalty : K) (detections : TileDetections K) :
    penalize truncatedPenalty (g.detections detections) = g.detections (penalize truncatedPenalty detections) := by
  unfold penalize
  cases truncated : detections.truncated with
  | none => simp only [Symmetry.detections,truncated]
  | some flags =>
    simp only [Symmetry.detections,truncated]
    split
    · rw [truncated]
    · rfl

omit [IsStrictOrderedRing K] in
theorem rankStage_turned (g : Symmetry) (maxBoxes : Option Int) (detections : TileDetections K) :
    rankStage maxBoxes (g.detections detections) = (rankStage maxBoxes detections).map g.detections := by
  cases maxBoxes with
  | none => exact index_turned g detections _
  | some stop => exact index_turned g detections _

theorem finish_turned (g : Symmetry) (params : MergeParams K) (detections : TileDetections K) :
    finishStages params (g.detections detections) = (finishStages params detections).map g.detections := by
  have rank : ∀ middle, rankStage params.maxBoxes (penalize params.truncatedPenalty (g.detections middle)) =
      (rankStage params.maxBoxes (penalize params.truncatedPenalty middle)).map g.detections := by
    intro middle
    rw [penalize_turned,rankStage_turned]
  unfold finishStages
  split
  · rw [clipStage_turned,map_bind]
    exact bind_congr_map rank
  · exact rank detections

theorem nmsStage_turned (g : Symmetry) (params : MergeParams K) (pool : Pool K) :
    nmsStage params (g.pool pool) = (nmsStage params pool).map g.detections := by
  have first : (g.pool pool).detections = pool.detections.map g.detections := by
    have flags : (pool.seams.map g.keys).map (!·.isEmpty) = pool.seams.map (!·.isEmpty) := by
      simp only [List.map_map,Function.comp_def,isEmpty_keys]
    unfold Pool.detections
    simp only [Symmetry.pool,flags]
    cases concatClasses pool.classes with
    | error e => rfl
    | ok classes => rfl
  unfold nmsStage
  rw [first,map_bind]
  refine bind_congr_map fun gathered => ?_
  have second : (if params.fuseSeams then
      fuseSeamFragments (g.detections gathered) (g.pool pool).seams params.seamIou else .ok (g.detections gathered)) =
      (if params.fuseSeams then fuseSeamFragments gathered pool.seams params.seamIou
        else .ok gathered : Except Error (TileDetections K)).map g.detections := by
    split
    · exact fuse_turned g gathered pool.seams params.seamIou
    · rfl
  rw [second,map_bind]
  refine bind_congr_map fun fused => ?_
  have third : (if params.iosThresh ≤ 1 then suppressContained (g.detections fused) params.iosThresh
      params.preferComplete params.onlyTruncatedVictims else .ok (g.detections fused)) =
      (if params.iosThresh ≤ 1 then suppressContained fused params.iosThresh params.preferComplete
        params.onlyTruncatedVictims else .ok fused : Except Error (TileDetections K)).map g.detections := by
    split
    · exact suppress_turned g fused params.iosThresh (ios_box g) params.preferComplete params.onlyTruncatedVictims
    · rfl
  rw [third,map_bind]
  exact bind_congr_map fun contained =>
    suppress_turned g contained params.nmsIou (iou_box g) params.preferComplete false

theorem gatherTile_turned (g : Symmetry) (frameSize : Int) (edgeEps : K) (pool : Pool K) (tileId : Nat) (tile : Tile)
    (entry : TileEntry K) :
    gatherTile frameSize edgeEps (g.pool pool) tileId (g.tile frameSize tile) (g.entry entry) =
      (gatherTile frameSize edgeEps pool tileId tile entry).map g.pool := by
  have size : (g.entry entry).boxes.length = entry.boxes.length := List.length_map _
  simp only [gatherTile,TileEntry.cast_id]
  simp only [size]
  split
  · rfl
  · unfold tileBoxesToFrame
    split
    · rfl
    · rename_i frame
      have boxes : (entry.boxes.map g.box).map (boxToFrame (g.tile frameSize tile) frameSize) =
          (entry.boxes.map (boxToFrame tile frameSize)).map g.box := by
        simp only [List.map_map,Function.comp_def,toFrame g tile frame]
      have seams : seamTruncations (entry.boxes.map g.box) (g.tile frameSize tile) frameSize edgeEps =
          (seamTruncations entry.boxes tile frameSize edgeEps).map g.keys := by
        simp only [seamTruncations,List.map_map,Function.comp_def,boxSeams_box]
      simp only [Symmetry.entry,Symmetry.pool,Except.map,boxes,seams,List.map_append]

theorem gather_turned (g : Symmetry) (frameSize : Int) (edgeEps : K) (pairs : List (Tile × TileEntry K)) (tileId : Nat)
    (pool : Pool K) :
    gather frameSize edgeEps tileId (pairs.map fun pair => (g.tile frameSize pair.1,g.entry pair.2)) (g.pool pool) =
      (gather frameSize edgeEps tileId pairs pool).map g.pool := by
  induction pairs generalizing tileId pool with
  | nil => rfl
  | cons pair rest ih =>
    obtain ⟨tile,entry⟩ := pair
    simp only [List.map_cons,gather]
    rw [gatherTile_turned,map_bind]
    exact bind_congr_map (ih (tileId+1))

end

end Symmetry

section
variable {K : Type} [Field K] [LinearOrder K] [IsStrictOrderedRing K]

-- Turning the tiles and their boxes turns the merged boxes and changes nothing else.
theorem merge_symmetric (g : Symmetry) (perTile : List (TileEntry K)) (tiles : List Tile) (frameSize : Int)
    (params : MergeParams K) :
    mergeTileDetections (perTile.map g.entry) (tiles.map (g.tile frameSize)) frameSize params =
      (mergeTileDetections perTile tiles frameSize params).map g.detections := by
  have pairs : (tiles.map (g.tile frameSize)).zip (perTile.map g.entry) =
      (tiles.zip perTile).map fun pair => (g.tile frameSize pair.1,g.entry pair.2) := List.zip_map
  have gathered : gatherAll (perTile.map g.entry) (tiles.map (g.tile frameSize)) frameSize params =
      (gatherAll perTile tiles frameSize params).map g.pool := by
    unfold gatherAll
    simp only [List.length_map,pairs]
    split
    · rfl
    · exact g.gather_turned frameSize params.edgeEps (tiles.zip perTile) 0 {}
  unfold mergeTileDetections
  rw [gathered,Outcome.map_bind]
  refine Outcome.bind_congr_map fun pool => ?_
  have same : (g.pool pool).boxes = [] ↔ pool.boxes = [] := List.map_eq_nil_iff
  simp only [same]
  split
  · rfl
  · rw [g.nmsStage_turned,Outcome.map_bind]
    exact Outcome.bind_congr_map (g.finish_turned params)

end

def cornerEntry : TileEntry ℚ where
  boxes := [⟨1/4,0,1,1/2⟩]
  scores := [9/10]
  labels := [7]
  classes := none
  scoresParallel := by simp
  labelsParallel := by simp
  classesParallel := by simp

-- The box its tile's right seam cuts, seen from the other side of the frame.
theorem merge_symmetric_mirrored :
    mergeTileDetections ([cornerEntry].map Symmetry.mirrorX.entry)
        ([⟨"top_left",0,0,224⟩].map (Symmetry.mirrorX.tile 448)) 448 {} =
      (mergeTileDetections [cornerEntry] [⟨"top_left",0,0,224⟩] 448 {}).map Symmetry.mirrorX.detections :=
  merge_symmetric .mirrorX [cornerEntry] [⟨"top_left",0,0,224⟩] 448 {}

end SymphonyAkida.TiledShard
