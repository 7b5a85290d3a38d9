import Mathlib.Algebra.Order.Field.Basic
import Mathlib.Data.Int.Cast.Basic

namespace SymphonyAkida.TiledShard

-- What can be raised. The file's own ValueErrors keep their text, numpy's do not.
-- `endless` stands for a find loop that would not stop; there is none.
inductive Error where
  | valueError (text : String)
  | numpyValueError
  | indexError
  | typeError
  | zeroDivisionError
  | fileNotFound (path : String)
  | endless
deriving DecidableEq

def orRaise (error : Error) : Option α → Except Error α
  | some x => .ok x
  | none => .error error

inductive Layout | quadrantsCenter | quadrantsGlobal | quadrantsCenterGlobal | whole
deriving DecidableEq

def Layout.named : String → Option Layout
  | "quadrants_center" => some .quadrantsCenter
  | "quadrants_global" => some .quadrantsGlobal
  | "quadrants_center_global" => some .quadrantsCenterGlobal
  | "whole" => some .whole
  | _ => none

structure Tile where
  name : String
  x0 : Int
  y0 : Int
  size : Int
deriving DecidableEq

def Tile.x1 (tile : Tile) : Int := tile.x0+tile.size
def Tile.y1 (tile : Tile) : Int := tile.y0+tile.size

structure SeamSides where
  left : Bool
  right : Bool
  top : Bool
  bottom : Bool

def Tile.seamSides (tile : Tile) (frameSize : Int) : SeamSides where
  left := 0 < tile.x0
  right := tile.x1 < frameSize
  top := 0 < tile.y0
  bottom := tile.y1 < frameSize

def makeTileLayout (layout : String) (frameSize tileSize : Int) : Except Error (List Tile) :=
  match Layout.named layout with
  | none => .error (.valueError s!"Unknown layout '{layout}', expected one of ['quadrants_center', 'quadrants_global', 'quadrants_center_global', 'whole'].")
  | some .whole => .ok [⟨"whole",0,0,frameSize⟩]
  | some kind =>
    if ¬(0 < tileSize ∧ tileSize ≤ frameSize) then
      .error (.valueError s!"tile_size ({tileSize}) must be in ]0, frame_size ({frameSize})].")
    else if 2*tileSize < frameSize then
      .error (.valueError s!"tile_size ({tileSize}) is too small to cover a frame of {frameSize} with four quadrants: gaps would be left uncovered.")
    else
      let step := frameSize-tileSize
      let offset := (frameSize-tileSize)/2
      .ok ([⟨"top_left",0,0,tileSize⟩,⟨"top_right",step,0,tileSize⟩,⟨"bottom_left",0,step,tileSize⟩,
          ⟨"bottom_right",step,step,tileSize⟩] ++
        (if kind = .quadrantsCenter ∨ kind = .quadrantsCenterGlobal then
          [⟨"center",offset,offset,tileSize⟩] else []) ++
        (if kind = .quadrantsGlobal ∨ kind = .quadrantsCenterGlobal then
          [⟨"global",0,0,frameSize⟩] else []))

inductive Axis | x | y
deriving DecidableEq

inductive Edge | low | high
deriving DecidableEq

def Axis.other : Axis → Axis
  | .x => .y
  | .y => .x

structure Box (K : Type) where
  x1 : K
  y1 : K
  x2 : K
  y2 : K
deriving DecidableEq

def Box.map (f : K → K) (box : Box K) : Box K := ⟨f box.x1,f box.y1,f box.x2,f box.y2⟩

-- box[axis] and box[axis + 2]
def Box.low (box : Box K) : Axis → K
  | .x => box.x1
  | .y => box.y1
def Box.high (box : Box K) : Axis → K
  | .x => box.x2
  | .y => box.y2

section
variable {K : Type} [Field K] [LinearOrder K]

instance : Inhabited (Box K) := ⟨⟨0,0,0,0⟩⟩

-- tile_boxes_to_frame for one box; frame_size is not 0 here.
def boxToFrame (tile : Tile) (frameSize : Int) (box : Box K) : Box K :=
  let scale : K := (tile.size : K)/frameSize
  let x : K := (tile.x0 : K)/frameSize
  let y : K := (tile.y0 : K)/frameSize
  ⟨box.x1*scale+x,box.y1*scale+y,box.x2*scale+x,box.y2*scale+y⟩

-- tile.size / frame_size is the only division that can raise.
def tileBoxesToFrame (boxes : List (Box K)) (tile : Tile) (frameSize : Int) :
    Except Error (List (Box K)) :=
  if frameSize = 0 then .error .zeroDivisionError
  else .ok (boxes.map (boxToFrame tile frameSize))

def seamChecks (tile : Tile) (frameSize : Int) : List (Axis × Edge) :=
  let seams := tile.seamSides frameSize
  (if seams.left then [(.x,.low)] else []) ++ (if seams.right then [(.x,.high)] else []) ++
    (if seams.top then [(.y,.low)] else []) ++ (if seams.bottom then [(.y,.high)] else [])

def touching (edgeEps : K) (box : Box K) : Axis × Edge → Bool
  | (axis,.high) => 1-edgeEps ≤ box.high axis
  | (axis,.low) => box.low axis ≤ edgeEps

-- seam_truncations for one box: its set of keys, each listed once.
def boxSeams (tile : Tile) (frameSize : Int) (edgeEps : K) (box : Box K) : List (Axis × Edge) :=
  (seamChecks tile frameSize).filter (touching edgeEps box)

def seamTruncations (boxes : List (Box K)) (tile : Tile) (frameSize : Int) (edgeEps : K) :
    List (List (Axis × Edge)) := boxes.map (boxSeams tile frameSize edgeEps)

def side (low high : K) : K := max 0 (high-low)

def Box.area (box : Box K) : K := side box.x1 box.x2*side box.y1 box.y2

def intersection (a b : Box K) : K :=
  side (max a.x1 b.x1) (min a.x2 b.x2)*side (max a.y1 b.y1) (min a.y2 b.y2)

def iou (a b : Box K) : K :=
  let union := a.area+b.area-intersection a b
  if 0 < union then intersection a b/union else 0

def ios (a b : Box K) : K := if 0 < b.area then intersection a b/b.area else 0

theorem intersection_comm (a b : Box K) : intersection a b = intersection b a := by
  simp only [intersection,max_comm,min_comm]

theorem iou_comm (a b : Box K) : iou a b = iou b a := by
  simp only [iou,intersection_comm a b,add_comm a.area]

-- np.clip(box, 0.0, 1.0)
def Box.clip (box : Box K) : Box K :=
  ⟨min 1 (max 0 box.x1),min 1 (max 0 box.y1),min 1 (max 0 box.x2),min 1 (max 0 box.y2)⟩

def Box.insideFrame (box : Box K) : Prop :=
  (0 ≤ box.x1 ∧ box.x1 ≤ 1) ∧ (0 ≤ box.y1 ∧ box.y1 ≤ 1) ∧ (0 ≤ box.x2 ∧ box.x2 ≤ 1) ∧
    (0 ≤ box.y2 ∧ box.y2 ≤ 1)

theorem clip_inside (box : Box K) (inside : box.insideFrame) : box.clip = box := by
  obtain ⟨⟨a,b⟩,⟨c,d⟩,⟨e,f⟩,g,h⟩ := inside
  simp [Box.clip,max_eq_right a,max_eq_right c,max_eq_right e,max_eq_right g,min_eq_right b,
    min_eq_right d,min_eq_right f,min_eq_right h]

end

end SymphonyAkida.TiledShard
