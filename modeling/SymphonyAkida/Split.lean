import SymphonyAkida.Tiles
import SymphonyAkida.Library.Arrays

namespace SymphonyAkida.TiledShard
open Arrays

abbrev Image (height width channels : Nat) := Rank3 UInt8 height width channels

-- The sum of one k x k block of one channel, and its rounded mean.
def blockSum (k : Nat) (value : Fin k → Fin k → UInt8) : Nat :=
  ((List.finRange k).map fun a => ((List.finRange k).map fun b => (value a b).toNat).sum).sum

def blockMean (k : Nat) (value : Fin k → Fin k → UInt8) : UInt8 :=
  UInt8.ofNat ((blockSum k value+k*k/2)/(k*k))

theorem block_below {size inputSize k : Nat} (whole : size = k*inputSize) (i : Fin inputSize) (a : Fin k) :
    i.val*k+a.val < size := by
  have row := Nat.mul_le_mul_right k (Nat.succ_le_of_lt i.isLt)
  rw [Nat.succ_mul] at row
  rw [whole,Nat.mul_comm k]
  exact Nat.lt_of_lt_of_le (Nat.add_lt_add_left a.isLt _) row

-- _resize_down. The blocks are crop.reshape(input_size, k, input_size, k, -1),
-- which an empty crop does not have.
def resizeDown (crop : Image size size channels) (inputSize : Nat) : Except Error (Image inputSize inputSize channels) :=
  if inputSize = 0 then .error .zeroDivisionError
  else if rest : size%inputSize ≠ 0 then
    .error (.valueError s!"Cannot box-average {size} down to {inputSize}: not an integer factor.")
  else if one : size/inputSize = 1 then
    have same : size = inputSize := by
      have split := Nat.div_add_mod size inputSize
      rw [one,not_not.mp rest,Nat.mul_one,Nat.add_zero] at split
      exact split.symm
    .ok (same ▸ crop)
  else if size = 0 then .error .numpyValueError
  else
    let k := size/inputSize
    have whole : size = k*inputSize := by
      have split := Nat.div_add_mod size inputSize
      rw [not_not.mp rest,Nat.add_zero] at split
      rw [Nat.mul_comm]
      exact split.symm
    .ok (Vector.ofFn fun i => Vector.ofFn fun j => Vector.ofFn fun channel =>
      blockMean k fun a b =>
        have row := block_below whole i a
        have col := block_below whole j b
        crop[i.val*k+a.val][j.val*k+b.val][channel])

def Tile.outside (tile : Tile) (frameSize : Nat) : Prop :=
  tile.x0 < 0 ∨ tile.y0 < 0 ∨ frameSize < tile.x1 ∨ frameSize < tile.y1

instance (tile : Tile) (frameSize : Nat) : Decidable (tile.outside frameSize) :=
  inferInstanceAs (Decidable (_ ∨ _ ∨ _ ∨ _))

theorem crop_below {start stop size : Int} {n offset : Nat} (low : ¬start < 0) (high : ¬(n : Int) < stop)
    (span : stop = start+size) (inside : offset < size.toNat) : start.toNat+offset < n := by omega

-- frame[tile.y0:tile.y1, tile.x0:tile.x1], for sizes from 0 on: a layout of a
-- frame has no other, and a negative stop would count from the frame's end.
def cropTile (frame : Image n n channels) (tile : Tile) (inside : ¬tile.outside n) :
    Image tile.size.toNat tile.size.toNat channels :=
  Vector.ofFn fun y => Vector.ofFn fun x =>
    have row := crop_below (fun low => inside (.inr (.inl low))) (fun high => inside (.inr (.inr (.inr high)))) rfl y.isLt
    have col := crop_below (fun low => inside (.inl low)) (fun high => inside (.inr (.inr (.inl high)))) rfl x.isLt
    frame[tile.y0.toNat+y.val][tile.x0.toNat+x.val]

def splitTile (frame : Image n n channels) (inputSize : Nat) (tile : Tile) :
    Except Error (Image inputSize inputSize channels) :=
  if outside : tile.outside n then
    .error (.valueError s!"Tile Tile(name='{tile.name}', x0={tile.x0}, y0={tile.y0}, size={tile.size}) falls outside a {n}x{n} frame.")
  else
    let crop := cropTile frame tile outside
    if same : tile.size = inputSize then
      have size : tile.size.toNat = inputSize := by rw [same]; exact Int.toNat_natCast inputSize
      .ok (size ▸ crop)
    else resizeDown crop inputSize

def splitFrame (frame : Image height width channels) (tiles : List Tile) (inputSize : Nat) :
    Except Error (List (Image inputSize inputSize channels)) :=
  if square : height ≠ width then .error (.valueError s!"Expected a square frame, got {width}x{height}.")
  else
    have same := not_not.mp square
    tiles.mapM (splitTile (same ▸ frame : Image width width channels) inputSize)

end SymphonyAkida.TiledShard
