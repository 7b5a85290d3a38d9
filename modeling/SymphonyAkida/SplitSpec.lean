import SymphonyAkida.Split
import SymphonyAkida.Library.Outcome
import Mathlib.Algebra.BigOperators.Fin
import Mathlib.Algebra.Order.BigOperators.Group.Finset
import Mathlib.Algebra.Order.Floor.Semifield
import Mathlib.Data.Rat.Floor
import Mathlib.Data.UInt
import Mathlib.Tactic.FieldSimp

namespace SymphonyAkida.TiledShard

-- image[y, x] and its value in one channel; no law below reads outside the image.
def pixel (image : Image height width channels) (y x : Nat) : Option (Vector UInt8 channels) := image[y]?.bind (·[x]?)

def pixelAt (image : Image height width channels) (channel : Fin channels) (y x : Nat) : UInt8 :=
  ((pixel image y x).map (·[channel])).getD 0

def roundHalfUp (value : ℚ) : Nat := ⌊value+1/2⌋₊

theorem round_quotient (sum n : Nat) (positive : 0 < n) : (sum+n/2)/n = roundHalfUp ((sum : ℚ)/n) := by
  have size : (n : ℚ) ≠ 0 := Nat.cast_ne_zero.mpr (Nat.ne_of_gt positive)
  have doubled : (sum : ℚ)/n+1/2 = ((2*sum+n : Nat) : ℚ)/((2*n : Nat) : ℚ) := by
    push_cast
    field_simp
  have halved : (2*sum+n)/2 = sum+n/2 := Nat.mul_add_div Nat.two_pos sum n
  rw [roundHalfUp,doubled,Nat.floor_div_eq_div,← Nat.div_div_eq_div_mul,halved]

theorem roundHalfUp_natCast (n : Nat) : roundHalfUp n = n := by
  have exact_ := round_quotient n 1 Nat.one_pos
  rw [Nat.cast_one,div_one] at exact_
  rw [← exact_]
  omega

section
variable {k : Nat} (value : Fin k → Fin k → UInt8)

theorem blockSum_eq : blockSum k value = ∑ a, ∑ b, (value a b).toNat := by
  simp only [blockSum,Fin.sum_univ_def]

theorem blockSum_le : blockSum k value ≤ k*k*255 := by
  rw [blockSum_eq]
  calc ∑ a, ∑ b, (value a b).toNat ≤ ∑ _a : Fin k, ∑ _b : Fin k, 255 :=
        Finset.sum_le_sum fun a _ => Finset.sum_le_sum fun b _ => Nat.le_of_lt_succ (value a b).toNat_lt
    _ = k*k*255 := by simp [Nat.mul_assoc]

-- The mean of bytes is a byte, so casting it to uint8 does not wrap.
theorem blockMean_toNat (positive : 0 < k) : (blockMean k value).toNat = (blockSum k value+k*k/2)/(k*k) := by
  have size := Nat.mul_pos positive positive
  have most := blockSum_le value
  have below : (blockSum k value+k*k/2)/(k*k) < 256 := by
    rw [Nat.div_lt_iff_lt_mul size]
    omega
  rw [blockMean,UInt8.toNat_ofNat_of_lt' below]

theorem blockMean_round (positive : 0 < k) :
    (blockMean k value).toNat = roundHalfUp ((∑ a, ∑ b, ((value a b).toNat : ℚ))/(k*k)) := by
  rw [blockMean_toNat value positive,round_quotient _ _ (Nat.mul_pos positive positive),blockSum_eq]
  push_cast
  rfl

-- What numpy computes: a uint64 sum, and the rounding in uint64.
def blockSum64 : UInt64 :=
  ((List.finRange k).map fun a => ((List.finRange k).map fun b => (value a b).toUInt64).sum).sum

def blockMean64 : UInt8 := ((blockSum64 value+UInt64.ofNat (k*k/2))/UInt64.ofNat (k*k)).toUInt8

theorem sum64 (terms : List UInt64) : terms.sum.toNat = (terms.map UInt64.toNat).sum%2^64 := by
  induction terms with
  | nil => rfl
  | cons x rest ih => rw [List.sum_cons,UInt64.toNat_add,ih,List.map_cons,List.sum_cons,Nat.add_mod_mod]

theorem blockSum64_toNat : (blockSum64 value).toNat = blockSum k value%2^64 := by
  have rows := List.sum_nat_mod ((List.finRange k).map fun a => ((List.finRange k).map fun b => (value a b).toNat).sum) (2^64)
  rw [blockSum64,sum64,blockSum,rows]
  simp only [Function.comp_def,sum64,List.map_map,UInt8.toNat_toUInt64]

-- In a block of at most 2^56 bytes the accumulator does not wrap.
theorem blockMean64_eq (positive : 0 < k) (fits : k*k ≤ 2^56) : blockMean64 value = blockMean k value := by
  have size := Nat.mul_pos positive positive
  have most := blockSum_le value
  have room : UInt64.size = 2^64 := rfl
  have total : (blockSum64 value+UInt64.ofNat (k*k/2)).toNat = blockSum k value+k*k/2 := by
    rw [UInt64.toNat_add,blockSum64_toNat,UInt64.toNat_ofNat_of_lt' (by omega),Nat.mod_add_mod]
    exact Nat.mod_eq_of_lt (by omega)
  have below := (blockMean k value).toNat_lt
  apply UInt8.toNat_inj.mp
  rw [blockMean_toNat value positive] at below ⊢
  rw [blockMean64,UInt64.toNat_toUInt8,UInt64.toNat_div,total,UInt64.toNat_ofNat_of_lt' (by omega)]
  exact Nat.mod_eq_of_lt below

end

theorem pixel_eq (image : Image height width channels) (row : y < height) (col : x < width) :
    pixel image y x = some image[y][x] := by simp [pixel,row,col]

theorem pixelAt_eq (image : Image height width channels) (row : y < height) (col : x < width) (channel : Fin channels) :
    pixelAt image channel y x = image[y][x][channel] := by rw [pixelAt,pixel_eq image row col]; rfl

theorem pixelAt_of_pixel {image : Image h w channels} {other : Image height width channels}
    (same : pixel image y x = pixel other v u) (channel : Fin channels) : pixelAt image channel y x = pixelAt other channel v u := by
  rw [pixelAt,pixelAt,same]

theorem pixel_cast (same : n = m) (image : Image n n channels) (y x : Nat) :
    pixel (same ▸ image : Image m m channels) y x = pixel image y x := by
  subst same
  rfl

theorem blockMean_congr (same : k = m) (value : Nat → Nat → Nat → UInt8) :
    (blockMean k fun a b => value k a b) = blockMean m fun a b => value m a b := by
  subst same
  rfl

section
variable {size inputSize k : Nat} (crop : Image size size channels)

theorem resizeDown_rest (positive : 0 < inputSize) (rest : size%inputSize ≠ 0) : ∃ e, resizeDown crop inputSize = .error e := by
  unfold resizeDown
  rw [if_neg (Nat.ne_of_gt positive),dif_pos rest]
  exact ⟨_,rfl⟩

theorem resizeDown_whole (positive : 0 < inputSize) (two : 2 ≤ k) (whole : size = k*inputSize) :
    ∃ out, resizeDown crop inputSize = .ok out ∧ ∀ i < inputSize, ∀ j < inputSize, ∀ channel,
      pixelAt out channel i j = blockMean k fun a b => pixelAt crop channel (i*k+a) (j*k+b) := by
  have quotient : size/inputSize = k := by rw [whole,Nat.mul_div_cancel k positive]
  have some_ : size ≠ 0 := by
    rw [whole]
    exact Nat.ne_of_gt (Nat.mul_pos (by omega) positive)
  unfold resizeDown
  rw [if_neg (Nat.ne_of_gt positive),dif_neg (by rw [whole,Nat.mul_mod_left]; exact not_not.mpr rfl),
    dif_neg (by omega),if_neg some_]
  refine ⟨_,rfl,fun i row j col channel => ?_⟩
  have split : size = size/inputSize*inputSize := by rw [quotient]; exact whole
  rw [pixelAt_eq _ row col,← blockMean_congr quotient fun k a b => pixelAt crop channel (i*k+a) (j*k+b)]
  simp only [Vector.getElem_ofFn,Fin.getElem_fin]
  congr 1
  funext a b
  exact (pixelAt_eq crop (block_below split ⟨i,row⟩ a) (block_below split ⟨j,col⟩ b) channel).symm

end

-- What split_frame leaves of a tile: the frame's own pixels, or the rounded
-- means of its blocks.
structure Cut (frame : Image n n channels) (inputSize : Nat) (tile : Tile) (crop : Image inputSize inputSize channels) : Prop where
  exact_ : tile.size = inputSize → ∀ y < inputSize, ∀ x < inputSize,
    pixel crop y x = pixel frame (tile.y0.toNat+y) (tile.x0.toNat+x)
  mean : inputSize < tile.size → ∃ k : Nat, tile.size = k*inputSize ∧
    ∀ i < inputSize, ∀ j < inputSize, ∀ channel,
      let value := fun (a b : Fin k) => pixelAt frame channel (tile.y0.toNat+(i*k+a)) (tile.x0.toNat+(j*k+b))
      (pixelAt crop channel i j).toNat = roundHalfUp ((∑ a, ∑ b, ((value a b).toNat : ℚ))/(k*k)) ∧
        (n*n ≤ 2^56 → pixelAt crop channel i j = blockMean64 value)

theorem cropTile_pixel (frame : Image n n channels) (tile : Tile) (inside : ¬tile.outside n)
    (row : y < tile.size.toNat) (col : x < tile.size.toNat) :
    pixel (cropTile frame tile inside) y x = pixel frame (tile.y0.toNat+y) (tile.x0.toNat+x) := by
  have down := crop_below (fun low => inside (.inr (.inl low))) (fun high => inside (.inr (.inr (.inr high)))) rfl row
  have right := crop_below (fun low => inside (.inl low)) (fun high => inside (.inr (.inr (.inl high)))) rfl col
  rw [pixel_eq _ row col,pixel_eq frame down right]
  simp [cropTile]

theorem splitTile_cut {inputSize : Nat} (frame : Image n n channels) (positive : 0 < inputSize) {tile : Tile}
    (inside : ¬tile.outside n) {k : Nat} (some_ : 0 < k) (whole : tile.size = k*inputSize) :
    ∃ crop, splitTile frame inputSize tile = .ok crop ∧ Cut frame inputSize tile crop := by
  have size : tile.size.toNat = k*inputSize := by rw [whole]; exact Int.toNat_natCast (k*inputSize)
  unfold splitTile
  rw [dif_neg inside]
  by_cases same : tile.size = inputSize
  · rw [dif_pos same]
    refine ⟨_,rfl,fun _ y row x col => ?_,fun larger => ?_⟩
    · have size : tile.size.toNat = inputSize := by rw [same]; exact Int.toNat_natCast inputSize
      rw [pixel_cast size,cropTile_pixel frame tile inside (size ▸ row) (size ▸ col)]
    · rw [same] at larger
      exact absurd larger (lt_irrefl _)
  · rw [dif_neg same]
    have two : 2 ≤ k := by
      rcases Nat.lt_or_ge k 2 with less | two
      · have one : k = 1 := by omega
        subst one
        simp only [Nat.cast_one,one_mul] at whole
        exact absurd whole same
      · exact two
    obtain ⟨crop,ran,means⟩ := resizeDown_whole (cropTile frame tile inside) positive two size
    refine ⟨crop,ran,fun exact_ => absurd exact_ same,fun _ => ⟨k,whole,fun i row j col channel => ?_⟩⟩
    intro value
    have shown : pixelAt crop channel i j = blockMean k value := by
      rw [means i row j col channel]
      congr 1
      funext a b
      exact pixelAt_of_pixel (cropTile_pixel frame tile inside (block_below size ⟨i,row⟩ a) (block_below size ⟨j,col⟩ b)) channel
    refine ⟨by rw [shown,blockMean_round value some_],fun fits => ?_⟩
    rw [shown,blockMean64_eq value some_]
    have least : tile.size ≤ n := by
      by_contra above
      simp only [Tile.outside,Tile.x1,Tile.y1] at inside
      omega
    have most : k ≤ n := by
      have one : k ≤ k*inputSize := Nat.le_mul_of_pos_right k positive
      omega
    exact (Nat.mul_le_mul most most).trans fits

theorem splitTile_rest {inputSize : Nat} (frame : Image n n channels) (positive : 0 < inputSize) {tile : Tile}
    (inside : ¬tile.outside n) (some_ : 0 < tile.size) (rest : tile.size%inputSize ≠ 0) :
    ∃ e, splitTile frame inputSize tile = .error e := by
  unfold splitTile
  rw [dif_neg inside]
  have differ : tile.size ≠ inputSize := by
    intro same
    rw [same,Int.emod_self] at rest
    exact rest rfl
  rw [dif_neg differ]
  refine resizeDown_rest _ positive fun none => rest ?_
  rw [← Int.toNat_of_nonneg (le_of_lt some_)]
  exact_mod_cast none

theorem splitFrame_eq (frame : Image n n channels) (tiles : List Tile) (inputSize : Nat) :
    splitFrame frame tiles inputSize = tiles.mapM (splitTile frame inputSize) := by
  unfold splitFrame
  rw [dif_neg (not_not.mpr rfl)]

-- The tiles of a layout all lie in the frame; each is as large as the model's
-- input or as the frame.
structure Inside (frameSize : Nat) (tile : Tile) : Prop where
  left : 0 ≤ tile.x0
  top : 0 ≤ tile.y0
  right : tile.x1 ≤ frameSize
  bottom : tile.y1 ≤ frameSize
  some_ : 0 < tile.size

theorem Inside.within {tile : Tile} (inside : Inside n tile) : ¬tile.outside n := by
  obtain ⟨left,top,right,bottom,_⟩ := inside
  simp only [Tile.outside,not_or,not_lt]
  exact ⟨left,top,right,bottom⟩

theorem splitFrame_cut {inputSize : Nat} (frame : Image n n channels) (positive : 0 < inputSize) {tiles : List Tile}
    (inside : ∀ tile ∈ tiles, Inside n tile) :
    ((∃ e, splitFrame frame tiles inputSize = .error e) ↔ ∃ tile ∈ tiles, tile.size%inputSize ≠ 0) ∧
      ∀ crops, splitFrame frame tiles inputSize = .ok crops → List.Forall₂ (Cut frame inputSize) tiles crops := by
  rw [splitFrame_eq]
  have whole : ∀ tile ∈ tiles, tile.size%inputSize = 0 →
      ∃ crop, splitTile frame inputSize tile = .ok crop ∧ Cut frame inputSize tile crop := by
    intro tile member exact_
    have some_ := (inside tile member).some_
    obtain ⟨k,factor⟩ := Int.dvd_of_emod_eq_zero exact_
    have positive_k : 0 < k := by
      by_contra none
      have low := mul_nonpos_of_nonneg_of_nonpos (Int.natCast_nonneg inputSize) (not_lt.mp none)
      omega
    obtain ⟨m,rfl⟩ := Int.eq_ofNat_of_zero_le (le_of_lt positive_k)
    exact splitTile_cut frame positive (inside tile member).within (Int.natCast_pos.mp positive_k)
      (factor.trans (mul_comm _ _))
  have cut : ∀ tile ∈ tiles, ∀ crop, splitTile frame inputSize tile = .ok crop → Cut frame inputSize tile crop := by
    intro tile member crop ran
    by_cases exact_ : tile.size%inputSize = 0
    · obtain ⟨out,done,cut⟩ := whole tile member exact_
      rw [done] at ran
      cases ran
      exact cut
    · obtain ⟨e,failed⟩ := splitTile_rest frame positive (inside tile member).within (inside tile member).some_ exact_
      rw [failed] at ran
      cases ran
  constructor
  · constructor
    · intro failed
      obtain ⟨e,failed⟩ := failed
      by_contra none
      push Not at none
      obtain ⟨crops,ran⟩ := Outcome.mapM_total fun tile member =>
        (whole tile member (none tile member)).imp fun crop both => both.1
      rw [ran] at failed
      cases failed
    · intro found
      obtain ⟨tile,member,rest⟩ := found
      obtain ⟨e,failed⟩ := splitTile_rest frame positive (inside tile member).within (inside tile member).some_ rest
      cases ran : tiles.mapM (splitTile frame inputSize) with
      | error e => exact ⟨e,rfl⟩
      | ok crops =>
        obtain ⟨crop,_,done⟩ := Outcome.mapM_each ran member
        rw [failed] at done
        cases done
  · intro crops ran
    exact Outcome.mapM_related ran cut

def quadrants (frameSize tileSize : Int) : List Tile :=
  [⟨"top_left",0,0,tileSize⟩,⟨"top_right",frameSize-tileSize,0,tileSize⟩,⟨"bottom_left",0,frameSize-tileSize,tileSize⟩,
    ⟨"bottom_right",frameSize-tileSize,frameSize-tileSize,tileSize⟩]

-- What make_tile_layout accepts for a layout of quadrants.
structure Quartered (frameSize tileSize : Int) (tiles : List Tile) : Prop where
  some_ : 0 < tileSize
  fits : tileSize ≤ frameSize
  covers : frameSize ≤ 2*tileSize
  first : tiles.take 4 = quadrants frameSize tileSize
  rest : ∀ tile ∈ tiles.drop 4, tile = ⟨"center",(frameSize-tileSize)/2,(frameSize-tileSize)/2,tileSize⟩ ∨
    tile = ⟨"global",0,0,frameSize⟩

theorem layout_cases {frameSize tileSize : Int} (made : makeTileLayout layout frameSize tileSize = .ok tiles) :
    (layout = "whole" ∧ tiles = [⟨"whole",0,0,frameSize⟩]) ∨ (layout ≠ "whole" ∧ Quartered frameSize tileSize tiles) := by
  unfold makeTileLayout at made
  cases named : Layout.named layout with
  | none => simp [named] at made
  | some kind =>
    have other : kind ≠ .whole → layout ≠ "whole" := by
      intro differ same
      subst same
      exact differ (Option.some.inj named).symm
    rw [named] at made
    cases kind with
    | whole =>
      have same : layout = "whole" := by
        unfold Layout.named at named
        split at named <;> first | rfl | cases named
      exact .inl ⟨same,(Except.ok.inj made).symm⟩
    | _ =>
      refine .inr ⟨other (by decide),?_⟩
      simp only at made
      split at made
      · cases made
      · split at made
        · cases made
        · rename_i fits covers
          cases made
          exact ⟨by omega,by omega,by omega,rfl,by simp⟩

theorem layout_inside {frameSize tileSize : Nat} (positive : 0 < frameSize)
    (made : makeTileLayout layout frameSize tileSize = .ok tiles) : ∀ tile ∈ tiles, Inside frameSize tile := by
  rcases layout_cases made with ⟨_,whole⟩ | ⟨_,quarters⟩
  · subst whole
    intro tile member
    cases List.mem_singleton.mp member
    constructor <;> simp [Tile.x1,Tile.y1,positive]
  · obtain ⟨some_,fits,covers,first,rest⟩ := quarters
    intro tile member
    rw [← List.take_append_drop 4 tiles,List.mem_append,first] at member
    rcases member with corner | extra
    · simp only [quadrants,List.mem_cons,List.not_mem_nil,or_false] at corner
      rcases corner with rfl | rfl | rfl | rfl <;> constructor <;> simp only [Tile.x1,Tile.y1] <;> omega
    · rcases rest tile extra with rfl | rfl <;> constructor <;> simp only [Tile.x1,Tile.y1] <;> omega

def Tile.holds (tile : Tile) (y x : Nat) : Bool := tile.y0 ≤ y ∧ (y : Int) < tile.y1 ∧ tile.x0 ≤ x ∧ (x : Int) < tile.x1

theorem holds_iff {tile : Tile} : tile.holds y x = true ↔
    tile.y0 ≤ y ∧ (y : Int) < tile.y0+tile.size ∧ tile.x0 ≤ x ∧ (x : Int) < tile.x0+tile.size := decide_eq_true_iff

theorem quadrants_hold {frameSize tileSize : Int} (covers : frameSize ≤ 2*tileSize) {y x : Nat} (row : (y : Int) < frameSize)
    (col : (x : Int) < frameSize) : ∃ tile ∈ quadrants frameSize tileSize, tile.holds y x = true := by
  simp only [quadrants,List.mem_cons,List.not_mem_nil,or_false,exists_eq_or_imp,exists_eq_left,holds_iff]
  omega

-- Two corners meet in a pixel exactly when the tiles are larger than half the frame.
theorem quadrants_once {frameSize tileSize : Nat} (some_ : 0 < tileSize) (fits : tileSize ≤ frameSize)
    (covers : frameSize ≤ 2*tileSize) :
    (∀ y < frameSize, ∀ x < frameSize, (quadrants frameSize tileSize).countP (·.holds y x) = 1) ↔ 2*tileSize = frameSize := by
  constructor
  · intro once
    have corner := once (frameSize-tileSize) (by omega) (frameSize-tileSize) (by omega)
    by_contra larger
    simp only [quadrants,List.countP_cons,List.countP_nil,holds_iff] at corner
    rw [if_pos (by omega),if_pos (by omega),if_pos (by omega),if_pos (by omega)] at corner
    omega
  · intro half y row x col
    simp only [quadrants,List.countP_cons,List.countP_nil,holds_iff]
    rcases Nat.lt_or_ge y tileSize with top | bottom <;> rcases Nat.lt_or_ge x tileSize with left | right
    · rw [if_neg (by omega),if_neg (by omega),if_neg (by omega),if_pos (by omega)]
    · rw [if_neg (by omega),if_neg (by omega),if_pos (by omega),if_neg (by omega)]
    · rw [if_neg (by omega),if_pos (by omega),if_neg (by omega),if_neg (by omega)]
    · rw [if_pos (by omega),if_neg (by omega),if_neg (by omega),if_neg (by omega)]

theorem image_ext {image other : Image height width channels}
    (same : ∀ y < height, ∀ x < width, pixel image y x = pixel other y x) : image = other := by
  refine Vector.ext fun y row => Vector.ext fun x col => ?_
  have shown := same y row x col
  rw [pixel_eq image row col,pixel_eq other row col] at shown
  exact Option.some.inj shown

theorem quadrants_tile {frameSize tileSize : Int} (fits : tileSize ≤ frameSize) (member : tile ∈ quadrants frameSize tileSize) :
    tile.size = tileSize ∧ 0 ≤ tile.y0 ∧ 0 ≤ tile.x0 := by
  simp only [quadrants,List.mem_cons,List.not_mem_nil,or_false] at member
  rcases member with rfl | rfl | rfl | rfl <;> simp [fits]

theorem forall₂_both {R S : α → β → Prop} {xs : List α} {ys : List β} (left : List.Forall₂ R xs ys)
    (right : List.Forall₂ S xs ys) (member : x ∈ xs) : ∃ y, R x y ∧ S x y := by
  induction left with
  | nil => cases member
  | cons first _ ih =>
    cases right with
    | cons second later =>
      rcases List.mem_cons.mp member with rfl | old
      · exact ⟨_,first,second⟩
      · exact ih later old

theorem quadrants_determine {inputSize : Nat} {frame other : Image n n channels}
    {crops : List (Image inputSize inputSize channels)} (covers : (n : Int) ≤ 2*inputSize) (fits : (inputSize : Int) ≤ n)
    (left : List.Forall₂ (Cut frame inputSize) (quadrants n inputSize) crops)
    (right : List.Forall₂ (Cut other inputSize) (quadrants n inputSize) crops) : frame = other := by
  refine image_ext fun y row x col => ?_
  obtain ⟨tile,member,holds⟩ := quadrants_hold covers (Int.ofNat_lt.mpr row) (Int.ofNat_lt.mpr col)
  obtain ⟨size,top,side⟩ := quadrants_tile fits member
  obtain ⟨crop,first,second⟩ := forall₂_both left right member
  obtain ⟨low,high,from_,to_⟩ := holds_iff.mp holds
  have down : tile.y0.toNat+(y-tile.y0.toNat) = y := by omega
  have right_ : tile.x0.toNat+(x-tile.x0.toNat) = x := by omega
  have shown := first.exact_ size (y-tile.y0.toNat) (by omega) (x-tile.x0.toNat) (by omega)
  have shown' := second.exact_ size (y-tile.y0.toNat) (by omega) (x-tile.x0.toNat) (by omega)
  rw [down,right_] at shown shown'
  exact shown.symm.trans shown'

-- Splitting with the tile size as the model's input size.
theorem split_lossless {frameSize tileSize : Nat} (framed : 0 < frameSize) (some_ : 0 < tileSize)
    (made : makeTileLayout layout frameSize tileSize = .ok tiles) :
    (∀ tile ∈ tiles, Inside frameSize tile) ∧
      (layout ≠ "whole" →
        (∀ y < frameSize, ∀ x < frameSize, ∃ tile ∈ tiles.take 4, tile.holds y x = true) ∧
        ((∀ y < frameSize, ∀ x < frameSize, (tiles.take 4).countP (·.holds y x) = 1) ↔ 2*tileSize = frameSize)) ∧
      ∀ channels (frame : Image frameSize frameSize channels),
        ((∃ e, splitFrame frame tiles tileSize = .error e) ↔ ∃ tile ∈ tiles, tile.size%tileSize ≠ 0) ∧
        ∀ crops, splitFrame frame tiles tileSize = .ok crops →
          List.Forall₂ (Cut frame tileSize) tiles crops ∧
          (layout ≠ "whole" → ∀ other crops', splitFrame other tiles tileSize = .ok crops' →
            crops'.take 4 = crops.take 4 → other = frame) := by
  have inside := layout_inside framed made
  have quartered : layout ≠ "whole" → Quartered frameSize tileSize tiles := fun differ =>
    ((layout_cases made).resolve_left fun whole => differ whole.1).2
  refine ⟨inside,fun differ => ?_,fun channels frame => ?_⟩
  · have quarters := quartered differ
    rw [quarters.first]
    exact ⟨fun y row x col => quadrants_hold quarters.covers (Int.ofNat_lt.mpr row) (Int.ofNat_lt.mpr col),
      quadrants_once some_ (Int.ofNat_le.mp quarters.fits) (by exact_mod_cast quarters.covers)⟩
  · obtain ⟨raises,cuts⟩ := splitFrame_cut frame some_ inside
    refine ⟨raises,fun crops ran => ⟨cuts crops ran,fun differ other crops' again same => ?_⟩⟩
    have quarters := quartered differ
    have first := List.forall₂_take 4 ((splitFrame_cut other some_ inside).2 crops' again)
    have second := List.forall₂_take 4 (cuts crops ran)
    rw [quarters.first] at first second
    rw [same] at first
    exact quadrants_determine quarters.covers quarters.fits first second

-- A 3 by 3 frame in tiles of 2.
def overlapTiles : List Tile := quadrants 3 2 ++ [⟨"center",0,0,2⟩]

theorem split_lossless_overlap : makeTileLayout "quadrants_center" 3 2 = .ok overlapTiles ∧
    ((∀ y < 3, ∀ x < 3, (overlapTiles.take 4).countP (·.holds y x) = 1) ↔ 2*2 = 3) ∧
    ∀ (frame : Image 3 3 1) crops, splitFrame frame overlapTiles 2 = .ok crops → List.Forall₂ (Cut frame 2) overlapTiles crops := by
  have made : makeTileLayout "quadrants_center" (3 : Nat) (2 : Nat) = .ok overlapTiles := rfl
  obtain ⟨_,covered,cut⟩ := split_lossless (by decide) (by decide) made
  exact ⟨made,(covered (by decide)).2,fun frame crops ran => ((cut 1 frame).2 crops ran).1⟩

end SymphonyAkida.TiledShard
