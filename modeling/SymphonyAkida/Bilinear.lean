import SymphonyAkida.SplitSpec
import Mathlib.Tactic.NormNum

namespace SymphonyAkida.TiledShard

def between (value : Int → ℚ) (at_ : ℚ) : ℚ := (1-(at_-⌊at_⌋))*value ⌊at_⌋+(at_-⌊at_⌋)*value (⌊at_⌋+1)

-- The border pixels go on outside the image.
def clamped (image : Image size size channels) (channel : Fin channels) (y x : Int) : ℚ :=
  (pixelAt image channel (min (max y 0) (size-1)).toNat (min (max x 0) (size-1)).toNat).toNat

def bilinear (image : Image size size channels) (channel : Fin channels) (y x : ℚ) : ℚ :=
  between (fun row => between (clamped image channel row) x) y

-- The half-pixel centre of output pixel i, in source pixels.
def centre (k i : Nat) : ℚ := (i+1/2)*k-1/2

-- What the docstring of _resize_down says of an image k times as large as the input.
def SamplesBilinear (inputSize : Nat) {k : Nat} (crop : Image (k*inputSize) (k*inputSize) channels) : Prop :=
  ∃ out, resizeDown crop inputSize = .ok out ∧ ∀ i < inputSize, ∀ j < inputSize, ∀ channel,
    (pixelAt out channel i j).toNat = roundHalfUp (bilinear crop channel (centre k i) (centre k j))

theorem between_pixel (value : Int → ℚ) (n : Nat) : between value n = value n := by
  rw [between,Int.floor_natCast,Int.cast_natCast]
  ring

theorem between_middle (value : Int → ℚ) (n : Nat) : between value ((n : ℚ)+1/2) = (value n+value ((n+1 : Nat) : Int))/2 := by
  have floor : ⌊(n : ℚ)+1/2⌋ = (n : Int) := by
    rw [Int.floor_eq_iff,Int.cast_natCast]
    constructor <;> linarith
  rw [between,floor,Int.cast_natCast]
  push_cast
  ring

theorem between_centre (value : Int → ℚ) {k : Nat} (positive : 0 < k) (i : Nat) :
    between value (centre k i) = (value ((i*k+(k-1)/2 : Nat) : Int)+value ((i*k+k/2 : Nat) : Int))/2 := by
  rcases Nat.even_or_odd' k with ⟨h,even | odd⟩
  · obtain ⟨g,rfl⟩ : ∃ g, h = g+1 := ⟨h-1,by omega⟩
    have half : (k-1)/2 = g := by omega
    have next : i*k+k/2 = i*k+g+1 := by omega
    have place : centre k i = ((i*k+g : Nat) : ℚ)+1/2 := by
      rw [centre,even]
      push_cast
      ring
    rw [place,between_middle,half,next]
  · have half : (k-1)/2 = h := by omega
    have same : k/2 = h := by omega
    have place : centre k i = ((i*k+h : Nat) : ℚ) := by
      rw [centre,odd]
      push_cast
      ring
    rw [place,between_pixel,half,same]
    ring

theorem clamped_inside (image : Image size size channels) (channel : Fin channels) {y x : Nat} (row : y < size) (col : x < size) :
    clamped image channel y x = (pixelAt image channel y x).toNat := by
  have down : (min (max (y : Int) 0) (size-1)).toNat = y := by omega
  have right : (min (max (x : Int) 0) (size-1)).toNat = x := by omega
  rw [clamped,down,right]

-- The mean of the one pixel, or the four, in the middle of a block.
def middleMean (k : Nat) (value : Nat → Nat → UInt8) : ℚ :=
  (((value ((k-1)/2) ((k-1)/2)).toNat+(value ((k-1)/2) (k/2)).toNat)/2+
    ((value (k/2) ((k-1)/2)).toNat+(value (k/2) (k/2)).toNat)/2)/2

def block (k : Nat) (crop : Image size size channels) (channel : Fin channels) (i j a b : Nat) : UInt8 :=
  pixelAt crop channel (i*k+a) (j*k+b)

section
variable {inputSize k : Nat} (crop : Image (k*inputSize) (k*inputSize) channels)

theorem bilinear_middle (positive : 0 < k) (channel : Fin channels) (row : i < inputSize) (col : j < inputSize) :
    bilinear crop channel (centre k i) (centre k j) = middleMean k (block k crop channel i j) := by
  have low : (k-1)/2 < k := by omega
  have high : k/2 < k := by omega
  have inside : ∀ {n a}, n < inputSize → a < k → n*k+a < k*inputSize := fun {n a} below part =>
    block_below rfl ⟨n,below⟩ ⟨a,part⟩
  rw [bilinear,between_centre _ positive,between_centre _ positive,between_centre _ positive,
    clamped_inside crop channel (inside row low) (inside col low),clamped_inside crop channel (inside row low) (inside col high),
    clamped_inside crop channel (inside row high) (inside col low),clamped_inside crop channel (inside row high) (inside col high)]
  rfl

theorem resizeDown_one (positive : 0 < inputSize) (one : k = 1) :
    ∃ out, resizeDown crop inputSize = .ok out ∧ ∀ y x, pixel out y x = pixel crop y x := by
  subst one
  unfold resizeDown
  rw [if_neg (Nat.ne_of_gt positive),dif_neg (by simp),dif_pos (by rw [Nat.one_mul,Nat.div_self positive])]
  exact ⟨_,rfl,fun y x => pixel_cast (Nat.one_mul inputSize) crop y x⟩

theorem resizeDown_means (positive : 0 < inputSize) (some_ : 0 < k) :
    ∃ out, resizeDown crop inputSize = .ok out ∧ ∀ i < inputSize, ∀ j < inputSize, ∀ channel,
      pixelAt out channel i j = blockMean k fun a b => block k crop channel i j a b := by
  rcases Nat.lt_or_ge k 2 with less | two
  · have one : k = 1 := by omega
    obtain ⟨out,ran,same⟩ := resizeDown_one crop positive one
    refine ⟨out,ran,fun i _ j _ channel => ?_⟩
    subst one
    apply UInt8.toNat_inj.mp
    rw [pixelAt_of_pixel (same i j) channel,blockMean_toNat _ Nat.one_pos,blockSum_eq]
    simp [block]
  · exact resizeDown_whole crop positive two rfl

theorem samplesBilinear_iff (positive : 0 < inputSize) (some_ : 0 < k) :
    SamplesBilinear inputSize crop ↔ ∀ i < inputSize, ∀ j < inputSize, ∀ channel,
      roundHalfUp ((∑ a : Fin k, ∑ b : Fin k, ((block k crop channel i j a b).toNat : ℚ))/(k*k)) =
        roundHalfUp (middleMean k (block k crop channel i j)) := by
  obtain ⟨out,ran,means⟩ := resizeDown_means crop positive some_
  have at_ : ∀ i < inputSize, ∀ j < inputSize, ∀ channel, (pixelAt out channel i j).toNat =
      roundHalfUp ((∑ a : Fin k, ∑ b : Fin k, ((block k crop channel i j a b).toNat : ℚ))/(k*k)) := by
    intro i row j col channel
    rw [means i row j col channel,blockMean_round _ some_]
  constructor
  · intro sampled i row j col channel
    obtain ⟨other,again,same⟩ := sampled
    rw [ran] at again
    cases again
    rw [← at_ i row j col channel,same i row j col channel,bilinear_middle crop some_ channel row col]
  · intro same
    refine ⟨out,ran,fun i row j col channel => ?_⟩
    rw [at_ i row j col channel,same i row j col channel,bilinear_middle crop some_ channel row col]

theorem mean_middle (some_ : 0 < k) (small : k ≤ 2) (value : Nat → Nat → UInt8) :
    (∑ a : Fin k, ∑ b : Fin k, ((value a b).toNat : ℚ))/(k*k) = middleMean k value := by
  rcases (by omega : k = 1 ∨ k = 2) with rfl | rfl
  · simp [middleMean]
  · simp [middleMean,Fin.sum_univ_two]
    ring

end

-- The rows through the middle of the first blocks are white, all else is black.
def stripe (size k channels : Nat) : Image size size channels :=
  Vector.ofFn fun y => Vector.ofFn fun _ => Vector.ofFn fun _ => if y.val = (k-1)/2 ∨ y.val = k/2 then 255 else 0

theorem stripe_block {inputSize k : Nat} (positive : 0 < inputSize) (channel : Fin channels) (row : a < k) (col : b < k) :
    block k (stripe (k*inputSize) k channels) channel 0 0 a b = if a = (k-1)/2 ∨ a = k/2 then 255 else 0 := by
  have wide : k ≤ k*inputSize := Nat.le_mul_of_pos_right k positive
  have down : 0*k+a < k*inputSize := by omega
  have right : 0*k+b < k*inputSize := by omega
  rw [block,pixelAt_eq _ down right]
  simp [stripe]

theorem stripe_sum (p q : Fin k) :
    ∑ a : Fin k, ∑ _b : Fin k, ((if a = p ∨ a = q then 255 else 0 : UInt8).toNat : ℚ) ≤ 510*k := by
  have row : ∀ a : Fin k, ∑ _b : Fin k, ((if a = p ∨ a = q then 255 else 0 : UInt8).toNat : ℚ) ≤
      (if a = p then 255*(k : ℚ) else 0)+(if a = q then 255*(k : ℚ) else 0) := by
    intro a
    rw [Finset.sum_const,Finset.card_univ,Fintype.card_fin,nsmul_eq_mul]
    have size : (0 : ℚ) ≤ k := Nat.cast_nonneg k
    have other : (0 : ℚ) ≤ if a = q then 255*(k : ℚ) else 0 := by split <;> linarith
    have white : ((255 : UInt8).toNat : ℚ) = 255 := by
      rw [show (255 : UInt8).toNat = 255 from rfl]
      norm_num
    by_cases first : a = p
    · rw [if_pos (.inl first),if_pos first,white]
      linarith
    · rw [if_neg first]
      by_cases second : a = q
      · rw [if_pos (.inr second),if_pos second,white]
        linarith
      · rw [if_neg (not_or.mpr ⟨first,second⟩),if_neg second]
        simp
  calc ∑ a : Fin k, ∑ _b : Fin k, ((if a = p ∨ a = q then 255 else 0 : UInt8).toNat : ℚ)
      ≤ ∑ a : Fin k, ((if a = p then 255*(k : ℚ) else 0)+(if a = q then 255*(k : ℚ) else 0)) :=
        Finset.sum_le_sum fun a _ => row a
    _ = 510*k := by
        rw [Finset.sum_add_distrib,Finset.sum_ite_eq',Finset.sum_ite_eq',if_pos (Finset.mem_univ p),if_pos (Finset.mem_univ q)]
        ring

-- Two rows at most of three or more: their share is far below white.
theorem stripe_differs {inputSize k : Nat} (positive : 0 < inputSize) (large : 3 ≤ k) (channel : Fin channels) :
    ¬SamplesBilinear inputSize (stripe (k*inputSize) k channels) := by
  rw [samplesBilinear_iff _ positive (by omega)]
  intro all
  have first := all 0 positive 0 positive channel
  have low : (k-1)/2 < k := by omega
  have high : k/2 < k := by omega
  have white : middleMean k (block k (stripe (k*inputSize) k channels) channel 0 0) = (255 : Nat) := by
    rw [middleMean,stripe_block positive channel low low,stripe_block positive channel low high,
      stripe_block positive channel high low,stripe_block positive channel high high]
    simp
  have dark := stripe_sum ⟨(k-1)/2,low⟩ ⟨k/2,high⟩
  have shown : ∑ a : Fin k, ∑ b : Fin k, ((block k (stripe (k*inputSize) k channels) channel 0 0 a b).toNat : ℚ) ≤ 510*k := by
    refine le_trans (le_of_eq ?_) dark
    refine Finset.sum_congr rfl fun a _ => Finset.sum_congr rfl fun b _ => ?_
    rw [stripe_block positive channel a.isLt b.isLt]
    simp only [Fin.ext_iff]
  rw [white,roundHalfUp_natCast] at first
  have size : (3 : ℚ) ≤ k := by exact_mod_cast large
  have some_ : (0 : ℚ) < k := by linarith
  have square : (0 : ℚ) < k*k := mul_pos some_ some_
  have reached : (255 : ℚ) ≤ (∑ a : Fin k, ∑ b : Fin k,
      ((block k (stripe (k*inputSize) k channels) channel 0 0 a b).toNat : ℚ))/(k*k)+1/2 := by
    have floor := (Nat.le_floor_iff' (by decide)).mp (ge_of_eq first)
    exact_mod_cast floor
  have most : (∑ a : Fin k, ∑ b : Fin k,
      ((block k (stripe (k*inputSize) k channels) channel 0 0 a b).toNat : ℚ))/(k*k) ≤ 510/k := by
    rw [div_le_div_iff₀ square some_]
    nlinarith
  have share : (510 : ℚ)/k ≤ 170 := by
    rw [div_le_iff₀ some_]
    linarith
  linarith

-- Every image of a shape is sampled bilinearly only up to a factor of two; past
-- it, the images whose blocks have their mean in the middle.
theorem downscale_bilinear (some_ : 0 < k) (inputSize channels : Nat) :
    ((∀ crop : Image (k*inputSize) (k*inputSize) channels, SamplesBilinear inputSize crop) ↔
        0 < inputSize ∧ (k ≤ 2 ∨ channels = 0)) ∧
      ∀ crop : Image (k*inputSize) (k*inputSize) channels, 0 < inputSize →
        (SamplesBilinear inputSize crop ↔ k ≤ 2 ∨ ∀ i < inputSize, ∀ j < inputSize, ∀ channel,
          roundHalfUp ((∑ a : Fin k, ∑ b : Fin k, ((block k crop channel i j a b).toNat : ℚ))/(k*k)) =
            roundHalfUp (middleMean k (block k crop channel i j))) := by
  have image : ∀ crop : Image (k*inputSize) (k*inputSize) channels, 0 < inputSize → k ≤ 2 → SamplesBilinear inputSize crop := by
    intro crop positive small
    rw [samplesBilinear_iff crop positive some_]
    intro i _ j _ channel
    rw [mean_middle some_ small]
  constructor
  · constructor
    · intro all
      have positive : 0 < inputSize := by
        by_contra none
        have empty : inputSize = 0 := by omega
        subst empty
        obtain ⟨out,ran,_⟩ := all (stripe (k*0) k channels)
        simp [resizeDown] at ran
      refine ⟨positive,?_⟩
      by_contra neither
      rw [not_or] at neither
      exact stripe_differs positive (by omega) ⟨0,Nat.pos_of_ne_zero neither.2⟩ (all _)
    · intro holds crop
      obtain ⟨positive,small | none⟩ := holds
      · exact image crop positive small
      · subst none
        rw [samplesBilinear_iff crop positive some_]
        exact fun _ _ _ _ channel => channel.elim0
  · intro crop positive
    constructor
    · intro sampled
      exact .inr ((samplesBilinear_iff crop positive some_).mp sampled)
    · intro holds
      rcases holds with small | same
      · exact image crop positive small
      · exact (samplesBilinear_iff crop positive some_).mpr same

theorem downscale_bilinear_half : SamplesBilinear 224 (stripe (2*224) 2 3) :=
  (downscale_bilinear (k := 2) (by decide) 224 3).1.mpr ⟨by decide,.inl (le_refl 2)⟩ _

-- Three rows, the middle one white: the mean is 85.
theorem third_not_bilinear : ¬SamplesBilinear 1 (stripe (3*1) 3 1) := stripe_differs Nat.one_pos (le_refl 3) 0

end SymphonyAkida.TiledShard
