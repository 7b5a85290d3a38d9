import SymphonyAkida.SuppressionLaw
import SymphonyAkida.RawScale

namespace SymphonyAkida.TiledShard
variable {K : Type} [Field K] [LinearOrder K]

def iouMatrix (a b : List (Box K)) : List (List K) := a.map fun box => b.map (iou box)

def iosMatrix (a b : List (Box K)) : List (List K) := a.map fun box => b.map (ios box)

-- matrix[i, j], where there is one.
def matrixAt (matrix : List (List K)) (i j : Nat) : Option K := matrix[i]?.bind (·[j]?)

omit [Field K] [LinearOrder K] in
theorem matrixAt_map (f : α → β → K) (a : List α) (b : List β) (i j : Nat) :
    matrixAt (a.map fun x => b.map (f x)) i j = a[i]?.bind fun x => b[j]?.map (f x) := by
  simp only [matrixAt,List.getElem?_map]
  cases a[i]? with
  | none => rfl
  | some x => simp

theorem matrixAt_iou (a b : List (Box K)) (i j : Nat) :
    matrixAt (iouMatrix a b) i j = a[i]?.bind fun x => b[j]?.map (iou x) := matrixAt_map iou a b i j

theorem matrixAt_ios (a b : List (Box K)) (i j : Nat) :
    matrixAt (iosMatrix a b) i j = a[i]?.bind fun x => b[j]?.map (ios x) := matrixAt_map ios a b i j

structure Box.WellFormed (box : Box K) : Prop where
  x : box.x1 ≤ box.x2
  y : box.y1 ≤ box.y2

variable [IsStrictOrderedRing K]

omit [IsStrictOrderedRing K] in
theorem side_nonneg (low high : K) : 0 ≤ side low high := le_max_left _ _

theorem area_nonneg (box : Box K) : 0 ≤ box.area := mul_nonneg (side_nonneg _ _) (side_nonneg _ _)

theorem intersection_nonneg (a b : Box K) : 0 ≤ intersection a b := mul_nonneg (side_nonneg _ _) (side_nonneg _ _)

theorem intersection_le_right (a b : Box K) : intersection a b ≤ b.area :=
  intersection_comm a b ▸ intersection_le b a

theorem side_narrower (low high l h : K) : side (max low l) (min high h) ≤ side low high :=
  max_le_max (le_refl 0) (sub_le_sub (min_le_left _ _) (le_max_left _ _))

omit [IsStrictOrderedRing K] in
theorem side_pos {low high : K} (there : 0 < side low high) : side low high = high-low :=
  max_eq_right (le_of_lt ((lt_max_iff.mp there).resolve_left (lt_irrefl 0)))

theorem side_whole {low high l h : K} (there : 0 < side low high)
    (same : side (max low l) (min high h) = side low high) : l ≤ low ∧ high ≤ h := by
  have cut : side (max low l) (min high h) = min high h-max low l := side_pos (same ▸ there)
  have whole := side_pos there
  have lower := le_max_left low l
  have upper := min_le_left high h
  constructor
  · refine le_trans (le_max_right low l) ?_
    linarith
  · refine le_trans ?_ (min_le_right high h)
    linarith

theorem inside_of_shared {a b : Box K} (there : 0 < a.area) (shared : intersection a b = a.area) :
    (b.x1 ≤ a.x1 ∧ a.x2 ≤ b.x2) ∧ b.y1 ≤ a.y1 ∧ a.y2 ≤ b.y2 := by
  have wide : 0 < side a.x1 a.x2 := pos_of_mul_pos_left there (side_nonneg _ _)
  have tall : 0 < side a.y1 a.y2 := pos_of_mul_pos_right there (side_nonneg _ _)
  have cut : 0 < side (max a.x1 b.x1) (min a.x2 b.x2) := pos_of_mul_pos_left (shared ▸ there) (side_nonneg _ _)
  have both := (mul_eq_mul_iff_eq_and_eq_of_pos (side_narrower a.x1 a.x2 b.x1 b.x2)
    (side_narrower a.y1 a.y2 b.y1 b.y2) cut tall).mp shared
  exact ⟨side_whole wide both.1,side_whole tall both.2⟩

theorem ios_nonneg (a b : Box K) : 0 ≤ ios a b := by
  unfold ios
  split
  · exact div_nonneg (intersection_nonneg a b) (area_nonneg b)
  · exact le_refl 0

theorem ios_le_one (a b : Box K) : ios a b ≤ 1 := by
  unfold ios
  split
  · rename_i area
    exact (div_le_one area).mpr (intersection_le_right a b)
  · exact zero_le_one

theorem iou_nonneg (a b : Box K) : 0 ≤ iou a b := by
  simp only [iou]
  split
  · rename_i union
    exact div_nonneg (intersection_nonneg a b) (le_of_lt union)
  · exact le_refl 0

-- The union is at least either area, so the share of it is at most the share of that area.
theorem iou_le_ios (a b : Box K) : iou a b ≤ ios a b := by
  simp only [iou]
  split
  · rename_i union
    rcases (area_nonneg b).lt_or_eq with area | empty
    · rw [ios,if_pos area]
      refine div_le_div_of_nonneg_left (intersection_nonneg a b) area ?_
      have inside := intersection_le a b
      linarith
    · have none : intersection a b = 0 := le_antisymm (empty ▸ intersection_le_right a b) (intersection_nonneg a b)
      rw [none,zero_div]
      exact ios_nonneg a b
  · exact ios_nonneg a b

theorem iou_le_min (a b : Box K) : iou a b ≤ min (ios b a) (ios a b) :=
  le_min (iou_comm a b ▸ iou_le_ios b a) (iou_le_ios a b)

theorem eq_of_iou {a b : Box K} (one : iou a b = 1) : a = b := by
  simp only [iou] at one
  split at one
  · rename_i union
    have shared := (div_eq_one_iff_eq (ne_of_gt union)).mp one
    have left := intersection_le a b
    have right := intersection_le_right a b
    have whole : intersection a b = a.area := by linarith
    have other : intersection b a = b.area := by
      rw [intersection_comm]
      linarith
    have there : 0 < a.area := by linarith
    obtain ⟨⟨x1,x2⟩,y1,y2⟩ := inside_of_shared there whole
    obtain ⟨⟨u1,u2⟩,v1,v2⟩ := inside_of_shared (a := b) (by linarith) other
    cases a
    cases b
    simp only [Box.mk.injEq]
    exact ⟨le_antisymm u1 x1,le_antisymm v1 y1,le_antisymm x2 u2,le_antisymm y2 v2⟩
  · exact absurd one zero_ne_one

omit [IsStrictOrderedRing K] in
theorem iou_self {box : Box K} (area : 0 < box.area) : iou box box = 1 := by
  have whole : intersection box box = box.area := by
    simp only [intersection,max_self,min_self,Box.area]
  have union : box.area+box.area-intersection box box = box.area := by
    rw [whole]
    ring
  rw [iou,union,if_pos area,whole]
  exact div_self (ne_of_gt area)

theorem area_unclamped {box : Box K} (formed : box.WellFormed) :
    box.area = (box.x2-box.x1)*(box.y2-box.y1) := by
  rw [Box.area,side,side,max_eq_right (sub_nonneg.mpr formed.x),max_eq_right (sub_nonneg.mpr formed.y)]

end SymphonyAkida.TiledShard

namespace SymphonyAkida.DetectionMap
open TiledShard EvalShardMap
variable {K : Type} [Field K] [LinearOrder K] [IsStrictOrderedRing K]

theorem unionArea_areas {a b : Box K} (first : a.WellFormed) (second : b.WellFormed) :
    unionArea a b = a.area+b.area-intersection a b := by
  rw [unionArea,area_unclamped first,area_unclamped second,intersection,side,side,max_comm 0,max_comm 0]

theorem intersection_empty {a b : Box K} (empty : a.area+b.area-intersection a b = 0) : intersection a b = 0 := by
  have left := intersection_le a b
  have right := intersection_le_right a b
  have shared := intersection_nonneg a b
  linarith

theorem overlapOf_iou {a b : Box K} (first : a.WellFormed) (second : b.WellFormed)
    (guarded : unionArea a b = 0 ∨ machineEps ≤ unionArea a b) : overlapOf a b = iou a b := by
  have shared : overlapOf a b = intersection a b/max (unionArea a b) machineEps := by
    rw [intersection,side,side,max_comm 0,max_comm 0]
    rfl
  have areas := unionArea_areas first second
  rw [shared]
  rcases guarded with empty | above
  · rw [areas] at empty
    rw [intersection_empty empty,zero_div,iou,if_neg (by rw [empty]; exact lt_irrefl 0)]
  · have guard : (0 : K) < machineEps := by
      unfold machineEps
      positivity
    have positive : (0 : K) < a.area+b.area-intersection a b := areas ▸ lt_of_lt_of_le guard above
    rw [max_eq_left above,areas]
    simp only [iou,if_pos positive]

-- compute_overlap ignores the score column of its first argument.
theorem overlaps_agree (detections : List (Scored K)) (annotations : List (Box K)) :
    (computeOverlap detections annotations).map List.length =
        (iouMatrix (detections.map (·.box)) annotations).map List.length ∧
      (∀ i j detection annotation, detections[i]? = some detection → annotations[j]? = some annotation →
        detection.box.WellFormed → annotation.WellFormed →
        unionArea detection.box annotation = 0 ∨ machineEps ≤ unionArea detection.box annotation →
        matrixAt (computeOverlap detections annotations) i j =
          matrixAt (iouMatrix (detections.map (·.box)) annotations) i j) ∧
      ∀ a b : List (Box K), (∀ i j, matrixAt (iouMatrix a b) i j = matrixAt (iouMatrix b a) j i) ∧
        ∀ i j overlap, matrixAt (iouMatrix a b) i j = some overlap →
          ∃ inA inB, matrixAt (iosMatrix a b) i j = some inA ∧ matrixAt (iosMatrix b a) j i = some inB ∧
            0 ≤ overlap ∧ overlap ≤ min inB inA ∧ inA ≤ 1 ∧ inB ≤ 1 ∧ (overlap = 1 → a[i]? = b[j]?) := by
  refine ⟨by simp [computeOverlap,iouMatrix],?_,?_⟩
  · intro i j detection annotation first second formed formed' guarded
    have left : matrixAt (computeOverlap detections annotations) i j = some (overlapOf detection.box annotation) := by
      rw [computeOverlap,matrixAt_map (fun one : Scored K => overlapOf one.box),first,second]
      rfl
    rw [left,matrixAt_iou,List.getElem?_map,first,second,overlapOf_iou formed formed' guarded]
    rfl
  · intro a b
    constructor
    · intro i j
      rw [matrixAt_iou,matrixAt_iou]
      cases a[i]? <;> cases b[j]? <;> simp [iou_comm]
    · intro i j overlap found
      rw [matrixAt_iou] at found
      obtain ⟨x,inFirst,found⟩ := Option.bind_eq_some_iff.mp found
      obtain ⟨y,inSecond,found⟩ := Option.map_eq_some_iff.mp found
      rw [matrixAt_ios,matrixAt_ios,inFirst,inSecond]
      subst found
      refine ⟨ios x y,ios y x,rfl,rfl,iou_nonneg x y,iou_le_min x y,ios_le_one x y,ios_le_one y x,fun one => ?_⟩
      rw [eq_of_iou one]

-- Two squares that share a corner, with a union of 7.
theorem overlaps_agree_corner : matrixAt (computeOverlap [⟨⟨0,0,2,2⟩,1/2⟩] [(⟨1,1,3,3⟩ : Box ℚ)]) 0 0 =
    matrixAt (iouMatrix [⟨0,0,2,2⟩] [⟨1,1,3,3⟩]) 0 0 :=
  (overlaps_agree (K := ℚ) [⟨⟨0,0,2,2⟩,1/2⟩] [⟨1,1,3,3⟩]).2.1 0 0 _ _ rfl rfl ⟨by decide,by decide⟩
    ⟨by decide,by decide⟩ (.inr (by decide +kernel))

end SymphonyAkida.DetectionMap
