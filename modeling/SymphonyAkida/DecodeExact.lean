import SymphonyAkida.DecodeSpec
import Mathlib.Algebra.BigOperators.Ring.List
import Mathlib.Algebra.Order.BigOperators.Group.List
import Mathlib.Tactic.Linarith

namespace SymphonyAkida.TiledShard
open Outcome Arrays
variable {K : Type} [Field K] [LinearOrder K]

-- Exact arithmetic: no rounding, and an exponential that is nowhere 0.
structure Exact (np : Numpy K) : Prop where
  exp_pos : ∀ x, 0 < np.exp x
  float32 : ∀ x, np.float32 x = x

structure Shares (soft : List K) : Prop where
  positive : ∀ p ∈ soft, 0 < p
  whole : soft.sum = 1

section
variable [IsStrictOrderedRing K]

omit [LinearOrder K] [IsStrictOrderedRing K] in
theorem sum_div (xs : List K) (c : K) : (xs.map (· / c)).sum = xs.sum/c := by
  simpa only [div_eq_mul_inv,id_eq,List.map_id'] using List.sum_map_mul_right xs (fun x => x) c⁻¹

theorem two_le_sum {xs : List K} {i j : Nat} (nonneg : ∀ x ∈ xs, 0 ≤ x) (less : i < j) (first : xs[i]? = some a)
    (second : xs[j]? = some b) : a+b ≤ xs.sum := by
  induction xs generalizing i j with
  | nil => cases first
  | cons x rest ih =>
    have later : ∀ y ∈ rest, 0 ≤ y := fun y member => nonneg y (List.mem_cons_of_mem _ member)
    obtain ⟨j,rfl⟩ : ∃ k, j = k+1 := ⟨j-1,by omega⟩
    rw [List.getElem?_cons_succ] at second
    rw [List.sum_cons]
    cases i with
    | zero =>
      cases Option.some.inj first
      exact add_le_add_right (List.single_le_sum later b (List.mem_of_getElem? second)) _
    | succ i =>
      rw [List.getElem?_cons_succ] at first
      have both := ih later (Nat.lt_of_succ_lt_succ less) first second
      exact le_trans both (le_add_of_nonneg_left (nonneg _ List.mem_cons_self))

theorem Shares.le_one {soft : List K} (shares : Shares soft) : ∀ p ∈ soft, p ≤ 1 := by
  intro p member
  rw [← shares.whole]
  exact List.single_le_sum (fun q inside => le_of_lt (shares.positive q inside)) p member

theorem shares_of {xs : List K} (filled : xs ≠ []) (positive : ∀ x ∈ xs, 0 < x) : Shares (xs.map (· / xs.sum)) := by
  have total : 0 < xs.sum := List.sum_pos xs positive filled
  constructor
  · intro p member
    obtain ⟨x,inside,rfl⟩ := List.mem_map.mp member
    exact div_pos (positive x inside) total
  · rw [sum_div,div_self (ne_of_gt total)]

variable {np : Numpy K} {numClasses : Nat}

theorem sigmoid_pos (exact : Exact np) (x : K) : 0 < sigmoid np x :=
  div_pos zero_lt_one (add_pos zero_lt_one (exact.exp_pos _))

theorem sigmoid_lt_one (exact : Exact np) (x : K) : sigmoid np x < 1 := by
  unfold sigmoid
  rw [div_lt_one (add_pos zero_lt_one (exact.exp_pos _))]
  exact lt_add_of_pos_right 1 (exact.exp_pos _)

theorem softmax_shares (exact : Exact np) {x soft : Vector (Vector K numClasses) n} (ran : softmax np x = .ok soft)
    (inside : i < n) : Shares soft[i].toList := by
  unfold softmax at ran
  obtain ⟨top,found,ran⟩ := bind_ok ran
  obtain ⟨low,_,ran⟩ := bind_ok ran
  dsimp only at ran
  generalize (if low < -100 then _ else _ : Vector (Vector K numClasses) n) = logits at ran
  cases ran
  have filled : 0 < numClasses := by
    cases numClasses with
    | succ k => exact Nat.succ_pos k
    | zero =>
      have empty : x.flatten.toList = [] := by
        apply List.eq_nil_of_length_eq_zero
        simp
      rw [empty] at found
      cases found
  simp only [Vector.getElem_map,Vector.toList_map]
  refine shares_of ?_ ?_
  · intro filled_
    have size := congrArg List.length filled_
    simp at size
    omega
  · intro p member
    obtain ⟨x,_,rfl⟩ := List.mem_map.mp member
    exact exact.exp_pos x

omit [IsStrictOrderedRing K] in
theorem cast_exact (exact : Exact np) {cell : Box K × K × Vector K numClasses} (ran : castCell np cell = .ok one) :
    one.box = cell.1 ∧ one.score = cell.2.1 ∧ one.classes = cell.2.2 ∧
      Argmax.argmax one.classes.toList = some one.label := by
  obtain ⟨box,confidence,classes⟩ := cell
  have same : classes.map np.float32 = classes := by
    ext i below
    simp [exact.float32]
  obtain ⟨label,found,ran⟩ := bind_ok ran
  cases ran
  rw [same] at found ⊢
  cases largest : Argmax.argmax classes.toList with
  | none => rw [largest] at found; cases found
  | some k =>
    rw [largest] at found
    cases found
    exact ⟨by simp [Box.map,exact.float32],exact.float32 confidence,rfl,rfl⟩

-- The cell a candidate was decoded from.
structure FromCell (np : Numpy K) (output : Output K) (anchors : List (K × K)) (objThreshold : K)
    (one : Candidate K numClasses) (row col : Nat) (anchor : K × K) (cell : Vector K (5+numClasses))
    (soft : Vector K numClasses) : Prop where
  row_lt : row < output.gridH
  col_lt : col < output.gridW
  anchor_mem : anchor ∈ anchors
  shares : Shares soft.toList
  cast : castCell np (decodeCell np output.gridH output.gridW anchor row col objThreshold cell soft) = .ok one
  kept : 0 < (decodeCell np output.gridH output.gridW anchor row col objThreshold cell soft).2.2.toList.sum

theorem candidates_cell (exact : Exact np) {output : Output K} {found : List (Candidate K numClasses)}
    (ran : candidates np output anchors numClasses objThreshold = .ok found) (member : one ∈ found) :
    ∃ row col anchor cell soft, FromCell np output anchors objThreshold one row col anchor cell soft := by
  unfold candidates at ran
  dsimp only at ran
  split at ran
  · obtain ⟨soft,shares,ran⟩ := bind_ok ran
    obtain ⟨cell,inside,cast⟩ := mapM_mem ran member
    obtain ⟨listed,kept⟩ := List.mem_filter.mp inside
    obtain ⟨i,_,rfl⟩ := List.mem_map.mp listed
    simp only [exact.float32,Prod.mk.eta] at cast kept
    have positive : 0 < output.gridH*output.gridW*anchors.length := Nat.lt_of_le_of_lt (Nat.zero_le _) i.isLt
    have some_ : 0 < anchors.length := Nat.pos_of_mul_pos_left positive
    have wide : 0 < output.gridW := Nat.pos_of_mul_pos_left (Nat.pos_of_mul_pos_right positive)
    have below : i.val%anchors.length < anchors.length := Nat.mod_lt _ some_
    refine ⟨_,_,_,_,_,?_,Nat.mod_lt _ wide,?_,softmax_shares exact shares i.isLt,cast,of_decide_eq_true kept⟩
    · exact (Nat.div_lt_iff_lt_mul wide).mpr ((Nat.div_lt_iff_lt_mul some_).mpr i.isLt)
    · rw [List.getD_eq_getElem?_getD,List.getElem?_eq_getElem below,Option.getD_some]
      exact List.getElem_mem below
  · cases ran

-- A box decoded around a centre inside the tile: clamped below at 0, and above
-- at the grid's size, not at 1.
structure InGrid (gridH gridW : Nat) (box : Box K) : Prop where
  left : 0 ≤ box.x1 ∧ box.x1 < 1
  right : box.x1 < box.x2 ∧ box.x2 ≤ gridW
  top : 0 ≤ box.y1 ∧ box.y1 < 1
  bottom : box.y1 < box.y2 ∧ box.y2 ≤ gridH

theorem clamped_span {x w : K} (grid : Nat) (inside : 0 < x ∧ x < 1) (wide : 0 < w) (some_ : 0 < grid) :
    (0 ≤ max (x-w/2) 0 ∧ max (x-w/2) 0 < 1) ∧ max (x-w/2) 0 < min (x+w/2) grid ∧ min (x+w/2) (grid : K) ≤ grid := by
  have half : 0 < w/2 := half_pos wide
  have low : max (x-w/2) 0 < 1 := max_lt (by linarith) zero_lt_one
  have cells : (1 : K) ≤ grid := Nat.one_le_cast.mpr some_
  refine ⟨⟨le_max_right _ _,low⟩,lt_min ?_ (lt_of_lt_of_le low cells),min_le_right _ _⟩
  exact max_lt (by linarith) (by linarith)

theorem centre_inside {cell grid : Nat} (exact : Exact np) (x : K) (below : cell < grid) :
    0 < ((cell : K)+sigmoid np x)/grid ∧ ((cell : K)+sigmoid np x)/grid < 1 := by
  have positive : (0 : K) < grid := Nat.cast_pos.mpr (Nat.lt_of_le_of_lt (Nat.zero_le _) below)
  have room : (cell : K)+1 ≤ grid := by exact_mod_cast below
  refine ⟨div_pos (add_pos_of_nonneg_of_pos (Nat.cast_nonneg _) (sigmoid_pos exact x)) positive,?_⟩
  rw [div_lt_one positive]
  linarith [sigmoid_lt_one exact x]

theorem decoded_in_grid (exact : Exact np) {output : Output K} (anchored : ∀ anchor ∈ anchors, 0 < anchor.1 ∧ 0 < anchor.2)
    {found : List (Candidate K numClasses)} (ran : candidates np output anchors numClasses objThreshold = .ok found)
    (member : one ∈ found) : InGrid output.gridH output.gridW one.box := by
  obtain ⟨row,col,anchor,cell,soft,from_⟩ := candidates_cell exact ran member
  have tall : (0 : K) < output.gridH := Nat.cast_pos.mpr (Nat.lt_of_le_of_lt (Nat.zero_le _) from_.row_lt)
  have wide : (0 : K) < output.gridW := Nat.cast_pos.mpr (Nat.lt_of_le_of_lt (Nat.zero_le _) from_.col_lt)
  obtain ⟨across,down⟩ := anchored anchor from_.anchor_mem
  have x := clamped_span output.gridW (centre_inside exact cell[0] from_.col_lt)
    (div_pos (mul_pos across (exact.exp_pos cell[2])) wide) (Nat.cast_pos.mp wide)
  have y := clamped_span output.gridH (centre_inside exact cell[1] from_.row_lt)
    (div_pos (mul_pos down (exact.exp_pos cell[3])) tall) (Nat.cast_pos.mp tall)
  rw [(cast_exact exact from_.cast).1]
  exact ⟨x.1,x.2,y.1,y.2⟩

-- The label of a detection is the first best of its class scores, which pass
-- the threshold and stay below the objectness.
structure Labelled (objThreshold score : K) (label : Nat) (classes : List K) : Prop where
  best : ∃ m, Argmax.FirstLargest classes label m ∧ 0 < m ∧ objThreshold < m ∧ m ≤ score

theorem decoded_labelled (exact : Exact np) {output : Output K} {found : List (Candidate K numClasses)}
    (ran : candidates np output anchors numClasses objThreshold = .ok found) (member : one ∈ found) :
    Labelled objThreshold one.score one.label one.classes.toList := by
  obtain ⟨row,col,anchor,cell,soft,from_⟩ := candidates_cell exact ran member
  obtain ⟨_,score,classes,label⟩ := cast_exact exact from_.cast
  obtain ⟨m,first⟩ := Argmax.argmax_spec label
  have kept := from_.kept
  rw [← classes] at kept
  have positive : 0 < m := by
    by_contra none
    have low : ∀ v ∈ one.classes.toList, v ≤ 0 := fun v inside => le_trans (first.most v inside) (not_lt.mp none)
    have bound := List.sum_le_card_nsmul _ 0 low
    rw [nsmul_zero] at bound
    exact absurd kept (not_lt.mpr bound)
  refine ⟨m,first,positive,?_⟩
  have held := List.mem_of_getElem? first.here
  rw [classes] at held
  simp only [decodeCell,Vector.toList_map,List.mem_map] at held
  obtain ⟨p,inside,same⟩ := held
  split at same
  · rename_i passed
    rw [← same,score]
    refine ⟨passed,?_⟩
    exact mul_le_of_le_one_right (le_of_lt (sigmoid_pos exact _)) (from_.shares.le_one p inside)
  · exact absurd positive (by rw [← same]; exact lt_irrefl 0)

-- From half on, the threshold leaves one class: two would share more than all.
theorem one_class {i j : Nat} (exact : Exact np) {output : Output K} {found : List (Candidate K numClasses)}
    (ran : candidates np output anchors numClasses objThreshold = .ok found) (half : 1/2 ≤ objThreshold)
    (member : one ∈ found) (first : one.classes.toList[i]? = some a) (second : one.classes.toList[j]? = some b)
    (apart : i ≠ j) : a = 0 ∨ b = 0 := by
  obtain ⟨row,col,anchor,cell,soft,from_⟩ := candidates_cell exact ran member
  obtain ⟨_,_,classes,_⟩ := cast_exact exact from_.cast
  rw [classes] at first second
  simp only [decodeCell,Vector.toList_map,List.getElem?_map,Option.map_eq_some_iff] at first second
  obtain ⟨p,here,rfl⟩ := first
  obtain ⟨q,there,rfl⟩ := second
  have positive := sigmoid_pos exact cell[4]
  have below := sigmoid_lt_one exact cell[4]
  have nonneg : ∀ p ∈ soft.toList, 0 ≤ p := fun p inside => le_of_lt (from_.shares.positive p inside)
  have together : p+q ≤ 1 := by
    rw [← from_.shares.whole]
    rcases Nat.lt_or_gt_of_ne apart with less | more
    · exact two_le_sum nonneg less here there
    · rw [add_comm]
      exact two_le_sum nonneg more there here
  have shared : sigmoid np cell[4]*p+sigmoid np cell[4]*q < 1 := by
    rw [← mul_add]
    exact lt_of_le_of_lt (mul_le_of_le_one_right (le_of_lt positive) together) below
  by_cases passed : objThreshold < sigmoid np cell[4]*p
  · refine .inr (if_neg ?_)
    intro other
    linarith
  · exact .inl (if_neg passed)

end

end SymphonyAkida.TiledShard
