import Mathlib.Data.Vector.Basic

-- Arrays of two and three dimensions and their elements in C order.
namespace Arrays

def reshape (n m : Nat) (flat : Vector α (n*m)) : Vector (Vector α m) n :=
  Vector.ofFn fun i => Vector.ofFn fun j =>
    have below : i.val*m+j.val < n*m := by
      have row := Nat.mul_le_mul_right m (Nat.succ_le_of_lt i.isLt)
      rw [Nat.succ_mul] at row
      exact Nat.lt_of_lt_of_le (Nat.add_lt_add_left j.isLt _) row
    flat[i.val*m+j.val]

theorem reshape_flatten (rows : Vector (Vector α m) n) : reshape n m rows.flatten = rows := by
  ext i hi j hj
  have quotient : (i*m+j)/m = i := by
    rw [Nat.mul_comm,Nat.mul_add_div (Nat.zero_lt_of_lt hj),Nat.div_eq_of_lt hj,Nat.add_zero]
  simp [reshape,quotient,Nat.mod_eq_of_lt hj]

abbrev Rank3 (α : Type) (height width depth : Nat) := Vector (Vector (Vector α depth) width) height

def ravel (array : Rank3 α h w d) : List α := array.flatten.flatten.toList

def unravel (h w d : Nat) (flat : List α) : Option (Rank3 α h w d) :=
  if size : flat.toArray.size = h*w*d then some (reshape h w (reshape (h*w) d ⟨flat.toArray,size⟩)) else none

theorem unravel_ravel (array : Rank3 α h w d) : unravel h w d (ravel array) = some array := by
  have size : (ravel array).toArray.size = h*w*d := by simp [ravel]
  have same : (⟨(ravel array).toArray,size⟩ : Vector α (h*w*d)) = array.flatten.flatten := by
    apply Vector.toList_inj.mp
    rfl
  unfold unravel
  rw [dif_pos size,same,reshape_flatten,reshape_flatten]

end Arrays
