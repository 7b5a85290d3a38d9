import Mathlib.Data.List.Nodup
import Mathlib.Data.List.Perm.Subperm

namespace Counting

theorem length_le {l : List Nat} (distinct : l.Nodup) (below : ∀ i ∈ l, i < n) : l.length ≤ n := by
  have inside : l ⊆ List.range n := fun i member => List.mem_range.mpr (below i member)
  simpa using (distinct.subperm inside).length_le

theorem covers {l : List Nat} (distinct : l.Nodup) (below : ∀ i ∈ l, i < n) (full : n ≤ l.length) :
    ∀ i < n, i ∈ l := by
  have inside : l ⊆ List.range n := fun i member => List.mem_range.mpr (below i member)
  have same := (distinct.subperm inside).perm_of_length_le (by simpa using full)
  exact fun i less => same.mem_iff.mpr (List.mem_range.mpr less)

theorem eq_singleton {part : List α} (distinct : part.Nodup) (first : a ∈ part) (all : ∀ b ∈ part, b = a) :
    part = [a] := by
  have same := List.eq_replicate_iff.mpr ⟨rfl,all⟩
  rw [same] at distinct
  have one : part.length = 1 :=
    Nat.le_antisymm (List.nodup_replicate.mp distinct) (List.length_pos_iff.mpr (List.ne_nil_of_mem first))
  rw [same,one]
  rfl

end Counting
