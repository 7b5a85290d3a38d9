import Mathlib.Data.List.Sort
import Mathlib.Order.WellFoundedSet

namespace Greedy

-- Candidates are visited in order. One that an earlier choice hits is dropped,
-- any other is chosen.
def select (hits : α → α → Bool) : List α → List α → List α
  | chosen,[] => chosen
  | chosen,x :: rest =>
    if chosen.any (hits · x) then select hits chosen rest else select hits (chosen ++ [x]) rest

variable {hits : α → α → Bool}

theorem select_mono (hits : α → α → Bool) (chosen order : List α) :
    ∃ more, select hits chosen order = chosen ++ more ∧ more.Sublist order := by
  induction order generalizing chosen with
  | nil => exact ⟨[],by simp [select],List.Sublist.refl _⟩
  | cons x rest ih =>
    unfold select
    split
    · obtain ⟨more,same,inside⟩ := ih chosen
      exact ⟨more,same,inside.trans (List.sublist_cons_self _ _)⟩
    · obtain ⟨more,same,inside⟩ := ih (chosen ++ [x])
      exact ⟨x :: more,by rw [same,List.append_assoc]; rfl,inside.cons_cons x⟩

theorem mem_select_of_chosen (member : x ∈ chosen) : x ∈ select hits chosen order := by
  obtain ⟨more,same,_⟩ := select_mono hits chosen order
  rw [same]
  exact List.mem_append_left _ member

theorem select_free (free : chosen.Pairwise fun y x => hits y x = false) :
    (select hits chosen order).Pairwise fun y x => hits y x = false := by
  induction order generalizing chosen with
  | nil => exact free
  | cons x rest ih =>
    unfold select
    split
    · exact ih free
    · rename_i missed
      apply ih
      rw [List.pairwise_append]
      refine ⟨free,List.pairwise_singleton _ _,fun y earlier z last => ?_⟩
      rw [List.mem_singleton.mp last]
      simp only [List.any_eq_true,not_exists,not_and,Bool.not_eq_true] at missed
      exact missed y earlier

theorem select_covers (before : α → α → Prop) (sorted : order.Pairwise before)
    (earlier : ∀ y ∈ chosen, ∀ x ∈ order, before y x) (member : x ∈ order) :
    x ∈ select hits chosen order ∨ ∃ y ∈ select hits chosen order, hits y x = true ∧ before y x := by
  induction order generalizing chosen with
  | nil => cases member
  | cons z rest ih =>
    rw [List.pairwise_cons] at sorted
    have still : ∀ y ∈ chosen, ∀ x ∈ rest, before y x := fun y old x later =>
      earlier y old x (List.mem_cons_of_mem _ later)
    unfold select
    split
    · rename_i struck
      rcases List.mem_cons.mp member with rfl | later
      · obtain ⟨y,old,hit⟩ := List.any_eq_true.mp struck
        exact .inr ⟨y,mem_select_of_chosen old,hit,earlier y old x List.mem_cons_self⟩
      · exact ih sorted.2 still later
    · rcases List.mem_cons.mp member with rfl | later
      · exact .inl (mem_select_of_chosen (by simp))
      · refine ih sorted.2 (fun y old x after => ?_) later
        rcases List.mem_append.mp old with old | last
        · exact still y old x after
        · rw [List.mem_singleton.mp last]
          exact sorted.1 x after

theorem either {l : List α} {R : α → α → Prop} (ordered : l.Pairwise R) (first : a ∈ l) (second : b ∈ l)
    (apart : a ≠ b) : R a b ∨ R b a := by
  induction ordered with
  | nil => cases first
  | @cons x rest ahead _ ih =>
    rcases List.mem_cons.mp first with rfl | left
    · exact .inl (ahead b ((List.mem_cons.mp second).resolve_left (Ne.symm apart)))
    · rcases List.mem_cons.mp second with rfl | right
      · exact .inr (ahead a left)
      · exact ih left right

-- What greedy selection leaves of a set, whatever way the set is listed.
structure IsKernel (hits before : α → α → Prop) (all kept : Set α) : Prop where
  inside : kept ⊆ all
  free : ∀ a ∈ kept, ∀ b ∈ kept, before a b → ¬hits a b
  covers : ∀ b ∈ all, b ∈ kept ∨ ∃ a ∈ kept, hits a b ∧ before a b

section
variable {hits before : α → α → Prop} {all kept other : Set α}

theorem IsKernel.mem_of (first : IsKernel hits before all kept) (second : IsKernel hits before all other)
    (earlier : ∀ a ∈ all, before a x → (a ∈ kept ↔ a ∈ other)) (member : x ∈ kept) : x ∈ other := by
  rcases second.covers x (first.inside member) with held | ⟨a,held,hit,less⟩
  · exact held
  · have both := (earlier a (second.inside held) less).mpr held
    exact absurd hit (first.free a both x member less)

theorem IsKernel.unique [IsStrictOrder α before] (finite : all.Finite) (first : IsKernel hits before all kept)
    (second : IsKernel hits before all other) : kept = other := by
  have same : ∀ x ∈ all, (x ∈ kept ↔ x ∈ other) := by
    intro x member
    refine Set.WellFoundedOn.induction (P := fun x => x ∈ kept ↔ x ∈ other) (finite.wellFoundedOn (r := before))
      member ?_
    intro x _ ih
    exact ⟨first.mem_of second ih,second.mem_of first fun a inside less => (ih a inside less).symm⟩
  ext x
  constructor
  · intro member
    exact (same x (first.inside member)).mp member
  · intro member
    exact (same x (second.inside member)).mpr member

theorem IsKernel.image {hits' before' : β → β → Prop} {f : α → β} (kernel : IsKernel hits before all kept)
    (hit : ∀ a b, hits' (f a) (f b) ↔ hits a b) (earlier : ∀ a b, before' (f a) (f b) ↔ before a b) :
    IsKernel hits' before' (f '' all) (f '' kept) := by
  refine ⟨Set.image_mono kernel.inside,?_,?_⟩
  · rintro _ ⟨a,first,rfl⟩ _ ⟨b,second,rfl⟩ less struck
    exact kernel.free a first b second ((earlier a b).mp less) ((hit a b).mp struck)
  · rintro _ ⟨b,member,rfl⟩
    rcases kernel.covers b member with held | ⟨a,held,struck,less⟩
    · exact .inl ⟨b,held,rfl⟩
    · exact .inr ⟨f a,⟨a,held,rfl⟩,(hit a b).mpr struck,(earlier a b).mpr less⟩

end

theorem exists_first {before : α → α → Prop} [IsStrictOrder α before] (filled : l ≠ []) :
    ∃ x ∈ l, ∀ y ∈ l, ¬before y x := by
  induction l with
  | nil => exact absurd rfl filled
  | cons a rest ih =>
    by_cases none : rest = []
    · subst none
      refine ⟨a,List.mem_cons_self,fun y member => ?_⟩
      rw [List.mem_singleton.mp member]
      exact irrefl a
    · obtain ⟨x,inside,first⟩ := ih none
      by_cases less : before a x
      · refine ⟨a,List.mem_cons_self,fun y member earlier => ?_⟩
        rcases List.mem_cons.mp member with rfl | later
        · exact irrefl y earlier
        · exact first y later (IsTrans.trans _ _ _ earlier less)
      · refine ⟨x,List.mem_cons_of_mem _ inside,fun y member => ?_⟩
        rcases List.mem_cons.mp member with rfl | later
        · exact less
        · exact first y later

end Greedy
