import Mathlib.Logic.Relation

namespace Classes
open Relation
variable {R : α → α → Prop} {Q : β → β → Prop}

theorem constant (f : α → γ) (agree : ∀ a b, R a b → f a = f b) (related : EqvGen R a b) : f a = f b := by
  induction related with
  | rel x y pair => exact agree x y pair
  | refl => rfl
  | symm _ _ _ ih => exact ih.symm
  | trans _ _ _ _ _ left right => exact left.trans right

theorem carry {Same : α → β → Prop} (unique : ∀ a b c, Same a b → Same a c → b = c)
    (forth : ∀ x y, R x y → ∃ a b, Same x a ∧ Same y b ∧ Q a b) (related : EqvGen R x y) :
    x = y ∨ ∃ a b, Same x a ∧ Same y b ∧ EqvGen Q a b := by
  induction related with
  | rel x y pair =>
    obtain ⟨a,b,first,second,held⟩ := forth x y pair
    exact .inr ⟨a,b,first,second,.rel _ _ held⟩
  | refl => exact .inl rfl
  | symm x y _ ih =>
    rcases ih with same | ⟨a,b,first,second,path⟩
    · exact .inl same.symm
    · exact .inr ⟨b,a,second,first,.symm _ _ path⟩
  | trans x y z _ _ left right =>
    rcases left with rfl | ⟨a,b,first,second,path⟩
    · exact right
    · rcases right with rfl | ⟨c,d,third,fourth,further⟩
      · exact .inr ⟨a,b,first,second,path⟩
      · cases unique y b c second third
        exact .inr ⟨a,d,first,fourth,.trans _ _ _ path further⟩

theorem carry_to (Same : α → β → Prop) (unique : ∀ a b c, Same a b → Same a c → b = c)
    (forth : ∀ x y, R x y → ∃ a b, Same x a ∧ Same y b ∧ Q a b) (first : Same x a) (second : Same y b)
    (related : EqvGen R x y) : EqvGen Q a b := by
  rcases carry unique forth related with rfl | ⟨c,d,third,fourth,path⟩
  · cases unique x a b first second
    exact .refl a
  · cases unique x a c first third
    cases unique y b d second fourth
    exact path

theorem carry_iff (Same : α → β → Prop) (unique : ∀ a b c, Same a b → Same a c → b = c)
    (back : ∀ a b c, Same a c → Same b c → a = b)
    (forth : ∀ x y, R x y → ∃ a b, Same x a ∧ Same y b ∧ Q a b)
    (return_ : ∀ a b, Q a b → ∃ x y, Same x a ∧ Same y b ∧ R x y) (first : Same x a) (second : Same y b) :
    EqvGen R x y ↔ EqvGen Q a b := by
  refine ⟨carry_to Same unique forth first second,?_⟩
  exact carry_to (fun a x => Same x a) (fun c a b left right => back a b c left right) return_ first second

end Classes
