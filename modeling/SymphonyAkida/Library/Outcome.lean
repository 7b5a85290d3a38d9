import Mathlib.Data.List.Forall2

namespace Outcome

@[simp] theorem ok_bind (a : α) (f : α → Except ε β) : (Except.ok a >>= f) = f a := rfl

theorem bind_ok {x : Except ε α} {f : α → Except ε β} (ran : x >>= f = .ok out) :
    ∃ a, x = .ok a ∧ f a = .ok out := by
  cases x with
  | error e => cases ran
  | ok a => exact ⟨a,rfl,ran⟩

theorem map_ok {x : Except ε α} {f : α → β} (ran : x.map f = .ok out) : ∃ a, x = .ok a ∧ f a = out := by
  cases x with
  | error e => cases ran
  | ok a => cases ran; exact ⟨a,rfl,rfl⟩

theorem bind_congr_map {x : Except ε α} {f : α → Except ε γ} {g : α → Except ε β} {h : β → γ}
    (same : ∀ a, f a = (g a).map h) : (x >>= f) = (x >>= g).map h := by
  cases x with
  | error e => rfl
  | ok a => exact same a

theorem map_bind (x : Except ε α) (k : α → β) (f : β → Except ε γ) : (x.map k >>= f) = x >>= fun a => f (k a) := by
  cases x with
  | error e => rfl
  | ok a => rfl

theorem toOption_ok {x : Except ε α} (found : x.toOption = some a) : x = .ok a := by
  cases x with
  | error e => cases found
  | ok b => cases found; rfl

theorem mapM_ok {f : α → Except ε β} {xs : List α} {ys : List β} :
    xs.mapM f = .ok ys ↔ List.Forall₂ (fun x y => f x = .ok y) xs ys := by
  induction xs generalizing ys with
  | nil =>
    rw [List.mapM_nil,List.forall₂_nil_left_iff]
    constructor
    · intro ran; cases ran; rfl
    · rintro rfl; rfl
  | cons x xs ih =>
    rw [List.mapM_cons,List.forall₂_cons_left_iff]
    constructor
    · intro ran
      obtain ⟨y,first,ran⟩ := bind_ok ran
      obtain ⟨rest,later,ran⟩ := bind_ok ran
      cases ran
      exact ⟨y,rest,first,ih.mp later,rfl⟩
    · intro given
      obtain ⟨y,rest,first,later,rfl⟩ := given
      rw [first,ok_bind,ih.mpr later]
      rfl

theorem mapM_mem {f : α → Except ε β} {xs : List α} {ys : List β} (ran : xs.mapM f = .ok ys) (member : y ∈ ys) :
    ∃ x ∈ xs, f x = .ok y := by
  obtain ⟨i,below,rfl⟩ := List.getElem_of_mem member
  have paired := mapM_ok.mp ran
  have left : i < xs.length := paired.length_eq ▸ below
  exact ⟨xs[i],List.getElem_mem left,paired.get left below⟩

theorem mapM_each {f : α → Except ε β} {xs : List α} {ys : List β} (ran : xs.mapM f = .ok ys) (member : x ∈ xs) :
    ∃ y ∈ ys, f x = .ok y := by
  obtain ⟨i,below,rfl⟩ := List.getElem_of_mem member
  have paired := mapM_ok.mp ran
  have right : i < ys.length := paired.length_eq ▸ below
  exact ⟨ys[i],List.getElem_mem right,paired.get below right⟩

theorem mapM_related {f : α → Except ε β} {xs : List α} {ys : List β} {rel : α → β → Prop} (ran : xs.mapM f = .ok ys)
    (each : ∀ x ∈ xs, ∀ y, f x = .ok y → rel x y) : List.Forall₂ rel xs ys := by
  have paired := mapM_ok.mp ran
  refine List.forall₂_iff_get.mpr ⟨paired.length_eq,fun i left right => ?_⟩
  exact each _ (List.get_mem xs ⟨i,left⟩) _ (paired.get left right)

theorem mapM_total {f : α → Except ε β} {xs : List α} (each : ∀ x ∈ xs, ∃ y, f x = .ok y) : ∃ ys, xs.mapM f = .ok ys := by
  induction xs with
  | nil => exact ⟨[],rfl⟩
  | cons x xs ih =>
    obtain ⟨y,first⟩ := each x List.mem_cons_self
    obtain ⟨ys,later⟩ := ih fun other member => each other (List.mem_cons_of_mem _ member)
    exact ⟨y :: ys,by rw [List.mapM_cons,first,ok_bind,later]; rfl⟩

theorem mapM_mapM {f : α → Except ε β} {g : β → Except ε γ} {xs : List α} {zs : List γ} :
    (xs.mapM f >>= fun ys => ys.mapM g) = .ok zs ↔ xs.mapM (fun x => f x >>= g) = .ok zs := by
  rw [mapM_ok]
  constructor
  · intro ran
    obtain ⟨ys,first,second⟩ := bind_ok ran
    rw [mapM_ok] at first second
    clear ran
    induction first generalizing zs with
    | nil => cases second; exact .nil
    | cons head _ ih =>
      cases second with
      | cons next later => exact .cons (by rw [head,ok_bind]; exact next) (ih later)
  · intro paired
    induction paired with
    | nil => rfl
    | cons head _ ih =>
      obtain ⟨y,first,next⟩ := bind_ok head
      obtain ⟨ys,before,after⟩ := bind_ok ih
      rw [List.mapM_cons,first,ok_bind,before,ok_bind]
      show (y :: ys).mapM g = _
      rw [List.mapM_cons,next,ok_bind,after]
      rfl

end Outcome
