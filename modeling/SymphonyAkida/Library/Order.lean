import Mathlib.Data.List.Sort
import Mathlib.Order.Bounds.Basic
import Mathlib.Order.MinMax

namespace Argsort

-- The stable order of the indices below n by increasing key: equal keys keep
-- their index order.
def before [LinearOrder κ] (key : Nat → κ) (i j : Nat) : Prop := key i < key j ∨ (key i = key j ∧ i ≤ j)

instance [LinearOrder κ] (key : Nat → κ) : DecidableRel (before key) := fun i j =>
  inferInstanceAs (Decidable (key i < key j ∨ (key i = key j ∧ i ≤ j)))

variable [LinearOrder κ]

instance (key : Nat → κ) : Std.Total (before key) where
  total i j := by
    rcases lt_trichotomy (key i) (key j) with less | same | more
    · exact .inl (.inl less)
    · rcases Nat.le_total i j with ord | ord
      · exact .inl (.inr ⟨same,ord⟩)
      · exact .inr (.inr ⟨same.symm,ord⟩)
    · exact .inr (.inl more)

instance (key : Nat → κ) : IsTrans Nat (before key) where
  trans i j k := by
    rintro (first | ⟨first,le⟩) (second | ⟨second,further⟩)
    · exact .inl (first.trans second)
    · exact .inl (second ▸ first)
    · exact .inl (first ▸ second)
    · exact .inr ⟨first.trans second,Nat.le_trans le further⟩

def argsort (key : Nat → κ) (n : Nat) : List Nat := (List.range n).insertionSort (before key)

theorem argsort_perm (key : Nat → κ) (n : Nat) : (argsort key n).Perm (List.range n) :=
  List.perm_insertionSort _ _

@[simp] theorem mem_argsort {key : Nat → κ} : i ∈ argsort key n ↔ i < n := by
  rw [(argsort_perm key n).mem_iff,List.mem_range]

theorem argsort_nodup (key : Nat → κ) (n : Nat) : (argsort key n).Nodup :=
  (argsort_perm key n).nodup_iff.mpr List.nodup_range

theorem argsort_sorted (key : Nat → κ) (n : Nat) : (argsort key n).Pairwise (before key) :=
  List.pairwise_insertionSort _ _

end Argsort

namespace Argmax

-- The first index of a largest entry: `best` is the largest so far, at `at_`.
def argmaxFrom [LinearOrder κ] (best : κ) (at_ i : Nat) : List κ → Nat
  | [] => at_
  | x :: rest => if best < x then argmaxFrom x i (i+1) rest else argmaxFrom best at_ (i+1) rest

def argmax [LinearOrder κ] : List κ → Option Nat
  | [] => none
  | x :: rest => some (argmaxFrom x 0 1 rest)

def largest [LinearOrder κ] : List κ → Option κ
  | [] => none
  | x :: rest => some (rest.foldl max x)

def least [LinearOrder κ] : List κ → Option κ
  | [] => none
  | x :: rest => some (rest.foldl min x)

variable [LinearOrder κ]

theorem foldl_max (xs : List κ) (x : κ) :
    (xs.foldl max x = x ∨ xs.foldl max x ∈ xs) ∧ x ≤ xs.foldl max x ∧ ∀ y ∈ xs, y ≤ xs.foldl max x := by
  induction xs generalizing x with
  | nil => exact ⟨.inl rfl,le_refl x,by simp⟩
  | cons y rest ih =>
    obtain ⟨found,above,all⟩ := ih (max x y)
    rw [List.foldl_cons]
    refine ⟨?_,le_trans (le_max_left x y) above,?_⟩
    · rcases found with same | later
      · rcases max_choice x y with left | right
        · exact .inl (same.trans left)
        · exact .inr (by rw [same,right]; exact List.mem_cons_self)
      · exact .inr (List.mem_cons_of_mem _ later)
    · intro z member
      rcases List.mem_cons.mp member with rfl | old
      · exact le_trans (le_max_right x z) above
      · exact all z old

theorem largest_spec {xs : List κ} (found : largest xs = some m) : m ∈ xs ∧ ∀ y ∈ xs, y ≤ m := by
  cases xs with
  | nil => cases found
  | cons x rest =>
    cases Option.some.inj found
    obtain ⟨place,above,all⟩ := foldl_max rest x
    refine ⟨List.mem_cons.mpr place,?_⟩
    intro y member
    rcases List.mem_cons.mp member with rfl | old
    · exact above
    · exact all y old

theorem least_spec {xs : List κ} (found : least xs = some m) : m ∈ xs ∧ ∀ y ∈ xs, m ≤ y :=
  @largest_spec κᵒᵈ _ m xs found

-- k is the first index at which xs is largest, with the value m.
structure FirstLargest (xs : List κ) (k : Nat) (m : κ) : Prop where
  here : xs[k]? = some m
  most : ∀ y ∈ xs, y ≤ m
  first : ∀ j < k, ∀ y, xs[j]? = some y → y < m

theorem argmaxFrom_spec {best : κ} (done rest : List κ) (here : done[at_]? = some best)
    (most : ∀ y ∈ done, y ≤ best) (first : ∀ j < at_, ∀ y, done[j]? = some y → y < best) :
    ∃ m, FirstLargest (done ++ rest) (argmaxFrom best at_ done.length rest) m := by
  induction rest generalizing done best at_ with
  | nil =>
    rw [List.append_nil]
    exact ⟨best,here,most,first⟩
  | cons x rest ih =>
    have split : done ++ x :: rest = (done ++ [x]) ++ rest := by simp
    have size : (done ++ [x]).length = done.length+1 := by simp
    have below : at_ < done.length := (List.getElem?_eq_some_iff.mp here).1
    rw [split]
    unfold argmaxFrom
    rw [← size]
    split
    · rename_i larger
      refine ih (done ++ [x]) (by simp) ?_ ?_
      · intro y member
        rcases List.mem_append.mp member with old | last
        · exact le_trans (most y old) (le_of_lt larger)
        · exact le_of_eq (List.mem_singleton.mp last)
      · intro j less y found
        rw [List.getElem?_append_left less] at found
        exact lt_of_le_of_lt (most y (List.mem_of_getElem? found)) larger
    · rename_i smaller
      refine ih (done ++ [x]) ?_ ?_ ?_
      · rw [List.getElem?_append_left below]; exact here
      · intro y member
        rcases List.mem_append.mp member with old | last
        · exact most y old
        · rw [List.mem_singleton.mp last]; exact not_lt.mp smaller
      · intro j less y found
        rw [List.getElem?_append_left (Nat.lt_trans less below)] at found
        exact first j less y found

theorem argmax_spec {xs : List κ} (found : argmax xs = some k) : ∃ m, FirstLargest xs k m := by
  cases xs with
  | nil => cases found
  | cons x rest =>
    cases Option.some.inj found
    refine argmaxFrom_spec [x] rest (by simp) (by simp) ?_
    intro j less
    exact absurd less (Nat.not_lt_zero j)

theorem FirstLargest.getD (first : FirstLargest xs k m) (default : κ) : xs.getD k default = m := by
  rw [List.getD_eq_getElem?_getD,first.here,Option.getD_some]

theorem FirstLargest.maxima {members : Set ι} {f : ι → List κ} {out : List κ} {default : κ}
    (width : ∀ m ∈ members, (f m).length = out.length) (each : ∀ m ∈ members, ∃ v, FirstLargest (f m) k v)
    (below : k < out.length)
    (maxima : ∀ c < out.length, IsGreatest ((fun m => (f m).getD c default) '' members) (out.getD c default)) :
    FirstLargest out k (out.getD k default) := by
  have at_ : ∀ c < out.length, ∃ m ∈ members, ∃ v, (f m)[c]? = some (out.getD c default) ∧ FirstLargest (f m) k v ∧
      v ≤ out.getD k default := by
    intro c inside
    obtain ⟨m,member,same⟩ := (maxima c inside).1
    obtain ⟨v,first⟩ := each m member
    refine ⟨m,member,v,?_,first,?_⟩
    · have within : c < (f m).length := by rw [width m member]; exact inside
      rw [← same]
      simp [within]
    · rw [← first.getD default]
      exact (maxima k below).2 ⟨m,member,rfl⟩
  refine ⟨by simp [below],?_,?_⟩
  · intro y held
    obtain ⟨c,inside,rfl⟩ := List.getElem_of_mem held
    obtain ⟨m,_,v,column,first,reaches⟩ := at_ c inside
    rw [List.getD_eq_getElem?_getD,List.getElem?_eq_getElem inside,Option.getD_some] at column
    exact le_trans (first.most _ (List.mem_of_getElem? column)) reaches
  · intro c less y held
    have inside := Nat.lt_trans less below
    obtain ⟨m,_,v,column,first,reaches⟩ := at_ c inside
    rw [List.getD_eq_getElem?_getD,held,Option.getD_some] at column
    exact lt_of_lt_of_le (first.first c less y column) reaches

end Argmax

namespace Stable
variable [LinearOrder κ] {key : α → κ}

theorem pair_before {list : List α} (first : a ∈ list) (second : b ∈ list) (apart : a ≠ b) :
    List.Sublist [a,b] list ∨ List.Sublist [b,a] list := by
  obtain ⟨before,after,rfl⟩ := List.append_of_mem first
  rcases List.mem_append.mp second with early | late
  · exact .inr ((List.singleton_sublist.mpr early).append (List.singleton_sublist.mpr List.mem_cons_self))
  · rcases List.mem_cons.mp late with same | late
    · exact absurd same.symm apart
    · exact .inl (((List.singleton_sublist.mpr late).cons_cons a).trans (List.sublist_append_right _ _))

theorem pair_once {list : List α} (distinct : list.Nodup) (left : List.Sublist [a,b] list) : ¬List.Sublist [b,a] list := by
  induction list with
  | nil => cases left
  | cons x rest ih =>
    obtain ⟨fresh,distinct⟩ := List.nodup_cons.mp distinct
    intro right
    cases left with
    | cons _ left =>
      cases right with
      | cons _ right => exact ih distinct left right
      | cons_cons _ right => exact fresh (left.subset (by simp))
    | cons_cons _ left =>
      cases right with
      | cons _ right => exact fresh (right.subset (by simp))
      | cons_cons _ right => exact fresh (left.subset (by simp))

theorem find_rest {list : List α} {p : α → Bool} (found : list.find? p = some d) :
    ∃ before after, list = before ++ d :: after ∧ p d = true ∧ ∀ e ∈ list, p e = true → e = d ∨ e ∈ after := by
  obtain ⟨holds,before,after,split,none⟩ := List.find?_eq_some_iff_append.mp found
  refine ⟨before,after,split,holds,fun e inside chosen => ?_⟩
  rw [split] at inside
  rcases List.mem_append.mp inside with early | late
  · have barred := none e early
    rw [chosen] at barred
    cases barred
  · exact List.mem_cons.mp late

-- The first of a stable sort that meets p is a least one, and of those with its
-- key the one that came first.
theorem find_spec {list : List α} {p : α → Bool} (distinct : list.Nodup)
    (found : (list.insertionSort fun a b => key a ≤ key b).find? p = some d) :
    d ∈ list ∧ p d = true ∧ ∀ e ∈ list, p e = true → e ≠ d → key d < key e ∨ (key d = key e ∧ List.Sublist [d,e] list) := by
  have perm := List.perm_insertionSort (fun a b => key a ≤ key b) list
  have sorted : (list.insertionSort fun a b => key a ≤ key b).Pairwise fun a b => key a ≤ key b :=
    @List.pairwise_insertionSort _ _ _ ⟨fun a b => le_total (key a) (key b)⟩ ⟨fun _ _ _ => le_trans⟩ list
  have whole := perm.nodup_iff.mpr distinct
  obtain ⟨before,after,split,holds,others⟩ := find_rest found
  have member : d ∈ list := perm.subset (by rw [split]; simp)
  refine ⟨member,holds,fun e inside chosen apart => ?_⟩
  have later : e ∈ after := (others e (perm.symm.subset inside) chosen).resolve_left apart
  rw [split] at sorted whole
  have least := (List.pairwise_cons.mp (List.pairwise_append.mp sorted).2.1).1 e later
  rcases lt_or_eq_of_le least with less | same
  · exact .inl less
  · refine .inr ⟨same,(pair_before member inside (Ne.symm apart)).resolve_right fun backwards => ?_⟩
    have kept := List.pair_sublist_insertionSort (r := fun a b => key a ≤ key b) (le_of_eq same.symm) backwards
    rw [split] at kept
    exact pair_once whole (((List.singleton_sublist.mpr later).cons_cons d).trans (List.sublist_append_right _ _)) kept

end Stable

namespace Lexicographic
variable [LinearOrder α]

theorem append_lt_iff {a b : List α} (less : a < b) (x : List α) :
    b ++ x < a ++ x ↔ ∃ r, r ≠ [] ∧ b = a ++ r ∧ r ++ x < x := by
  induction a generalizing b with
  | nil =>
    have filled : b ≠ [] := by
      intro empty
      rw [empty] at less
      exact List.not_lt_nil _ less
    constructor
    · intro below
      exact ⟨b,filled,rfl,below⟩
    · intro found
      obtain ⟨r,_,rfl,below⟩ := found
      exact below
  | cons c a ih =>
    cases b with
    | nil => exact absurd less (List.not_lt_nil _)
    | cons d b =>
      rw [List.cons_append,List.cons_append,List.cons_lt_cons_iff]
      rcases List.cons_lt_cons_iff.mp less with first | ⟨rfl,rest⟩
      · constructor
        · intro below
          rcases below with back | ⟨same,_⟩
          · exact absurd first (lt_asymm back)
          · exact absurd first (same ▸ lt_irrefl _)
        · intro found
          obtain ⟨r,_,same,_⟩ := found
          exact absurd first ((List.cons.inj same).1 ▸ lt_irrefl _)
      · constructor
        · intro below
          obtain ⟨r,filled,same,short⟩ := (ih rest).mp ((below.resolve_left (lt_irrefl c)).2)
          exact ⟨r,filled,by rw [same]; rfl,short⟩
        · intro found
          obtain ⟨r,filled,same,short⟩ := found
          exact .inr ⟨rfl,(ih rest).mpr ⟨r,filled,(List.cons.inj same).2,short⟩⟩

end Lexicographic
