import Mathlib.Data.List.Basic

-- Regular expressions with groups, matched by backtracking.
inductive Regex where
  | text (cs : List Char)
  | one (p : Char → Bool)
  | star (p : Char → Bool)
  | seq (r t : Regex)
  | opt (r : Regex)
  | group (n : Nat) (r : Regex)
  | eol

namespace Regex

structure Match where
  groups : List (Nat × List Char)
  rest : List Char

def Match.group (m : Match) (n : Nat) : Option (List Char) := m.groups.lookup n

-- What p* leaves, the longest run first.
def stars (p : Char → Bool) : List Char → List (List Char)
  | [] => [[]]
  | c :: cs => if p c then stars p cs ++ [c :: cs] else [c :: cs]

-- The ways to match a prefix, in the order they are tried.
def results : Regex → List Char → List Match
  | .text cs,s => if cs <+: s then [⟨[],s.drop cs.length⟩] else []
  | .one p,s =>
    match s with
    | [] => []
    | c :: cs => if p c then [⟨[],cs⟩] else []
  | .star p,s => (stars p s).map fun rest => ⟨[],rest⟩
  | .seq r t,s => (results r s).flatMap fun m => (results t m.rest).map fun m' => ⟨m.groups ++ m'.groups,m'.rest⟩
  | .opt r,s => results r s ++ [⟨[],s⟩]
  | .group n r,s => (results r s).map fun m => ⟨(n,s.take (s.length-m.rest.length)) :: m.groups,m.rest⟩
  -- $, which also holds before a last newline.
  | .eol,s => if s = [] ∨ s = ['\n'] then [⟨[],s⟩] else []

def plus (p : Char → Bool) : Regex := seq (one p) (star p)

def cat : List Regex → Regex
  | [] => text []
  | r :: rs => seq r (cat rs)

def matchStart (r : Regex) (s : List Char) : Option Match := (results r s).head?

def search (r : Regex) : List Char → Option Match
  | [] => matchStart r []
  | c :: cs => (matchStart r (c :: cs)).or (search r cs)

theorem mem_stars : rest ∈ stars p s ↔ ∃ taken, s = taken ++ rest ∧ ∀ c ∈ taken, p c = true := by
  induction s with
  | nil =>
    rw [stars,List.mem_singleton]
    constructor
    · intro empty
      exact ⟨[],empty.symm,by simp⟩
    · intro found
      obtain ⟨taken,split,_⟩ := found
      exact (List.append_eq_nil_iff.mp split.symm).2
  | cons c cs ih =>
    unfold stars
    constructor
    · intro member
      split at member
      · rename_i holds
        rcases List.mem_append.mp member with later | here
        · obtain ⟨taken,split,all⟩ := ih.mp later
          exact ⟨c :: taken,by rw [split]; rfl,by simpa [holds] using all⟩
        · exact ⟨[],(List.mem_singleton.mp here).symm,by simp⟩
      · exact ⟨[],(List.mem_singleton.mp member).symm,by simp⟩
    · intro found
      obtain ⟨taken,split,all⟩ := found
      cases taken with
      | nil =>
        rw [List.nil_append] at split
        rw [← split]
        split <;> simp
      | cons d taken =>
        obtain ⟨rfl,later⟩ := List.cons.inj split
        rw [if_pos (all c List.mem_cons_self)]
        exact List.mem_append_left _ (ih.mpr ⟨taken,later,fun d member => all d (List.mem_cons_of_mem _ member)⟩)

theorem results_text : results (text cs) s = if cs <+: s then [⟨[],s.drop cs.length⟩] else [] := rfl

theorem results_one : results (one p) (c :: cs) = if p c then [⟨[],cs⟩] else [] := rfl

theorem results_star : results (star p) s = (stars p s).map fun rest => ⟨[],rest⟩ := rfl

theorem results_seq : results (seq r t) s =
    (results r s).flatMap fun m => (results t m.rest).map fun m' => ⟨m.groups ++ m'.groups,m'.rest⟩ := rfl

theorem results_group : results (group n r) s =
    (results r s).map fun m => ⟨(n,s.take (s.length-m.rest.length)) :: m.groups,m.rest⟩ := rfl

theorem results_eol : results eol s = if s = [] ∨ s = ['\n'] then [⟨[],s⟩] else [] := rfl

theorem mem_text : m ∈ results (text cs) s ↔ m.groups = [] ∧ s = cs ++ m.rest := by
  obtain ⟨groups,rest⟩ := m
  rw [results_text]
  constructor
  · intro member
    split at member
    · rename_i front
      obtain ⟨after,rfl⟩ := front
      cases List.mem_singleton.mp member
      exact ⟨rfl,by simp⟩
    · cases member
  · intro found
    obtain ⟨rfl,rfl⟩ := found
    rw [if_pos (List.prefix_append _ _)]
    simp

theorem mem_one : m ∈ results (one p) s ↔ m.groups = [] ∧ ∃ c, s = c :: m.rest ∧ p c = true := by
  obtain ⟨groups,rest⟩ := m
  cases s with
  | nil => exact ⟨fun none => absurd none List.not_mem_nil,fun found => absurd found.2.choose_spec.1 (List.cons_ne_nil _ _).symm⟩
  | cons c cs =>
    rw [results_one]
    constructor
    · intro member
      split at member
      · rename_i holds
        cases List.mem_singleton.mp member
        exact ⟨rfl,c,rfl,holds⟩
      · cases member
    · intro found
      obtain ⟨rfl,d,same,holds⟩ := found
      obtain ⟨rfl,rfl⟩ := List.cons.inj same
      rw [if_pos holds]
      exact List.mem_singleton.mpr rfl

theorem mem_star :
    m ∈ results (star p) s ↔ m.groups = [] ∧ ∃ taken, s = taken ++ m.rest ∧ ∀ c ∈ taken, p c = true := by
  obtain ⟨groups,rest⟩ := m
  rw [results_star,List.mem_map]
  constructor
  · intro found
    obtain ⟨left,member,same⟩ := found
    cases same
    exact ⟨rfl,mem_stars.mp member⟩
  · intro found
    obtain ⟨rfl,found⟩ := found
    exact ⟨rest,mem_stars.mpr found,rfl⟩

theorem mem_seq : m ∈ results (seq r t) s ↔
    ∃ a ∈ results r s, ∃ b ∈ results t a.rest, m = ⟨a.groups ++ b.groups,b.rest⟩ := by
  rw [results_seq,List.mem_flatMap]
  simp only [List.mem_map,eq_comm]

theorem mem_eol : m ∈ results eol s ↔ m = ⟨[],s⟩ ∧ (s = [] ∨ s = ['\n']) := by
  rw [results_eol]
  split
  · rename_i holds
    rw [List.mem_singleton]
    exact (and_iff_left holds).symm
  · rename_i holds
    simp [holds]

theorem mem_plus :
    m ∈ results (plus p) s ↔ m.groups = [] ∧ ∃ taken, s = taken ++ m.rest ∧ taken ≠ [] ∧ ∀ c ∈ taken, p c = true := by
  obtain ⟨groups,rest⟩ := m
  unfold plus
  rw [mem_seq]
  constructor
  · intro found
    obtain ⟨a,first,b,more,same⟩ := found
    obtain ⟨none,c,rfl,holds⟩ := mem_one.mp first
    obtain ⟨none',taken,split,all⟩ := mem_star.mp more
    cases same
    refine ⟨by rw [none,none']; rfl,c :: taken,by rw [split]; rfl,by simp,?_⟩
    simpa [holds] using all
  · intro found
    obtain ⟨none,taken,split,filled,all⟩ := found
    cases taken with
    | nil => exact absurd rfl filled
    | cons c taken =>
      refine ⟨⟨[],taken ++ rest⟩,mem_one.mpr ⟨rfl,c,split,all c List.mem_cons_self⟩,⟨[],rest⟩,mem_star.mpr ⟨rfl,taken,rfl,?_⟩,?_⟩
      · intro d member
        exact all d (List.mem_cons_of_mem _ member)
      · rw [Match.mk.injEq]
        exact ⟨none,rfl⟩

theorem mem_group_plus : m ∈ results (group n (plus p)) s ↔
    ∃ taken, m.groups = [(n,taken)] ∧ s = taken ++ m.rest ∧ taken ≠ [] ∧ ∀ c ∈ taken, p c = true := by
  obtain ⟨groups,rest⟩ := m
  have took : ∀ taken : List Char, (taken ++ rest).take ((taken ++ rest).length-rest.length) = taken := by
    intro taken
    rw [List.length_append,Nat.add_sub_cancel_right,List.take_left]
  rw [results_group,List.mem_map]
  constructor
  · intro found
    obtain ⟨a,member,same⟩ := found
    obtain ⟨none,taken,rfl,filled,all⟩ := mem_plus.mp member
    obtain ⟨rfl,rfl⟩ := Match.mk.injEq .. ▸ same
    refine ⟨taken,?_,rfl,filled,all⟩
    dsimp only
    rw [took,none]
  · intro found
    obtain ⟨taken,held,rfl,filled,all⟩ := found
    refine ⟨⟨[],rest⟩,mem_plus.mpr ⟨rfl,taken,rfl,filled,all⟩,?_⟩
    rw [took]
    exact congrArg (Match.mk · rest) held.symm

theorem mem_text_seq : m ∈ results (seq (text cs) t) s ↔ ∃ rest, s = cs ++ rest ∧ m ∈ results t rest := by
  rw [mem_seq]
  constructor
  · intro found
    obtain ⟨a,first,b,more,rfl⟩ := found
    obtain ⟨none,split⟩ := mem_text.mp first
    rw [none]
    exact ⟨a.rest,split,more⟩
  · intro found
    obtain ⟨rest,split,more⟩ := found
    exact ⟨⟨[],rest⟩,mem_text.mpr ⟨rfl,split⟩,m,more,rfl⟩

theorem mem_plus_seq : m ∈ results (seq (plus p) t) s ↔
    ∃ taken rest, s = taken ++ rest ∧ (taken ≠ [] ∧ ∀ c ∈ taken, p c = true) ∧ m ∈ results t rest := by
  rw [mem_seq]
  constructor
  · intro found
    obtain ⟨a,first,b,more,rfl⟩ := found
    obtain ⟨none,taken,split,held⟩ := mem_plus.mp first
    rw [none]
    exact ⟨taken,a.rest,split,held,more⟩
  · intro found
    obtain ⟨taken,rest,split,held,more⟩ := found
    exact ⟨⟨[],rest⟩,mem_plus.mpr ⟨rfl,taken,split,held⟩,m,more,rfl⟩

theorem mem_group_seq : m ∈ results (seq (group n (plus p)) t) s ↔
    ∃ taken rest, s = taken ++ rest ∧ (taken ≠ [] ∧ ∀ c ∈ taken, p c = true) ∧
      ∃ inner ∈ results t rest, m = ⟨(n,taken) :: inner.groups,inner.rest⟩ := by
  rw [mem_seq]
  constructor
  · intro found
    obtain ⟨a,first,b,more,rfl⟩ := found
    obtain ⟨taken,held,split,holds⟩ := mem_group_plus.mp first
    rw [held]
    exact ⟨taken,a.rest,split,holds,b,more,rfl⟩
  · intro found
    obtain ⟨taken,rest,split,holds,inner,more,rfl⟩ := found
    exact ⟨⟨[(n,taken)],rest⟩,mem_group_plus.mpr ⟨taken,rfl,split,holds⟩,inner,more,rfl⟩

theorem mem_eol_end : m ∈ results (seq eol (text [])) s ↔ m = ⟨[],s⟩ ∧ (s = [] ∨ s = ['\n']) := by
  rw [mem_seq]
  constructor
  · intro found
    obtain ⟨a,first,b,more,rfl⟩ := found
    obtain ⟨rfl,ends⟩ := mem_eol.mp first
    obtain ⟨none,split⟩ := mem_text.mp more
    rw [none]
    exact ⟨congrArg _ split.symm,ends⟩
  · intro found
    obtain ⟨rfl,ends⟩ := found
    exact ⟨⟨[],s⟩,mem_eol.mpr ⟨rfl,ends⟩,⟨[],s⟩,mem_text.mpr ⟨rfl,rfl⟩,rfl⟩

end Regex
