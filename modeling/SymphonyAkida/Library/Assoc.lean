import Mathlib.Data.List.Nodup

namespace Assoc
variable [DecidableEq κ]

-- d[key] = f(d.get(key)): a new key comes last.
def alter (key : κ) (f : Option β → β) : List (κ × β) → List (κ × β)
  | [] => [(key,f none)]
  | (other,b) :: rest => if other = key then (other,f (some b)) :: rest else (other,b) :: alter key f rest

theorem mem_of_lookup {d : List (κ × β)} (found : d.lookup key = some b) : (key,b) ∈ d := by
  obtain ⟨before,after,rfl,_⟩ := List.lookup_eq_some_iff.mp found
  exact List.mem_append_right _ List.mem_cons_self

theorem fresh_of_lookup {d : List (κ × β)} (missing : d.lookup key = none) : ∀ entry ∈ d, entry.1 ≠ key := by
  intro entry member same
  have absent := List.lookup_eq_none_iff.mp missing entry member
  simp [same] at absent

theorem lookup_alter (key : κ) (f : Option β → β) (d : List (κ × β)) (k : κ) :
    (alter key f d).lookup k = if k = key then some (f (d.lookup k)) else d.lookup k := by
  induction d with
  | nil =>
    rw [alter,List.lookup_cons]
    by_cases here : k = key
    · rw [here,beq_self_eq_true,if_pos rfl]
      rfl
    · rw [beq_false_of_ne here,if_neg here]
  | cons entry rest ih =>
    obtain ⟨other,b⟩ := entry
    unfold alter
    by_cases same : other = key
    · subst same
      rw [if_pos rfl,List.lookup_cons,List.lookup_cons]
      by_cases here : k = other
      · rw [here,beq_self_eq_true,if_pos rfl]
      · rw [beq_false_of_ne here,if_neg here]
    · rw [if_neg same,List.lookup_cons,List.lookup_cons,ih]
      by_cases here : k = other
      · subst here
        simp only [beq_self_eq_true,if_neg same]
      · rw [beq_false_of_ne here]

theorem keys_alter (key : κ) (f : Option β → β) (d : List (κ × β)) :
    (alter key f d).map (·.1) = if key ∈ d.map (·.1) then d.map (·.1) else d.map (·.1) ++ [key] := by
  induction d with
  | nil => rfl
  | cons entry rest ih =>
    obtain ⟨other,b⟩ := entry
    unfold alter
    by_cases same : other = key
    · simp [same]
    · rw [if_neg same,List.map_cons,ih]
      by_cases inside : key ∈ rest.map (·.1)
      · have held : key ∈ ((other,b) :: rest).map (·.1) := List.mem_cons_of_mem _ inside
        rw [if_pos inside,if_pos held]
        rfl
      · have outside : key ∉ ((other,b) :: rest).map (·.1) := by
          rw [List.map_cons,List.mem_cons,not_or]
          exact ⟨Ne.symm same,inside⟩
        rw [if_neg inside,if_neg outside]
        rfl

theorem nodup_alter {d : List (κ × β)} (distinct : (d.map (·.1)).Nodup) (key : κ) (f : Option β → β) :
    ((alter key f d).map (·.1)).Nodup := by
  rw [keys_alter]
  split
  · exact distinct
  · rename_i fresh
    rw [List.nodup_append]
    refine ⟨distinct,List.nodup_singleton key,?_⟩
    intro a first b last same
    rw [List.mem_singleton.mp last] at same
    exact fresh (same ▸ first)

theorem mem_alter {d : List (κ × β)} (distinct : (d.map (·.1)).Nodup) (key : κ) (f : Option β → β) (entry : κ × β) :
    entry ∈ alter key f d ↔ (entry ∈ d ∧ entry.1 ≠ key) ∨ entry = (key,f (d.lookup key)) := by
  induction d with
  | nil => simp [alter]
  | cons first rest ih =>
    obtain ⟨other,b⟩ := first
    obtain ⟨fresh,distinct⟩ := List.nodup_cons.mp distinct
    unfold alter
    by_cases same : other = key
    · subst same
      have apart : ∀ entry ∈ rest, entry.1 ≠ other := fun entry member equal => fresh (List.mem_map.mpr ⟨entry,member,equal⟩)
      rw [if_pos rfl,List.lookup_cons,beq_self_eq_true,List.mem_cons,List.mem_cons]
      constructor
      · intro held
        rcases held with last | old
        · exact .inr last
        · exact .inl ⟨.inr old,apart entry old⟩
      · intro held
        rcases held with ⟨here | old,away⟩ | last
        · exact absurd (congrArg Prod.fst here) away
        · exact .inr old
        · exact .inl last
    · rw [if_neg same,List.lookup_cons,beq_false_of_ne (Ne.symm same),List.mem_cons,List.mem_cons,ih distinct]
      constructor
      · intro held
        rcases held with here | ⟨old,away⟩ | last
        · exact .inl ⟨.inl here,by rw [here]; exact same⟩
        · exact .inl ⟨.inr old,away⟩
        · exact .inr last
      · intro held
        rcases held with ⟨here | old,away⟩ | last
        · exact .inl here
        · exact .inr (.inl ⟨old,away⟩)
        · exact .inr (.inr last)

-- for key, b in d.items(): out[key] = f(b), where there is one.
def collect (f : β → Option γ) (d : List (κ × β)) (out : List (κ × γ)) : List (κ × γ) :=
  d.foldl (fun out entry => (f entry.2).elim out fun c => alter entry.1 (fun _ => c) out) out

theorem lookup_collect (f : β → Option γ) {d : List (κ × β)} (distinct : (d.map (·.1)).Nodup) (out : List (κ × γ)) (k : κ) :
    (collect f d out).lookup k = ((d.lookup k).bind f).or (out.lookup k) := by
  induction d generalizing out with
  | nil => rfl
  | cons entry rest ih =>
    obtain ⟨key,b⟩ := entry
    obtain ⟨fresh,distinct⟩ := List.nodup_cons.mp distinct
    have step : collect f ((key,b) :: rest) out = collect f rest ((f b).elim out fun c => alter key (fun _ => c) out) := rfl
    rw [step,ih distinct,List.lookup_cons]
    by_cases here : k = key
    · subst here
      have absent : rest.lookup k = none := by
        rw [List.lookup_eq_none_iff]
        intro entry member
        rw [bne_iff_ne]
        intro same
        exact fresh (List.mem_map.mpr ⟨entry,member,same.symm⟩)
      rw [absent,beq_self_eq_true,Option.bind_none,Option.none_or,Option.bind_some]
      cases f b with
      | none => rfl
      | some c => rw [Option.elim_some,lookup_alter,if_pos rfl,Option.some_or]
    · rw [beq_false_of_ne here]
      cases f b with
      | none => rfl
      | some c => rw [Option.elim_some,lookup_alter,if_neg here]

end Assoc
