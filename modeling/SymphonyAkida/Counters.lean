import SymphonyAkida.BatchClient

namespace SymphonyAkida.BatchClient
open Json

def counts (same : Value → Value → Bool) (names : List Value) : Counter :=
  names.foldl (fun hist name => hist.increment same name) []

section
variable {same : Value → Value → Bool} (texts : ∀ a b : String, same (.str a) (.str b) = (a == b))

-- hist[name], of a dict whose keys are texts
def countOf (same : Value → Value → Bool) (hist : Counter) (name : String) : Option Nat :=
  (hist.find? fun entry => same entry.1 (.str name)).map Prod.snd

def Texts (hist : Counter) : Prop := ∀ entry ∈ hist, ∃ text : String, entry.1 = .str text

theorem texts_increment {hist : Counter} (keyed : Texts hist) (name : String) : Texts (hist.increment same (.str name)) := by
  induction hist with
  | nil =>
    intro entry member
    rw [Counter.increment,List.mem_singleton] at member
    exact ⟨name,congrArg Prod.fst member⟩
  | cons first rest ih =>
    obtain ⟨key,n⟩ := first
    have later : Texts rest := fun entry member => keyed entry (List.mem_cons_of_mem _ member)
    obtain ⟨text,own⟩ := keyed (key,n) List.mem_cons_self
    intro entry member
    unfold Counter.increment at member
    split at member
    · rcases List.mem_cons.mp member with rfl | old
      · exact ⟨text,own⟩
      · exact later entry old
    · rcases List.mem_cons.mp member with rfl | old
      · exact ⟨text,own⟩
      · exact ih later entry old

include texts

theorem countOf_increment {hist : Counter} (keyed : Texts hist) (added name : String) :
    countOf same (hist.increment same (.str added)) name =
      if added = name then some ((countOf same hist name).getD 0+1) else countOf same hist name := by
  induction hist with
  | nil =>
    unfold Counter.increment countOf
    rw [List.find?_cons,texts]
    by_cases here : added = name
    · simp [here]
    · simp [here,beq_false_of_ne here]
  | cons first rest ih =>
    obtain ⟨key,n⟩ := first
    obtain ⟨text,own⟩ := keyed (key,n) List.mem_cons_self
    cases own
    have later := ih fun entry member => keyed entry (List.mem_cons_of_mem _ member)
    unfold countOf at later ⊢
    unfold Counter.increment
    rw [texts]
    by_cases held : text = added
    · subst held
      rw [beq_self_eq_true,if_pos rfl,List.find?_cons,List.find?_cons,texts]
      by_cases here : text = name
      · simp [here]
      · simp [here,beq_false_of_ne here]
    · rw [beq_false_of_ne held,if_neg (by simp),List.find?_cons,List.find?_cons,texts]
      by_cases here : text = name
      · have apart : added ≠ name := fun equal => held (here.trans equal.symm)
        simp [here,apart]
      · simp only [beq_false_of_ne here]
        exact later

theorem counts_texts (names : List String) (name : String) :
    countOf same (counts same (names.map .str)) name = if name ∈ names then some (names.count name) else none := by
  have both : Texts (counts same (names.map .str)) ∧
      countOf same (counts same (names.map .str)) name = if name ∈ names then some (names.count name) else none := by
    induction names using List.reverseRecOn with
    | nil => exact ⟨by simp [Texts,counts],rfl⟩
    | append_singleton names added ih =>
      obtain ⟨keyed,counted⟩ := ih
      have last : counts same ((names ++ [added]).map .str) = (counts same (names.map .str)).increment same (.str added) := by
        unfold counts
        rw [List.map_append,List.foldl_append]
        rfl
      rw [last,countOf_increment texts keyed,counted]
      refine ⟨texts_increment keyed added,?_⟩
      by_cases here : added = name
      · subst here
        by_cases before : added ∈ names
        · simp [before]
        · simp [before,List.count_eq_zero_of_not_mem before]
      · have apart : name ≠ added := fun equal => here equal.symm
        simp [here,apart,List.count_append]
  exact both.2

end

theorem counts_total (same : Value → Value → Bool) (names : List Value) : (counts same names).total = names.length := by
  induction names using List.reverseRecOn with
  | nil => rfl
  | append_singleton names name ih =>
    unfold counts at ih ⊢
    rw [List.foldl_append,List.foldl_cons,List.foldl_nil,Counter.total_increment,ih,List.length_append]
    rfl

end SymphonyAkida.BatchClient
