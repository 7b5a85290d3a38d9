import Mathlib.Logic.Basic

namespace Runs
variable {State Action : Type}

-- Histories of a partial step function. `admits` is what the environment may
-- do; a weaker environment only removes histories, it never adds a step.
inductive Reached (step : State → Action → Option State) (admits : State → Action → Prop)
    (start : State) : State → Prop where
  | refl : Reached step admits start start
  | step : Reached step admits start s → admits s action → step s action = some next →
      Reached step admits start next

variable {step : State → Action → Option State} {admits allows : State → Action → Prop}

theorem Reached.trans (left : Reached step admits a b) (right : Reached step admits b c) :
    Reached step admits a c := by
  induction right with
  | refl => exact left
  | step _ admitted taken ih => exact .step ih admitted taken

theorem Reached.weaken (path : Reached step admits start s)
    (weaker : ∀ s action, admits s action → allows s action) : Reached step allows start s := by
  induction path with
  | refl => exact .refl
  | step _ admitted taken ih => exact .step ih (weaker _ _ admitted) taken

-- The induction rule: what holds initially and survives every admitted step
-- holds in every state reached.
theorem Reached.invariant (path : Reached step admits start s) (inv : State → Prop)
    (initial : inv start)
    (preserved : ∀ s action next, inv s → admits s action → step s action = some next → inv next) :
    inv s := by
  induction path with
  | refl => exact initial
  | step _ admitted taken ih => exact preserved _ _ _ ih admitted taken

theorem Reached.invariant_along (path : Reached step admits start s) (inv : State → Prop)
    (initial : inv start)
    (preserved : ∀ s action next, Reached step admits start s → inv s → admits s action →
      step s action = some next → inv next) : inv s := by
  induction path with
  | refl => exact initial
  | step prior admitted taken ih => exact preserved _ _ _ prior ih admitted taken

def run (step : State → Action → Option State) : State → List Action → Option State
  | s,[] => some s
  | s,action :: rest => (step s action).bind (run step · rest)

-- A schedule that stops at the first action its checker refuses.
def guarded (check : State → Action → Bool) (step : State → Action → Option State) (s : State)
    (action : Action) : Option State :=
  if check s action then step s action else none

theorem run_reached {check : State → Action → Bool}
    (ran : run (guarded check step) start actions = some s)
    (admitted : ∀ action ∈ actions, ∀ s, check s action = true → admits s action) :
    Reached step admits start s := by
  induction actions generalizing start with
  | nil => cases Option.some.inj ran; exact .refl
  | cons action rest ih =>
    cases taken : guarded check step start action with
    | none => simp [run,taken] at ran
    | some middle =>
      have later : run (guarded check step) middle rest = some s := by simpa [run,taken] using ran
      unfold guarded at taken
      split at taken
      · have first : Reached step admits start middle :=
          .step .refl (admitted _ (by simp) _ ‹_›) taken
        exact first.trans (ih later fun action member => admitted action (by simp [member]))
      · cases taken

theorem run_witness (step : State → Action → Option State) (admits : State → Action → Prop)
    (start : State) (check : State → Action → Bool) (holds : State → Bool) (actions : List Action)
    (ran : (run (guarded check step) start actions).map holds = some true)
    (admitted : ∀ action ∈ actions, ∀ s, check s action = true → admits s action) :
    ∃ s, Reached step admits start s ∧ holds s = true := by
  cases ended : run (guarded check step) start actions with
  | none => simp [ended] at ran
  | some s => exact ⟨s,run_reached ended admitted,by simpa [ended] using ran⟩

-- Threads that each have a list of things to do, in any order that keeps each
-- thread's own.
inductive Interleaved : List (List α) → List α → Prop where
  | done (idle : ∀ thread ∈ threads, thread = []) : Interleaved threads []
  | next (before after : List (List α)) (later : Interleaved (before ++ rest :: after) order) :
      Interleaved (before ++ (x :: rest) :: after) (x :: order)

theorem Interleaved.perm {threads : List (List α)} (run : Interleaved threads order) : order.Perm threads.flatten := by
  induction run with
  | done idle => rw [List.flatten_eq_nil_iff.mpr idle]
  | next before after _ ih =>
    rw [List.flatten_append,List.flatten_cons] at ih ⊢
    exact (ih.cons _).trans List.perm_middle.symm

end Runs
