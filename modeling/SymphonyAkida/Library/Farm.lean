import SymphonyAkida.Library.Runs
import Mathlib.Algebra.GroupWithZero.Nat
import Mathlib.Data.Multiset.AddSub
import Mathlib.Logic.Function.Basic

-- Threads submit tasks, a manager hands each to one of its instances, which may
-- end with it in hand, and the outputs are fetched in any order.
namespace Farm
variable {Id State Task Out : Type}

-- What an instance does. `start` is none where it does not come up, `serve`
-- where it never answers.
structure Service (Id State Task Out : Type) where
  start : Id → Option State
  serve : Id → State → Task → Option (State × Out)
  harm : Id → State → State
  failed : Out

-- Tasks in hand are in `running`, each with its instance.
structure Sys (Id State Task Out : Type) where
  unsent : List (List Task)
  pending : List Task := []
  up : Id → Option State := fun _ => none
  running : List (Id × Task) := []
  outs : List (Task × Out) := []
  fetched : List (Task × Out) := []

-- Tasks and outputs are named by their place. An instance that dies leaves its
-- task to be done again, or failed.
inductive Action (Id : Type) where
  | send (thread : Nat)
  | create (who : Id)
  | take (place : Nat) (who : Id)
  | serve (place : Nat)
  | giveUp (place : Nat)
  | stop (who : Id)
  | die (place : Nat) (again : Bool)
  | harm (who : Id)
  | fetch (place : Nat)

section
variable [DecidableEq Id] (service : Service Id State Task Out)

def Sys.busy (s : Sys Id State Task Out) (who : Id) : Bool := s.running.any fun job => job.1 = who

def Sys.step (s : Sys Id State Task Out) : Action Id → Option (Sys Id State Task Out)
  | .send thread =>
    match s.unsent[thread]? with
    | some (task :: rest) => some {s with unsent := s.unsent.set thread rest,pending := s.pending ++ [task]}
    | _ => none
  | .create who =>
    match s.up who,service.start who with
    | none,some state => some {s with up := Function.update s.up who (some state)}
    | _,_ => none
  | .take place who =>
    match s.pending[place]?,s.up who with
    | some task,some _ =>
      if s.busy who then none
      else some {s with pending := s.pending.eraseIdx place,running := s.running ++ [(who,task)]}
    | _,_ => none
  | .serve place =>
    s.running[place]?.bind fun job => (s.up job.1).bind fun state => (service.serve job.1 state job.2).map fun (state,out) =>
      {s with up := Function.update s.up job.1 (some state)
              running := s.running.eraseIdx place
              outs := s.outs ++ [(job.2,out)]}
  | .giveUp place =>
    s.pending[place]?.map fun task => {s with pending := s.pending.eraseIdx place,outs := s.outs ++ [(task,service.failed)]}
  | .stop who => if s.busy who || (s.up who).isNone then none else some {s with up := Function.update s.up who none}
  | .die place again =>
    s.running[place]?.map fun job =>
      let s := {s with up := Function.update s.up job.1 none,running := s.running.eraseIdx place}
      if again then {s with pending := s.pending ++ [job.2]} else {s with outs := s.outs ++ [(job.2,service.failed)]}
  | .harm who => (s.up who).map fun state => {s with up := Function.update s.up who (some (service.harm who state))}
  | .fetch place => s.outs[place]?.map fun out => {s with outs := s.outs.eraseIdx place,fetched := s.fetched ++ [out]}

inductive Step (s : Sys Id State Task Out) : Action Id → Sys Id State Task Out → Prop where
  | send (found : s.unsent[thread]? = some (task :: rest)) :
      Step s (.send thread) {s with unsent := s.unsent.set thread rest,pending := s.pending ++ [task]}
  | create (absent : s.up who = none) (starts : service.start who = some state) :
      Step s (.create who) {s with up := Function.update s.up who (some state)}
  | take (found : s.pending[place]? = some task) (present : s.up who = some state) (idle : ∀ job ∈ s.running, job.1 ≠ who) :
      Step s (.take place who) {s with pending := s.pending.eraseIdx place,running := s.running ++ [(who,task)]}
  | serve (found : s.running[place]? = some (who,task)) (present : s.up who = some state)
      (served : service.serve who state task = some (later,out)) :
      Step s (.serve place) {s with up := Function.update s.up who (some later)
                                    running := s.running.eraseIdx place
                                    outs := s.outs ++ [(task,out)]}
  | giveUp (found : s.pending[place]? = some task) :
      Step s (.giveUp place) {s with pending := s.pending.eraseIdx place,outs := s.outs ++ [(task,service.failed)]}
  | stop (idle : ∀ job ∈ s.running, job.1 ≠ who) : Step s (.stop who) {s with up := Function.update s.up who none}
  | again (found : s.running[place]? = some (who,task)) :
      Step s (.die place true) {s with up := Function.update s.up who none
                                       running := s.running.eraseIdx place
                                       pending := s.pending ++ [task]}
  | lost (found : s.running[place]? = some (who,task)) :
      Step s (.die place false) {s with up := Function.update s.up who none
                                        running := s.running.eraseIdx place
                                        outs := s.outs ++ [(task,service.failed)]}
  | harm (present : s.up who = some state) :
      Step s (.harm who) {s with up := Function.update s.up who (some (service.harm who state))}
  | fetch {out : Task × Out} (found : s.outs[place]? = some out) :
      Step s (.fetch place) {s with outs := s.outs.eraseIdx place,fetched := s.fetched ++ [out]}

variable {service} {s next : Sys Id State Task Out}

theorem idle_of (idle : ¬s.busy who = true) : ∀ job ∈ s.running, job.1 ≠ who := by
  intro job member same
  exact idle (List.any_eq_true.mpr ⟨job,member,decide_eq_true same⟩)

theorem step_cases {action : Action Id} (taken : s.step service action = some next) : Step service s action next := by
  cases action with
  | send thread =>
    simp only [Sys.step] at taken
    split at taken
    · rename_i found
      cases taken
      exact .send found
    · cases taken
  | create who =>
    simp only [Sys.step] at taken
    split at taken
    · rename_i absent starts
      cases taken
      exact .create absent starts
    · cases taken
  | take place who =>
    simp only [Sys.step] at taken
    split at taken
    · rename_i found present
      split at taken
      · cases taken
      · rename_i idle
        cases taken
        exact .take found present (idle_of idle)
    · cases taken
  | serve place =>
    simp only [Sys.step,Option.bind_eq_some_iff,Option.map_eq_some_iff] at taken
    obtain ⟨⟨who,task⟩,found,state,present,⟨later,out⟩,served,rfl⟩ := taken
    exact .serve found present served
  | giveUp place =>
    simp only [Sys.step,Option.map_eq_some_iff] at taken
    obtain ⟨task,found,rfl⟩ := taken
    exact .giveUp found
  | stop who =>
    simp only [Sys.step] at taken
    split at taken
    · cases taken
    · rename_i idle
      cases taken
      exact .stop (idle_of fun busy => idle (by rw [busy]; rfl))
  | die place again =>
    simp only [Sys.step,Option.map_eq_some_iff] at taken
    obtain ⟨⟨who,task⟩,found,rfl⟩ := taken
    cases again with
    | true => exact .again found
    | false => exact .lost found
  | harm who =>
    simp only [Sys.step,Option.map_eq_some_iff] at taken
    obtain ⟨state,present,rfl⟩ := taken
    exact .harm present
  | fetch place =>
    simp only [Sys.step,Option.map_eq_some_iff] at taken
    obtain ⟨out,found,rfl⟩ := taken
    exact .fetch found

end

section
variable {s next : Sys Id State Task Out}

-- Every task, wherever it is.
def Sys.tasks (s : Sys Id State Task Out) : Multiset Task :=
  s.unsent.flatten + s.pending + s.running.map Prod.snd + s.outs.map Prod.fst + s.fetched.map Prod.fst

theorem coe_erase {l : List α} (found : l[i]? = some a) : (l : Multiset α) = a ::ₘ (l.eraseIdx i : Multiset α) := by
  obtain ⟨below,rfl⟩ := List.getElem?_eq_some_iff.mp found
  exact Multiset.coe_eq_coe.mpr (List.getElem_cons_eraseIdx_perm below).symm

theorem coe_snoc (l : List α) (a : α) : ((l ++ [a] : List α) : Multiset α) = a ::ₘ (l : Multiset α) :=
  Multiset.coe_eq_coe.mpr (List.perm_append_singleton a l)

theorem coe_sent {l : List (List α)} (found : l[i]? = some (a :: rest)) :
    (l.flatten : Multiset α) = a ::ₘ ((l.set i rest).flatten : Multiset α) := by
  refine Multiset.coe_eq_coe.mpr ?_
  induction l generalizing i with
  | nil => cases found
  | cons first others ih =>
    cases i with
    | zero =>
      cases Option.some.inj found
      exact .refl _
    | succ i =>
      have later := (ih found).append_left first
      exact later.trans List.perm_middle

theorem coe_map_erase {f : α → β} {l : List α} (found : l[i]? = some a) :
    (l.map f : Multiset β) = f a ::ₘ ((l.eraseIdx i).map f : Multiset β) := by
  have mapped : (l.map f)[i]? = some (f a) := by rw [List.getElem?_map,found]; rfl
  rw [coe_erase mapped,List.eraseIdx_map]

theorem coe_map_snoc (f : α → β) (l : List α) (a : α) :
    ((l ++ [a]).map f : Multiset β) = f a ::ₘ (l.map f : Multiset β) := by
  rw [List.map_append]
  exact coe_snoc _ _

variable [DecidableEq Id] {service : Service Id State Task Out} {action : Action Id}

theorem step_tasks (step : Step service s action next) : next.tasks = s.tasks := by
  unfold Sys.tasks
  cases step with
  | send found => simp only [coe_sent found,coe_snoc,Multiset.cons_add,Multiset.add_cons]
  | create absent starts => rfl
  | take found present idle => simp only [coe_erase found,coe_map_snoc,Multiset.cons_add,Multiset.add_cons]
  | serve found present served => simp only [coe_map_erase found,coe_map_snoc,Multiset.cons_add,Multiset.add_cons]
  | giveUp found => simp only [coe_erase found,coe_map_snoc,Multiset.cons_add,Multiset.add_cons]
  | stop idle => rfl
  | again found => simp only [coe_map_erase found,coe_snoc,Multiset.cons_add,Multiset.add_cons]
  | lost found => simp only [coe_map_erase found,coe_map_snoc,Multiset.cons_add,Multiset.add_cons]
  | harm present => rfl
  | fetch found => simp only [coe_map_erase found,coe_map_snoc,Multiset.cons_add,Multiset.add_cons]

end

theorem running_task {s : Sys Id State Task Out} {place : Nat} (found : s.running[place]? = some (who,task)) : task ∈ s.tasks := by
  have member : task ∈ s.running.map Prod.snd := List.mem_map.mpr ⟨_,List.mem_of_getElem? found,rfl⟩
  simp [Sys.tasks,member]

theorem pending_task {s : Sys Id State Task Out} {place : Nat} (found : s.pending[place]? = some task) : task ∈ s.tasks := by
  simp [Sys.tasks,List.mem_of_getElem? found]

structure Placed (s : Sys Id State Task Out) : Prop where
  up : ∀ job ∈ s.running, s.up job.1 ≠ none
  own : (s.running.map Prod.fst).Nodup

-- What the instances keep between tasks, and what they say of a task.
structure Promise [DecidableEq Id] (service : Service Id State Task Out) (admits : Action Id → Prop) (all : Task → Prop)
    (holds : Id → State → Prop) (right : Task → Out → Prop) : Prop where
  start : ∀ who state, service.start who = some state → holds who state
  serve : ∀ who state task later out, holds who state → all task → service.serve who state task = some (later,out) →
    holds who later ∧ right task out
  harm : ∀ who state, admits (.harm who) → holds who state → holds who (service.harm who state)
  giveUp : ∀ place task, admits (.giveUp place) → all task → right task service.failed
  die : ∀ place task, admits (.die place false) → all task → right task service.failed

structure Kept (holds : Id → State → Prop) (right : Task → Out → Prop) (s : Sys Id State Task Out) : Prop where
  up : ∀ who state, s.up who = some state → holds who state
  outs : ∀ out ∈ s.outs, right out.1 out.2
  fetched : ∀ out ∈ s.fetched, right out.1 out.2

section
variable [DecidableEq Id] {service : Service Id State Task Out} {admits : Action Id → Prop} {s next : Sys Id State Task Out}
  {all : Task → Prop} {holds : Id → State → Prop} {right : Task → Out → Prop}

theorem erase_subset {l : List α} (member : a ∈ l.eraseIdx i) : a ∈ l := List.mem_of_mem_eraseIdx member

theorem up_updated {up : Id → Option State} (before : ∀ other state, up other = some state → holds other state)
    (here : ∀ state, value = some state → holds who state) :
    ∀ other state, Function.update up who value other = some state → holds other state := by
  intro other state found
  by_cases same : other = who
  · subst same
    rw [Function.update_self] at found
    exact here state found
  · rw [Function.update_of_ne same] at found
    exact before other state found

theorem outs_snoc {outs : List (Task × Out)} (before : ∀ out ∈ outs, right out.1 out.2) (one : right task out) :
    ∀ other ∈ outs ++ [(task,out)], right other.1 other.2 := by
  intro other member
  rcases List.mem_append.mp member with old | new
  · exact before other old
  · rw [List.mem_singleton.mp new]
    exact one

theorem step_kept (promise : Promise service admits all holds right) (kept : Kept holds right s) (tasks : ∀ task ∈ s.tasks, all task)
    (admitted : admits action) (step : Step service s action next) : Kept holds right next := by
  obtain ⟨up,outs,fetched⟩ := kept
  cases step with
  | send found => exact ⟨up,outs,fetched⟩
  | @create who state absent starts =>
    refine ⟨up_updated up fun other same => ?_,outs,fetched⟩
    cases same
    exact promise.start who _ starts
  | take found present idle => exact ⟨up,outs,fetched⟩
  | @serve place who task state later out found present served =>
    obtain ⟨holds,right⟩ := promise.serve who state task later out (up who state present) (tasks task (running_task found)) served
    refine ⟨up_updated up fun other same => ?_,outs_snoc outs right,fetched⟩
    cases same
    exact holds
  | @giveUp place task found => exact ⟨up,outs_snoc outs (promise.giveUp place task admitted (tasks task (pending_task found))),fetched⟩
  | stop idle => exact ⟨up_updated up (by simp),outs,fetched⟩
  | again found => exact ⟨up_updated up (by simp),outs,fetched⟩
  | @lost place who task found =>
    exact ⟨up_updated up (by simp),outs_snoc outs (promise.die place task admitted (tasks task (running_task found))),fetched⟩
  | @harm who state present =>
    refine ⟨up_updated up fun other same => ?_,outs,fetched⟩
    cases same
    exact promise.harm who state admitted (up who state present)
  | @fetch place out found =>
    refine ⟨up,fun other member => outs other (erase_subset member),?_⟩
    exact outs_snoc fetched (outs out (List.mem_of_getElem? found))

theorem up_stays {up : Id → Option State} {running : List (Id × Task)} (before : ∀ job ∈ running, up job.1 ≠ none) :
    ∀ job ∈ running, Function.update up who (some state) job.1 ≠ none := by
  intro job member
  by_cases same : job.1 = who
  · rw [same,Function.update_self]
    simp
  · rw [Function.update_of_ne same]
    exact before job member

theorem step_placed (placed : Placed s) (step : Step service s action next) : Placed next := by
  obtain ⟨up,own⟩ := placed
  have fewer : ∀ place, ((s.running.eraseIdx place).map Prod.fst).Nodup := fun place =>
    own.sublist ((List.eraseIdx_sublist _ _).map _)
  -- The job at a place is the only one of its instance.
  have others : ∀ place who task, s.running[place]? = some (who,task) → ∀ job ∈ s.running.eraseIdx place, job.1 ≠ who := by
    intro place who task found job member same
    obtain ⟨below,here⟩ := List.getElem?_eq_some_iff.mp found
    have split := (List.getElem_cons_eraseIdx_perm below).map Prod.fst
    have distinct := (List.nodup_cons.mp (split.nodup_iff.mpr own)).1
    rw [here] at distinct
    exact distinct (List.mem_map.mpr ⟨job,member,same⟩)
  have gone : ∀ place who task (value : Option State), s.running[place]? = some (who,task) →
      ∀ job ∈ s.running.eraseIdx place, Function.update s.up who value job.1 ≠ none := by
    intro place who task value found job member
    rw [Function.update_of_ne (others place who task found job member)]
    exact up job (erase_subset member)
  cases step with
  | send found => exact ⟨up,own⟩
  | create absent starts => exact ⟨up_stays up,own⟩
  | @take place task who state found present idle =>
    refine ⟨fun job member => ?_,?_⟩
    · rcases List.mem_append.mp member with old | new
      · exact up job old
      · rw [List.mem_singleton.mp new,present]
        simp
    · rw [List.map_append,List.nodup_append]
      refine ⟨own,by simp,?_⟩
      intro first member second last same
      obtain ⟨job,inside,rfl⟩ := List.mem_map.mp member
      exact idle job inside (same.trans (List.mem_singleton.mp last))
  | serve found present served => exact ⟨gone _ _ _ _ found,fewer _⟩
  | giveUp found => exact ⟨up,own⟩
  | @stop who idle =>
    have others : ∀ job ∈ s.running, Function.update s.up who none job.1 ≠ none := by
      intro job member
      rw [Function.update_of_ne (idle job member)]
      exact up job member
    exact ⟨others,own⟩
  | again found => exact ⟨gone _ _ _ _ found,fewer _⟩
  | lost found => exact ⟨gone _ _ _ _ found,fewer _⟩
  | harm present => exact ⟨up_stays up,own⟩
  | fetch found => exact ⟨up,own⟩

variable (service) in
abbrev Reached (admits : Action Id → Prop) : Sys Id State Task Out → Sys Id State Task Out → Prop :=
  Runs.Reached (Sys.step service) fun _ action => admits action

def Sys.start (threads : List (List Task)) : Sys Id State Task Out := {unsent := threads}

theorem reached_tasks (path : Reached service admits (Sys.start threads) s) : s.tasks = (threads.flatten : Multiset Task) := by
  induction path with
  | refl => simp [Sys.tasks,Sys.start]
  | step prior admitted taken ih => rw [step_tasks (step_cases taken),ih]

theorem reached_placed (path : Reached service admits (Sys.start threads) s) : Placed s := by
  induction path with
  | refl => exact ⟨by simp [Sys.start],.nil⟩
  | step prior admitted taken ih => exact step_placed ih (step_cases taken)

theorem reached_kept (promise : Promise service admits all holds right) (path : Reached service admits (Sys.start threads) s)
    (tasks : ∀ task ∈ threads.flatten, all task) : Kept holds right s := by
  induction path with
  | refl => exact ⟨by simp [Sys.start],by simp [Sys.start],by simp [Sys.start]⟩
  | step prior admitted taken ih =>
    have known := reached_tasks prior
    refine step_kept promise ih (fun task member => ?_) admitted (step_cases taken)
    rw [known] at member
    exact tasks task member

-- On the way to a state an instance that has a task in hand answers it.
inductive Served (service : Service Id State Task Out) (admits : Action Id → Prop) (first last : Sys Id State Task Out) (who : Id)
    (state later : State) (task : Task) (out : Out) : Prop where
  | intro {s next : Sys Id State Task Out} {place : Nat} (before : Reached service admits first s)
      (held : s.running[place]? = some (who,task)) (up : s.up who = some state) (served : service.serve who state task = some (later,out))
      (taken : s.step service (.serve place) = some next) (after : Reached service admits next last)

theorem step_outs (step : Step service s action next) {one : Task × Out} (member : one ∈ next.outs ++ next.fetched) :
    one ∈ s.outs ++ s.fetched ∨ one.2 = service.failed ∨ ∃ place who state later, action = .serve place ∧
      s.running[place]? = some (who,one.1) ∧ s.up who = some state ∧ service.serve who state one.1 = some (later,one.2) := by
  rw [List.mem_append] at member ⊢
  cases step with
  | send _ | create _ _ | take _ _ _ | stop _ | again _ | harm _ => exact .inl member
  | serve found present served =>
    rcases member with out | fetched
    · rcases List.mem_append.mp out with old | new
      · exact .inl (.inl old)
      · rw [List.mem_singleton.mp new]
        exact .inr (.inr ⟨_,_,_,_,rfl,found,present,served⟩)
    · exact .inl (.inr fetched)
  | giveUp _ | lost _ =>
    rcases member with out | fetched
    · rcases List.mem_append.mp out with old | new
      · exact .inl (.inl old)
      · rw [List.mem_singleton.mp new]
        exact .inr (.inl rfl)
    · exact .inl (.inr fetched)
  | fetch found =>
    rcases member with out | fetched
    · exact .inl (.inl (erase_subset out))
    · rcases List.mem_append.mp fetched with old | new
      · exact .inl (.inr old)
      · rw [List.mem_singleton.mp new]
        exact .inl (.inl (List.mem_of_getElem? found))

theorem reached_outs (path : Reached service admits (Sys.start threads) s) {one : Task × Out} (member : one ∈ s.outs ++ s.fetched) :
    one.2 = service.failed ∨ ∃ who state later, Served service admits (Sys.start threads) s who state later one.1 one.2 := by
  induction path with
  | refl => simp [Sys.start] at member
  | step prior admitted taken ih =>
    rcases step_outs (step_cases taken) member with old | failed | ⟨place,who,state,later,rfl,held,up,served⟩
    · rcases ih old with failed | ⟨who,state,later,⟨before,held,up,served,first,after⟩⟩
      · exact .inl failed
      · exact .inr ⟨who,state,later,⟨before,held,up,served,first,.step after admitted taken⟩⟩
    · exact .inl failed
    · exact .inr ⟨who,state,later,⟨prior,held,up,served,taken,.refl⟩⟩

-- What an action brings the farm nearer to its end, and what it undoes.
def Action.effort : Action Id → Nat
  | .create _ | .stop _ | .harm _ | .die _ true => 0
  | _ => 1

def Action.undoes : Action Id → Nat
  | .die _ true => 1
  | _ => 0

def Sys.left (s : Sys Id State Task Out) : Nat := 4*s.unsent.flatten.length+3*s.pending.length+2*s.running.length+s.outs.length

theorem erase_length {l : List α} (found : l[i]? = some a) : (l.eraseIdx i).length+1 = l.length := by
  obtain ⟨below,_⟩ := List.getElem?_eq_some_iff.mp found
  rw [List.length_eraseIdx_of_lt below]
  omega

theorem sent_length {l : List (List α)} (found : l[i]? = some (a :: rest)) :
    (l.set i rest).flatten.length+1 = l.flatten.length := by
  have sizes := congrArg Multiset.card (coe_sent found)
  rw [Multiset.card_cons,Multiset.coe_card,Multiset.coe_card] at sizes
  exact sizes.symm

theorem step_left (step : Step service s action next) : next.left+action.effort ≤ s.left+action.undoes := by
  unfold Sys.left
  cases step with
  | send found =>
    have sizes := sent_length found
    simp only [List.length_append,List.length_singleton,Action.effort,Action.undoes]
    omega
  | create absent starts => exact Nat.le_refl _
  | take found present idle =>
    have sizes := erase_length found
    simp only [List.length_append,List.length_singleton,Action.effort,Action.undoes]
    omega
  | serve found present served =>
    have sizes := erase_length found
    simp only [List.length_append,List.length_singleton,Action.effort,Action.undoes]
    omega
  | giveUp found =>
    have sizes := erase_length found
    simp only [List.length_append,List.length_singleton,Action.effort,Action.undoes]
    omega
  | stop idle => exact Nat.le_refl _
  | again found =>
    have sizes := erase_length found
    simp only [List.length_append,List.length_singleton,Action.effort,Action.undoes]
    omega
  | lost found =>
    have sizes := erase_length found
    simp only [List.length_append,List.length_singleton,Action.effort,Action.undoes]
    omega
  | harm present => exact Nat.le_refl _
  | fetch found =>
    have sizes := erase_length found
    simp only [Action.effort,Action.undoes]
    omega

theorem run_left {actions : List (Action Id)} (ran : Runs.run (Sys.step service) s actions = some next) :
    next.left+(actions.map Action.effort).sum ≤ s.left+(actions.map Action.undoes).sum := by
  induction actions generalizing s with
  | nil =>
    cases ran
    exact Nat.le_refl _
  | cons action rest ih =>
    obtain ⟨middle,taken,later⟩ := Option.bind_eq_some_iff.mp ran
    have first := step_left (step_cases taken)
    have after := ih later
    simp only [List.map_cons,List.sum_cons]
    omega

-- A thread, the manager, an instance or the fetch goes on with a task.
def Action.works : Action Id → Bool
  | .send _ | .take _ _ | .serve _ | .fetch _ => true
  | _ => false

theorem thread_left {threads : List (List Task)} (left : threads.flatten ≠ []) :
    ∃ (thread : Nat) (task : Task) (rest : List Task), threads[thread]? = some (task :: rest) := by
  obtain ⟨task,member⟩ := List.exists_mem_of_ne_nil _ left
  obtain ⟨own,inside,here⟩ := List.mem_flatten.mp member
  obtain ⟨thread,found⟩ := List.getElem?_of_mem inside
  cases own with
  | nil => cases here
  | cons first rest => exact ⟨thread,first,rest,found⟩

-- As long as a task is left some step goes on with one, or does as soon as an
-- instance comes up.
theorem goes (placed : Placed s) (kept : Kept holds right s) (tasks : ∀ task ∈ s.tasks, all task)
    (serves : ∀ who state task, holds who state → all task → (service.serve who state task).isSome = true)
    (starts : (service.start who).isSome = true) (left : 0 < s.left) :
    (∃ action : Action Id, action.works = true ∧ (s.step service action).isSome = true) ∨
      ∃ next, s.step service (.create who) = some next ∧ (next.step service (.take 0 who)).isSome = true := by
  by_cases unsent : s.unsent.flatten = []
  case neg =>
    obtain ⟨thread,task,rest,found⟩ := thread_left unsent
    exact .inl ⟨.send thread,rfl,by simp only [Sys.step,found]; rfl⟩
  cases outs : s.outs with
  | cons out others => exact .inl ⟨.fetch 0,rfl,by simp [Sys.step,outs]⟩
  | nil =>
    cases running : s.running with
    | cons job others =>
      obtain ⟨who,task⟩ := job
      have member : (who,task) ∈ s.running := by simp [running]
      obtain ⟨state,present⟩ := Option.ne_none_iff_exists'.mp (placed.up _ member)
      have known : all task := tasks task (running_task (List.getElem?_of_mem member).choose_spec)
      have served := serves who state task (kept.up who state present) known
      exact .inl ⟨.serve 0,rfl,by simp [Sys.step,running,present,served]⟩
    | nil =>
      cases pending : s.pending with
      | nil => simp [Sys.left,unsent,outs,running,pending] at left
      | cons task others =>
        cases present : s.up who with
        | some state => exact .inl ⟨.take 0 who,rfl,by simp [Sys.step,pending,present,Sys.busy,running]⟩
        | none =>
          obtain ⟨state,up⟩ := Option.isSome_iff_exists.mp starts
          refine .inr ⟨{s with up := Function.update s.up who (some state)},by simp [Sys.step,present,up],?_⟩
          simp [Sys.step,pending,Sys.busy,running]

-- So every run can be brought to an end, by such steps alone.
theorem completes (promise : Promise service admits all holds right) (tasks : ∀ task ∈ threads.flatten, all task)
    (serves : ∀ who state task, holds who state → all task → (service.serve who state task).isSome = true)
    (starts : (service.start who).isSome = true) (works : ∀ action : Action Id, action.works = true → admits action)
    (creates : admits (.create who)) (path : Reached service admits (Sys.start threads) s) :
    ∃ last, Reached service admits s last ∧ last.left = 0 := by
  induction size : s.left using Nat.strong_induction_on generalizing s with
  | _ n ih =>
    subst size
    by_cases finished : s.left = 0
    · exact ⟨s,.refl,finished⟩
    · have known : ∀ task ∈ s.tasks, all task := by
        intro task member
        rw [reached_tasks path] at member
        exact tasks task member
      -- A working step is taken, and the rest is shorter.
      have onward : ∀ middle, Reached service admits s middle → middle.left ≤ s.left → ∀ action : Action Id, action.works = true →
          (middle.step service action).isSome = true → ∃ last, Reached service admits s last ∧ last.left = 0 := by
        intro middle early same action working enabled
        obtain ⟨next,taken⟩ := Option.isSome_iff_exists.mp enabled
        have fewer := step_left (step_cases taken)
        have gains : action.effort = 1 ∧ action.undoes = 0 := by
          cases action with
          | send _ | take _ _ | serve _ | fetch _ => exact ⟨rfl,rfl⟩
          | create _ | giveUp _ | stop _ | die _ _ | harm _ => cases working
        have further : Reached service admits s next := .step early (works action working) taken
        obtain ⟨last,rest,ended⟩ := ih next.left (by omega) (path.trans further) rfl
        exact ⟨last,further.trans rest,ended⟩
      rcases goes (reached_placed path) (reached_kept promise path tasks) known serves starts (Nat.pos_of_ne_zero finished) with
        ⟨action,working,enabled⟩ | ⟨next,created,takes⟩
      · exact onward s .refl (Nat.le_refl _) action working enabled
      · have same := step_left (step_cases created)
        exact onward next (.step .refl creates created) (by simpa [Action.effort,Action.undoes] using same) (.take 0 who) rfl takes

theorem fetched_all (path : Reached service admits (Sys.start threads) s) (finished : s.left = 0) :
    (s.fetched.map Prod.fst).Perm threads.flatten := by
  have known := reached_tasks path
  unfold Sys.left at finished
  have unsent : s.unsent.flatten = [] := List.length_eq_zero_iff.mp (by omega)
  have pending : s.pending = [] := List.length_eq_zero_iff.mp (by omega)
  have running : s.running = [] := List.length_eq_zero_iff.mp (by omega)
  have outs : s.outs = [] := List.length_eq_zero_iff.mp (by omega)
  unfold Sys.tasks at known
  rw [unsent,pending,running,outs] at known
  exact Multiset.coe_eq_coe.mp (by simpa using known)

end

end Farm
