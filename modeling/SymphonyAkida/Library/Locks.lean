import SymphonyAkida.Library.Jobs
import SymphonyAkida.Library.Runs
import Mathlib.Data.List.Infix
import Mathlib.Data.List.Nodup

namespace Locks
open Jobs
variable {Thread Store Error Result : Type}

-- What a thread does: a section under the one lock, or reads that take no lock.
inductive Task (Store Error Result : Type) where
  | guarded (program : Program Store Error Result)
  | bare (program : Program Store Error Result)

def Task.program : Task Store Error Result → Program Store Error Result
  | .guarded program | .bare program => program

def Task.locks : Task Store Error Result → Bool
  | .guarded _ => true
  | .bare _ => false

inductive Stage (Store Error Result : Type) where
  | absent
  | waits
  | acts (rest : Program Store Error Result)
  | ended (result : Except Error Result)

-- `served` are the threads that have been through their sections, in that order.
structure State (Thread Store Error Result : Type) where
  store : Store
  stage : Thread → Stage Store Error Result
  holder : Option Thread
  served : List Thread

def State.start (store : Store) : State Thread Store Error Result := ⟨store,fun _ => .absent,none,[]⟩

inductive Event (Thread : Type) where
  | arrive (thread : Thread)
  | acquire (thread : Thread)
  | act (thread : Thread)
  | finish (thread : Thread)

-- What is left of a program once it has met these stores.
def remains : Program Store Error Result → List Store → Program Store Error Result
  | .act _ next,store :: stores => remains (next store) stores
  | program,_ => program

def serial (task : Thread → Task Store Error Result) (store : Store) (threads : List Thread) : Store :=
  threads.foldl (fun store thread => ((task thread).program.alone store).1) store

-- Some of the program's actions lead from a store to another.
inductive Reaches (program : Program Store Error Result) (store : Store) : Program Store Error Result → Store → Prop where
  | none : Reaches program store program store
  | act (prior : Reaches program store (.act change next) middle) : Reaches program store (next middle) (change middle)

theorem Reaches.alone {program rest : Program Store Error Result} (reaches : Reaches program store rest later) :
    program.alone store = rest.alone later := by
  induction reaches with
  | none => rfl
  | act _ ih => exact ih

def Steady (view : Store → View) : Program Store Error Result → Prop := Program.Spares fun a b => view a = view b

-- A view that at most one action of any run changes.
def Once (view : Store → View) : Program Store Error Result → Prop
  | .done _ => True
  | .act change next => ∀ a, (view (change a) = view a ∧ Once view (next a)) ∨ Steady view (next a)

theorem Steady.alone {view : Store → View} {program : Program Store Error Result} (steady : Steady view program) (store : Store) :
    view (program.alone store).1 = view store := by
  induction program generalizing store with
  | done result => rfl
  | act change next ih =>
    obtain ⟨same,later⟩ := steady store
    exact (ih store later (change store)).trans same.symm

theorem Reaches.once {view : Store → View} {program rest : Program Store Error Result} (once : Once view program)
    (reaches : Reaches program store rest later) : view later = view store ∨ view later = view (program.alone store).1 := by
  have stays : (view later = view store ∧ Once view rest) ∨ Steady view rest := by
    induction reaches with
    | none => exact .inl ⟨rfl,once⟩
    | @act change next middle prior ih =>
      rcases ih with ⟨same,once⟩ | steady
      · rcases once middle with ⟨kept,later⟩ | steady
        · exact .inl ⟨kept.trans same,later⟩
        · exact .inr steady
      · exact .inr (steady middle).2
  rcases stays with ⟨same,_⟩ | steady
  · exact .inl same
  · exact .inr (by rw [reaches.alone,steady.alone])

section
variable [DecidableEq Thread] (task : Thread → Task Store Error Result)

def State.set (s : State Thread Store Error Result) (thread : Thread) (stage : Stage Store Error Result) : State Thread Store Error Result :=
  {s with stage := Function.update s.stage thread stage}

def State.step (s : State Thread Store Error Result) : Event Thread → Option (State Thread Store Error Result)
  | .arrive thread =>
    match s.stage thread,task thread with
    | .absent,.guarded _ => some (s.set thread .waits)
    | .absent,.bare program => some (s.set thread (.acts program))
    | _,_ => none
  | .acquire thread =>
    match s.stage thread,s.holder with
    | .waits,none => some {s.set thread (.acts (task thread).program) with holder := some thread}
    | _,_ => none
  | .act thread =>
    match s.stage thread with
    | .acts (.act change next) => some {s.set thread (.acts (next s.store)) with store := change s.store}
    | _ => none
  | .finish thread =>
    match s.stage thread with
    | .acts (.done result) =>
      if s.holder = some thread then some {s.set thread (.ended result) with holder := none,served := s.served ++ [thread]}
      else some (s.set thread (.ended result))
    | _ => none

inductive LockStep (s : State Thread Store Error Result) : Event Thread → State Thread Store Error Result → Prop where
  | arrive (unseen : s.stage thread = .absent) (guarded : task thread = .guarded program) : LockStep s (.arrive thread) (s.set thread .waits)
  | read (unseen : s.stage thread = .absent) (bare : task thread = .bare program) : LockStep s (.arrive thread) (s.set thread (.acts program))
  | acquire (waits : s.stage thread = .waits) (unheld : s.holder = none) :
      LockStep s (.acquire thread) {s.set thread (.acts (task thread).program) with holder := some thread}
  | act (acts : s.stage thread = .acts (.act change next)) :
      LockStep s (.act thread) {s.set thread (.acts (next s.store)) with store := change s.store}
  | release (acts : s.stage thread = .acts (.done result)) (held : s.holder = some thread) :
      LockStep s (.finish thread) {s.set thread (.ended result) with holder := none,served := s.served ++ [thread]}
  | finish (acts : s.stage thread = .acts (.done result)) (unheld : s.holder ≠ some thread) :
      LockStep s (.finish thread) (s.set thread (.ended result))

variable {task} {s next : State Thread Store Error Result}

theorem step_sound (taken : s.step task event = some next) : LockStep task s event next := by
  cases event with
  | arrive thread =>
    simp only [State.step] at taken
    split at taken
    · cases Option.some.inj taken
      exact .arrive ‹_› ‹_›
    · cases Option.some.inj taken
      exact .read ‹_› ‹_›
    · cases taken
  | acquire thread =>
    simp only [State.step] at taken
    split at taken
    · cases Option.some.inj taken
      exact .acquire ‹_› ‹_›
    · cases taken
  | act thread =>
    simp only [State.step] at taken
    split at taken
    · cases Option.some.inj taken
      exact .act ‹_›
    · cases taken
  | finish thread =>
    simp only [State.step] at taken
    split at taken
    · split at taken
      · cases Option.some.inj taken
        exact .release ‹_› ‹_›
      · cases Option.some.inj taken
        exact .finish ‹_› ‹_›
    · cases taken


theorem set_self (s : State Thread Store Error Result) : (s.set thread stage).stage thread = stage := Function.update_self ..

theorem set_other (s : State Thread Store Error Result) (differ : other ≠ thread) :
    (s.set thread stage).stage other = s.stage other :=
  Function.update_of_ne differ _ _

-- The sections as if each ran at one moment, in the order they were left; the
-- one that is held is some actions into its own.
structure Serial (task : Thread → Task Store Error Result) (start : Store) (s : State Thread Store Error Result) : Prop where
  nodup : s.served.Nodup
  results : ∀ before thread after, s.served = before ++ thread :: after → (task thread).locks = true ∧
    s.stage thread = .ended ((task thread).program.alone (serial task start before)).2
  left : ∀ thread result, (task thread).locks = true → s.stage thread = .ended result → thread ∈ s.served
  waits : ∀ thread, s.stage thread = .waits → (task thread).locks = true
  inside : ∀ thread rest, (task thread).locks = true → s.stage thread = .acts rest → s.holder = some thread
  free : s.holder = none → s.store = serial task start s.served
  held : ∀ thread, s.holder = some thread → (task thread).locks = true ∧
    ∃ rest, s.stage thread = .acts rest ∧ Reaches (task thread).program (serial task start s.served) rest s.store
  reads : ∀ thread rest, (task thread).locks = false → s.stage thread = .acts rest → rest.Spares Eq

omit [DecidableEq Thread] in
theorem Serial.start (task : Thread → Task Store Error Result) (store : Store) : Serial task store (State.start store) where
  nodup := .nil
  results := by simp [State.start]
  left := by simp [State.start]
  waits := by simp [State.start]
  inside := by simp [State.start]
  free := fun _ => rfl
  held := by simp [State.start]
  reads := by simp [State.start]

section
variable {start : Store} (serves : Serial task start s)
include serves

theorem Serial.results_set (running : ∀ result, s.stage thread ≠ .ended result) (before after : List Thread) (other : Thread)
    (split : s.served = before ++ other :: after) : (task other).locks = true ∧
      (s.set thread stage).stage other = .ended ((task other).program.alone (serial task start before)).2 := by
  obtain ⟨locks,ended⟩ := serves.results before other after split
  have differ : other ≠ thread := fun same => running _ (same ▸ ended)
  exact ⟨locks,(set_other s differ).trans ended⟩

theorem Serial.left_set (open_ : ∀ result, stage ≠ .ended result) (other : Thread) (result : Except Error Result)
    (locks : (task other).locks = true) (ended : (s.set thread stage).stage other = .ended result) : other ∈ s.served := by
  by_cases same : other = thread
  · subst same
    exact absurd ((set_self s).symm.trans ended) (open_ result)
  · exact serves.left other result locks ((set_other s same).symm.trans ended)

theorem Serial.waits_set (stays : stage = .waits → (task thread).locks = true) (other : Thread)
    (waits : (s.set thread stage).stage other = .waits) : (task other).locks = true := by
  by_cases same : other = thread
  · subst same
    exact stays ((set_self s).symm.trans waits)
  · exact serves.waits other ((set_other s same).symm.trans waits)

theorem Serial.inside_set (mine : ∀ rest, (task thread).locks = true → stage ≠ .acts rest) (other : Thread)
    (rest : Program Store Error Result) (locks : (task other).locks = true)
    (acts : (s.set thread stage).stage other = .acts rest) : s.holder = some other := by
  by_cases same : other = thread
  · subst same
    exact absurd ((set_self s).symm.trans acts) (mine rest locks)
  · exact serves.inside other rest locks ((set_other s same).symm.trans acts)

theorem Serial.reads_set (spares : ∀ rest, (task thread).locks = false → stage = .acts rest → rest.Spares Eq) (other : Thread)
    (rest : Program Store Error Result) (bare : (task other).locks = false)
    (acts : (s.set thread stage).stage other = .acts rest) : rest.Spares Eq := by
  by_cases same : other = thread
  · subst same
    exact spares rest bare ((set_self s).symm.trans acts)
  · exact serves.reads other rest bare ((set_other s same).symm.trans acts)

theorem Serial.held_set (differ : s.holder ≠ some thread) (other : Thread) (holds : s.holder = some other) :
    (task other).locks = true ∧ ∃ rest, (s.set thread stage).stage other = .acts rest ∧
      Reaches (task other).program (serial task start s.served) rest s.store := by
  obtain ⟨locks,rest,acts,reaches⟩ := serves.held other holds
  have apart : other ≠ thread := fun same => differ (same ▸ holds)
  exact ⟨locks,rest,(set_other s apart).trans acts,reaches⟩

theorem Serial.step (spares : ∀ thread program, task thread = .bare program → program.Spares Eq)
    (step : LockStep task s event next) : Serial task start next := by
  cases step with
  | @arrive thread program unseen guarded =>
    have locks : (task thread).locks = true := by rw [guarded]; rfl
    have idle : s.holder ≠ some thread := by
      intro holds
      obtain ⟨_,rest,acts,_⟩ := serves.held thread holds
      cases unseen.symm.trans acts
    exact ⟨serves.nodup,fun before other after => serves.results_set (by simp [unseen]) before after other,
      serves.left_set (by simp),serves.waits_set fun _ => locks,serves.inside_set (by simp),serves.free,
      serves.held_set idle,serves.reads_set (by simp)⟩
  | @read thread program unseen bare =>
    have free : (task thread).locks = false := by rw [bare]; rfl
    have idle : s.holder ≠ some thread := by
      intro holds
      rw [(serves.held thread holds).1] at free
      cases free
    refine ⟨serves.nodup,fun before other after => serves.results_set (by simp [unseen]) before after other,
      serves.left_set (by simp),serves.waits_set (by simp),serves.inside_set (by simp [free]),serves.free,
      serves.held_set idle,serves.reads_set ?_⟩
    intro rest _ same
    cases same
    exact spares thread program bare
  | @acquire thread waits unheld =>
    have locks := serves.waits thread waits
    refine ⟨serves.nodup,fun before other after => serves.results_set (by simp [waits]) before after other,
      serves.left_set (by simp),serves.waits_set (by simp),?_,by simp,?_,serves.reads_set (by simp [locks])⟩
    · intro other rest guarded acts
      by_cases same : other = thread
      · rw [same]
      · have held := serves.inside other rest guarded ((set_other s same).symm.trans acts)
        cases unheld.symm.trans held
    · intro other holds
      cases Option.some.inj holds
      refine ⟨locks,_,set_self s,?_⟩
      show Reaches _ _ _ s.store
      rw [serves.free unheld]
      exact .none
  | @act thread change later acts =>
    have running : ∀ result, s.stage thread ≠ .ended result := by simp [acts]
    cases guarded : (task thread).locks with
    | true =>
      have holds := serves.inside thread _ guarded acts
      refine ⟨serves.nodup,fun before other after => serves.results_set running before after other,
        serves.left_set (by simp),serves.waits_set (by simp),?_,?_,?_,serves.reads_set (by simp [guarded])⟩
      · intro other rest locks inside
        by_cases same : other = thread
        · rw [same]
          exact holds
        · exact serves.inside other rest locks ((set_other s same).symm.trans inside)
      · intro unheld
        cases holds.symm.trans unheld
      · intro other now
        cases Option.some.inj (holds.symm.trans now)
        obtain ⟨_,rest,inside,reaches⟩ := serves.held thread holds
        cases acts.symm.trans inside
        exact ⟨guarded,_,set_self s,reaches.act⟩
    | false =>
      obtain ⟨same,later_⟩ := serves.reads thread _ guarded acts s.store
      have idle : s.holder ≠ some thread := by
        intro holds
        rw [(serves.held thread holds).1] at guarded
        cases guarded
      rw [← same]
      refine ⟨serves.nodup,fun before other after => serves.results_set running before after other,
        serves.left_set (by simp),serves.waits_set (by simp),serves.inside_set (by simp [guarded]),serves.free,
        serves.held_set idle,serves.reads_set ?_⟩
      intro rest _ now
      cases now
      exact later_
  | @release thread result acts held =>
    obtain ⟨locks,rest,inside,reaches⟩ := serves.held thread held
    cases acts.symm.trans inside
    have whole := reaches.alone
    have unserved : thread ∉ s.served := by
      intro member
      obtain ⟨before,after,split⟩ := List.append_of_mem member
      cases acts.symm.trans (serves.results before thread after split).2
    refine ⟨?_,?_,?_,serves.waits_set (by simp),?_,?_,by simp,serves.reads_set (by simp)⟩
    · exact List.nodup_append.mpr ⟨serves.nodup,List.nodup_singleton _,by
        intro other member last own same
        rw [List.mem_singleton] at own
        exact unserved (own ▸ same ▸ member)⟩
    · intro before other after split
      rcases List.eq_nil_or_concat after with rfl | ⟨middle,final,rfl⟩
      · obtain ⟨same,last⟩ := List.append_inj' split rfl
        cases last
        refine ⟨locks,(set_self s).trans ?_⟩
        rw [← same,whole]
        rfl
      · have split : s.served ++ [thread] = (before ++ other :: middle) ++ [final] := by simpa using split
        exact serves.results_set (by simp [acts]) before middle other (List.append_inj' split rfl).1
    · intro other value guarded ended
      by_cases same : other = thread
      · exact List.mem_append_right _ (List.mem_singleton.mpr same)
      · exact List.mem_append_left _ (serves.left other value guarded ((set_other s same).symm.trans ended))
    · intro other rest guarded now
      by_cases same : other = thread
      · subst same
        cases (set_self s).symm.trans now
      · have held' := serves.inside other rest guarded ((set_other s same).symm.trans now)
        cases Option.some.inj (held.symm.trans held')
        exact absurd rfl same
    · intro _
      show s.store = _
      unfold serial
      rw [List.foldl_append]
      exact (congrArg Prod.fst whole).symm
  | @finish thread result acts unheld =>
    have bare : (task thread).locks = false := by
      cases guarded : (task thread).locks with
      | false => rfl
      | true => exact absurd (serves.inside thread _ guarded acts) unheld
    refine ⟨serves.nodup,fun before other after => serves.results_set (by simp [acts]) before after other,?_,
      serves.waits_set (by simp),serves.inside_set (by simp),serves.free,serves.held_set unheld,serves.reads_set (by simp)⟩
    intro other value guarded ended
    by_cases same : other = thread
    · subst same
      rw [bare] at guarded
      cases guarded
    · exact serves.left other value guarded ((set_other s same).symm.trans ended)

end

theorem reached_serial {start : Store} (spares : ∀ thread program, task thread = .bare program → program.Spares Eq)
    (path : Runs.Reached (State.step task) admits (State.start start) s) : Serial task start s :=
  path.invariant _ (Serial.start task start) fun _ _ _ serves _ taken => serves.step spares (step_sound taken)

theorem served_step (step : LockStep task s event next) : s.served <+: next.served := by
  cases step with
  | release _ _ => exact List.prefix_append _ _
  | arrive _ _ | read _ _ | acquire _ _ | act _ | finish _ _ => exact List.prefix_refl _

theorem served_grows (path : Runs.Reached (State.step task) admits s next) : s.served <+: next.served := by
  induction path with
  | refl => exact List.prefix_refl _
  | step _ _ taken ih => exact ih.trans (served_step (step_sound taken))

-- A section that is held is the next to be left.
theorem holder_next (path : Runs.Reached (State.step task) admits s next) (holds : s.holder = some thread) :
    next.holder = some thread ∧ next.served = s.served ∨ s.served ++ [thread] <+: next.served := by
  induction path with
  | refl => exact .inl ⟨holds,rfl⟩
  | step _ _ taken ih =>
    have step := step_sound taken
    rcases ih with ⟨held,same⟩ | left
    · cases step with
      | acquire _ unheld => cases held.symm.trans unheld
      | release _ mine =>
        cases Option.some.inj (held.symm.trans mine)
        exact .inr (by rw [← same])
      | arrive _ _ | read _ _ | act _ | finish _ _ => exact .inl ⟨held,same⟩
    · exact .inr (left.trans (served_step step))

def Visits (task : Thread → Task Store Error Result) (admits : State Thread Store Error Result → Event Thread → Prop) :
    State Thread Store Error Result → List (State Thread Store Error Result) → State Thread Store Error Result → Prop
  | s,[],last => Runs.Reached (State.step task) admits s last
  | s,middle :: times,last => Runs.Reached (State.step task) admits s middle ∧ Visits task admits middle times last

theorem Visits.path {times : List (State Thread Store Error Result)} (visits : Visits task admits s times next) :
    Runs.Reached (State.step task) admits s next := by
  induction times generalizing s with
  | nil => exact visits
  | cons middle times ih => exact visits.1.trans (ih visits.2)

theorem Visits.more {times : List (State Thread Store Error Result)} (visits : Visits task admits s times middle)
    (path : Runs.Reached (State.step task) admits middle next) : Visits task admits s times next := by
  induction times generalizing s with
  | nil => exact Runs.Reached.trans visits path
  | cons first times ih => exact ⟨visits.1,ih visits.2⟩

theorem Visits.snoc {times : List (State Thread Store Error Result)} (visits : Visits task admits s times middle)
    (path : Runs.Reached (State.step task) admits middle next) : Visits task admits s (times ++ [middle]) next := by
  induction times generalizing s with
  | nil => exact ⟨visits,path⟩
  | cons first times ih => exact ⟨visits.1,ih visits.2⟩

omit [DecidableEq Thread] in
theorem remains_nil (program : Program Store Error Result) : remains program [] = program := by
  cases program <;> rfl

omit [DecidableEq Thread] in
theorem remains_snoc {program : Program Store Error Result} {stores : List Store} {change : Store → Store}
    {later : Store → Program Store Error Result} (left : remains program stores = .act change later) (store : Store) :
    remains program (stores ++ [store]) = later store := by
  induction stores generalizing program with
  | nil =>
    cases program with
    | done result => cases left
    | act first after =>
      cases left
      exact remains_nil _
  | cons met stores ih =>
    cases program with
    | done result => cases left
    | act first after => exact ih left

-- The thread has not come, or it is where the stores it met have led it.
def Reading (task : Thread → Task Store Error Result) (admits : State Thread Store Error Result → Event Thread → Prop)
    (thread : Thread) (program : Program Store Error Result) (s last : State Thread Store Error Result) : Prop :=
  last.stage thread = .absent ∨ ∃ times, Visits task admits s times last ∧
    (last.stage thread = .acts (remains program (times.map State.store)) ∨
      ∃ result, last.stage thread = .ended result ∧ remains program (times.map State.store) = .done result)

theorem Reading.kept {program : Program Store Error Result} (reading : Reading task admits thread program s middle)
    (path : Runs.Reached (State.step task) admits middle next) (same : next.stage thread = middle.stage thread) :
    Reading task admits thread program s next := by
  unfold Reading at reading ⊢
  rw [same]
  rcases reading with absent | ⟨times,visits,stage⟩
  · exact .inl absent
  · exact .inr ⟨times,visits.more path,stage⟩

theorem reads_met {program : Program Store Error Result} (path : Runs.Reached (State.step task) admits s last)
    (unseen : s.stage thread = .absent) (bare : task thread = .bare program) : Reading task admits thread program s last := by
  induction path with
  | refl => exact .inl unseen
  | @step middle event next prior admitted taken ih =>
    have onward : Runs.Reached (State.step task) admits middle next := .step .refl admitted taken
    cases step_sound taken with
    | @arrive other _ waiting guarded =>
      refine ih.kept onward (set_other _ ?_)
      rintro rfl
      cases bare.symm.trans guarded
    | @read other first waiting read =>
      by_cases same : thread = other
      · subst same
        cases bare.symm.trans read
        exact .inr ⟨[],prior.trans onward,.inl (by rw [List.map_nil,remains_nil]; exact set_self _)⟩
      · exact ih.kept onward (set_other _ same)
    | @acquire other waits _ =>
      refine ih.kept onward (set_other _ ?_)
      rintro rfl
      rcases ih with absent | ⟨times,_,acts | ⟨result,ended,_⟩⟩
      · cases waits.symm.trans absent
      · cases waits.symm.trans acts
      · cases waits.symm.trans ended
    | @act other change later acts =>
      by_cases same : thread = other
      · subst same
        rcases ih with absent | ⟨times,visits,now | ⟨result,ended,_⟩⟩
        · cases acts.symm.trans absent
        · refine .inr ⟨times ++ [middle],visits.snoc onward,.inl ?_⟩
          have left := (Stage.acts.inj (acts.symm.trans now)).symm
          rw [List.map_append,List.map_singleton,remains_snoc left]
          exact set_self _
        · cases acts.symm.trans ended
      · exact ih.kept onward (set_other _ same)
    | @release other result acts _ | @finish other result acts _ =>
      by_cases same : thread = other
      · subst same
        rcases ih with absent | ⟨times,visits,now | ⟨value,ended,_⟩⟩
        · cases acts.symm.trans absent
        · have left := (Stage.acts.inj (acts.symm.trans now)).symm
          exact .inr ⟨times,visits.more onward,.inr ⟨result,set_self _,left⟩⟩
        · cases acts.symm.trans ended
      · exact ih.kept onward (set_other _ same)

def State.begun (s : State Thread Store Error Result) : List Thread := s.served ++ s.holder.toList

theorem begun_of_held (path : Runs.Reached (State.step task) admits s next) (holds : s.holder = some thread) :
    s.served ++ [thread] <+: next.begun := by
  rcases holder_next path holds with ⟨held,same⟩ | left
  · unfold State.begun
    rw [held,same]
    exact List.prefix_refl _
  · exact left.trans (List.prefix_append _ _)

-- What a thread can see of the store on its way: the view after some of the
-- sections, none of those left before it came missing and none not begun.
theorem view_met {start : Store} {view : Store → View} (once : ∀ thread, (task thread).locks = true → Once view (task thread).program)
    (serves : Serial task start middle) (before : Runs.Reached (State.step task) admits s middle)
    (after : Runs.Reached (State.step task) admits middle next) :
    ∃ threads, s.served <+: threads ∧ threads <+: next.begun ∧ view middle.store = view (serial task start threads) := by
  have grown := served_grows before
  have kept : middle.served <+: next.begun := (served_grows after).trans (List.prefix_append _ _)
  cases holds : middle.holder with
  | none => exact ⟨middle.served,grown,kept,congrArg view (serves.free holds)⟩
  | some thread =>
    obtain ⟨locks,rest,_,reaches⟩ := serves.held thread holds
    rcases reaches.once (once thread locks) with same | same
    · exact ⟨middle.served,grown,kept,same⟩
    · refine ⟨middle.served ++ [thread],grown.trans (List.prefix_append _ _),begun_of_held after holds,same.trans ?_⟩
      unfold serial
      rw [List.foldl_append]
      rfl

theorem store_quiet {start : Store} (serves : Serial task start middle) (before : Runs.Reached (State.step task) admits s middle)
    (after : Runs.Reached (State.step task) admits middle next) (quiet : next.begun = s.served) :
    middle.store = serial task start s.served := by
  have same : middle.served = s.served :=
    ((served_grows before).eq_of_length_le
      ((quiet ▸ (served_grows after).trans (List.prefix_append _ _) : middle.served <+: s.served).length_le)).symm
  cases holds : middle.holder with
  | none => exact same ▸ serves.free holds
  | some thread =>
    have long := (begun_of_held after holds).length_le
    rw [quiet,same,List.length_append,List.length_singleton] at long
    omega

theorem some_step_left {start : Store} (serves : Serial task start s) (thread : Thread)
    (unanswered : (∃ rest, s.stage thread = .acts rest) ∨ s.stage thread = .waits) :
    ∃ event next, s.step task event = some next ∧ ∀ other, event ≠ .arrive other := by
  have moves : ∀ other rest, s.stage other = .acts rest →
      ∃ event next, s.step task event = some next ∧ ∀ other, event ≠ .arrive other := by
    intro other rest acts
    cases rest with
    | act change later => exact ⟨.act other,_,by simp only [State.step,acts]; rfl,by simp⟩
    | done result =>
      by_cases held : s.holder = some other
      · exact ⟨.finish other,_,by simp only [State.step,acts,if_pos held]; rfl,by simp⟩
      · exact ⟨.finish other,_,by simp only [State.step,acts,if_neg held]; rfl,by simp⟩
  rcases unanswered with ⟨rest,acts⟩ | waits
  · exact moves thread rest acts
  · cases holds : s.holder with
    | none => exact ⟨.acquire thread,_,by simp only [State.step,waits,holds]; rfl,by simp⟩
    | some other =>
      obtain ⟨_,rest,acts,_⟩ := serves.held other holds
      exact moves other rest acts

end

end Locks
