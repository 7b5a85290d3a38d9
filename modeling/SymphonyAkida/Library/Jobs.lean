import Mathlib.Logic.Function.Basic

namespace Jobs
variable {Disk Error Result Task Worker : Type}

-- A program as its atomic actions on a store that others change too. What it
-- does next may depend on the store its last action met.
inductive Program (Disk Error Result : Type) where
  | done (result : Except Error Result)
  | act (change : Disk → Disk) (next : Disk → Program Disk Error Result)

-- A run in which nobody else acts.
def Program.alone : Program Disk Error Result → Disk → Disk × Except Error Result
  | .done result,disk => (disk,result)
  | .act change next,disk => (next disk).alone (change disk)

-- Stores that are `same` lead the program the same way.
def Program.Sees (same : Disk → Disk → Prop) : Program Disk Error Result → Prop
  | .done _ => True
  | .act change next => (∀ a b, same a b → next a = next b ∧ same (change a) (change b)) ∧ ∀ a, (next a).Sees same

-- The program changes nothing that `same` tells apart.
def Program.Spares (same : Disk → Disk → Prop) : Program Disk Error Result → Prop
  | .done _ => True
  | .act change next => ∀ a, same a (change a) ∧ (next a).Spares same

theorem Program.Sees.alone {same : Disk → Disk → Prop} {program : Program Disk Error Result} (sees : program.Sees same)
    (alike : same a b) : same (program.alone a).1 (program.alone b).1 ∧ (program.alone a).2 = (program.alone b).2 := by
  induction program generalizing a b with
  | done result => exact ⟨alike,rfl⟩
  | act change next ih =>
    obtain ⟨moves,later⟩ := sees
    obtain ⟨equal,kept⟩ := moves a b alike
    unfold Program.alone
    rw [← equal]
    exact ih a (later a) kept

-- At most n actions are left, whatever the store.
def Program.Within : Program Disk Error Result → Nat → Prop
  | .done _,_ => True
  | .act _ next,n => 0 < n ∧ ∀ a, (next a).Within (n-1)

theorem Program.Within.more {program : Program Disk Error Result} (within : program.Within m) (more : m ≤ n) : program.Within n := by
  induction program generalizing m n with
  | done result => trivial
  | act change next ih =>
    obtain ⟨some,later⟩ := within
    exact ⟨Nat.lt_of_lt_of_le some more,fun a => ih a (later a) (Nat.sub_le_sub_right more 1)⟩

inductive Output (Error Result : Type) where
  | answered (result : Except Error Result)
  | lost

-- The services at work: the rest of the program of each task in hand, and the
-- outputs that nobody has taken.
structure Pool (Task Disk Error Result : Type) where
  jobs : Task → Option (Program Disk Error Result)
  outs : Task → Option (Output Error Result)

def Pool.empty : Pool Task Disk Error Result := ⟨fun _ => none,fun _ => none⟩

-- A service takes up a task, acts, hands in its answer, raises, or dies; a task
-- whose service died may be taken up again or given up.
inductive Work (Task Worker Error : Type) where
  | take (task : Task) (worker : Worker)
  | act (task : Task)
  | answer (task : Task)
  | raised (task : Task) (error : Error)
  | die (task : Task)
  | lose (task : Task)

def Work.task : Work Task Worker Error → Task
  | .take task _ | .act task | .answer task | .raised task _ | .die task | .lose task => task

def Pool.idle (pool : Pool Task Disk Error Result) (task : Task) : Bool := (pool.jobs task).isNone && (pool.outs task).isNone

theorem Pool.idle_iff {pool : Pool Task Disk Error Result} :
    pool.idle task = true ↔ pool.jobs task = none ∧ pool.outs task = none := by
  simp [Pool.idle]

section
variable [DecidableEq Task]

def Pool.setJob (pool : Pool Task Disk Error Result) (task : Task) (job : Option (Program Disk Error Result)) :
    Pool Task Disk Error Result := {pool with jobs := Function.update pool.jobs task job}

def Pool.setOut (pool : Pool Task Disk Error Result) (task : Task) (out : Option (Output Error Result)) :
    Pool Task Disk Error Result := {pool with outs := Function.update pool.outs task out}

variable (program : Worker → Task → Program Disk Error Result) (waiting : Task → Bool)

def Pool.step (pool : Pool Task Disk Error Result) (disk : Disk) :
    Work Task Worker Error → Option (Pool Task Disk Error Result × Disk)
  | .take task worker => if waiting task && pool.idle task then some (pool.setJob task (some (program worker task)),disk) else none
  | .act task =>
    match pool.jobs task with
    | some (.act change next) => some (pool.setJob task (some (next disk)),change disk)
    | _ => none
  | .answer task =>
    match pool.jobs task with
    | some (.done result) => some ((pool.setJob task none).setOut task (some (.answered result)),disk)
    | _ => none
  | .raised task error =>
    if (pool.jobs task).isSome then some ((pool.setJob task none).setOut task (some (.answered (.error error))),disk) else none
  | .die task => if (pool.jobs task).isSome then some (pool.setJob task none,disk) else none
  | .lose task => if waiting task && pool.idle task then some (pool.setOut task (some .lost),disk) else none

theorem setJob_other {pool : Pool Task Disk Error Result} (differ : other ≠ task) : (pool.setJob task job).jobs other = pool.jobs other :=
  Function.update_of_ne differ _ _

theorem setJob_self {pool : Pool Task Disk Error Result} : (pool.setJob task job).jobs task = job := Function.update_self ..

theorem setOut_other {pool : Pool Task Disk Error Result} (differ : other ≠ task) : (pool.setOut task out).outs other = pool.outs other :=
  Function.update_of_ne differ _ _

theorem setOut_self {pool : Pool Task Disk Error Result} : (pool.setOut task out).outs task = out := Function.update_self ..

inductive PoolStep (pool : Pool Task Disk Error Result) (disk : Disk) :
    Work Task Worker Error → Pool Task Disk Error Result → Disk → Prop where
  | take (waits : waiting task = true) (unheld : pool.jobs task = none) (unanswered : pool.outs task = none) :
      PoolStep pool disk (.take task worker) (pool.setJob task (some (program worker task))) disk
  | act (held : pool.jobs task = some (.act change next)) :
      PoolStep pool disk (.act task) (pool.setJob task (some (next disk))) (change disk)
  | answer (held : pool.jobs task = some (.done result)) :
      PoolStep pool disk (.answer task) ((pool.setJob task none).setOut task (some (.answered result))) disk
  | raised (held : pool.jobs task = some job) :
      PoolStep pool disk (.raised task error) ((pool.setJob task none).setOut task (some (.answered (.error error)))) disk
  | die (held : pool.jobs task = some job) : PoolStep pool disk (.die task) (pool.setJob task none) disk
  | lose (waits : waiting task = true) (unheld : pool.jobs task = none) (unanswered : pool.outs task = none) :
      PoolStep pool disk (.lose task) (pool.setOut task (some .lost)) disk

theorem step_sound {pool after : Pool Task Disk Error Result} {disk later : Disk} {work : Work Task Worker Error}
    (taken : pool.step program waiting disk work = some (after,later)) :
    PoolStep program waiting pool disk work after later := by
  cases work with
  | take task worker | lose task =>
    simp only [Pool.step,Option.ite_none_right_eq_some,Bool.and_eq_true,Pool.idle_iff,Option.some.injEq,Prod.mk.injEq] at taken
    obtain ⟨⟨waits,unheld,unanswered⟩,rfl,rfl⟩ := taken
    constructor <;> assumption
  | act task =>
    simp only [Pool.step] at taken
    split at taken
    · cases Option.some.inj taken
      exact .act ‹_›
    · cases taken
  | answer task =>
    simp only [Pool.step] at taken
    split at taken
    · cases Option.some.inj taken
      exact .answer ‹_›
    · cases taken
  | raised task error | die task =>
    simp only [Pool.step,Option.ite_none_right_eq_some,Option.isSome_iff_exists,Option.some.injEq,Prod.mk.injEq] at taken
    obtain ⟨⟨job,held⟩,rfl,rfl⟩ := taken
    constructor
    exact held

-- The steps a task may still take: nobody has it, it is in hand, or answered.
def Pool.share (pool : Pool Task Disk Error Result) (limit : Nat) (left : Task → Nat) (task : Task) : Nat :=
  if (pool.outs task).isSome then 0 else if (pool.jobs task).isSome then left task+1 else limit+2

-- `left` bounds the actions of every job in hand.
def Pool.Fits (pool : Pool Task Disk Error Result) (limit : Nat) (left : Task → Nat) : Prop :=
  ∀ task job, pool.jobs task = some job → pool.outs task = none ∧ job.Within (left task) ∧ left task ≤ limit

def Work.dies : Work Task Worker Error → Bool
  | .die _ => true
  | _ => false

omit [DecidableEq Task] in
theorem Pool.Fits.share_le {pool : Pool Task Disk Error Result} (fits : pool.Fits limit left) (task : Task) :
    pool.share limit left task ≤ limit+2 := by
  unfold Pool.share
  split
  · exact Nat.zero_le _
  · split
    · obtain ⟨job,held⟩ := Option.isSome_iff_exists.mp ‹_›
      have bound := (fits task job held).2.2
      omega
    · exact Nat.le_refl _

theorem Pool.Fits.change {pool : Pool Task Disk Error Result} (fits : pool.Fits limit left) (after : Pool Task Disk Error Result)
    (same : ∀ other, other ≠ task → after.jobs other = pool.jobs other ∧ after.outs other = pool.outs other)
    (mine : ∀ job, after.jobs task = some job → after.outs task = none ∧ job.Within n ∧ n ≤ limit) :
    after.Fits limit (Function.update left task n) ∧
      ∀ other, other ≠ task → after.share limit (Function.update left task n) other = pool.share limit left other := by
  refine ⟨fun other job held => ?_,fun other differ => ?_⟩
  · by_cases equal : other = task
    · subst equal
      rw [Function.update_self]
      exact mine job held
    · obtain ⟨sameJobs,sameOuts⟩ := same other equal
      rw [Function.update_of_ne equal,sameOuts]
      exact fits other job (sameJobs ▸ held)
  · obtain ⟨sameJobs,sameOuts⟩ := same other differ
    simp only [Pool.share,sameJobs,sameOuts,Function.update_of_ne differ]

-- A step brings its task nearer its end, but for a death, after which it starts
-- again.
theorem Pool.Fits.step {pool after : Pool Task Disk Error Result} {disk later : Disk} {work : Work Task Worker Error}
    (limits : ∀ worker task, (program worker task).Within limit) (fits : pool.Fits limit left)
    (step : PoolStep program waiting pool disk work after later) :
    ∃ rest, after.Fits limit rest ∧ (∀ other, other ≠ work.task → after.share limit rest other = pool.share limit left other) ∧
      after.share limit rest work.task+1 ≤ pool.share limit left work.task+if work.dies then limit+2 else 0 := by
  cases step with
  | @take task worker waits unheld unanswered =>
    obtain ⟨kept,others⟩ := fits.change (pool.setJob task (some (program worker task))) (n := limit)
      (fun other differ => ⟨setJob_other differ,rfl⟩) fun job held => by
        cases Option.some.inj (setJob_self.symm.trans held)
        exact ⟨unanswered,limits worker task,Nat.le_refl _⟩
    refine ⟨_,kept,others,?_⟩
    simp [Pool.share,Work.task,Work.dies,Pool.setJob,unheld,unanswered]
  | @act task change next held =>
    obtain ⟨free,⟨left_,within⟩,bound⟩ := fits _ _ held
    obtain ⟨kept,others⟩ := fits.change (pool.setJob task (some (next disk))) (n := left task-1)
      (fun other differ => ⟨setJob_other differ,rfl⟩) fun job now => by
        cases Option.some.inj (setJob_self.symm.trans now)
        exact ⟨free,within disk,by omega⟩
    refine ⟨_,kept,others,?_⟩
    simp only [Pool.share,Work.task,Work.dies,Pool.setJob,held,free,Function.update_self,Option.isSome_none,Option.isSome_some,
      Bool.false_eq_true,if_false,if_true]
    omega
  | answer held | raised held =>
    have free := (fits _ _ held).1
    obtain ⟨kept,others⟩ := fits.change ((pool.setJob _ none).setOut _ (some _)) (n := 0)
      (fun other differ => ⟨setJob_other differ,setOut_other differ⟩) fun job now => by cases setJob_self.symm.trans now
    refine ⟨_,kept,others,?_⟩
    simp [Pool.share,Work.task,Work.dies,Pool.setJob,Pool.setOut,held,free]
  | @die task job held =>
    have free := (fits _ _ held).1
    obtain ⟨kept,others⟩ := fits.change (pool.setJob task none) (n := 0)
      (fun other differ => ⟨setJob_other differ,rfl⟩) fun job now => by cases setJob_self.symm.trans now
    refine ⟨_,kept,others,?_⟩
    simp only [Pool.share,Work.task,Work.dies,Pool.setJob,held,free,Function.update_self,Option.isSome_none,Option.isSome_some,
      Bool.false_eq_true,if_false,if_true]
    omega
  | @lose task waits unheld unanswered =>
    obtain ⟨kept,others⟩ := fits.change (pool.setOut task (some .lost)) (n := 0)
      (fun other differ => ⟨rfl,setOut_other differ⟩) fun job now => by cases unheld.symm.trans now
    refine ⟨_,kept,others,?_⟩
    simp [Pool.share,Work.task,Work.dies,Pool.setOut,unheld,unanswered]

end

-- What each task's program sees of the store, and what is to hold of the store
-- and of its answer. A view is a part of the store; `apart` tells which programs
-- leave it alone.
structure Rules (program : Worker → Task → Program Disk Error Result) (View : Type) where
  same : View → Disk → Disk → Prop
  sees : Task → View
  post : Task → Disk → Except Error Result → Prop
  apart : Task → View → Prop
  looks : ∀ worker task, (program worker task).Sees (same (sees task))
  spares : ∀ worker task view, apart task view → (program worker task).Spares (same view)
  -- The promise rests on what the task sees alone.
  rests : ∀ task a b result, same (sees task) a b → post task a result → post task b result

section
variable {program : Worker → Task → Program Disk Error Result} {View : Type}

-- The rest of a program still does what the whole was to do.
structure Rules.Keeps (rules : Rules program View) (task : Task) (disk : Disk) (job : Program Disk Error Result) : Prop where
  looks : job.Sees (rules.same (rules.sees task))
  spares : ∀ view, rules.apart task view → job.Spares (rules.same view)
  ends : rules.post task (job.alone disk).1 (job.alone disk).2

variable {rules : Rules program View}

theorem Rules.Keeps.started (worker : Worker)
    (ends : rules.post task ((program worker task).alone disk).1 ((program worker task).alone disk).2) :
    rules.Keeps task disk (program worker task) :=
  ⟨rules.looks worker task,rules.spares worker task,ends⟩

theorem Rules.Keeps.acted {change : Disk → Disk} (keeps : rules.Keeps task disk (.act change next)) :
    rules.Keeps task (change disk) (next disk) :=
  ⟨keeps.looks.2 disk,fun view away => (keeps.spares view away disk).2,keeps.ends⟩

theorem Rules.Keeps.moved (keeps : rules.Keeps task disk job) (same : rules.same (rules.sees task) disk later) :
    rules.Keeps task later job := by
  refine ⟨keeps.looks,keeps.spares,?_⟩
  obtain ⟨alike,equal⟩ := keeps.looks.alone same
  rw [← equal]
  exact rules.rests _ _ _ _ alike keeps.ends

theorem Rules.Keeps.unseen {change : Disk → Disk} (keeps : rules.Keeps task disk (.act change next)) (apart : rules.apart task view) :
    rules.same view disk (change disk) :=
  (keeps.spares view apart disk).1

end

end Jobs
