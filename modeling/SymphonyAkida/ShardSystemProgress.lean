import SymphonyAkida.ShardClientWork
import SymphonyAkida.ShardSystemRecords

namespace SymphonyAkida.ShardSystem
open TiledShard Outcome Jobs ShardClient

theorem sum_changed {f g : α → Nat} {l : List α} (distinct : l.Nodup) (member : a ∈ l) (others : ∀ b, b ≠ a → g b = f b)
    (one : g a+1 ≤ f a+k) : (l.map g).sum+1 ≤ (l.map f).sum+k := by
  induction l with
  | nil => cases member
  | cons b l ih =>
    obtain ⟨fresh,distinct⟩ := List.nodup_cons.mp distinct
    simp only [List.map_cons,List.sum_cons]
    rcases List.mem_cons.mp member with rfl | later
    · have rest : l.map g = l.map f := List.map_congr_left fun c inside => others c fun same => fresh (same ▸ inside)
      rw [rest]
      omega
    · have smaller := ih distinct later
      rw [others b fun same => fresh (same ▸ later)]
      omega

section
variable (setup : Setup)

theorem save_within {next : Job} (later : next.Within n) : (save directory path file next).Within (n+2) := by
  refine ⟨by omega,fun disk => ?_⟩
  dsimp only
  split
  · exact ⟨by omega,fun _ => later⟩
  · trivial

theorem saveCrops_within {next : Job} (later : next.Within n) (crops : List (Image size size 3)) (base : Nat) :
    (saveCrops directory next base crops).Within (n+2*crops.length) := by
  induction crops generalizing base with
  | nil => exact later
  | cons crop crops ih => exact save_within (ih (base+1))

theorem gather_within (i : Nat) (finish : List (TileEntry ℚ) → Except Error (Pipeline.Stitched ℚ)) (left : List Nat)
    (perTile : List (TileEntry ℚ)) : (gather setup i finish left perTile).Within left.length := by
  induction left generalizing perTile with
  | nil => trivial
  | cons index left ih =>
    refine ⟨Nat.succ_pos _,fun disk => ?_⟩
    dsimp only
    split
    · trivial
    · exact ih _

theorem program_within (worker : Worker) (task : Task) : (program setup worker task).Within (2*setup.nTiles+1) := by
  have least := nTiles_pos setup
  cases task with
  | seg i =>
    show (segmentJob setup i).Within _
    unfold segmentJob
    split
    · trivial
    · rename_i crops cut
      obtain ⟨_,_,_,_,_,_,size⟩ := cut_parts setup cut
      refine ⟨by omega,fun disk => ?_⟩
      have within : (saveCrops (setup.directory i) (.done (.ok {imageId := some i,ok := true})) 0 crops).Within (0+2*crops.length) :=
        saveCrops_within (by trivial) crops 0
      exact within.more (by omega)
  | inf i tile =>
    refine ⟨by omega,fun disk => ?_⟩
    dsimp only
    split
    · trivial
    · exact (save_within (n := 0) (by trivial)).more (by omega)
  | stitch i =>
    show (stitchJob setup i).Within _
    unfold stitchJob
    split
    · trivial
    · rename_i tiles built
      have count : tiles.length = setup.nTiles := Option.some.inj ((tileCount_layout built).symm.trans setup.counted)
      refine (gather_within setup i (setup.merged tiles) (List.range tiles.length) []).more ?_
      rw [List.length_range]
      omega

end

def tasks (s : State) : List Task :=
  s.segSess.pending.map .seg ++ (s.infSess.pending.map fun task => .inf (task.imageId.getD 0) task.tile) ++
    s.stitchSess.pending.map .stitch

theorem waiting_tasks (waits : waiting s task = true) : task ∈ tasks s := by
  cases task with
  | seg i => simpa [tasks] using waiting_seg.mp waits
  | inf i tile =>
    have member := waiting_inf.mp waits
    simp only [tasks,List.mem_append,List.mem_map]
    exact .inl (.inr ⟨_,member,rfl⟩)
  | stitch i => simpa [tasks] using waiting_stitch.mp waits

theorem tasks_nodup (ordered : Ordered c s) : (tasks s).Nodup := by
  have seg : s.segSess.pending.Nodup := (List.nodup_append.mp (ordered.seg.nodup_iff.mpr ordered.order.nodup)).2.1
  have inf : s.infSess.pending.Nodup := (List.nodup_append.mp (ordered.inf.nodup_iff.mpr ordered.numbered.distinct)).2.1
  have sent : s.stitchSess.submitted.Nodup := (List.nodup_append.mp ordered.lives.sound.dispatched.1).2.1
  have stitch : s.stitchSess.pending.Nodup := (List.nodup_append.mp (ordered.stitch.nodup_iff.mpr sent)).2.1
  refine List.nodup_append.mpr ⟨List.nodup_append.mpr ⟨seg.map fun _ _ same => Task.seg.inj same,?_,?_⟩,
    stitch.map fun _ _ same => Task.stitch.inj same,?_⟩
  · refine inf.map_on fun a here b there same => ?_
    obtain ⟨_,left,_⟩ := ordered.first.split a (ordered.inf.pending here)
    obtain ⟨_,right,_⟩ := ordered.first.split b (ordered.inf.pending there)
    cases a
    cases b
    simp_all
  · intro a left b right same
    obtain ⟨_,_,rfl⟩ := List.mem_map.mp left
    obtain ⟨_,_,rfl⟩ := List.mem_map.mp right
    cases same
  · intro a left b right same
    obtain ⟨_,_,rfl⟩ := List.mem_map.mp right
    subst same
    simp at left

theorem thread_tasks {thread : Thread} (step : Step c s thread.action next) :
    tasks next = tasks s ∨ ∃ task, (tasks next).Perm (task :: tasks s) := by
  have mid : ∀ (a b c : List Task) (task : Task), (a ++ (task :: b) ++ c).Perm (task :: (a ++ b ++ c)) := by
    intro a b c task
    rw [List.append_assoc,List.append_assoc,List.cons_append]
    exact List.perm_middle
  generalize same : thread.action = action at step
  cases step with
  | @send i pc => exact .inr ⟨.seg i,.refl _⟩
  | @tileSend imageId tile pc more => exact .inr ⟨.inf (imageId.getD 0) tile,mid _ _ _ _⟩
  | @stitchSend i pc => exact .inr ⟨.stitch i,List.perm_middle⟩
  | segFetch | infFetch | stitchFetch => cases thread <;> cases same
  | segFinish pc ran | infFinish pc ran | stitchFinish pc ran =>
    have lanes := finish_lanes ran
    exact .inl (by simp only [tasks,lanes.segSess,lanes.infSess,lanes.stitchSess])
  | infOk pc good named got | infFailed pc bad got =>
    obtain ⟨_,_,rfl⟩ := got_only got
    exact .inl rfl
  | _ => exact .inl rfl

theorem fetch_tasks {output : Output Error Reply} (step : Step c s (fetchOf task output) next) : (tasks s).Perm (task :: tasks next) := by
  have taken : ∀ {α : Type} [DecidableEq α] {session after : Session α} {own : α} {i : Nat},
      session.fetch (outOf i own output) false = some after → session.pending.Perm (own :: after.pending) := by
    intro α _ session after own i got
    obtain ⟨member,pending⟩ := fetch_once got rfl
    rw [task_outOf] at member pending
    rw [pending]
    exact List.perm_cons_erase member
  cases task with
  | seg i =>
    cases step with
    | segFetch pc more got => exact (((taken got).map _).append_right _).append_right _
  | inf i tile =>
    cases step with
    | infFetch pc more got =>
      exact ((((taken got).map _).append_left _).append_right _).trans ((List.perm_middle).append_right _)
  | stitch i =>
    cases step with
    | stitchFetch pc got => exact (((taken got).map _).append_left _).trans List.perm_middle

section
variable {setup : Setup} {sys next : Sys}

-- An upper bound of the steps left. A step of the client may send a task on,
-- for which a service takes up to 2n+3 steps.
def load (setup : Setup) (sys : Sys) (left : Task → Nat) : Nat :=
  (2*setup.nTiles+4)*stepsLeft setup.config sys.client+((tasks sys.client).map (sys.pool.share (2*setup.nTiles+1) left)).sum

def Action.dies : Action → Bool
  | .service work => work.dies
  | _ => false

theorem client_load {left : Task → Nat} (fits : sys.pool.Fits (2*setup.nTiles+1) left)
    (step : Step setup.config sys.client (Thread.action thread) client) :
    load setup {sys with client := client,disk := disk} left+1 ≤ load setup sys left := by
  have less : stepsLeft setup.config client+1 ≤ stepsLeft setup.config sys.client := step_left step (by cases thread <;> trivial)
  have scaled := Nat.mul_le_mul_left (2*setup.nTiles+4) less
  rw [Nat.mul_succ] at scaled
  unfold load
  rcases thread_tasks step with same | ⟨task,perm⟩
  · simp only [same]
    omega
  · have share := fits.share_le task
    have sum := (perm.map (sys.pool.share (2*setup.nTiles+1) left)).sum_nat
    simp only [List.map_cons,List.sum_cons] at sum
    simp only [sum]
    omega

theorem fetch_load {left : Task → Nat} (ordered : Ordered setup.config sys.client) (fits : sys.pool.Fits (2*setup.nTiles+1) left)
    (held : sys.pool.outs task = some output) (step : Step setup.config sys.client (fetchOf task output) client) :
    (sys.pool.setOut task none).Fits (2*setup.nTiles+1) left ∧
      load setup {sys with client := client,pool := sys.pool.setOut task none} left+1 ≤ load setup sys left := by
  have less : stepsLeft setup.config client+1 ≤ stepsLeft setup.config sys.client := step_left step (by cases task <;> rfl)
  have scaled := Nat.mul_le_mul_left (2*setup.nTiles+4) less
  rw [Nat.mul_succ] at scaled
  have perm := fetch_tasks step
  have fresh : task ∉ tasks client := (List.nodup_cons.mp (perm.nodup_iff.mp (tasks_nodup ordered))).1
  have sum := (perm.map (sys.pool.share (2*setup.nTiles+1) left)).sum_nat
  have rest : (tasks client).map ((sys.pool.setOut task none).share (2*setup.nTiles+1) left) =
      (tasks client).map (sys.pool.share (2*setup.nTiles+1) left) := by
    refine List.map_congr_left fun other inside => ?_
    have differ : other ≠ task := fun same => fresh (same ▸ inside)
    unfold Pool.share
    rw [setOut_other differ]
    rfl
  refine ⟨fun other job found => ?_,?_⟩
  · obtain ⟨free,within,bound⟩ := fits other job found
    by_cases same : other = task
    · subst same
      exact absurd (held.symm.trans free) (by simp)
    · exact ⟨(setOut_other same).trans free,within,bound⟩
  · unfold load
    simp only [List.map_cons,List.sum_cons] at sum
    simp only [rest]
    omega

theorem step_load {left : Task → Nat} (inv : Inv setup sys) (fits : sys.pool.Fits (2*setup.nTiles+1) left)
    (taken : step setup sys action = some next) : ∃ rest, next.pool.Fits (2*setup.nTiles+1) rest ∧
      load setup next rest+1 ≤ load setup sys left+if action.dies then 2*setup.nTiles+3 else 0 := by
  cases action with
  | client thread =>
    obtain ⟨after,ran,rfl⟩ := Option.map_eq_some_iff.mp taken
    exact ⟨left,fits,client_load fits (step_sound ran)⟩
  | fetch task =>
    obtain ⟨output,held,taken⟩ := Option.bind_eq_some_iff.mp taken
    obtain ⟨after,ran,rfl⟩ := Option.map_eq_some_iff.mp taken
    exact ⟨left,fetch_load inv.ordered fits held (step_sound ran)⟩
  | service work =>
    obtain ⟨⟨pool,disk⟩,ran,rfl⟩ := Option.map_eq_some_iff.mp taken
    have step := Jobs.step_sound _ _ ran
    obtain ⟨rest,kept,others,one⟩ := Pool.Fits.step _ _ (program_within setup) fits step
    have waits : waiting sys.client work.task = true := by
      cases step with
      | take waits | lose waits => exact waits
      | act held | answer held | raised held | die held => exact (inv.jobs _ _ held).1
    have sum := sum_changed (tasks_nodup inv.ordered) (waiting_tasks waits) others one
    refine ⟨rest,kept,?_⟩
    unfold load
    cases dies : work.dies with
    | true =>
      simp only [Action.dies,dies,if_true] at sum ⊢
      omega
    | false =>
      simp only [Action.dies,dies,Bool.false_eq_true,if_false] at sum ⊢
      omega

-- A run is finite: what a thread, a service or the network does brings the end
-- nearer, and a death costs the services at most the steps of one task.
theorem run_bounded (small : setup.meta_.numClasses ≤ 2^24) (ran : Runs.run (step setup) (setup.start disk) actions = some sys) :
    actions.length ≤ (2*setup.nTiles+4)*(setup.count*(11*setup.nTiles+8)+6)+(2*setup.nTiles+3)*actions.countP Action.dies := by
  have bound : ∀ (from_ : Sys) (left : Task → Nat), Along false setup from_ → from_.pool.Fits (2*setup.nTiles+1) left →
      Runs.run (step setup) from_ actions = some sys →
      actions.length ≤ load setup from_ left+(2*setup.nTiles+3)*actions.countP Action.dies := by
    clear ran
    induction actions with
    | nil => intro from_ left _ _ _; exact Nat.zero_le _
    | cons action actions ih =>
      intro from_ left along fits ran
      obtain ⟨middle,taken,later⟩ := Option.bind_eq_some_iff.mp ran
      obtain ⟨rest,kept,less⟩ := step_load along.inv fits taken
      have tail := ih middle rest (step_along small along (fun given => by cases given) taken) kept later
      rw [List.length_cons,List.countP_cons]
      cases dies : action.dies with
      | true =>
        simp only [dies,if_true,Nat.mul_succ] at less ⊢
        omega
      | false =>
        simp only [dies,Bool.false_eq_true,if_false,Nat.add_zero] at less ⊢
        omega
  have first := bound (setup.start disk) (fun _ => 0) (reached_along small .refl) (fun _ _ held => by cases held) ran
  have start : load setup (setup.start disk) (fun _ => 0) = (2*setup.nTiles+4)*(setup.count*(11*setup.nTiles+8)+6) := by
    show (2*setup.nTiles+4)*stepsLeft setup.config (ShardClient.start setup.config)+0 = _
    rw [stepsLeft_start]
    rfl
  rwa [start] at first

theorem run_bounded_person : (Runs.run (step (twoSetup true)) ((twoSetup true).start emptyDisk) wholeRun).isSome ∧
    wholeRun.length ≤ 14*(2*63+6)+13*wholeRun.countP Action.dies := by
  have whole : (Runs.run (step (twoSetup true)) ((twoSetup true).start emptyDisk) wholeRun).isSome := by decide +kernel
  obtain ⟨sys,ran⟩ := Option.isSome_iff_exists.mp whole
  have bound := run_bounded (show (twoSetup true).meta_.numClasses ≤ 2^24 by decide) ran
  exact ⟨whole,by simpa only [twoSetup] using bound⟩

-- What goes on by itself: a thread other than the watchdog, a fetch, a service
-- at work.
def Action.goes : Action → Bool
  | .client .watchdog => false
  | .client _ | .fetch _ => true
  | .service (.take _ _) | .service (.act _) | .service (.answer _) => true
  | .service _ => false

theorem client_goes (thread : Thread) (other : thread ≠ .watchdog)
    (enabled : (ShardClient.step setup.config sys.client thread.action).isSome) :
    ∃ action, action.goes = true ∧ (step setup sys action).isSome := by
  refine ⟨.client thread,?_,?_⟩
  · cases thread with
    | watchdog => exact absurd rfl other
    | _ => rfl
  · simpa [step] using enabled

theorem task_goes (task : Task) (worker : Worker) (waits : waiting sys.client task = true)
    (fetch : ∀ output, (ShardClient.step setup.config sys.client (fetchOf task output)).isSome) :
    ∃ action, action.goes = true ∧ (step setup sys action).isSome := by
  cases outs : sys.pool.outs task with
  | some output =>
    refine ⟨.fetch task,rfl,?_⟩
    obtain ⟨after,ran⟩ := Option.isSome_iff_exists.mp (fetch output)
    simp [step,outs,ran]
  | none =>
    cases job : sys.pool.jobs task with
    | none => exact ⟨.service (.take task worker),rfl,by simp [step,Pool.step,Pool.idle,waits,outs,job]⟩
    | some program =>
      cases program with
      | done result => exact ⟨.service (.answer task),rfl,by simp [step,Pool.step,job]⟩
      | act change next => exact ⟨.service (.act task),rfl,by simp [step,Pool.step,job]⟩

theorem handling_goes (handling : Handling sys.client) : ∃ action, action.goes = true ∧ (step setup sys action).isSome := by
  rcases handling with busy | busy | busy | busy
  · refine client_goes .segSubmit (by simp) ?_
    cases pc : sys.client.submitter <;> simp_all [SubmitPc.busy,ShardClient.step,Thread.action,segSubmit]
  · refine client_goes .segNext (by simp) ?_
    cases pc : sys.client.seg <;> simp_all [SegPc.busy,ShardClient.step,Thread.action,segNext]
    all_goals split <;> rfl
  · refine client_goes .infNext (by simp) ?_
    cases pc : sys.client.inf <;> simp_all [InfPc.busy,ShardClient.step,Thread.action,infNext]
    all_goals split <;> [split <;> rfl; rfl]
  · refine client_goes .stitchNext (by simp) ?_
    cases pc : sys.client.stitch <;> simp_all [StitchPc.busy,ShardClient.step,Thread.action,stitchNext]
    all_goals split <;> [split <;> rfl; rfl]

theorem fetchable_goes (worker : Worker) (ordered : Ordered setup.config sys.client) (fetchable : Fetchable setup.config sys.client) :
    ∃ action, action.goes = true ∧ (step setup sys action).isSome := by
  rcases fetchable with ⟨waits,pc,more⟩ | ⟨waits,pc,more⟩ | ⟨waits,⟨pc,running⟩ | pc⟩
  · obtain ⟨i,member,fetched⟩ := fetch_pending waits
    refine task_goes (.seg i) worker (waiting_seg.mpr member) fun output => ?_
    have got := fetched (outOf i i output) (task_outOf ..)
    simpa [fetchOf,ShardClient.step,segFetch,pc,more] using got
  · obtain ⟨⟨imageId,tile⟩,member,fetched⟩ := fetch_pending waits
    obtain ⟨i,rfl,_⟩ := ordered.first.split _ (ordered.inf.pending member)
    refine task_goes (.inf i tile) worker (waiting_inf.mpr member) fun output => ?_
    have got := fetched (outOf i ⟨some i,tile⟩ output) (task_outOf ..)
    simpa [fetchOf,ShardClient.step,infFetch,pc,more] using got
  · exact client_goes .stitchNext (by simp) (by simp [ShardClient.step,Thread.action,stitchNext,pc,running])
  · obtain ⟨i,member,fetched⟩ := fetch_pending waits
    refine task_goes (.stitch i) worker (waiting_stitch.mpr member) fun output => ?_
    have got := fetched (outOf i i output) (task_outOf ..)
    simpa [fetchOf,ShardClient.step,stitchFetch,pc] using got

theorem permit_goes (free : PermitFree setup.config sys.client) : ∃ action, action.goes = true ∧ (step setup sys action).isSome := by
  obtain ⟨i,pc,left,some⟩ := free
  exact client_goes .segSubmit (by simp) (by simp [ShardClient.step,Thread.action,segSubmit,pc,left,some])

-- As long as a frame is unfinished and the watchdog has not given up, something
-- can go on, whatever raised, died or was taken up again before.
theorem never_stuck (small : setup.meta_.numClasses ≤ 2^24) (worker : Worker) (places : 1 ≤ setup.inFlight)
    (path : Runs.Reached (step setup) (fun _ action => ¬action.loses) (setup.start disk) sys)
    (pending : sys.client.totals.imgDone < setup.count) (fresh : sys.client.stalled = false) :
    ∃ action, action.goes = true ∧ (step setup sys action).isSome := by
  have along : Along true setup sys := reached_along small (path.weaken fun _ _ keeps _ => keeps)
  have unblocked := (reached_progress along.client).unblocked places (nTiles_pos setup) pending fresh
  exact unblocked.elim permit_goes (Or.elim · handling_goes (fetchable_goes worker along.inv.ordered))

end

-- The segmenter of frame 0 has just died.
theorem never_stuck_person : ∃ sys : Sys, (sys.pool.jobs (.seg 0)).isNone ∧ waiting sys.client (.seg 0) = true ∧
    ∃ action, action.goes = true ∧ (step (twoSetup true) sys action).isSome := by
  obtain ⟨sys,path,early⟩ := Runs.run_witness (step (twoSetup true)) (fun _ action => ¬action.loses)
    ((twoSetup true).start emptyDisk) (fun _ action => action.calm)
    (fun sys => (sys.pool.jobs (.seg 0)).isNone && waiting sys.client (.seg 0) && decide (sys.client.totals.imgDone < 2) &&
      !sys.client.stalled) (wholeRun.take 9) (by decide +kernel) fun _ _ _ calm => calm_keeps calm
  simp only [Bool.and_eq_true,decide_eq_true_eq,Bool.not_eq_true'] at early
  obtain ⟨⟨⟨dead,waits⟩,pending⟩,fresh⟩ := early
  exact ⟨sys,dead,waits,never_stuck (show (twoSetup true).meta_.numClasses ≤ 2^24 by decide) worker (by decide) path pending fresh⟩

end SymphonyAkida.ShardSystem
