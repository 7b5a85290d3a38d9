import SymphonyAkida.ShardSystemSpec

namespace SymphonyAkida.ShardSystem
open TiledShard Outcome Jobs ShardClient

def Took (s : State) (task : Task) (good : Bool) (ack : Reply) : Prop :=
  match task with
  | .seg i => ∃ out ∈ s.segSess.fetched, out.task = i ∧ out.good = good ∧ reply out = ack
  | .inf i tile => ∃ out ∈ s.infSess.fetched, out.task = ⟨some i,tile⟩ ∧ out.good = good ∧ reply out = ack
  | .stitch i => ∃ out ∈ s.stitchSess.fetched, out.task = i ∧ out.good = good ∧ reply out = ack

theorem waiting_seg : waiting s (.seg i) = true ↔ i ∈ s.segSess.pending := List.contains_iff_mem
theorem waiting_inf : waiting s (.inf i tile) = true ↔ ⟨some i,tile⟩ ∈ s.infSess.pending := List.contains_iff_mem
theorem waiting_stitch : waiting s (.stitch i) = true ↔ i ∈ s.stitchSess.pending := List.contains_iff_mem

def Submitted (s : State) : Task → Prop
  | .seg i => i ∈ s.segSess.submitted
  | .inf i tile => ⟨some i,tile⟩ ∈ s.infSess.submitted
  | .stitch i => i ∈ s.stitchSess.submitted

def Present (s : State) (task : Task) : Prop := waiting s task = true ∨ ∃ ack, Took s task true ack

theorem Present.submitted (ordered : Ordered c s) (present : Present s task) : Submitted s task := by
  cases task with
  | seg i =>
    rcases present with waits | ⟨_,out,member,rfl,_⟩
    · exact ordered.seg.pending (waiting_seg.mp waits)
    · exact ordered.seg.answered member
  | inf i tile =>
    rcases present with waits | ⟨_,out,member,task,_⟩
    · exact ordered.inf.pending (waiting_inf.mp waits)
    · have sent := ordered.inf.answered member
      rw [task] at sent
      exact sent
  | stitch i =>
    rcases present with waits | ⟨_,out,member,rfl,_⟩
    · exact ordered.stitch.pending (waiting_stitch.mp waits)
    · exact ordered.stitch.answered member

theorem Took.fresh {ack : Reply} (ordered : Ordered c s) (took : Took s task good ack) : waiting s task = false := by
  rw [← Bool.not_eq_true]
  intro waits
  cases task with
  | seg i =>
    obtain ⟨out,member,same,_⟩ := took
    exact (ordered.segOut (waiting_seg.mp waits)).fresh out member same
  | inf i tile =>
    obtain ⟨out,member,same,_⟩ := took
    exact (ordered.infOut (waiting_inf.mp waits)).fresh out member same
  | stitch i =>
    obtain ⟨out,member,same,_⟩ := took
    exact (ordered.stitchOut (waiting_stitch.mp waits)).fresh out member same

-- A frame with a task out still has its directory.
theorem waiting_unremoved (ordered : Ordered c s) (waits : waiting s task = true) : task.frame ∉ s.removed := by
  cases task with
  | seg i => exact (ordered.segOut (waiting_seg.mp waits)).removed
  | inf i tile => exact (ordered.infOut (waiting_inf.mp waits)).removed
  | stitch i => exact (ordered.stitchOut (waiting_stitch.mp waits)).removed

section
variable (setup : Setup)

theorem path_frame {i j : Nat} (same : Pipeline.join (setup.directory i) a = Pipeline.join (setup.directory j) b) : i = j := by
  have mine := under_path setup i i a
  rw [same,under_path] at mine
  simpa using mine

theorem seg_paths {i j k l : Nat} (same : Pipeline.segPath (setup.directory i) k = Pipeline.segPath (setup.directory j) l) : i = j :=
  path_frame setup same

theorem det_paths {i j k l : Nat} (same : Pipeline.detPath (setup.directory i) k = Pipeline.detPath (setup.directory j) l) :
    i = j ∧ k = l := by
  have frame := path_frame setup same
  subst frame
  exact ⟨rfl,Pipeline.detPath_inj same⟩

theorem seg_det_paths {i j k l : Nat} : Pipeline.segPath (setup.directory i) k ≠ Pipeline.detPath (setup.directory j) l := by
  intro same
  have frame := path_frame setup same
  subst frame
  exact Pipeline.seg_det _ _ _ same

-- A task writes nothing that another frame's tasks look at.
theorem apart_frames (task other : Task) (differ : task.frame ≠ other.frame) : setup.apart task (setup.sees other) := by
  cases task with
  | seg i =>
    refine ⟨fun same => ?_,fun k inside => ?_⟩
    · cases other <;> exact differ (directory_inj setup same).symm
    · cases other with
      | seg j => obtain ⟨l,same⟩ := inside; exact differ (seg_paths setup same)
      | inf j tile => exact inside.elim (fun same => differ (seg_paths setup same)) (fun same => seg_det_paths setup same)
      | stitch j => obtain ⟨l,same⟩ := inside; exact seg_det_paths setup same
  | inf i tile =>
    intro inside
    cases other with
    | seg j => obtain ⟨l,same⟩ := inside; exact seg_det_paths setup same.symm
    | inf j other => exact inside.elim (fun same => seg_det_paths setup same.symm) (fun same => differ (det_paths setup same).1)
    | stitch j => obtain ⟨l,same⟩ := inside; exact differ (det_paths setup same).1
  | stitch i => trivial

-- Nor what a task of its own frame looks at, while that task is out or its
-- answer still counts: the client sends a task only once those it builds on
-- are answered.
theorem apart_present {task other : Task} (ordered : Ordered c s) (waits : waiting s task = true) (differ : other ≠ task)
    (present : Present s other) : setup.apart task (setup.sees other) := by
  by_cases frame : task.frame = other.frame
  · have sent := present.submitted ordered
    cases task with
    | seg i =>
      have early := ordered.segOut (waiting_seg.mp waits)
      cases other with
      | seg j =>
        have same : i = j := frame
        exact absurd (same ▸ rfl) differ
      | inf j tile =>
        have same : i = j := frame
        exact absurd (same ▸ rfl) (early.tiles _ sent)
      | stitch j =>
        have same : i = j := frame
        exact absurd sent (same ▸ early.stitch)
    | inf i tile =>
      intro inside
      cases other with
      | seg j => obtain ⟨l,same⟩ := inside; exact seg_det_paths setup same.symm
      | inf j other =>
        rcases inside with same | same
        · exact seg_det_paths setup same.symm
        · obtain ⟨rfl,rfl⟩ := det_paths setup same
          exact differ rfl
      | stitch j =>
        have same : i = j := frame
        exact (ordered.infOut (waiting_inf.mp waits)).stitch (same ▸ sent)
    | stitch i => trivial
  · exact apart_frames setup task other frame

end

def Sends (session next : Session α) : Prop := next = session ∨ ∃ task, next = session.send task

theorem Sends.fetched {session next : Session α} (sends : Sends session next) : next.fetched = session.fetched := by
  rcases sends with rfl | ⟨task,rfl⟩ <;> rfl

theorem Sends.pending {session next : Session α} (sends : Sends session next) (waits : task ∈ session.pending) :
    task ∈ next.pending := by
  rcases sends with rfl | ⟨other,rfl⟩
  · exact waits
  · exact List.mem_cons_of_mem _ waits

structure ThreadStep (s : State) (thread : Thread) (next : State) : Prop where
  seg : Sends s.segSess next.segSess
  inf : Sends s.infSess next.infSess
  stitch : Sends s.stitchSess next.stitchSess
  removed : next.removed = (removes s thread).toList ++ s.removed
  removing : ∀ i, removes s thread = some i → Removing s i

theorem finish_removed (ran : FinishStep c s at_ after flow) : after.removed = (Finish.removes at_).toList ++ s.removed := by
  cases ran with
  | mark | unknown => rw [countFinished_eq]; rfl
  | _ => rfl

theorem Finish.removes_some (removes : Finish.removes at_ = some i) : at_ = .remove (some i) := by
  cases at_ with
  | remove imageId => exact congrArg _ removes
  | _ => cases removes

theorem thread_step (step : Step c s thread.action next) : ThreadStep s thread next := by
  have same : ∀ {α : Type} (session : Session α), Sends session session := fun _ => .inl rfl
  cases thread with
  | segSubmit =>
    cases step with
    | send pc => exact ⟨.inr ⟨_,rfl⟩,.inl rfl,.inl rfl,rfl,fun i removes => by cases removes⟩
    | _ => exact ⟨.inl rfl,.inl rfl,.inl rfl,rfl,fun i removes => by cases removes⟩
  | segNext =>
    cases step with
    | tileSend pc more => exact ⟨.inl rfl,.inr ⟨_,rfl⟩,.inl rfl,by simp [removes,pc],fun i some => by simp [removes,pc] at some⟩
    | @segFinish at_ after flow pc ran =>
      have lanes := finish_lanes ran
      refine ⟨.inl lanes.segSess,.inl lanes.infSess,.inl lanes.stitchSess,?_,fun i some => ?_⟩
      · simpa [removes,pc] using finish_removed ran
      · obtain rfl : at_ = .remove (Option.some i) := Finish.removes_some (by simpa [removes,pc] using some)
        exact .inl pc
    | segExit pc | segFailed pc | segSplit pc | tilesSent pc =>
      exact ⟨.inl rfl,.inl rfl,.inl rfl,by simp [removes,pc],fun i some => by simp [removes,pc] at some⟩
  | infNext =>
    cases step with
    | stitchSend pc => exact ⟨.inl rfl,.inl rfl,.inr ⟨_,rfl⟩,by simp [removes,pc],fun i some => by simp [removes,pc] at some⟩
    | @infFinish at_ after flow pc ran =>
      have lanes := finish_lanes ran
      refine ⟨.inl lanes.segSess,.inl lanes.infSess,.inl lanes.stitchSess,?_,fun i some => ?_⟩
      · simpa [removes,pc] using finish_removed ran
      · obtain rfl : at_ = .remove (Option.some i) := Finish.removes_some (by simpa [removes,pc] using some)
        exact .inr (.inl pc)
    | infOk pc good named got | infFailed pc bad got =>
      obtain ⟨_,_,rfl⟩ := got_only got
      exact ⟨.inl rfl,.inl rfl,.inl rfl,by simp [removes,pc,countTile,countTask,countErr],fun i some => by simp [removes,pc] at some⟩
    | infExit pc | infNoHost pc =>
      exact ⟨.inl rfl,.inl rfl,.inl rfl,by simp [removes,pc,countTask],fun i some => by simp [removes,pc] at some⟩
  | stitchNext =>
    cases step with
    | @stitchFinish at_ after flow pc ran =>
      have lanes := finish_lanes ran
      refine ⟨.inl lanes.segSess,.inl lanes.infSess,.inl lanes.stitchSess,?_,fun i some => ?_⟩
      · simpa [removes,pc] using finish_removed ran
      · obtain rfl : at_ = .remove (Option.some i) := Finish.removes_some (by simpa [removes,pc] using some)
        exact .inr (.inr pc)
    | stitchPoll pc | stitchExit pc | stitchLeave pc | stitchDump pc | stitchCount pc | stitchFailed pc | dumped pc =>
      exact ⟨.inl rfl,.inl rfl,.inl rfl,by simp [removes,pc,recordReply],fun i some => by simp [removes,pc] at some⟩
  | watchdog => cases step; exact ⟨.inl rfl,.inl rfl,.inl rfl,rfl,fun i removes => by cases removes⟩

theorem ThreadStep.waiting (step : ThreadStep s thread next) (waits : ShardSystem.waiting s task = true) :
    ShardSystem.waiting next task = true := by
  cases task with
  | seg i => exact waiting_seg.mpr (step.seg.pending (waiting_seg.mp waits))
  | inf i tile => exact waiting_inf.mpr (step.inf.pending (waiting_inf.mp waits))
  | stitch i => exact waiting_stitch.mpr (step.stitch.pending (waiting_stitch.mp waits))

theorem ThreadStep.took {ack : Reply} (step : ThreadStep s thread next) : Took next task good ack ↔ Took s task good ack := by
  cases task with
  | seg i => simp only [Took,step.seg.fetched]
  | inf i tile => simp only [Took,step.inf.fetched]
  | stitch i => simp only [Took,step.stitch.fetched]

structure FetchStep (s : State) (task : Task) (output : Output Error Reply) (next : State) : Prop where
  waiting : ∀ other, other ≠ task → waiting s other = true → waiting next other = true
  took : ∀ other good ack, Took next other good ack → Took s other good ack ∨
    other = task ∧ (outOf task.frame task output).good = good ∧ reply (outOf task.frame task output) = ack
  removed : next.removed = s.removed

theorem task_outOf (i : Nat) (task : α) (output : Output Error Reply) : (outOf i task output).task = task := by
  cases output <;> rfl

theorem good_outOf (i : Nat) (task : α) (other : β) (output : Output Error Reply) :
    (outOf i task output).good = (outOf i other output).good := by cases output <;> rfl

theorem reply_outOf (i : Nat) (task : α) (other : β) (output : Output Error Reply) :
    reply (outOf i task output) = reply (outOf i other output) := by cases output <;> rfl

theorem fetch_session [DecidableEq α] {session next : Session α} {task : α}
    (got : session.fetch (outOf i task output) false = some next) :
    (∀ other, other ≠ task → other ∈ session.pending → other ∈ next.pending) ∧
      ∀ out ∈ next.fetched, out ∈ session.fetched ∨ out = outOf i task output := by
  obtain ⟨_,pending⟩ := fetch_once got rfl
  obtain ⟨_,_,fetched,_⟩ := fetch_parts got
  rw [task_outOf] at pending
  refine ⟨fun other differ waits => ?_,fun out member => ?_⟩
  · rw [pending]
    exact (List.mem_erase_of_ne differ).mpr waits
  · rw [fetched] at member
    exact (List.mem_cons.mp member).symm

theorem fetch_step (step : Step c s (fetchOf task output) next) : FetchStep s task output next := by
  cases task with
  | seg i =>
    cases step with
    | segFetch pc more got =>
      obtain ⟨left,came⟩ := fetch_session got
      refine ⟨fun other differ waits => ?_,fun other good ack took => ?_,rfl⟩
      · cases other with
        | seg j => exact waiting_seg.mpr (left j (fun same => differ (congrArg _ same)) (waiting_seg.mp waits))
        | _ => exact waits
      · cases other with
        | seg j =>
          obtain ⟨out,member,rfl,rest⟩ := took
          rcases came out member with old | rfl
          · exact .inl ⟨out,old,rfl,rest⟩
          · exact .inr ⟨congrArg _ (task_outOf ..),(good_outOf ..).trans rest.1,(reply_outOf ..).trans rest.2⟩
        | _ => exact .inl took
  | inf i tile =>
    cases step with
    | infFetch pc more got =>
      obtain ⟨left,came⟩ := fetch_session got
      refine ⟨fun other differ waits => ?_,fun other good ack took => ?_,rfl⟩
      · cases other with
        | inf j other =>
          exact waiting_inf.mpr (left _ (fun same => differ (by cases same; rfl)) (waiting_inf.mp waits))
        | _ => exact waits
      · cases other with
        | inf j other =>
          obtain ⟨out,member,same,rest⟩ := took
          rcases came out member with old | rfl
          · exact .inl ⟨out,old,same,rest⟩
          · rw [task_outOf] at same
            cases same
            exact .inr ⟨rfl,(good_outOf ..).trans rest.1,(reply_outOf ..).trans rest.2⟩
        | _ => exact .inl took
  | stitch i =>
    cases step with
    | stitchFetch pc got =>
      obtain ⟨left,came⟩ := fetch_session got
      refine ⟨fun other differ waits => ?_,fun other good ack took => ?_,rfl⟩
      · cases other with
        | stitch j => exact waiting_stitch.mpr (left j (fun same => differ (congrArg _ same)) (waiting_stitch.mp waits))
        | _ => exact waits
      · cases other with
        | stitch j =>
          obtain ⟨out,member,rfl,rest⟩ := took
          rcases came out member with old | rfl
          · exact .inl ⟨out,old,rfl,rest⟩
          · exact .inr ⟨congrArg _ (task_outOf ..),(good_outOf ..).trans rest.1,(reply_outOf ..).trans rest.2⟩
        | _ => exact .inl took

-- What the answer of a task says is still on the disk, or says nothing of it.
def Lasts (s : State) (task : Task) : Prop := task.frame ∉ s.removed ∨ ∃ i, task = .stitch i

-- Each job does what its program was to do, whoever else is at work, and what
-- was answered stands.
structure Inv (setup : Setup) (sys : Sys) : Prop where
  ordered : Ordered setup.config sys.client
  jobs : ∀ task job, sys.pool.jobs task = some job →
    waiting sys.client task = true ∧ sys.pool.outs task = none ∧ (rules setup).Keeps task sys.disk job
  outs : ∀ task output, sys.pool.outs task = some output → waiting sys.client task = true
  answers : ∀ task ack, sys.pool.outs task = some (.answered (.ok ack)) → Named task ack ∧ setup.Done sys.disk task ack
  took : ∀ task ack, Took sys.client task true ack → Lasts sys.client task → setup.Done sys.disk task ack

section
variable {setup : Setup} {sys next : Sys}

theorem initial_inv (setup : Setup) (disk : Disk) : Inv setup (setup.start disk) where
  ordered := initial_ordered setup.config
  jobs := by intro task job held; cases held
  outs := by intro task output held; cases held
  answers := by intro task ack held; cases held
  took := by
    intro task ack took
    cases task <;> obtain ⟨out,member,_⟩ := took <;> exact absurd member List.not_mem_nil

theorem done_agree {ack : Reply} (alike : task.frame ∉ s.removed → Agree (setup.sees task) a b) (lasts : Lasts s task)
    (done : setup.Done a task ack) : setup.Done b task ack := by
  rcases lasts with there | ⟨i,rfl⟩
  · exact done_rests setup ack (alike there) done
  · exact done

theorem rmtree_agree (setup : Setup) (disk : Disk) (task : Task) (differ : i ≠ task.frame) :
    Agree (setup.sees task) disk (disk.rmtree (setup.directory i)) := by
  have outside : ∀ path, (setup.sees task).paths path → under (setup.directory i) path = false := by
    intro path inside
    have frame : ∃ name, path = Pipeline.join (setup.directory task.frame) name := by
      cases task with
      | seg j => obtain ⟨k,rfl⟩ := inside; exact ⟨_,rfl⟩
      | inf j tile => exact inside.elim (fun same => ⟨_,same⟩) (fun same => ⟨_,same⟩)
      | stitch j => obtain ⟨k,rfl⟩ := inside; exact ⟨_,rfl⟩
    obtain ⟨name,rfl⟩ := frame
    rw [under_path]
    exact decide_eq_false differ
  have home : (setup.sees task).directory = setup.directory task.frame := by cases task <;> rfl
  refine ⟨?_,fun path inside => ?_⟩
  · have other : setup.directory task.frame ≠ setup.directory i := fun same => differ (directory_inj setup same).symm
    simp [Disk.rmtree,home,other,directory_under]
  · simp [Disk.rmtree,outside path inside]

theorem thread_inv (inv : Inv setup sys) (ordered : Ordered setup.config client) (step : ThreadStep sys.client thread client) :
    Inv setup {sys with client := client
                        disk := (removes sys.client thread).elim sys.disk fun i => sys.disk.rmtree (setup.directory i)} := by
  have alike : ∀ task : Task, task.frame ∉ client.removed → Agree (setup.sees task) sys.disk
      ((removes sys.client thread).elim sys.disk fun i => sys.disk.rmtree (setup.directory i)) := by
    intro task there
    rw [step.removed] at there
    cases gone : removes sys.client thread with
    | none => exact ⟨rfl,fun _ _ => rfl⟩
    | some i =>
      rw [gone] at there
      exact rmtree_agree setup sys.disk task fun same => there (same ▸ List.mem_cons_self)
  refine ⟨ordered,fun task job held => ?_,fun task output held => step.waiting (inv.outs task output held),
    fun task ack held => ?_,fun task ack took lasts => ?_⟩
  · obtain ⟨waits,free,keeps⟩ := inv.jobs task job held
    have waits := step.waiting waits
    exact ⟨waits,free,keeps.moved (alike task (waiting_unremoved ordered waits))⟩
  · obtain ⟨named,done⟩ := inv.answers task ack held
    have waits := step.waiting (inv.outs task _ held)
    exact ⟨named,done_rests setup ack (alike task (waiting_unremoved ordered waits)) done⟩
  · have before : Lasts sys.client task := lasts.imp_left fun there old => there (by
      rw [step.removed]
      exact List.mem_append_right _ old)
    exact done_agree (alike task) lasts (inv.took task ack (step.took.mp took) before)

theorem fetch_inv (inv : Inv setup sys) (ordered : Ordered setup.config client) (held : sys.pool.outs task = some output)
    (step : FetchStep sys.client task output client) :
    Inv setup {sys with client := client,pool := sys.pool.setOut task none} := by
  have unheld : sys.pool.jobs task = none := by
    cases job : sys.pool.jobs task with
    | none => rfl
    | some job' =>
      have free := (inv.jobs task job' job).2.1
      rw [held] at free
      cases free
  have others : ∀ other out, Function.update sys.pool.outs task none other = some out → other ≠ task ∧ sys.pool.outs other = some out := by
    intro other out found
    by_cases same : other = task
    · subst same
      rw [Function.update_self] at found
      cases found
    · rw [Function.update_of_ne same] at found
      exact ⟨same,found⟩
  refine ⟨ordered,fun other job found => ?_,fun other out found => ?_,fun other ack found => ?_,fun other ack took lasts => ?_⟩
  · have differ : other ≠ task := fun same => by rw [same] at found; exact absurd (unheld.symm.trans found) (by simp)
    obtain ⟨waits,free,keeps⟩ := inv.jobs other job found
    refine ⟨step.waiting other differ waits,?_,keeps⟩
    exact (Function.update_of_ne differ _ _).trans free
  · obtain ⟨differ,found⟩ := others other out found
    exact step.waiting other differ (inv.outs other out found)
  · exact inv.answers other ack (others other _ found).2
  · rcases step.took other true ack took with before | ⟨rfl,good,same⟩
    · exact inv.took other ack before (by unfold Lasts at lasts ⊢; rwa [step.removed] at lasts)
    · cases output with
      | lost => simp [outOf,Out.good] at good
      | answered result =>
        cases result with
        | error raised => simp [outOf,Out.good,reply,textOf] at good
        | ok given =>
          have equal : given = ack := same
          subst equal
          exact (inv.answers other given held).2

theorem job_ends (inv : Inv setup sys) (small : setup.meta_.numClasses ≤ 2^24) (waits : waiting sys.client task = true)
    (worker : Worker) : setup.post task ((program setup worker task).alone sys.disk).1 ((program setup worker task).alone sys.disk).2 := by
  have there := waiting_unremoved inv.ordered waits
  cases task with
  | seg i => exact segment_ends setup i sys.disk
  | inf i tile =>
    have early := inv.ordered.infOut (waiting_inf.mp waits)
    obtain ⟨_,named,out,member,same,good⟩ := early.split
    cases named
    have split := inv.took (.seg i) (reply out) ⟨out,member,same,good,rfl⟩ (.inl there)
    exact detect_ends setup worker split early.number
  | stitch i =>
    have early := inv.ordered.stitchOut (waiting_stitch.mp waits)
    have tiles : ∀ tile < setup.nTiles, ∃ ack, setup.Done sys.disk (.inf i tile) ack := by
      intro tile below
      obtain ⟨out,member,same,good⟩ := early.tiles tile below
      exact ⟨reply out,inv.took (.inf i tile) (reply out) ⟨out,member,same,good,rfl⟩ (.inl there)⟩
    obtain ⟨_,crops,cut,_⟩ := tiles 0 (nTiles_pos setup)
    exact stitch_ends setup small cut tiles

theorem answered_inv (inv : Inv setup sys) (held : sys.pool.jobs task = some job)
    (keeps : ∀ ack, output = .answered (.ok ack) → Named task ack ∧ setup.Done sys.disk task ack) :
    Inv setup {sys with pool := (sys.pool.setJob task none).setOut task (some output)} := by
  obtain ⟨waits,_,_⟩ := inv.jobs task job held
  refine ⟨inv.ordered,fun other job found => ?_,fun other out found => ?_,fun other ack found => ?_,inv.took⟩
  · by_cases same : other = task
    · subst same
      exact absurd (setJob_self.symm.trans found) (by simp)
    · obtain ⟨waits,free,keeps⟩ := inv.jobs other job ((setJob_other same).symm.trans found)
      exact ⟨waits,(setOut_other same).trans free,keeps⟩
  · by_cases same : other = task
    · subst same; exact waits
    · exact inv.outs other out ((setOut_other same).symm.trans found)
  · by_cases same : other = task
    · subst same
      exact keeps ack (Option.some.inj (setOut_self.symm.trans found))
    · exact inv.answers other ack ((setOut_other same).symm.trans found)

theorem service_inv (inv : Inv setup sys) (small : setup.meta_.numClasses ≤ 2^24)
    (step : PoolStep (program setup) (waiting sys.client) sys.pool sys.disk work pool disk) :
    Inv setup {sys with pool := pool,disk := disk} := by
  cases step with
  | @take task worker waits unheld unanswered =>
    refine ⟨inv.ordered,fun other job found => ?_,inv.outs,inv.answers,inv.took⟩
    by_cases same : other = task
    · subst same
      cases Option.some.inj (setJob_self.symm.trans found)
      exact ⟨waits,unanswered,.started worker (job_ends inv small waits worker)⟩
    · exact inv.jobs other job ((setJob_other same).symm.trans found)
  | @act task change following held =>
    obtain ⟨waits,free,keeps⟩ := inv.jobs _ _ held
    -- Only the task itself looks at what it changes.
    have alike : ∀ other, other ≠ task → Present sys.client other → Agree (setup.sees other) sys.disk (change sys.disk) :=
      fun other differ present => keeps.unseen (apart_present setup inv.ordered waits differ present)
    refine ⟨inv.ordered,fun other job found => ?_,inv.outs,fun other ack found => ?_,fun other ack took lasts => ?_⟩
    · by_cases same : other = task
      · subst same
        cases Option.some.inj (setJob_self.symm.trans found)
        exact ⟨waits,free,keeps.acted⟩
      · obtain ⟨mine,idle,kept⟩ := inv.jobs other job ((setJob_other same).symm.trans found)
        exact ⟨mine,idle,kept.moved (alike other same (.inl mine))⟩
    · have differ : other ≠ task := fun same => by
        rw [same] at found
        exact absurd (free.symm.trans found) (by simp)
      obtain ⟨named,done⟩ := inv.answers other ack found
      exact ⟨named,done_rests setup ack (alike other differ (.inl (inv.outs other _ found))) done⟩
    · have differ : other ≠ task := fun same => by
        rw [same] at took
        exact absurd (waits.symm.trans (took.fresh inv.ordered)) (by simp)
      exact done_rests setup ack (alike other differ (.inr ⟨ack,took⟩)) (inv.took other ack took lasts)
  | @answer task result held =>
    refine answered_inv inv held fun ack same => ?_
    cases same
    exact (inv.jobs _ _ held).2.2.ends
  | raised held => exact answered_inv inv held fun ack same => by cases same
  | @die task job held =>
    refine ⟨inv.ordered,fun other job found => ?_,inv.outs,inv.answers,inv.took⟩
    by_cases same : other = task
    · subst same
      exact absurd (setJob_self.symm.trans found) (by simp)
    · exact inv.jobs other job ((setJob_other same).symm.trans found)
  | @lose task waits unheld unanswered =>
    refine ⟨inv.ordered,fun other job found => ?_,fun other out found => ?_,fun other ack found => ?_,inv.took⟩
    · have differ : other ≠ task := fun same => by
        rw [same] at found
        exact absurd (unheld.symm.trans found) (by simp)
      obtain ⟨mine,free,keeps⟩ := inv.jobs other job found
      exact ⟨mine,(setOut_other differ).trans free,keeps⟩
    · by_cases same : other = task
      · subst same; exact waits
      · exact inv.outs other out ((setOut_other same).symm.trans found)
    · by_cases same : other = task
      · subst same
        cases Option.some.inj (setOut_self.symm.trans found)
      · exact inv.answers other ack ((setOut_other same).symm.trans found)

theorem fetch_delivers (named : ∀ ack, output = .answered (.ok ack) → Named task ack) (kept : strict = true → output ≠ .lost) :
    Delivers strict (fetchOf task output) := by
  have text : ∀ result, output = .answered result → (textOf task.frame result).imageId = some task.frame := by
    intro result same
    cases result with
    | ok ack => exact (named ack same).frame
    | error raised => rfl
  have readable : strict = true → (fetchOf task output).readable := by
    intro given
    cases output with
    | lost => exact absurd rfl (kept given)
    | answered result =>
      cases task <;> exact ⟨rfl,_,rfl,text result rfl⟩
  have honest : (fetchOf task output).honest := by
    cases output with
    | lost => cases task <;> (intro _ _ none; cases none)
    | answered result =>
      cases task <;> (intro given _ found; cases Option.some.inj found; exact text result rfl)
  refine ⟨by cases task <;> rfl,?_,fun _ => ?_⟩
  · unfold Action.replies
    split
    · exact readable ‹_›
    · exact honest
  · cases task with
    | inf i tile =>
      intro given found good
      cases output with
      | lost => cases found
      | answered result =>
        cases Option.some.inj found
        cases result with
        | error raised => cases good
        | ok ack => exact (named ack rfl).host i tile rfl
    | _ => trivial

theorem thread_delivers (thread : Thread) : Delivers strict thread.action := by
  cases thread <;> refine ⟨trivial,?_,fun _ => trivial⟩ <;> (unfold Action.replies; split <;> trivial)

-- A run of the system is a run of the client; `strict` ones lose no task.
structure Along (strict : Bool) (setup : Setup) (sys : Sys) : Prop where
  inv : Inv setup sys
  kept : strict = true → ∀ task, sys.pool.outs task ≠ some .lost
  client : Runs.Reached (ShardClient.step setup.config) (fun _ action => Delivers strict action)
    (ShardClient.start setup.config) sys.client

def Action.loses : Action → Prop
  | .service (.lose _) => True
  | _ => False

theorem service_kept (kept : ∀ task, pool.outs task ≠ some .lost) (keeps : ¬(Action.service work).loses)
    (step : PoolStep (program setup) waits pool disk work after later) : ∀ task, after.outs task ≠ some .lost := by
  intro other found
  cases step with
  | @answer task _ held | @raised task _ _ held =>
    by_cases same : other = task
    · subst same
      cases Option.some.inj (setOut_self.symm.trans found)
    · exact kept other ((setOut_other same).symm.trans found)
  | lose => exact keeps trivial
  | _ => exact kept other found

theorem delivers_any (delivers : Delivers strict action) : Delivers false action := by
  refine ⟨delivers.once,?_,fun given => by cases given⟩
  have replies := delivers.replies
  unfold Action.replies at replies
  split at replies
  · exact readable_honest action replies
  · exact replies

theorem step_along (small : setup.meta_.numClasses ≤ 2^24) (along : Along strict setup sys) (keeps : strict = true → ¬action.loses)
    (taken : step setup sys action = some next) : Along strict setup next := by
  obtain ⟨inv,kept,client⟩ := along
  cases action with
  | client thread =>
    obtain ⟨after,ran,rfl⟩ := Option.map_eq_some_iff.mp taken
    have ordered := step_ordered inv.ordered (step_sound ran) (thread_delivers thread)
    exact ⟨thread_inv inv ordered (thread_step (step_sound ran)),kept,.step client (thread_delivers thread) ran⟩
  | fetch task =>
    obtain ⟨output,held,taken⟩ := Option.bind_eq_some_iff.mp taken
    obtain ⟨after,ran,rfl⟩ := Option.map_eq_some_iff.mp taken
    have delivers : Delivers strict (fetchOf task output) :=
      fetch_delivers (fun ack same => (inv.answers task ack (same ▸ held)).1) fun given same => kept given task (same ▸ held)
    have ordered := step_ordered inv.ordered (step_sound ran) (delivers_any delivers)
    refine ⟨fetch_inv inv ordered held (fetch_step (step_sound ran)),fun given other found => ?_,.step client delivers ran⟩
    by_cases same : other = task
    · subst same
      cases setOut_self.symm.trans found
    · exact kept given other ((setOut_other same).symm.trans found)
  | service work =>
    obtain ⟨⟨pool,disk⟩,ran,rfl⟩ := Option.map_eq_some_iff.mp taken
    have step := Jobs.step_sound _ _ ran
    exact ⟨service_inv inv small step,fun given => service_kept (kept given) (keeps given) step,client⟩

theorem reached_along (small : setup.meta_.numClasses ≤ 2^24)
    (path : Runs.Reached (step setup) (fun _ action => strict = true → ¬action.loses) (setup.start disk) sys) : Along strict setup sys :=
  path.invariant (Along strict setup) ⟨initial_inv setup disk,fun _ _ held => (by cases held),.refl⟩
    fun _ _ _ along keeps taken => step_along small along keeps taken

end

end SymphonyAkida.ShardSystem
