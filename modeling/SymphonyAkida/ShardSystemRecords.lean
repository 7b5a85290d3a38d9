import SymphonyAkida.ShardSystemRun
import SymphonyAkida.ShardClientReasons

namespace SymphonyAkida.ShardSystem
open TiledShard Outcome Jobs ShardClient

theorem paired {P : α → β → Prop} {xs : List α} (each : ∀ x ∈ xs, ∃ y, P x y) :
    ∃ pairs : List (α × β), pairs.map (·.1) = xs ∧ ∀ pair ∈ pairs, P pair.1 pair.2 := by
  induction xs with
  | nil => exact ⟨[],rfl,fun _ member => absurd member List.not_mem_nil⟩
  | cons x xs ih =>
    obtain ⟨y,first⟩ := each x List.mem_cons_self
    obtain ⟨pairs,same,rest⟩ := ih fun other member => each other (List.mem_cons_of_mem _ member)
    refine ⟨(x,y) :: pairs,by rw [List.map_cons,same],fun pair member => ?_⟩
    rcases List.mem_cons.mp member with rfl | later
    · exact first
    · exact rest pair later

theorem rowsOf_count (counts : List (String × Nat)) (name key : String) :
    rowsOf (Pipeline.count counts name) key = rowsOf counts key+if name = key then 1 else 0 := by
  induction counts with
  | nil => by_cases same : name = key <;> simp [Pipeline.count,rowsOf,same]
  | cons row counts ih =>
    obtain ⟨k,v⟩ := row
    unfold Pipeline.count
    split
    · rename_i same
      subst same
      by_cases mine : k = key
      · simp only [rowsOf,List.filter_cons,mine,beq_self_eq_true,if_true,List.map_cons,List.sum_cons]
        omega
      · simp [rowsOf,mine]
    · by_cases mine : k = key
      · simp only [rowsOf,List.filter_cons,mine,beq_self_eq_true,if_true,List.map_cons,List.sum_cons] at ih ⊢
        omega
      · simpa [rowsOf,List.filter_cons,mine] using ih

theorem histogram_rows {names : List String} {labels : List Int} (ran : Pipeline.histogram names labels = .ok hist) (key : String) :
    rowsOf hist key = labels.countP fun label => decide (Pipeline.item names label = some key) := by
  have step : ∀ counts : List (String × Nat), labels.foldlM (fun counts label =>
      (orRaise .indexError (Pipeline.item names label)).map (Pipeline.count counts)) counts = .ok hist →
      rowsOf hist key = rowsOf counts key+labels.countP fun label => decide (Pipeline.item names label = some key) := by
    clear ran
    induction labels with
    | nil => intro counts ran; cases ran; rfl
    | cons label labels ih =>
      intro counts ran
      rw [List.foldlM_cons] at ran
      obtain ⟨next,first,ran⟩ := bind_ok ran
      obtain ⟨name,named,rfl⟩ := map_ok first
      have named : Pipeline.item names label = some name := by
        unfold orRaise at named
        split at named
        · rename_i found
          rw [found,Except.ok.inj named]
        · cases named
      rw [ih _ ran,rowsOf_count,List.countP_cons,named]
      by_cases same : name = key
      · simp only [same,if_true,decide_true]
        omega
      · simp [same]
  have whole := step [] ran
  rwa [show rowsOf [] key = 0 from rfl,Nat.zero_add] at whole

section
variable {setup : Setup} {sys next : Sys}

theorem Inv.stitched (inv : Inv setup sys) (member : out ∈ sys.client.stitchSess.fetched) (good : out.good = true) :
    ∃ stitched : Pipeline.Stitched ℚ, setup.Yields out.task stitched.result ∧
      Pipeline.histogram setup.meta_.classNames stitched.result.labels = .ok stitched.classHist ∧
      reply out = stitchReply out.task stitched :=
  inv.took (.stitch out.task) (reply out) ⟨out,member,rfl,good,rfl⟩ (.inr ⟨_,rfl⟩)

theorem Inv.stitch_below (inv : Inv setup sys) (member : out ∈ sys.client.stitchSess.fetched) : out.task < setup.count :=
  inv.ordered.sent_below (inv.ordered.stitch_sent (nTiles_pos setup) (inv.ordered.stitch.answered member))

structure Shows (setup : Setup) (outs : List (Out Nat)) (results : List (Nat × Pipeline.FrameResult ℚ)) : Prop where
  frames : results.map (·.1) = outs.map (·.task)
  yields : ∀ shown ∈ results, shown.1 < setup.count ∧ setup.Yields shown.1 shown.2
  records : outs.map (recordFor setup.config) = results.map fun shown => recordOf (setup.frame shown.1).1 shown.2
  boxes : outs.map boxCount = results.map fun shown => shown.2.boxes.length
  classes : ∀ name, outs.map (fun out => rowsOf (reply out).classHist name) =
    results.map fun shown => shown.2.labels.countP fun label => decide (Pipeline.item setup.meta_.classNames label = some name)

theorem Inv.shows (inv : Inv setup sys) (outs : List (Out Nat))
    (came : ∀ out ∈ outs, out ∈ sys.client.stitchSess.fetched ∧ out.good = true) : ∃ results, Shows setup outs results := by
  obtain ⟨pairs,rfl,each⟩ := paired fun out member => inv.stitched (came out member).1 (came out member).2
  refine ⟨pairs.map fun pair => (pair.1.task,pair.2.result),?_,fun shown member => ?_,?_,?_,fun name => ?_⟩
  · simp only [List.map_map]
    rfl
  · obtain ⟨pair,found,rfl⟩ := List.mem_map.mp member
    exact ⟨inv.stitch_below (came _ (List.mem_map_of_mem found)).1,(each pair found).1⟩
  · simp only [List.map_map]
    refine List.map_congr_left fun pair found => ?_
    simp only [Function.comp_apply,recordFor,(each pair found).2.2]
    rfl
  · simp only [List.map_map]
    refine List.map_congr_left fun pair found => ?_
    simp [boxCount,(each pair found).2.2,stitchReply]
  · simp only [List.map_map]
    refine List.map_congr_left fun pair found => ?_
    simp only [Function.comp_apply,(each pair found).2.2]
    exact histogram_rows (each pair found).2.1 name

theorem Inv.stitched_nodup (inv : Inv setup sys) (log : Logged sys.client) : ((ShardClient.stitched sys.client).map (·.task)).Nodup := by
  have fetched := inv.ordered.stitched_nodup
  exact fetchedOnce_stitched log (fetched.sublist (List.filter_sublist.map _))

theorem handled_fetched (member : out ∈ handled s) : out ∈ s.stitchSess.fetched := by
  unfold handled at member
  split at member
  · exact List.mem_of_mem_tail member
  · exact member

theorem Along.dumped (along : Along false setup sys) : ∃ results : List (Nat × Pipeline.FrameResult ℚ), (results.map (·.1)).Nodup ∧
    (∀ shown ∈ results, shown.1 < setup.count ∧ setup.Yields shown.1 shown.2) ∧
    sys.client.dump = results.map fun shown => recordOf (setup.frame shown.1).1 shown.2 := by
  have recorded := (reached_reported (along.client.weaken fun _ _ delivers => delivers.replies)).recorded
  have whole := recorded.dump
  by_cases dumps : setup.config.dumps = true
  · rw [if_pos dumps] at whole
    have part : sys.client.dump = (((ShardClient.stitched sys.client).take sys.client.dump.length).map (recordFor setup.config)) := by
      rw [List.map_take,← whole,List.take_left]
    obtain ⟨results,shows⟩ := along.inv.shows ((ShardClient.stitched sys.client).take sys.client.dump.length) fun out member => by
      obtain ⟨done,good⟩ := stitched_iff.mp (List.mem_of_mem_take member)
      exact ⟨handled_fetched done,good⟩
    refine ⟨results,?_,shows.yields,part.trans shows.records⟩
    rw [shows.frames]
    exact (along.inv.stitched_nodup recorded.log).sublist ((List.take_sublist _ _).map _)
  · rw [if_neg dumps] at whole
    refine ⟨[],List.nodup_nil,fun _ member => absurd member List.not_mem_nil,?_⟩
    exact (List.append_eq_nil_iff.mp whole).1

-- Whatever the threads, the services and the volume do to each other, every
-- line of the dump is what one process makes of the sample, and no frame has
-- two.
theorem dump_reference (small : setup.meta_.numClasses ≤ 2^24)
    (path : Runs.Reached (step setup) (fun _ _ => True) (setup.start disk) sys) :
    ∃ results : List (Nat × Pipeline.FrameResult ℚ), (results.map (·.1)).Nodup ∧
      (∀ shown ∈ results, shown.1 < setup.count ∧ setup.Yields shown.1 shown.2) ∧
      sys.client.dump = results.map fun shown => recordOf (setup.frame shown.1).1 shown.2 :=
  have along : Along false setup sys := reached_along small (path.weaken fun _ _ _ given => by cases given)
  along.dumped

-- A service answers each task it takes: none raises by accident and none is
-- given up. One that dies is replaced.
def Action.calm : Action → Bool
  | .service (.raised _ _) | .service (.lose _) => false
  | _ => true

end

-- Two frames of five tiles, each tile with one detection.
def twoSetup (dumps : Bool) : Setup where
  np := Pipeline.unitExp
  meta_ := Pipeline.people
  predict := Pipeline.constant
  pipeDir := "/shared/pipeline"
  pid := 7
  count := 2
  inFlight := 2
  nTiles := 5
  counted := rfl
  frame i := (i+5,Arrays.ravel (Pipeline.black 2))
  request := {}
  dumps

def worker : Worker := ⟨"node-1",120,35,"AKD1500","Akida","person"⟩
def mate : Worker := ⟨"node-2",90,30,"AKD1500","Akida","person"⟩

def served (task : Task) (who : Worker) (acts : Nat) : List Action :=
  .service (.take task who) :: List.replicate acts (.service (.act task)) ++ [.service (.answer task)]

-- The first segmenter of frame 0 dies at work.
def splitBoth : List Action :=
  List.replicate 6 (.client .segSubmit) ++
    [.service (.take (.seg 0) worker),.service (.act (.seg 0)),.service (.die (.seg 0))] ++
    served (.seg 1) mate 11 ++ served (.seg 0) worker 11 ++
    .fetch (.seg 1) :: List.replicate 7 (.client .segNext) ++ .fetch (.seg 0) :: List.replicate 7 (.client .segNext)

def tilesBoth : List Action :=
  (List.range 5).flatMap (fun tile => served (.inf 0 tile) worker 3 ++ served (.inf 1 (4-tile)) mate 3) ++
    (List.range 5).flatMap (fun tile => [.fetch (.inf 1 tile),.client .infNext]) ++ [.client .infNext] ++
    (List.range 5).flatMap (fun tile => [.fetch (.inf 0 tile),.client .infNext]) ++ [.client .infNext]

def stitchDone (i : Nat) : List Action :=
  served (.stitch i) worker 5 ++ [.client .stitchNext,.fetch (.stitch i)] ++ List.replicate 5 (.client .stitchNext)

def wholeRun : List Action := splitBoth ++ tilesBoth ++ stitchDone 1 ++ stitchDone 0

-- The stitcher of frame 0 dies, its task is given up, and so is the run.
def cutRun : List Action :=
  splitBoth ++ tilesBoth ++ stitchDone 1 ++
    [.service (.take (.stitch 0) worker),.service (.act (.stitch 0)),.service (.die (.stitch 0)),
      .service (.lose (.stitch 0)),.client .watchdog]

def emptyDisk : Disk := ⟨fun _ => none,fun _ => false⟩

theorem dump_reference_person : ∃ sys : Sys, sys.client.stalled = true ∧ sys.client.dump.map (·.sample) = [some 6] ∧
    ∃ results : List (Nat × Pipeline.FrameResult ℚ), (results.map (·.1)).Nodup ∧
      (∀ shown ∈ results, shown.1 < 2 ∧ (twoSetup true).Yields shown.1 shown.2) ∧
      sys.client.dump = results.map fun shown => recordOf ((twoSetup true).frame shown.1).1 shown.2 := by
  obtain ⟨sys,path,cut⟩ := Runs.run_witness (step (twoSetup true)) (fun _ _ => True) ((twoSetup true).start emptyDisk)
    (fun _ _ => true) (fun sys => sys.client.stalled && decide (sys.client.dump.map (·.sample) = [some 6])) cutRun
    (by decide +kernel) fun _ _ _ _ => trivial
  simp only [Bool.and_eq_true,decide_eq_true_eq] at cut
  exact ⟨sys,cut.1,cut.2,dump_reference (show (twoSetup true).meta_.numClasses ≤ 2^24 by decide) path⟩

theorem whole_run : ∃ sys, Runs.Reached (step (twoSetup true)) (fun _ action => action.calm) ((twoSetup true).start emptyDisk) sys ∧
    2 ≤ sys.client.totals.imgDone ∧ sys.client.dump.map (·.sample) = [some 6,some 5] := by
  obtain ⟨sys,path,ended⟩ := Runs.run_witness (step (twoSetup true)) (fun _ action => action.calm) ((twoSetup true).start emptyDisk)
    (fun _ action => action.calm)
    (fun sys => decide (2 ≤ sys.client.totals.imgDone) && decide (sys.client.dump.map (·.sample) = [some 6,some 5]))
    wholeRun (by decide +kernel) fun _ _ _ calm => calm
  simp only [Bool.and_eq_true,decide_eq_true_eq] at ended
  exact ⟨sys,path,ended⟩

section
variable {setup : Setup} {sys next : Sys}

structure Faults (setup : Setup) (sys : Sys) : Prop where
  outs : ∀ task raised, sys.pool.outs task = some (.answered (.error raised)) → setup.Fails task
  took : ∀ task ack, Took sys.client task false ack → setup.Fails task

theorem initial_faults (setup : Setup) (disk : Disk) : Faults setup (setup.start disk) where
  outs := by intro task raised held; cases held
  took := by
    intro task ack took
    cases task <;> obtain ⟨out,member,_⟩ := took <;> exact absurd member List.not_mem_nil

theorem service_faults (inv : Inv setup sys) (faults : Faults setup sys) (calm : (Action.service work).calm)
    (step : PoolStep (program setup) (waiting sys.client) sys.pool sys.disk work pool disk) :
    ∀ task raised, pool.outs task = some (.answered (.error raised)) → setup.Fails task := by
  intro other error found
  cases step with
  | @answer task given held =>
    by_cases same : other = task
    · subst same
      cases Option.some.inj (setOut_self.symm.trans found)
      exact (inv.jobs _ _ held).2.2.ends
    · exact faults.outs other error ((setOut_other same).symm.trans found)
  | raised | lose => cases calm
  | _ => exact faults.outs other error found

theorem bad_answer (inv : Inv setup sys) (faults : Faults setup sys) (kept : sys.pool.outs task ≠ some .lost)
    (held : sys.pool.outs task = some output) (bad : (outOf task.frame task output).good = false) : setup.Fails task := by
  cases output with
  | lost => exact absurd held kept
  | answered given =>
    cases given with
    | error raised => exact faults.outs task raised held
    | ok ack => exact absurd bad (by simp [outOf,Out.good,reply,textOf,(inv.answers task ack held).1.ok])

theorem step_faults (along : Along true setup sys) (faults : Faults setup sys) (calm : action.calm)
    (taken : step setup sys action = some next) : Faults setup next := by
  obtain ⟨inv,kept,_⟩ := along
  cases action with
  | client thread =>
    obtain ⟨after,ran,rfl⟩ := Option.map_eq_some_iff.mp taken
    have moved := thread_step (step_sound ran)
    exact ⟨faults.outs,fun task ack took => faults.took task ack (moved.took.mp took)⟩
  | fetch task =>
    obtain ⟨output,held,taken⟩ := Option.bind_eq_some_iff.mp taken
    obtain ⟨after,ran,rfl⟩ := Option.map_eq_some_iff.mp taken
    refine ⟨fun other raised found => ?_,fun other ack took => ?_⟩
    · by_cases same : other = task
      · subst same
        cases setOut_self.symm.trans found
      · exact faults.outs other raised ((setOut_other same).symm.trans found)
    · rcases (fetch_step (step_sound ran)).took other false ack took with before | ⟨rfl,bad,_⟩
      · exact faults.took other ack before
      · exact bad_answer inv faults (kept rfl other) held bad
  | service work =>
    obtain ⟨⟨pool,disk⟩,ran,rfl⟩ := Option.map_eq_some_iff.mp taken
    exact ⟨service_faults inv faults calm (Jobs.step_sound _ _ ran),faults.took⟩

theorem calm_keeps {action : Action} (calm : action.calm) : ¬action.loses := by
  intro loses
  cases action with
  | service work =>
    cases work with
    | lose => cases calm
    | _ => exact loses
  | _ => exact loses

theorem reached_faults (small : setup.meta_.numClasses ≤ 2^24)
    (path : Runs.Reached (step setup) (fun _ action => action.calm) (setup.start disk) sys) : Faults setup sys :=
  path.invariant_along (Faults setup) (initial_faults setup disk) fun _ _ _ prior faults calm taken =>
    step_faults (reached_along small (prior.weaken fun _ _ calm _ => calm_keeps calm)) faults calm taken

theorem Setup.Yields.cut {result : Pipeline.FrameResult ℚ} (yields : setup.Yields i result) : ∃ crops, setup.cut i = .ok crops ∧
    ∃ perTile, crops.mapM (Pipeline.infer setup.np setup.meta_ setup.predict) = .ok perTile := by
  obtain ⟨frame,shaped,ran⟩ := bind_ok yields.1
  obtain ⟨merged,ran,gated⟩ := bind_ok ran
  obtain ⟨tiles,built,rest⟩ := bind_ok ran
  obtain ⟨crops,split,_⟩ := bind_ok rest
  refine ⟨crops,?_,?_⟩
  · simp only [Setup.cut,built,ok_bind,shaped,split]
  · have both : (Pipeline.inProcess setup.np setup.meta_ setup.predict frame (setup.request.cap setup.meta_) >>=
        Pipeline.gate (setup.request.thresh setup.meta_)) = .ok result := by rw [ran,ok_bind,gated]
    obtain ⟨perTile,inferred,_⟩ := (Pipeline.inProcess_ok built split).mp both
    exact ⟨perTile,inferred⟩

theorem Setup.Yields.works {result : Pipeline.FrameResult ℚ} (task : Task) (small : setup.meta_.numClasses ≤ 2^24)
    (yields : setup.Yields task.frame result) : ¬setup.Fails task := by
  obtain ⟨crops,cut,perTile,inferred⟩ := yields.cut
  cases task with
  | seg i => exact fun fails => fails crops cut
  | inf i tile =>
    intro fails
    obtain ⟨others,crop,again,found,none⟩ := fails
    cases cut.symm.trans again
    obtain ⟨entry,_,ran⟩ := mapM_each inferred (List.mem_of_getElem? found)
    obtain ⟨packed,made⟩ := Pipeline.infer_pack small ran
    exact none packed made
  | stitch i => exact fun fails => fails result yields

theorem Along.completed (small : setup.meta_.numClasses ≤ 2^24) (along : Along true setup sys) (faults : Faults setup sys)
    (ended : setup.count ≤ sys.client.totals.imgDone) :
    ∃ results : List (Nat × Pipeline.FrameResult ℚ), (results.map (·.1)).Nodup ∧
      (∀ i result, (i,result) ∈ results ↔ i < setup.count ∧ setup.Yields i result) ∧
      (ShardClient.result sys.client).imagesDone = results.length ∧
      (ShardClient.result sys.client).imageErrors = setup.count-results.length ∧
      sys.client.totals.boxes = (results.map fun shown => shown.2.boxes.length).sum ∧
      (∀ name, sys.client.classes.get name = (results.map fun shown =>
        shown.2.labels.countP fun label => decide (Pipeline.item setup.meta_.classNames label = some name)).sum) ∧
      (setup.dumps = true → sys.client.dump = results.map fun shown => recordOf (setup.frame shown.1).1 shown.2) := by
  have inv := along.inv
  have answers : Runs.Reached (ShardClient.step setup.config) Answers (ShardClient.start setup.config) sys.client :=
    along.client.weaken fun _ _ delivers => ⟨delivers.once,delivers.replies⟩
  have reasons := reached_reasons (along.client.weaken fun _ _ delivers => delivers_any delivers)
  have accounts := reached_accounts answers
  have all := accounts.lives.sound.slots.all_done accounts.counted ended
  obtain ⟨images,_,frames,dump,boxes,classes,_⟩ := accounts_balance answers ended
  obtain ⟨results,shows⟩ := inv.shows (stitchedFrames sys.client) fun out member =>
    List.mem_filter.mp (List.mem_reverse.mp member)
  have size : results.length = (stitchedFrames sys.client).length := by simpa using congrArg List.length shows.frames
  have recorded : ∀ i result, i < setup.count → setup.Yields i result → ∃ out ∈ stitchedFrames sys.client, out.task = i := by
    intro i result below yields
    rcases reasons.done i (all i below) with ⟨out,member,rfl,bad⟩ | ⟨out,member,named,bad⟩ | ⟨out,member,rfl⟩
    · exact absurd (faults.took (.seg out.task) _ ⟨out,member,rfl,bad,rfl⟩) (Setup.Yields.works (.seg out.task) small yields)
    · have own : out.task = ⟨some i,out.task.tile⟩ := by rw [← named]
      exact absurd (faults.took (.inf i out.task.tile) _ ⟨out,member,own,bad,rfl⟩)
        (Setup.Yields.works (.inf i out.task.tile) small yields)
    · cases good : out.good with
      | true => exact ⟨out,List.mem_reverse.mpr (List.mem_filter.mpr ⟨member,good⟩),rfl⟩
      | false =>
        exact absurd (faults.took (.stitch out.task) _ ⟨out,member,rfl,good,rfl⟩)
          (Setup.Yields.works (.stitch out.task) small yields)
  refine ⟨results,?_,fun i result => ⟨shows.yields (i,result),fun given => ?_⟩,?_,?_,?_,fun name => ?_,fun dumps => ?_⟩
  · rw [shows.frames]
    exact accounts.stitched_nodup
  · obtain ⟨below,yields⟩ := given
    obtain ⟨out,member,same⟩ := recorded i result below yields
    have listed : i ∈ results.map (·.1) := by
      rw [shows.frames,← same]
      exact List.mem_map_of_mem member
    obtain ⟨⟨j,other⟩,found,mine⟩ := List.mem_map.mp listed
    obtain rfl : j = i := mine
    have equal : other = result := Except.ok.inj ((shows.yields _ found).2.1.symm.trans yields.1)
    exact equal ▸ found
  · rw [size,frames]
  · have count : setup.config.count = setup.count := rfl
    omega
  · rw [boxes,shows.boxes]
  · exact (classes name).trans (congrArg List.sum (shows.classes name))
  · rw [dump,if_pos (show setup.config.dumps = true from dumps),shows.records]

-- A run nothing disturbed, at its end: the frames recorded are those one
-- process gives a result, the others are the errors, and the totals are theirs.
theorem complete_reference (small : setup.meta_.numClasses ≤ 2^24)
    (path : Runs.Reached (step setup) (fun _ action => action.calm) (setup.start disk) sys)
    (ended : setup.count ≤ sys.client.totals.imgDone) :
    ∃ results : List (Nat × Pipeline.FrameResult ℚ), (results.map (·.1)).Nodup ∧
      (∀ i result, (i,result) ∈ results ↔ i < setup.count ∧ setup.Yields i result) ∧
      (ShardClient.result sys.client).imagesDone = results.length ∧
      (ShardClient.result sys.client).imageErrors = setup.count-results.length ∧
      sys.client.totals.boxes = (results.map fun shown => shown.2.boxes.length).sum ∧
      (∀ name, sys.client.classes.get name = (results.map fun shown =>
        shown.2.labels.countP fun label => decide (Pipeline.item setup.meta_.classNames label = some name)).sum) ∧
      (setup.dumps = true → sys.client.dump = results.map fun shown => recordOf (setup.frame shown.1).1 shown.2) :=
  have along : Along true setup sys := reached_along small (path.weaken fun _ _ calm _ => calm_keeps calm)
  along.completed small (reached_faults small path) ended

end

theorem complete_reference_person : ∃ sys : Sys, sys.client.dump.map (·.sample) = [some 6,some 5] ∧
    ∃ results : List (Nat × Pipeline.FrameResult ℚ), (ShardClient.result sys.client).imagesDone = results.length ∧
      (∀ i result, (i,result) ∈ results ↔ i < 2 ∧ (twoSetup true).Yields i result) ∧
      sys.client.dump = results.map fun shown => recordOf ((twoSetup true).frame shown.1).1 shown.2 := by
  obtain ⟨sys,path,ended,samples⟩ := whole_run
  obtain ⟨results,_,whole,counted,_,_,_,dump⟩ :=
    complete_reference (show (twoSetup true).meta_.numClasses ≤ 2^24 by decide) path ended
  exact ⟨sys,samples,results,counted,whole,dump rfl⟩

end SymphonyAkida.ShardSystem
