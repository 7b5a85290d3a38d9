import SymphonyAkida.ShardClientLife

namespace SymphonyAkida.ShardClient
variable {Task : Type}

def SubmitPc.busy : SubmitPc → Prop
  | .register _ | .send _ => True
  | _ => False
def SegPc.busy : SegPc → Prop
  | .received _ | .tiles _ _ | .finish _ => True
  | _ => False
def InfPc.busy : InfPc → Prop
  | .received _ | .stitch _ | .finish _ => True
  | _ => False
def StitchPc.busy : StitchPc → Prop
  | .received _ | .dump _ _ | .finish _ => True
  | _ => False

def Handling (s : State) : Prop := s.submitter.busy ∨ s.seg.busy ∨ s.inf.busy ∨ s.stitch.busy

def PermitFree (c : Config) (s : State) : Prop := ∃ i, s.submitter = .acquire i ∧ i < c.count ∧ 0 < s.sem

-- A submitted task whose output is still to come, with its fetch loop going on.
def Fetchable (c : Config) (s : State) : Prop :=
  (s.segSess.pending ≠ [] ∧ s.seg = .loop ∧ s.segSeen < c.count) ∨
  (s.infSess.pending ≠ [] ∧ s.inf = .loop ∧ s.infSeen < c.count*c.nTiles) ∨
  (s.stitchSess.pending ≠ [] ∧ (s.stitch = .loop ∧ s.doneEvt = false ∨ s.stitch = .fetching))

-- No exception has ended a thread, and none is about to.
def Finish.rooted : Finish → Prop
  | .remove none => False
  | _ => True
def Flow.rooted : Flow → Prop
  | .next at_ => at_.rooted
  | .returned => True
  | .raised _ => False
def SegPc.rooted : SegPc → Prop
  | .finish at_ => at_.rooted
  | .crashed _ => False
  | _ => True
def InfPc.rooted : InfPc → Prop
  | .finish at_ => at_.rooted
  | .crashed _ => False
  | _ => True
def StitchPc.rooted : StitchPc → Prop
  | .finish at_ => at_.rooted
  | .crashed _ => False
  | _ => True

def Rooted (s : State) : Prop := s.seg.rooted ∧ s.inf.rooted ∧ s.stitch.rooted

theorem finish_rooted (ran : FinishStep c s at_ after flow) (rooted : at_.rooted)
    (known : ∀ imageId failed, at_ = .enter imageId failed → s.frame imageId ≠ none)
    (room : flow ≠ .raised .valueError) : flow.rooted := by
  cases ran with
  | unknown missing => exact absurd missing (known _ _ rfl)
  | noPath => exact rooted
  | full => exact absurd rfl room
  | _ => trivial

theorem segAfter_rooted (flow : Flow) : (segAfter flow).rooted = flow.rooted := by cases flow <;> rfl
theorem infAfter_rooted (flow : Flow) : (infAfter flow).rooted = flow.rooted := by cases flow <;> rfl
theorem stitchAfter_rooted (flow : Flow) : (stitchAfter flow).rooted = flow.rooted := by
  cases flow <;> rfl

theorem got_rooted (got : GotStep c s imageId ok next) : next.inf.rooted := by cases got <;> trivial

theorem step_rooted (lives : Lives true c s) (rooted : Rooted s) (room : NoOverRelease next)
    (step : Step c s action next) : Rooted next := by
  obtain ⟨sound,held,staged⟩ := lives
  obtain ⟨seg,inf,stitch⟩ := rooted
  have known : ∀ {imageId}, imageId ∈ ids s → s.frame imageId ≠ none :=
    sound.slots.frame_known sound.named
  cases step with
  | @segFinish at_ after flow pc ran =>
    have lanes := finish_lanes ran
    refine ⟨?_,by rw [lanes.inf]; exact inf,by rw [lanes.stitch]; exact stitch⟩
    rw [segAfter_rooted]
    refine finish_rooted ran (by rw [pc] at seg; exact seg) (fun imageId failed same => known ?_)
      fun full => room.1 (by simp [full,segAfter])
    simp [ids,pc,same,segCarries,Finish.carries]
  | @infFinish at_ after flow pc ran =>
    have lanes := finish_lanes ran
    refine ⟨by rw [lanes.seg]; exact seg,?_,by rw [lanes.stitch]; exact stitch⟩
    rw [infAfter_rooted]
    refine finish_rooted ran (by rw [pc] at inf; exact inf) (fun imageId failed same => known ?_)
      fun full => room.2.1 (by simp [full,infAfter])
    simp [ids,pc,same,infCarries,Finish.carries]
  | @stitchFinish at_ after flow pc ran =>
    have lanes := finish_lanes ran
    refine ⟨by rw [lanes.seg]; exact seg,by rw [lanes.inf]; exact inf,?_⟩
    rw [stitchAfter_rooted]
    refine finish_rooted ran (by rw [pc] at stitch; exact stitch) (fun imageId failed same => known ?_)
      fun full => room.2.2 (by simp [full,stitchAfter])
    simp [ids,pc,same,stitchCarries,Finish.carries]
  | @infNoHost out pc good missing =>
    obtain ⟨replies,hosts⟩ := held.inf out pc
    exact absurd missing (named_host (by simpa using replies) (hosts rfl) good)
  | infOk pc good named got | infFailed pc bad got =>
    have lanes := got_lanes got
    have same : next.seg = s.seg := lanes.seg
    have other : next.stitch = s.stitch := lanes.stitch
    exact ⟨by rw [same]; exact seg,got_rooted got,by rw [other]; exact stitch⟩
  | _ => exact ⟨by first | exact seg | trivial,by first | exact inf | trivial,
      by first | exact stitch | trivial⟩

def segSent (c : Config) : SubmitPc → Nat
  | .acquire i => i
  | .register i => i
  | .send i => i
  | .exited => c.count

theorem segSent_le (range : InRange c pc) : segSent c pc ≤ c.count := by
  cases pc with
  | acquire i => exact range
  | register i | send i => exact Nat.le_of_lt range
  | exited => exact Nat.le_refl _

structure Seen (c : Config) (s : State) : Prop where
  seg : s.segSeen+s.segSess.pending.length = segSent c s.submitter
  segExit : s.seg = .exited → c.count ≤ s.segSeen
  inf : s.infSeen+s.infSess.pending.length = s.infSess.submitted.length
  infExit : s.inf = .exited → c.count*c.nTiles ≤ s.infSeen
  stitchExit : s.stitch = .exited → s.doneEvt = true

theorem initial_seen (c : Config) : Seen c (start c) := by
  refine ⟨rfl,?_,rfl,?_,?_⟩ <;> simp [start]

theorem fetch_length [DecidableEq Task] {session next : Session Task}
    (got : session.fetch out again = some next) (once : again = false) :
    next.pending.length+1 = session.pending.length := by
  obtain ⟨member,pending⟩ := fetch_once got once
  rw [pending,List.length_erase_of_mem member]
  have some := List.length_pos_of_mem member
  omega

theorem finish_event (ran : FinishStep c s at_ after flow) (set : s.doneEvt = true) :
    after.doneEvt = true := by
  cases ran with
  | mark | unknown => simp [countFinished_eq,State.setFrame,set]
  | _ => exact set

theorem got_looping (got : GotStep c s imageId ok next) : next.inf ≠ .exited := by cases got <;> simp

theorem step_seen (range : InRange c s.submitter) (seen : Seen c s) (step : Step c s action next)
    (once : action.once) : Seen c next := by
  obtain ⟨seg,segExit,inf,infExit,stitchExit⟩ := seen
  cases step with
  | @acquire i pc left free | @register i pc =>
    rw [pc] at seg
    exact ⟨seg,segExit,inf,infExit,stitchExit⟩
  | @submitted i pc none =>
    rw [pc] at seg range
    have all : i = c.count := by simp only [InRange] at range; omega
    subst all
    exact ⟨seg,segExit,inf,infExit,stitchExit⟩
  | @send i pc =>
    rw [pc] at seg
    refine ⟨?_,segExit,inf,infExit,stitchExit⟩
    simp only [Session.send,List.length_cons,segSent] at seg ⊢
    omega
  | segFetch pc more got =>
    have less := fetch_length got once
    exact ⟨by simp only []; omega,by simp,inf,infExit,stitchExit⟩
  | segExit pc all => exact ⟨seg,fun _ => Nat.le_of_not_lt all,inf,infExit,stitchExit⟩
  | tileSend pc more =>
    refine ⟨seg,by simp,?_,infExit,stitchExit⟩
    simp only [Session.send,List.length_cons]
    omega
  | @segFinish at_ after flow pc ran =>
    have lanes := finish_lanes ran
    refine ⟨by simpa [lanes.seen,lanes.segSess,lanes.submitter] using seg,?_,
      by simpa [lanes.seen,lanes.infSess] using inf,by simpa [lanes.seen,lanes.inf] using infExit,?_⟩
    · cases flow <;> simp [segAfter]
    · intro exited
      have set := finish_event ran (stitchExit (lanes.stitch.symm.trans exited))
      exact set
  | infFetch pc more got =>
    have less := fetch_length got once
    have same := (fetch_parts got).2.1
    exact ⟨seg,segExit,by simp only [same]; omega,by simp,stitchExit⟩
  | infExit pc all => exact ⟨seg,segExit,inf,fun _ => Nat.le_of_not_lt all,stitchExit⟩
  | infOk pc good named got | infFailed pc bad got =>
    have running := got_looping got
    obtain ⟨frames,pc,rfl⟩ := got_only got
    exact ⟨seg,segExit,inf,fun exited => absurd exited running,stitchExit⟩
  | @infFinish at_ after flow pc ran =>
    have lanes := finish_lanes ran
    refine ⟨by simpa [lanes.seen,lanes.segSess,lanes.submitter] using seg,
      by simpa [lanes.seen,lanes.seg] using segExit,by simpa [lanes.seen,lanes.infSess] using inf,?_,?_⟩
    · cases flow <;> simp [infAfter]
    · intro exited
      have set := finish_event ran (stitchExit (lanes.stitch.symm.trans exited))
      exact set
  | stitchExit pc ended | stitchLeave pc ended => exact ⟨seg,segExit,inf,infExit,fun _ => ended⟩
  | @stitchFinish at_ after flow pc ran =>
    have lanes := finish_lanes ran
    refine ⟨by simpa [lanes.seen,lanes.segSess,lanes.submitter] using seg,
      by simpa [lanes.seen,lanes.seg] using segExit,by simpa [lanes.seen,lanes.infSess] using inf,
      by simpa [lanes.seen,lanes.inf] using infExit,?_⟩
    cases flow <;> simp [stitchAfter]
  | stall running pending => exact ⟨seg,segExit,inf,infExit,fun _ => rfl⟩
  | _ => exact ⟨seg,by first | exact segExit | simp,inf,by first | exact infExit | simp,
      by first | exact stitchExit | simp⟩

structure Progress (c : Config) (s : State) : Prop where
  lives : Lives true c s
  rooted : Rooted s
  seen : Seen c s
  counted : Counted s

theorem reached_progress
    (path : Runs.Reached (step c) (fun _ action => Delivers true action) (start c) s) : Progress c s := by
  refine path.invariant (Progress c) ⟨initial_lives true c,⟨trivial,trivial,trivial⟩,initial_seen c,rfl⟩ ?_
  rintro s action next ⟨lives,rooted,seen,counted⟩ delivers taken
  have step := step_sound taken
  have later := step_lives lives step delivers
  exact ⟨later,step_rooted lives rooted later.sound.room step,
    step_seen lives.sound.slots.2.1 seen step delivers.once,
    step_counted lives.sound.slots lives.sound.named later.sound.room counted step⟩

theorem tiles_length {tasks : List InfTask} (named : ∀ task ∈ tasks, ∃ i < count, task.imageId = some i)
    (bound : ∀ i, tilesOf tasks i ≤ n) : tasks.length ≤ count*n := by
  induction count generalizing tasks with
  | zero =>
    cases tasks with
    | nil => simp
    | cons task rest =>
      obtain ⟨i,below,_⟩ := named task List.mem_cons_self
      exact absurd below (Nat.not_lt_zero i)
  | succ count ih =>
    have split : tasks.length = tilesOf tasks count+
        (tasks.filter fun task => !decide (task.imageId = some count)).length := by
      rw [tilesOf,List.countP_eq_length_filter]
      exact List.length_eq_length_filter_add (fun task : InfTask => decide (task.imageId = some count))
    have fewer : (tasks.filter fun task => !decide (task.imageId = some count)).length ≤ count*n := by
      refine ih (fun task member => ?_) fun i => Nat.le_trans ?_ (bound i)
      · obtain ⟨old,other⟩ := List.mem_filter.mp member
        obtain ⟨i,below,same⟩ := named task old
        have differs : i ≠ count := fun equal => by simp [same,equal] at other
        exact ⟨i,by omega,same⟩
      · exact List.filter_sublist.countP_le
    have first := bound count
    rw [split,Nat.succ_mul]
    omega

theorem Stage.tiles_bound {stage : Stage} (valid : stage.Valid n) : (stage.tally n).tilesSent ≤ n := by
  cases stage with
  | inferring => exact valid.2.1
  | gathered fanning err at_ => cases at_ <;> exact Nat.le_refl n
  | _ => exact Nat.zero_le n

theorem Lives.inf_submitted (lives : Lives true c s) :
    s.infSess.submitted.length ≤ c.count*c.nTiles := by
  refine tiles_length (fun task member => ?_) fun i => ?_
  · have admitted := lives.sound.named task.imageId (by
      simp only [ids,List.mem_append,List.mem_map]
      exact .inl (.inl (.inr ⟨task,.inl member,rfl⟩)))
    have taken := registered_acquired (c:=c) s.submitter
    have range := acquired_count lives.sound.slots.2.1
    cases named : task.imageId with
    | none => simp [named,Admitted] at admitted
    | some i =>
      rw [named] at admitted
      exact ⟨i,Nat.lt_of_lt_of_le admitted (Nat.le_trans taken range),rfl⟩
  · obtain ⟨stage,valid,_,view⟩ := lives.staged i
    have same : tilesOf s.infSess.submitted i = (stage.tally c.nTiles).tilesSent :=
      congrArg Tally.tilesSent view
    rw [same]
    exact Stage.tiles_bound valid

-- Permits and marks count frames, so with fewer marks than frames entered
-- some frame is unfinished.
theorem Slots.unfinished_frame (slots : Slots c s (closing s)) (idle : closing s = [])
    (fewer : s.released.length < registered c s.submitter) :
    ∃ i frame, s.imgState i = some frame ∧ frame.done = false := by
  obtain ⟨_,_,born,distinct,done⟩ := slots
  rw [idle,List.nil_append] at distinct
  have missing : ∃ i < registered c s.submitter, i ∉ s.released := by
    by_contra all
    push Not at all
    have inside : List.range (registered c s.submitter) ⊆ s.released :=
      fun i member => all i (List.mem_range.mp member)
    have size := (List.nodup_range.subperm inside).length_le
    rw [List.length_range] at size
    omega
  obtain ⟨i,below,absent⟩ := missing
  obtain ⟨frame,found⟩ := (born i).mpr below
  refine ⟨i,frame,found,?_⟩
  cases mark : frame.done with
  | false => rfl
  | true =>
    have member := (done i).mpr ⟨frame,found,mark⟩
    rw [idle,List.nil_append] at member
    exact absurd member absent

theorem waiting_stage {stage : Stage} (valid : stage.Valid n) (whole : stage.Lossless) (tiles : 1 ≤ n)
    (unfinished : (stage.tally n).core.data = some (got,err,dispatched,false))
    (submitter : (stage.tally n).sending = false) (seg : (stage.tally n).seg = .away)
    (inf : (stage.tally n).inf = .away) (stitch : (stage.tally n).stitch = .away) :
    0 < (stage.tally n).segQueue ∨ 0 < (stage.tally n).infQueue ∨ 0 < (stage.tally n).stitchQueue := by
  cases stage with
  | segmenting => exact .inl Nat.zero_lt_one
  | inferring fanning sent queued held tiles err =>
    cases held with
    | true => cases inf
    | false =>
      cases fanning with
      | true => cases seg
      | false =>
        simp only [Stage.Valid,Stage.Lossless,Bool.toNat_false] at valid whole
        have all : sent = n := by simpa using valid.2.2.1
        exact .inr (.inl (show 0 < queued by omega))
  | gathered fanning err at_ =>
    cases at_ with
    | stitching => exact .inr (.inr Nat.zero_lt_one)
    | lost => exact absurd whole id
    | finished => cases unfinished
    | stitch => cases inf
    | infClosing => cases inf
    | stitched | dumping | stitchClosing => cases stitch
  | unborn | segFinished => cases unfinished
  | sending => cases submitter
  | segmented | segClosing => cases seg
  | segLost => exact absurd whole id

theorem SegPc.rests (idle : ¬SegPc.busy pc) (rooted : SegPc.rooted pc) :
    (pc = .loop ∨ pc = .exited) ∧ segClosing pc = [] ∧ ∀ i, segAt i pc = .away := by
  cases pc <;> simp_all [SegPc.busy,SegPc.rooted,segClosing,segAt]

theorem InfPc.rests (idle : ¬InfPc.busy pc) (rooted : InfPc.rooted pc) :
    (pc = .loop ∨ pc = .exited) ∧ infClosing pc = [] ∧ ∀ i, infAt i pc = .away := by
  cases pc <;> simp_all [InfPc.busy,InfPc.rooted,infClosing,infAt]

theorem StitchPc.rests (idle : ¬StitchPc.busy pc) (rooted : StitchPc.rooted pc) :
    (pc = .loop ∨ pc = .fetching ∨ pc = .exited) ∧ stitchClosing pc = [] ∧ ∀ i, stitchAt i pc = .away := by
  cases pc <;> simp_all [StitchPc.busy,StitchPc.rooted,stitchClosing,stitchAt]

-- With every thread at rest and no permit left, more frames are entered than
-- released.
theorem Slots.waiting_frame (slots : Slots c s (closing s)) (idle : ¬s.submitter.busy)
    (none : ¬PermitFree c s) (places : 1 ≤ c.inFlight) (fewer : s.released.length < c.count) :
    s.released.length < registered c s.submitter := by
  obtain ⟨permits,range,_⟩ := slots
  cases pc : s.submitter with
  | acquire i =>
    rw [pc] at permits range
    simp only [acquired,InRange,registered] at permits range ⊢
    by_cases left : i < c.count
    · have gone : ¬0 < s.sem := fun free => none ⟨i,pc,left,free⟩
      omega
    · omega
  | register i | send i => simp [pc,SubmitPc.busy] at idle
  | exited => exact fewer

theorem Progress.unblocked (progress : Progress c s) (places : 1 ≤ c.inFlight) (tiles : 1 ≤ c.nTiles)
    (pending : s.totals.imgDone < c.count) (fresh : s.stalled = false) :
    PermitFree c s ∨ Handling s ∨ Fetchable c s := by
  obtain ⟨lives,rooted,seen,counted⟩ := progress
  have slots := lives.sound.slots
  by_cases permit : PermitFree c s
  · exact .inl permit
  by_cases handling : Handling s
  · exact .inr (.inl handling)
  right; right
  simp only [Handling,not_or] at handling
  obtain ⟨submitterIdle,segIdle,infIdle,stitchIdle⟩ := handling
  obtain ⟨segPc,segEnd,segAway⟩ := SegPc.rests segIdle rooted.1
  obtain ⟨infPc,infEnd,infAway⟩ := InfPc.rests infIdle rooted.2.1
  obtain ⟨stitchPc,stitchEnd,stitchAway⟩ := StitchPc.rests stitchIdle rooted.2.2
  have closed : closing s = [] := by simp [closing,segEnd,infEnd,stitchEnd]
  have fewer : s.released.length < c.count := by
    have same : s.totals.imgDone = (closing s).length+s.released.length := counted
    rw [closed,List.length_nil,Nat.zero_add] at same
    rwa [same] at pending
  obtain ⟨i,frame,found,undone⟩ := slots.unfinished_frame closed
    (slots.waiting_frame submitterIdle permit places fewer)
  obtain ⟨stage,valid,whole,view⟩ := lives.staged i
  have data : (core s i).data = some (frame.got,frame.err,frame.dispatched,false) := by
    simp [core,found,undone]
  have waits := waiting_stage valid (whole rfl) tiles (by rw [← view]; exact data)
    (by
      rw [← view]
      cases pc : s.submitter with
      | send j => simp [pc,SubmitPc.busy] at submitterIdle
      | _ => simp [tally,pc])
    (by rw [← view]; exact segAway i) (by rw [← view]; exact infAway i)
    (by rw [← view]; exact stitchAway i)
  rw [← view] at waits
  rcases waits with seg | inf | stitch
  · have some : s.segSess.pending ≠ [] := fun empty => by simp [tally,empty] at seg
    have size := List.length_pos_iff.mpr some
    have count := seen.seg
    have most := segSent_le slots.2.1
    have more : s.segSeen < c.count := by omega
    exact .inl ⟨some,segPc.resolve_right fun exited => absurd (seen.segExit exited) (by omega),more⟩
  · have some : s.infSess.pending ≠ [] := fun empty => by simp [tally,tilesOf,empty] at inf
    have size := List.length_pos_iff.mpr some
    have count := seen.inf
    have most := lives.inf_submitted
    have more : s.infSeen < c.count*c.nTiles := by omega
    exact .inr (.inl ⟨some,infPc.resolve_right fun exited => absurd (seen.infExit exited) (by omega),more⟩)
  · have some : s.stitchSess.pending ≠ [] := fun empty => by simp [tally,empty] at stitch
    have running : s.doneEvt = false := by
      cases event : s.doneEvt with
      | false => rfl
      | true =>
        rcases lives.sound.ended.2 event with stalled | set
        · simp [fresh] at stalled
        · have all := lives.sound.ended.1 set
          omega
    rcases stitchPc with loop | fetching | exited
    · exact .inr (.inr ⟨some,.inl ⟨loop,running⟩⟩)
    · exact .inr (.inr ⟨some,.inr fetching⟩)
    · simp [seen.stitchExit exited] at running

theorem fetch_pending [DecidableEq Task] {session : Session Task} (waiting : session.pending ≠ []) :
    ∃ task ∈ session.pending, ∀ out, out.task = task → (session.fetch out false).isSome := by
  obtain ⟨task,rest,same⟩ := List.exists_cons_of_ne_nil waiting
  refine ⟨task,by simp [same],?_⟩
  rintro out rfl
  simp [Session.fetch,same]

theorem handling_enabled (handling : Handling s) :
    ∃ action, action ≠ .watchdog ∧ Delivers true action ∧ (step c s action).isSome := by
  have free : Delivers true .segSubmit ∧ Delivers true .segNext ∧ Delivers true .infNext ∧
      Delivers true .stitchNext := by
    refine ⟨⟨trivial,?_,fun _ => trivial⟩,⟨trivial,?_,fun _ => trivial⟩,⟨trivial,?_,fun _ => trivial⟩,
      ⟨trivial,?_,fun _ => trivial⟩⟩ <;> trivial
  rcases handling with busy | busy | busy | busy
  · refine ⟨.segSubmit,by simp,free.1,?_⟩
    cases pc : s.submitter <;> simp_all [SubmitPc.busy,step,segSubmit]
  · refine ⟨.segNext,by simp,free.2.1,?_⟩
    cases pc : s.seg <;> simp_all [SegPc.busy,step,segNext]
    all_goals split <;> rfl
  · refine ⟨.infNext,by simp,free.2.2.1,?_⟩
    cases pc : s.inf <;> simp_all [InfPc.busy,step,infNext]
    all_goals split <;> [split <;> rfl; rfl]
  · refine ⟨.stitchNext,by simp,free.2.2.2,?_⟩
    cases pc : s.stitch <;> simp_all [StitchPc.busy,step,stitchNext]
    all_goals split <;> [split <;> rfl; rfl]

theorem fetchable_enabled (fetchable : Fetchable c s) :
    ∃ action, action ≠ .watchdog ∧ Delivers true action ∧ (step c s action).isSome := by
  rcases fetchable with ⟨waiting,pc,more⟩ | ⟨waiting,pc,more⟩ | ⟨waiting,⟨pc,running⟩ | pc⟩
  · obtain ⟨task,_,fetched⟩ := fetch_pending waiting
    have got := fetched (okOut task (some task)) rfl
    refine ⟨.segFetch (okOut task (some task)) false,by simp,
      ⟨rfl,okOut_readable _ _,fun _ => trivial⟩,?_⟩
    simpa [step,segFetch,pc,more] using got
  · obtain ⟨task,_,fetched⟩ := fetch_pending waiting
    have got := fetched (okOut task task.imageId) rfl
    refine ⟨.infFetch (okOut task task.imageId) false,by simp,
      ⟨rfl,okOut_readable _ _,fun _ => by simp [Action.namesHost,NamesHost,okOut]⟩,?_⟩
    simpa [step,infFetch,pc,more] using got
  · exact ⟨.stitchNext,by simp,⟨trivial,trivial,fun _ => trivial⟩,by simp [step,stitchNext,pc,running]⟩
  · obtain ⟨task,_,fetched⟩ := fetch_pending waiting
    have got := fetched (okOut task (some task)) rfl
    refine ⟨.stitchFetch (okOut task (some task)) false,by simp,
      ⟨rfl,okOut_readable _ _,fun _ => trivial⟩,?_⟩
    simpa [step,stitchFetch,pc] using got

theorem permit_enabled (free : PermitFree c s) :
    ∃ action, action ≠ .watchdog ∧ Delivers true action ∧ (step c s action).isSome := by
  obtain ⟨i,pc,left,some⟩ := free
  exact ⟨.segSubmit,by simp,⟨trivial,trivial,fun _ => trivial⟩,by simp [step,segSubmit,pc,left,some]⟩

theorem deadlock_free
    (path : Runs.Reached (step c) (fun _ action => Delivers true action) (start c) s)
    (places : 1 ≤ c.inFlight) (tiles : 1 ≤ c.nTiles) (pending : s.totals.imgDone < c.count)
    (fresh : s.stalled = false) :
    (PermitFree c s ∨ Handling s ∨ Fetchable c s) ∧
    ∃ action, action ≠ .watchdog ∧ Delivers true action ∧ (step c s action).isSome := by
  have unblocked := (reached_progress path).unblocked places tiles pending fresh
  exact ⟨unblocked,unblocked.elim permit_enabled
    (Or.elim · handling_enabled fetchable_enabled)⟩

theorem deadlock_free_split : ∃ s, s.totals.imgDone < 1 ∧ s.stalled = false ∧
    (PermitFree (oneFrame 2) s ∨ Handling s ∨ Fetchable (oneFrame 2) s) := by
  obtain ⟨s,path,early⟩ := Runs.run_witness (step (oneFrame 2)) (fun _ action => Delivers true action)
    (start (oneFrame 2)) (fun _ _ => true) (fun s => decide (s.totals.imgDone < 1) && !s.stalled)
    (splitFrame 2) (by decide) (by
      intro action member _ _
      simp only [splitFrame,List.mem_append,List.mem_cons,List.mem_replicate,List.not_mem_nil,
        or_false] at member
      rcases member with (rfl | rfl | rfl | rfl | rfl) | ⟨_,rfl⟩
      all_goals first
        | exact ⟨trivial,trivial,fun _ => trivial⟩
        | exact ⟨rfl,okOut_readable _ _,fun _ => trivial⟩)
  simp only [Bool.and_eq_true,decide_eq_true_eq,Bool.not_eq_true'] at early
  exact ⟨s,early.1,early.2,(deadlock_free path (by decide) (by decide) early.1 early.2).1⟩

end SymphonyAkida.ShardClient
