import SymphonyAkida.ShardClientProgress

namespace SymphonyAkida.ShardClient
variable {Task : Type}

-- A fetch thread about to handle an unsuccessful output of frame i.
def SegFailure (s : State) (i : Nat) : Prop :=
  ∃ out, s.seg = .received out ∧ out.isSuccessful = false ∧ out.task = i
def InfFailure (s : State) (i : Nat) : Prop :=
  ∃ out, s.inf = .received out ∧ out.isSuccessful = false ∧ out.task.imageId = some i
def StitchFailure (s : State) (i : Nat) : Prop :=
  ∃ out, s.stitch = .received out ∧ out.isSuccessful = false ∧ out.task = i

def HoldsFailure (s : State) (i : Nat) : Prop := SegFailure s i ∨ InfFailure s i ∨ StitchFailure s i

-- Stages a frame cannot leave for `finished`: an output of it lost its id.
inductive Doomed (n : Nat) : Stage → Prop where
  | segLost : Doomed n .segLost
  | inferring {queued got sent : Nat} {held fanning err : Bool}
      (short : queued+held.toNat+got < sent) (most : sent ≤ n)
      (fan : fanning = false → sent = n) (room : got < n ∨ got = 0) :
      Doomed n (.inferring fanning sent queued held got err)
  | lost : Doomed n (.gathered fanning err .lost)

def IsDoomed (n : Nat) (view : Tally) : Prop := ∃ stage : Stage, Doomed n stage ∧ view = stage.tally n

theorem doomed_data (doomed : IsDoomed n view) :
    (∃ got err dispatched, view.core.data = some (got,err,dispatched,false)) ∧ view.core.released = 0 := by
  obtain ⟨stage,kind,rfl⟩ := doomed
  cases kind <;> exact ⟨⟨_,_,_,rfl⟩,rfl⟩

theorem Move.doomed (move : Move strict n view next) (doomed : IsDoomed n view) : IsDoomed n next := by
  obtain ⟨stage,kind,rfl⟩ := doomed
  cases kind with
  | segLost => cases move <;> simp_all [Stage.tally,FinishAt.core]
  | @lost fanning err =>
    cases move with
    | @tilesSent tile pc all => exact ⟨.gathered false err .lost,.lost,rfl⟩
    | @tileSend tile pc more =>
      obtain ⟨_,rfl⟩ := fanAt_tiles pc
      exact absurd more (Nat.lt_irrefl _)
    | segFetch pc waiting | infFetch pc waiting | stitchFetch pc waiting => cases waiting
    | segFailed pc | segSplit pc | segLost pc => exact absurd pc fanAt_received
    | segClose pc => exact absurd pc fanAt_finish
    | register fresh => cases fresh
    | stitchEnd pc => rcases pc with pc | pc <;> cases pc
    | send pc | infLost pc | counted pc | gathered _ pc | stitchSend pc | infClose pc | stitchLost pc
    | stitchDump pc | stitchClose pc => cases pc
  | @inferring queued got sent held fanning err short most fan room =>
    cases move with
    | register fresh => cases fresh
    | send pc => cases pc
    | segFetch pc waiting | stitchFetch pc waiting => cases waiting
    | segFailed pc | segSplit pc | segLost pc => exact absurd pc fanAt_received
    | segClose pc => exact absurd pc fanAt_finish
    | @tileSend tile pc more =>
      obtain ⟨rfl,rfl⟩ := fanAt_tiles pc
      exact ⟨.inferring true (tile+1) (queued+1) held got err,
        .inferring (by omega) (by omega) (by simp) room,rfl⟩
    | @tilesSent tile pc all =>
      obtain ⟨rfl,rfl⟩ := fanAt_tiles pc
      exact ⟨.inferring false tile queued held got err,.inferring short most (fun _ => by omega) room,rfl⟩
    | infFetch pc waiting =>
      cases held with
      | true => cases pc
      | false =>
        have some : 0 < queued := waiting
        simp only [Bool.toNat_false] at short
        exact ⟨.inferring fanning sent (queued-1) true got err,
          .inferring (by simp only [Bool.toNat_true]; omega) most fan room,rfl⟩
    | infLost pc =>
      cases held with
      | false => cases pc
      | true =>
        simp only [Bool.toNat_true] at short
        exact ⟨.inferring fanning sent queued false got err,
          .inferring (by simp only [Bool.toNat_false]; omega) most fan room,rfl⟩
    | @counted got err dispatched done later pc data stay =>
      cases held with
      | false => cases pc
      | true =>
        cases data
        simp only [Bool.toNat_true] at short
        exact ⟨.inferring fanning sent queued false (got+1) later,
          .inferring (by simp only [Bool.toNat_false]; omega) most fan
            (.inl (stay.resolve_right (by simp))),rfl⟩
    | gathered _ pc data full =>
      cases held with
      | false => cases pc
      | true =>
        -- One output is missing for good, so n is out of reach.
        cases data
        simp only [Bool.toNat_true] at short
        omega
    | stitchSend pc | infClose pc => cases held <;> cases pc
    | stitchLost pc | stitchDump pc | stitchClose pc => cases pc
    | stitchEnd pc => rcases pc with pc | pc <;> cases pc

theorem lost_reply {out : Out Task} (unsuccessful : out.isSuccessful = false) :
    (reply out).imageId = none := by rw [unsuccessful_reply unsuccessful]

-- The way of a thread that calls _finish(None, _): it counts, then os.path.join
-- raises and ends it before sem.release().
def Finish.rootless : Finish → Prop
  | .enter none _ => True
  | .remove none => True
  | _ => False
def Flow.rootless : Flow → Prop
  | .next at_ => at_.rootless
  | .returned => False
  | .raised error => error = .typeError

def SegPc.rootless : SegPc → Prop
  | .finish at_ => at_.rootless
  | .crashed error => error = .typeError
  | _ => False
def StitchPc.rootless : StitchPc → Prop
  | .finish at_ => at_.rootless
  | .crashed error => error = .typeError
  | _ => False

theorem finish_rootless (ran : FinishStep c s at_ after flow) (rootless : at_.rootless) : flow.rootless := by
  cases ran with
  | again | mark | remove | release | full => exact absurd rootless id
  | @unknown imageId failed missing =>
    cases imageId with
    | none => trivial
    | some i => exact absurd rootless id
  | noPath => rfl

theorem step_seg (step : Step c s action next) (other : action ≠ .segNext)
    (waiting : s.seg ≠ .loop) : next.seg = s.seg := by
  cases step with
  | segFetch pc => exact absurd pc waiting
  | segExit | segFailed | segSplit | tileSend | tilesSent | segFinish => exact absurd rfl other
  | infFinish pc ran | stitchFinish pc ran => exact (finish_lanes ran).seg
  | infOk pc good named got | infFailed pc bad got => exact (got_lanes got).seg
  | _ => rfl

theorem step_stitch (step : Step c s action next) (other : action ≠ .stitchNext)
    (waiting : s.stitch ≠ .fetching) : next.stitch = s.stitch := by
  cases step with
  | stitchFetch pc => exact absurd pc waiting
  | stitchPoll | stitchExit | stitchLeave | stitchDump | stitchCount | stitchFailed | dumped | stitchFinish => exact absurd rfl other
  | infFinish pc ran | segFinish pc ran => exact (finish_lanes ran).stitch
  | infOk pc good named got | infFailed pc bad got => exact (got_lanes got).stitch
  | _ => rfl

theorem step_inf (step : Step c s action next) (other : action ≠ .infNext)
    (waiting : s.inf ≠ .loop) : next.inf = s.inf := by
  cases step with
  | infFetch pc => exact absurd pc waiting
  | infExit | infNoHost | infOk | infFailed | stitchSend | infFinish => exact absurd rfl other
  | segFinish pc ran | stitchFinish pc ran => exact (finish_lanes ran).inf
  | _ => rfl

theorem seg_failure_step (step : Step c s .segNext next) (pc : s.seg = .received out)
    (bad : out.isSuccessful = false) :
    next = {s with totals := {s.totals with segErr := s.totals.segErr+1},
                   seg := .finish (.enter none true)} := by
  cases step with
  | @segFailed other pc' _ =>
    rw [pc] at pc'
    cases pc'
    rw [lost_reply bad]
  | @segSplit other pc' good =>
    rw [pc] at pc'
    cases pc'
    simp [bad] at good
  | segExit pc' | tileSend pc' | tilesSent pc' | segFinish pc' => rw [pc] at pc'; cases pc'

theorem stitch_failure_step (step : Step c s .stitchNext next) (pc : s.stitch = .received out)
    (bad : out.isSuccessful = false) : next = {s with stitch := .finish (.enter none true)} := by
  cases step with
  | @stitchFailed other pc' _ =>
    rw [pc] at pc'
    cases pc'
    rw [lost_reply bad]
  | @stitchDump other pc' good | @stitchCount other pc' good =>
    rw [pc] at pc'
    cases pc'
    simp [bad] at good
  | stitchPoll pc' | stitchExit pc' | stitchLeave pc' | dumped pc' | stitchFinish pc' => rw [pc] at pc'; cases pc'

theorem inf_failure_step (step : Step c s .infNext next) (pc : s.inf = .received out)
    (bad : out.isSuccessful = false) : next = {countErr (countTask s) with inf := .loop} := by
  cases step with
  | @infFailed other next pc' _ got =>
    rw [pc] at pc'
    cases pc'
    rw [lost_reply bad] at got
    generalize lost : none = imageId at got
    cases got with
    | unknown => rfl
    | _ => cases lost
  | @infOk other host next pc' good | @infNoHost other pc' good =>
    rw [pc] at pc'
    cases pc'
    simp [bad] at good
  | infExit pc' | stitchSend pc' | infFinish pc' => rw [pc] at pc'; cases pc'

theorem failure_doom (staged : Staged false c s) (step : Step c s action next) (holds : HoldsFailure s i) :
    HoldsFailure next i ∨ IsDoomed c.nTiles (tally next i) := by
  obtain ⟨stage,valid,_,view⟩ := staged i
  rcases holds with ⟨out,pc,bad,task⟩ | ⟨out,pc,bad,task⟩ | ⟨out,pc,bad,task⟩
  · by_cases own : action = .segNext
    · subst own
      have at_ : (stage.tally c.nTiles).seg = .received := by
        rw [← view]; simp [tally,pc,segAt,task]
      obtain rfl := Stage.of_segReceived at_
      have moved : tally next i = {tally s i with seg := .away} := by
        rw [seg_failure_step step pc bad]
        rfl
      exact .inr ⟨.segLost,.segLost,by rw [moved,view]; rfl⟩
    · exact .inl (.inl ⟨out,(step_seg step own (by simp [pc])).trans pc,bad,task⟩)
  · by_cases own : action = .infNext
    · subst own
      have at_ : (stage.tally c.nTiles).inf = .received := by
        rw [← view]; simp [tally,pc,infAt,task]
      obtain ⟨fanning,sent,queued,got,err,rfl⟩ := Stage.of_infReceived at_
      have moved : tally next i = {tally s i with inf := .away} := by
        rw [inf_failure_step step pc bad]
        rfl
      simp only [Stage.Valid,Bool.toNat_true] at valid
      exact .inr ⟨.inferring fanning sent queued false got err,
        .inferring (by simp only [Bool.toNat_false]; omega) valid.2.1 valid.2.2.1 valid.2.2.2,
        by rw [moved,view]; rfl⟩
    · exact .inl (.inr (.inl ⟨out,(step_inf step own (by simp [pc])).trans pc,bad,task⟩))
  · by_cases own : action = .stitchNext
    · subst own
      have at_ : (stage.tally c.nTiles).stitch = .received := by
        rw [← view]; simp [tally,pc,stitchAt,task]
      obtain ⟨fanning,err,rfl⟩ := Stage.of_stitchReceived at_
      have moved : tally next i = {tally s i with stitch := .away} := by
        rw [stitch_failure_step step pc bad]
        rfl
      exact .inr ⟨.gathered fanning err .lost,.lost,by rw [moved,view]; rfl⟩
    · exact .inl (.inr (.inr ⟨out,(step_stitch step own (by simp [pc])).trans pc,bad,task⟩))

def Stranded (c : Config) (s : State) (i : Nat) : Prop :=
  Lives false c s ∧ (HoldsFailure s i ∨ IsDoomed c.nTiles (tally s i))

theorem step_stranded (stranded : Stranded c s i) (step : Step c s action next)
    (delivers : Delivers false action) : Stranded c next i := by
  obtain ⟨lives,holds | doomed⟩ := stranded
  · exact ⟨step_lives lives step delivers,failure_doom lives.staged step holds⟩
  · have later := step_lives lives step delivers
    refine ⟨later,.inr ?_⟩
    rcases step_moves lives later.sound.room step delivers i with same | move
    · rw [same]; exact doomed
    · exact move.doomed doomed

theorem Stranded.unfinished (stranded : Stranded c s i) : ¬isDone s i ∧ i ∉ s.released := by
  have data : (∃ got err dispatched, (core s i).data = some (got,err,dispatched,false)) ∧
      s.released.count i = 0 := by
    obtain ⟨lives,holds | doomed⟩ := stranded
    · obtain ⟨stage,_,_,view⟩ := lives.staged i
      have whole : core s i = (stage.tally c.nTiles).core := congrArg Tally.core view
      have released : s.released.count i = (stage.tally c.nTiles).core.released :=
        congrArg Core.released whole
      rw [whole,released]
      have seg : segAt i s.seg = (stage.tally c.nTiles).seg := congrArg Tally.seg view
      have inf : infAt i s.inf = (stage.tally c.nTiles).inf := congrArg Tally.inf view
      have stitch : stitchAt i s.stitch = (stage.tally c.nTiles).stitch := congrArg Tally.stitch view
      rcases holds with ⟨out,pc,_,task⟩ | ⟨out,pc,_,task⟩ | ⟨out,pc,_,task⟩
      · obtain rfl := Stage.of_segReceived (seg.symm.trans (by simp [pc,segAt,task]))
        exact ⟨⟨_,_,_,rfl⟩,rfl⟩
      · obtain ⟨_,_,_,_,_,rfl⟩ := Stage.of_infReceived (inf.symm.trans (by simp [pc,infAt,task]))
        exact ⟨⟨_,_,_,rfl⟩,rfl⟩
      · obtain ⟨_,_,rfl⟩ := Stage.of_stitchReceived (stitch.symm.trans (by simp [pc,stitchAt,task]))
        exact ⟨⟨_,_,_,rfl⟩,rfl⟩
    · exact doomed_data doomed
  obtain ⟨⟨got,err,dispatched,found⟩,none⟩ := data
  refine ⟨?_,List.count_eq_zero.mp none⟩
  intro given
  obtain ⟨frame,known,done⟩ := given
  simp [core,known,done] at found

theorem stranded_run (path : Runs.Reached (step c) (fun _ action => Delivers false action) (start c) s)
    (holds : HoldsFailure s i)
    (rest : Runs.Reached (step c) (fun _ action => Delivers false action) s t) : Stranded c t i :=
  rest.invariant (Stranded c · i) ⟨reached_lives path,.inl holds⟩ fun _ _ _ stranded delivers taken =>
    step_stranded stranded (step_sound taken) delivers

theorem seg_rootless_step (rootless : s.seg.rootless) (step : Step c s action next) : next.seg.rootless := by
  have waiting : s.seg ≠ .loop := fun loop => by rw [loop] at rootless; exact rootless
  by_cases own : action = .segNext
  · subst own
    cases step with
    | segFinish pc ran =>
      rw [pc] at rootless
      have later := finish_rootless ran rootless
      revert later
      cases ‹Flow› <;> exact id
    | segExit pc | segFailed pc | segSplit pc | tileSend pc | tilesSent pc =>
      rw [pc] at rootless
      exact absurd rootless id
  · rw [step_seg step own waiting]; exact rootless

theorem stitch_rootless_step (rootless : s.stitch.rootless) (step : Step c s action next) :
    next.stitch.rootless := by
  have waiting : s.stitch ≠ .fetching := fun fetching => by rw [fetching] at rootless; exact rootless
  by_cases own : action = .stitchNext
  · subst own
    cases step with
    | stitchFinish pc ran =>
      rw [pc] at rootless
      have later := finish_rootless ran rootless
      revert later
      cases ‹Flow› <;> exact id
    | stitchPoll pc | stitchExit pc | stitchLeave pc | stitchDump pc | stitchCount pc | stitchFailed pc | dumped pc =>
      rw [pc] at rootless
      exact absurd rootless id
  · rw [step_stitch step own waiting]; exact rootless

theorem seg_ends {admits : State → Action → Prop} (path : Runs.Reached (step c) admits s t)
    (holds : SegFailure s i) : SegFailure t i ∨ t.seg.rootless := by
  refine path.invariant (fun t => SegFailure t i ∨ t.seg.rootless) (.inl holds) ?_
  intro s action next held _ taken
  have step := step_sound taken
  rcases held with ⟨out,pc,bad,task⟩ | rootless
  · by_cases own : action = .segNext
    · subst own
      right
      rw [seg_failure_step step pc bad]
      trivial
    · exact .inl ⟨out,(step_seg step own (by simp [pc])).trans pc,bad,task⟩
  · exact .inr (seg_rootless_step rootless step)

theorem stitch_ends {admits : State → Action → Prop} (path : Runs.Reached (step c) admits s t)
    (holds : StitchFailure s i) : StitchFailure t i ∨ t.stitch.rootless := by
  refine path.invariant (fun t => StitchFailure t i ∨ t.stitch.rootless) (.inl holds) ?_
  intro s action next held _ taken
  have step := step_sound taken
  rcases held with ⟨out,pc,bad,task⟩ | rootless
  · by_cases own : action = .stitchNext
    · subst own
      right
      rw [stitch_failure_step step pc bad]
      trivial
    · exact .inl ⟨out,(step_stitch step own (by simp [pc])).trans pc,bad,task⟩
  · exact .inr (stitch_rootless_step rootless step)

inductive Handles (s : State) : Action → Prop where
  | seg (pc : s.seg = .received out) (bad : out.isSuccessful = false) : Handles s .segNext
  | inf (pc : s.inf = .received out) (bad : out.isSuccessful = false) : Handles s .infNext
  | stitch (pc : s.stitch = .received out) (bad : out.isSuccessful = false) : Handles s .stitchNext

-- Whatever was delivered before, and for an output that comes again as for a
-- new one: no frame is finished by it and no permit returned, and for seg_fetch
-- and stitch_fetch it is the last.
theorem handled_step (handles : Handles s action) (taken : step c s action = some next) :
    next.imgState = s.imgState ∧ next.released = s.released ∧ next.sem = s.sem ∧
      ∀ admits t, Runs.Reached (step c) admits next t →
        (action = .segNext → t.seg.rootless) ∧ (action = .stitchNext → t.stitch.rootless) := by
  have ran := step_sound taken
  cases handles with
  | @seg out pc bad =>
    rw [seg_failure_step ran pc bad]
    refine ⟨rfl,rfl,rfl,fun admits t rest => ⟨fun _ => ?_,nofun⟩⟩
    exact rest.invariant (·.seg.rootless) trivial fun _ _ _ rootless _ taken =>
      seg_rootless_step rootless (step_sound taken)
  | @inf out pc bad =>
    rw [inf_failure_step ran pc bad]
    exact ⟨rfl,rfl,rfl,fun admits t rest => ⟨nofun,nofun⟩⟩
  | @stitch out pc bad =>
    rw [stitch_failure_step ran pc bad]
    refine ⟨rfl,rfl,rfl,fun admits t rest => ⟨nofun,fun _ => ?_⟩⟩
    exact rest.invariant (·.stitch.rootless) trivial fun _ _ _ rootless _ taken =>
      stitch_rootless_step rootless (step_sound taken)

-- The least a contained failure would give: the frame can still be finished
-- and its permit released once, by a thread that then goes on.
def CostsItsFrame (c : Config) (s : State) (i : Nat) : Prop :=
  ∃ t, Runs.Reached (step c) (fun _ action => Delivers false action) s t ∧
    isDone t i ∧ t.released.count i = 1

-- _reply loses the image id of an unsuccessful output, so its frame is never
-- finished at all. For a segment or stitch output the thread dies as well,
-- after counting a frame nobody named.
theorem failed_task_strands_frame
    (path : Runs.Reached (step c) (fun _ action => Delivers false action) (start c) s)
    (holds : HoldsFailure s i) :
    ¬CostsItsFrame c s i ∧ ∀ t, Runs.Reached (step c) (fun _ action => Delivers false action) s t →
      ¬isDone t i ∧ i ∉ t.released ∧ (SegFailure s i → t.seg ≠ .loop) ∧
        (StitchFailure s i → t.stitch ≠ .loop) := by
  have stranded : ∀ t, Runs.Reached (step c) (fun _ action => Delivers false action) s t →
      ¬isDone t i ∧ i ∉ t.released := fun t rest => (stranded_run path holds rest).unfinished
  refine ⟨fun ⟨t,rest,done,_⟩ => (stranded t rest).1 done,fun t rest => ?_⟩
  refine ⟨(stranded t rest).1,(stranded t rest).2,fun seg loop => ?_,fun stitch loop => ?_⟩
  · rcases seg_ends rest seg with ⟨_,pc,_⟩ | rootless
    · rw [pc] at loop; cases loop
    · rw [loop] at rootless; exact rootless
  · rcases stitch_ends rest stitch with ⟨_,pc,_⟩ | rootless
    · rw [pc] at loop; cases loop
    · rw [loop] at rootless; exact rootless

-- One frame, its segment task failed.
def failedOut : Out Nat := {task := 0,isSuccessful := false,text := none}

def failedSegment : List Action := [.segSubmit,.segSubmit,.segSubmit,.segFetch failedOut false]

theorem failed_segment_run : ∃ s,
    Runs.Reached (step (oneFrame 1)) (fun _ action => Delivers false action) (start (oneFrame 1)) s ∧
      HoldsFailure s 0 := by
  obtain ⟨s,path,held⟩ := Runs.run_witness (step (oneFrame 1)) (fun _ action => Delivers false action)
    (start (oneFrame 1)) (fun _ _ => true)
    (fun s => match s.seg with
      | .received out => !out.isSuccessful && out.task == 0
      | _ => false)
    failedSegment (by decide) (by
      intro action member _ _
      simp only [failedSegment,List.mem_cons,List.not_mem_nil,or_false] at member
      rcases member with rfl | rfl | rfl | rfl
      · exact ⟨trivial,trivial,by simp⟩
      · exact ⟨trivial,trivial,by simp⟩
      · exact ⟨trivial,trivial,by simp⟩
      · exact ⟨rfl,fun text bad => by simp [failedOut] at bad,by simp⟩)
  refine ⟨s,path,.inl ?_⟩
  cases pc : s.seg with
  | received out =>
    simp only [pc,Bool.and_eq_true,Bool.not_eq_true',beq_iff_eq] at held
    exact ⟨out,pc,held.1,held.2⟩
  | _ => simp [pc] at held

theorem failed_task_strands_frame_segment : ∃ s, HoldsFailure s 0 ∧ ¬CostsItsFrame (oneFrame 1) s 0 := by
  obtain ⟨s,path,holds⟩ := failed_segment_run
  exact ⟨s,holds,(failed_task_strands_frame path holds).1⟩

theorem failed_segment_not_contained : ¬∀ (c : Config) (s : State) (i : Nat),
    Runs.Reached (step c) (fun _ action => Delivers false action) (start c) s →
      HoldsFailure s i → CostsItsFrame c s i := by
  intro contained
  obtain ⟨s,path,holds⟩ := failed_segment_run
  obtain ⟨t,rest,done,_⟩ := contained _ s 0 path holds
  exact (stranded_run path holds rest).unfinished.1 done

end SymphonyAkida.ShardClient
