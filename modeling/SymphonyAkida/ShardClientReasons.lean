import SymphonyAkida.ShardClientOrder

namespace SymphonyAkida.ShardClient

def SegBad (s : State) (i : Nat) : Prop := ∃ out ∈ s.segSess.fetched, out.task = i ∧ out.good = false
def InfBad (s : State) (i : Nat) : Prop := ∃ out ∈ s.infSess.fetched, out.task.imageId = some i ∧ out.good = false
def StitchBack (s : State) (i : Nat) : Prop := ∃ out ∈ s.stitchSess.fetched, out.task = i

-- What closes a frame: its segment task failed, one of its tiles did, or its
-- stitch task came back.
def Closed (s : State) (i : Nat) : Prop := SegBad s i ∨ InfBad s i ∨ StitchBack s i

theorem SegBad.later (bad : SegBad s i) (moves : SessionMoves s next) : SegBad next i := by
  obtain ⟨out,member,rest⟩ := bad
  exact ⟨out,moves.seg.fetched member,rest⟩

theorem InfBad.later (bad : InfBad s i) (moves : SessionMoves s next) : InfBad next i := by
  obtain ⟨out,member,rest⟩ := bad
  exact ⟨out,moves.inf.fetched member,rest⟩

theorem StitchBack.later (back : StitchBack s i) (moves : SessionMoves s next) : StitchBack next i := by
  obtain ⟨out,member,same⟩ := back
  exact ⟨out,moves.stitch.fetched member,same⟩

theorem Closed.later (closed : Closed s i) (moves : SessionMoves s next) : Closed next i :=
  closed.imp (·.later moves) (.imp (·.later moves) (·.later moves))

-- A thread in _finish holds a frame with a reason to be closed, and so was
-- every frame marked.
structure Reasons (s : State) : Prop where
  err : ∀ i frame, s.imgState i = some frame → frame.err = true → InfBad s i
  seg : ∀ i failed, s.seg = .finish (.enter (some i) failed) → SegBad s i
  inf : ∀ i failed, s.inf = .finish (.enter (some i) failed) → InfBad s i
  held : ∀ out, s.stitch = .received out → out ∈ s.stitchSess.fetched
  dump : ∀ record i, s.stitch = .dump record (some i) → StitchBack s i
  stitch : ∀ i failed, s.stitch = .finish (.enter (some i) failed) → StitchBack s i
  done : ∀ i, isDone s i → Closed s i

theorem initial_reasons (c : Config) : Reasons (start c) where
  err := by intro i frame known; cases known
  seg := by intro i failed pc; cases pc
  inf := by intro i failed pc; cases pc
  held := by intro out pc; cases pc
  dump := by intro record i pc; cases pc
  stitch := by intro i failed pc; cases pc
  done := by intro i done; obtain ⟨frame,known,_⟩ := done; cases known

theorem finish_frames (ran : FinishStep c s at_ after flow) :
    (∀ i frame, after.imgState i = some frame → ∃ old, s.imgState i = some old ∧ old.err = frame.err) ∧
      ∀ i, isDone after i → isDone s i ∨ ∃ failed, at_ = .enter (some i) failed := by
  cases ran with
  | @mark j frame failed known undone =>
    rw [countFinished_eq]
    refine ⟨fun i other found => ?_,fun i done => ?_⟩
    · by_cases same : i = j
      · subst same
        rw [show other = {frame with done := true} by simpa [State.setFrame] using found.symm]
        exact ⟨frame,known,rfl⟩
      · exact ⟨other,by simpa [State.setFrame,same] using found,rfl⟩
    · by_cases same : i = j
      · subst same
        exact .inr ⟨failed,rfl⟩
      · exact .inl (by simpa [isDone,State.setFrame,same] using done)
  | unknown missing =>
    rw [countFinished_eq]
    exact ⟨fun i frame found => ⟨frame,found,rfl⟩,fun i done => .inl done⟩
  | _ => exact ⟨fun i frame found => ⟨frame,found,rfl⟩,fun i done => .inl done⟩

theorem got_frames (got : GotStep c s imageId ok next) :
    (∀ i frame, next.imgState i = some frame → frame.err = true →
      (∃ old, s.imgState i = some old ∧ old.err = true) ∨ imageId = some i ∧ ok = false) ∧
    (∀ i failed, next.inf = .finish (.enter (some i) failed) →
      (∃ old, s.imgState i = some old ∧ old.err = true) ∨ imageId = some i ∧ ok = false) ∧
    ∀ i, isDone next i → isDone s i := by
  have either : ∀ (frame : Frame) ok, (frame.err || !ok) = true → frame.err = true ∨ ok = false := by
    intro frame ok raised
    simpa using raised
  cases got with
  | unknown missing => exact ⟨fun i frame known raised => .inl ⟨frame,known,raised⟩,fun i failed pc => (by cases pc),fun i done => done⟩
  | @counted j frame ok known stay =>
    refine ⟨fun i other found raised => ?_,fun i failed pc => (by cases pc),fun i done => ?_⟩
    · by_cases same : i = j
      · subst same
        rw [← show _ = other by simpa [State.setFrame] using found] at raised
        exact (either frame ok raised).imp (fun old => ⟨frame,known,old⟩) (fun bad => ⟨rfl,bad⟩)
      · exact .inl ⟨other,by simpa [State.setFrame,same] using found,raised⟩
    · by_cases same : i = j
      · subst same
        exact ⟨frame,known,by simpa [isDone,State.setFrame] using done⟩
      · simpa [isDone,State.setFrame,same] using done
  | @failed j frame ok known full fresh err =>
    refine ⟨fun i other found raised => ?_,fun i failed pc => ?_,fun i done => ?_⟩
    · by_cases same : i = j
      · subst same
        exact (either frame ok err).imp (fun old => ⟨frame,known,old⟩) (fun bad => ⟨rfl,bad⟩)
      · exact .inl ⟨other,by simpa [State.setFrame,same] using found,raised⟩
    · cases pc
      exact (either frame ok err).imp (fun old => ⟨frame,known,old⟩) (fun bad => ⟨rfl,bad⟩)
    · by_cases same : i = j
      · subst same
        exact ⟨frame,known,by simpa [isDone,State.setFrame] using done⟩
      · simpa [isDone,State.setFrame,same] using done
  | @ready j frame ok known full fresh fine =>
    refine ⟨fun i other found raised => ?_,fun i failed pc => (by cases pc),fun i done => ?_⟩
    · by_cases same : i = j
      · subst same
        rw [← show _ = other by simpa [State.setFrame] using found] at raised
        cases raised
      · exact .inl ⟨other,by simpa [State.setFrame,same] using found,raised⟩
    · by_cases same : i = j
      · subst same
        exact ⟨frame,known,by simpa [isDone,State.setFrame] using done⟩
      · simpa [isDone,State.setFrame,same] using done

theorem Reasons.keep (reasons : Reasons s) (moves : SessionMoves s next) (frames : next.imgState = s.imgState)
    (seg : ∀ i failed, next.seg = .finish (.enter (some i) failed) → s.seg = .finish (.enter (some i) failed))
    (inf : ∀ i failed, next.inf = .finish (.enter (some i) failed) → s.inf = .finish (.enter (some i) failed))
    (stitch : next.stitch = s.stitch) : Reasons next where
  err i frame known raised := (reasons.err i frame (frames ▸ known) raised).later moves
  seg i failed pc := (reasons.seg i failed (seg i failed pc)).later moves
  inf i failed pc := (reasons.inf i failed (inf i failed pc)).later moves
  held out pc := moves.stitch.fetched (reasons.held out (stitch ▸ pc))
  dump record i pc := (reasons.dump record i (stitch ▸ pc)).later moves
  stitch i failed pc := (reasons.stitch i failed (stitch ▸ pc)).later moves
  done i done := (reasons.done i (by unfold isDone at done ⊢; rwa [frames] at done)).later moves

theorem got_bad (reasons : Reasons s) (held : Held strict s) (logged : s.infSess.fetched.head? = some out) (pc : s.inf = .received out)
    (why : (∃ old, s.imgState i = some old ∧ old.err = true) ∨ (reply out).imageId = some i ∧ out.good = false) : InfBad s i := by
  rcases why with ⟨old,known,raised⟩ | ⟨named,bad⟩
  · exact reasons.err i old known raised
  · have honest : Honest out out.task.imageId := by
      have given := (held.inf out pc).1
      split at given
      · intro text _ found
        obtain ⟨_,other,parsed,same⟩ := given
        rw [parsed] at found
        exact Option.some.inj found ▸ same
      · exact given
    have mine : out.task.imageId = some i := by
      rcases honest_reply honest with same | none
      · exact same.symm.trans named
      · rw [none] at named; cases named
    exact ⟨out,List.mem_of_mem_head? logged,mine,bad⟩

theorem step_reasons (ordered : Ordered c s) (reasons : Reasons s) (step : Step c s action next) (once : action.once) :
    Reasons next := by
  have moves := step_sessions step once
  have held := ordered.lives.held
  cases step with
  | @register j pc =>
    refine ⟨fun i frame known raised => ?_,fun i failed pc => reasons.seg i failed pc,fun i failed pc => reasons.inf i failed pc,
      reasons.held,reasons.dump,reasons.stitch,fun i done => ?_⟩
    · by_cases same : i = j
      · subst same
        rw [← show _ = frame by simpa [State.setFrame] using known] at raised
        cases raised
      · exact reasons.err i frame (by simpa [State.setFrame,same] using known) raised
    · obtain ⟨frame,known,done⟩ := done
      by_cases same : i = j
      · subst same
        rw [← show _ = frame by simpa [State.setFrame] using known] at done
        cases done
      · exact reasons.done i ⟨frame,by simpa [State.setFrame,same] using known,done⟩
  | @segFailed out pc bad =>
    refine ⟨reasons.err,fun i failed same => ?_,reasons.inf,reasons.held,reasons.dump,reasons.stitch,reasons.done⟩
    have named : (reply out).imageId = some i := (Finish.enter.inj (SegPc.finish.inj same)).1
    have mine : out.task = i := by
      rcases honest_reply (show Honest out (some out.task) by simpa using held.seg out pc) with same | none
      · exact Option.some.inj (same.symm.trans named)
      · rw [none] at named; cases named
    exact ⟨out,ordered.first.held out pc,mine,bad⟩
  | @segFinish at_ after flow pc ran =>
    obtain ⟨errs,marks⟩ := finish_frames ran
    have lanes := finish_lanes ran
    refine ⟨fun i frame known raised => ?_,fun i failed same => ?_,fun i failed same => ?_,fun out same => ?_,fun record i same => ?_,
      fun i failed same => ?_,fun i done => ?_⟩
    · obtain ⟨old,before,equal⟩ := errs i frame known
      exact (reasons.err i old before (equal.trans raised)).later moves
    · cases flow with
      | next at_ => cases same; exact absurd rfl (finish_enters ran)
      | returned | raised => cases same
    · exact (reasons.inf i failed (lanes.inf.symm.trans same)).later moves
    · exact moves.stitch.fetched (reasons.held out (lanes.stitch.symm.trans same))
    · exact (reasons.dump record i (lanes.stitch.symm.trans same)).later moves
    · exact (reasons.stitch i failed (lanes.stitch.symm.trans same)).later moves
    · rcases marks i done with old | ⟨failed,rfl⟩
      · exact (reasons.done i old).later moves
      · exact .inl ((reasons.seg i failed pc).later moves)
  | @infFinish at_ after flow pc ran =>
    obtain ⟨errs,marks⟩ := finish_frames ran
    have lanes := finish_lanes ran
    refine ⟨fun i frame known raised => ?_,fun i failed same => ?_,fun i failed same => ?_,fun out same => ?_,fun record i same => ?_,
      fun i failed same => ?_,fun i done => ?_⟩
    · obtain ⟨old,before,equal⟩ := errs i frame known
      exact (reasons.err i old before (equal.trans raised)).later moves
    · exact (reasons.seg i failed (lanes.seg.symm.trans same)).later moves
    · cases flow with
      | next at_ => cases same; exact absurd rfl (finish_enters ran)
      | returned | raised => cases same
    · exact moves.stitch.fetched (reasons.held out (lanes.stitch.symm.trans same))
    · exact (reasons.dump record i (lanes.stitch.symm.trans same)).later moves
    · exact (reasons.stitch i failed (lanes.stitch.symm.trans same)).later moves
    · rcases marks i done with old | ⟨failed,rfl⟩
      · exact (reasons.done i old).later moves
      · exact .inr (.inl ((reasons.inf i failed pc).later moves))
  | @stitchFinish at_ after flow pc ran =>
    obtain ⟨errs,marks⟩ := finish_frames ran
    have lanes := finish_lanes ran
    refine ⟨fun i frame known raised => ?_,fun i failed same => ?_,fun i failed same => ?_,fun out same => ?_,fun record i same => ?_,
      fun i failed same => ?_,fun i done => ?_⟩
    · obtain ⟨old,before,equal⟩ := errs i frame known
      exact (reasons.err i old before (equal.trans raised)).later moves
    · exact (reasons.seg i failed (lanes.seg.symm.trans same)).later moves
    · exact (reasons.inf i failed (lanes.inf.symm.trans same)).later moves
    · exact absurd same ((stitchAfter_idle ran).1 out)
    · cases flow <;> cases same
    · cases flow with
      | next at_ => cases same; exact absurd rfl (finish_enters ran)
      | returned | raised => cases same
    · rcases marks i done with old | ⟨failed,rfl⟩
      · exact (reasons.done i old).later moves
      · exact .inr (.inr ((reasons.stitch i failed pc).later moves))
  | @infOk out host next pc good named got =>
    have logged := ordered.tiled.held out pc
    obtain ⟨errs,enters,marks⟩ := got_frames got
    have seg : next.seg = s.seg := (got_lanes got).seg
    have stitch : next.stitch = s.stitch := (got_lanes got).stitch
    refine ⟨fun i frame known raised => ?_,fun i failed same => ?_,fun i failed same => ?_,fun out same => ?_,fun record i same => ?_,
      fun i failed same => ?_,fun i done => ?_⟩
    · exact (got_bad reasons held logged pc ((errs i frame known raised).imp_right fun why => ⟨why.1,by cases why.2⟩)).later moves
    · exact (reasons.seg i failed (seg.symm.trans same)).later moves
    · exact (got_bad reasons held logged pc ((enters i failed same).imp_right fun why => ⟨why.1,by cases why.2⟩)).later moves
    · exact moves.stitch.fetched (reasons.held out (stitch.symm.trans same))
    · exact (reasons.dump record i (stitch.symm.trans same)).later moves
    · exact (reasons.stitch i failed (stitch.symm.trans same)).later moves
    · exact (reasons.done i (marks i done)).later moves
  | @infFailed out next pc bad got =>
    have logged := ordered.tiled.held out pc
    obtain ⟨errs,enters,marks⟩ := got_frames got
    have seg : next.seg = s.seg := (got_lanes got).seg
    have stitch : next.stitch = s.stitch := (got_lanes got).stitch
    refine ⟨fun i frame known raised => ?_,fun i failed same => ?_,fun i failed same => ?_,fun out same => ?_,fun record i same => ?_,
      fun i failed same => ?_,fun i done => ?_⟩
    · exact (got_bad reasons held logged pc ((errs i frame known raised).imp_right fun why => ⟨why.1,bad⟩)).later moves
    · exact (reasons.seg i failed (seg.symm.trans same)).later moves
    · exact (got_bad reasons held logged pc ((enters i failed same).imp_right fun why => ⟨why.1,bad⟩)).later moves
    · exact moves.stitch.fetched (reasons.held out (stitch.symm.trans same))
    · exact (reasons.dump record i (stitch.symm.trans same)).later moves
    · exact (reasons.stitch i failed (stitch.symm.trans same)).later moves
    · exact (reasons.done i (marks i done)).later moves
  | @stitchFetch out again session pc got =>
    refine ⟨reasons.err,reasons.seg,reasons.inf,fun other same => ?_,fun record i same => (by cases same),
      fun i failed same => (by cases same),fun i done => (reasons.done i done).later moves⟩
    cases same
    simp only [(fetch_parts got).2.2.1]
    exact List.mem_cons_self
  | @stitchDump out pc good dumps =>
    have named := good_reply (by simpa using held.stitch out pc) good
    refine ⟨reasons.err,reasons.seg,reasons.inf,fun other same => (by cases same),fun record i same => ?_,
      fun i failed same => (by cases same),reasons.done⟩
    have mine : (reply out).imageId = some i := (StitchPc.dump.inj same).2
    exact ⟨out,reasons.held out pc,Option.some.inj (named.symm.trans mine)⟩
  | @stitchCount out pc good dumps =>
    have named := good_reply (by simpa using held.stitch out pc) good
    refine ⟨reasons.err,reasons.seg,reasons.inf,fun other same => (by cases same),fun record i same => (by cases same),
      fun i failed same => ?_,reasons.done⟩
    have mine : (reply out).imageId = some i := (Finish.enter.inj (StitchPc.finish.inj same)).1
    exact ⟨out,reasons.held out pc,Option.some.inj (named.symm.trans mine)⟩
  | @stitchFailed out pc bad =>
    refine ⟨reasons.err,reasons.seg,reasons.inf,fun other same => (by cases same),fun record i same => (by cases same),
      fun i failed same => ?_,reasons.done⟩
    have mine : (reply out).imageId = some i := (Finish.enter.inj (StitchPc.finish.inj same)).1
    rcases honest_reply (show Honest out (some out.task) by simpa using held.stitch out pc) with same | none
    · exact ⟨out,reasons.held out pc,Option.some.inj (same.symm.trans mine)⟩
    · rw [none] at mine; cases mine
  | @dumped record imageId pc =>
    refine ⟨reasons.err,reasons.seg,reasons.inf,fun other same => (by cases same),fun record i same => (by cases same),
      fun i failed same => ?_,reasons.done⟩
    cases same
    exact reasons.dump record i pc
  | stitchPoll pc running | stitchExit pc ended | stitchLeave pc ended =>
    exact ⟨reasons.err,reasons.seg,reasons.inf,fun other same => (by cases same),fun record i same => (by cases same),
      fun i failed same => (by cases same),reasons.done⟩
  | infNoHost pc good missing => exact reasons.keep moves rfl (fun _ _ same => same) (by simp) rfl
  | _ => exact reasons.keep moves rfl (by simp) (by simp) rfl

theorem reached_reasons (path : Runs.Reached (step c) (fun _ action => Delivers false action) (start c) s) : Reasons s :=
  path.invariant_along Reasons (initial_reasons c) fun _ _ _ prior reasons delivers taken =>
    step_reasons (reached_ordered prior) reasons (step_sound taken) delivers.once

end SymphonyAkida.ShardClient
