import SymphonyAkida.ShardClient

namespace SymphonyAkida.ShardClient
variable {Task : Type}

def segAfter : Flow → SegPc
  | .next at_ => .finish at_
  | .returned => .loop
  | .raised error => .crashed error
def infAfter : Flow → InfPc
  | .next at_ => .finish at_
  | .returned => .loop
  | .raised error => .crashed error
def stitchAfter : Flow → StitchPc
  | .next at_ => .finish at_
  | .returned => .loop
  | .raised error => .crashed error

def recordReply (s : State) (reply : Reply) : State :=
  {s with totals := {s.totals with boxes := s.totals.boxes+(reply.boxes.getD []).length},
          classes := s.classes.addAll reply.classHist}

def recordOf (s : State) (reply : Reply) : Record :=
  ⟨(s.frame reply.imageId).map (·.sample),reply.boxes,reply.scores,reply.labels,reply.truncated⟩

def countTask (s : State) : State :=
  {s with totals := {s.totals with infDone := s.totals.infDone+1}}
def countErr (s : State) : State :=
  {s with totals := {s.totals with infErr := s.totals.infErr+1}}

inductive FinishStep (c : Config) (s : State) : Finish → State → Flow → Prop where
  | again (known : s.imgState i = some frame) (done : frame.done = true) :
      FinishStep c s (.enter (some i) failed) s .returned
  | mark (known : s.imgState i = some frame) (undone : frame.done = false) :
      FinishStep c s (.enter (some i) failed)
        (countFinished c (s.setFrame i {frame with done := true}) failed) (.next (.remove (some i)))
  | unknown (missing : s.frame imageId = none) :
      FinishStep c s (.enter imageId failed) (countFinished c s failed) (.next (.remove imageId))
  | noPath : FinishStep c s (.remove none) s (.raised .typeError)
  | remove : FinishStep c s (.remove (some i)) {s with removed := i :: s.removed} (.next (.release i))
  | release (room : s.sem < c.inFlight) :
      FinishStep c s (.release i) {s with sem := s.sem+1,released := i :: s.released} .returned
  | full (bound : ¬s.sem < c.inFlight) : FinishStep c s (.release i) s (.raised .valueError)

inductive GotStep (c : Config) (s : State) : Option Nat → Bool → State → Prop where
  | unknown (missing : s.frame imageId = none) : GotStep c s imageId ok {s with inf := .loop}
  | counted (known : s.imgState i = some frame)
      (stay : frame.got+1 < c.nTiles ∨ frame.dispatched = true) :
      GotStep c s (some i) ok
        {s.setFrame i {frame with got := frame.got+1,err := frame.err || !ok} with inf := .loop}
  | failed (known : s.imgState i = some frame) (full : c.nTiles ≤ frame.got+1)
      (fresh : frame.dispatched = false) (err : (frame.err || !ok) = true) :
      GotStep c s (some i) ok
        {s.setFrame i {frame with got := frame.got+1,err := true,dispatched := true} with
          inf := .finish (.enter (some i) true)}
  | ready (known : s.imgState i = some frame) (full : c.nTiles ≤ frame.got+1)
      (fresh : frame.dispatched = false) (fine : (frame.err || !ok) = false) :
      GotStep c s (some i) ok
        {s.setFrame i {frame with got := frame.got+1,err := false,dispatched := true} with
          inf := .stitch i}

-- The branches of `step`, one rule each. Every later invariant is proved from
-- these rules; none of them unfolds the step function again.
inductive Step (c : Config) (s : State) : Action → State → Prop where
  | acquire (pc : s.submitter = .acquire i) (left : i < c.count) (free : 0 < s.sem) :
      Step c s .segSubmit {s with sem := s.sem-1,submitter := .register i}
  | submitted (pc : s.submitter = .acquire i) (none : ¬i < c.count) :
      Step c s .segSubmit {s with submitter := .exited}
  | register (pc : s.submitter = .register i) :
      Step c s .segSubmit {s.setFrame i {sample := c.sample i} with submitter := .send i}
  | send (pc : s.submitter = .send i) :
      Step c s .segSubmit {s with segSess := s.segSess.send i,submitter := .acquire (i+1)}
  | segFetch (pc : s.seg = .loop) (more : s.segSeen < c.count)
      (got : s.segSess.fetch out again = some session) :
      Step c s (.segFetch out again)
        {s with segSess := session,seg := .received out,segSeen := s.segSeen+1}
  | segExit (pc : s.seg = .loop) (all : ¬s.segSeen < c.count) :
      Step c s .segNext {s with seg := .exited}
  | segFailed (pc : s.seg = .received out) (bad : (out.isSuccessful && (reply out).ok) = false) :
      Step c s .segNext {s with totals := {s.totals with segErr := s.totals.segErr+1},
                                seg := .finish (.enter (reply out).imageId true)}
  | segSplit (pc : s.seg = .received out) (good : (out.isSuccessful && (reply out).ok) = true) :
      Step c s .segNext {s with seg := .tiles (reply out).imageId 0}
  | tileSend (pc : s.seg = .tiles imageId tile) (more : tile < c.nTiles) :
      Step c s .segNext
        {s with infSess := s.infSess.send ⟨imageId,tile⟩,seg := .tiles imageId (tile+1)}
  | tilesSent (pc : s.seg = .tiles imageId tile) (all : ¬tile < c.nTiles) :
      Step c s .segNext {s with seg := .loop}
  | segFinish (pc : s.seg = .finish at_) (ran : FinishStep c s at_ after flow) :
      Step c s .segNext {after with seg := segAfter flow}
  | infFetch (pc : s.inf = .loop) (more : s.infSeen < c.count*c.nTiles)
      (got : s.infSess.fetch out again = some session) :
      Step c s (.infFetch out again)
        {s with infSess := session,inf := .received out,infSeen := s.infSeen+1}
  | infExit (pc : s.inf = .loop) (all : ¬s.infSeen < c.count*c.nTiles) :
      Step c s .infNext {s with inf := .exited}
  | infNoHost (pc : s.inf = .received out) (good : (out.isSuccessful && (reply out).ok) = true)
      (missing : (reply out).host = none) :
      Step c s .infNext {countTask s with inf := .crashed .keyError}
  | infOk (pc : s.inf = .received out) (good : (out.isSuccessful && (reply out).ok) = true)
      (named : (reply out).host = some host)
      (got : GotStep c (countTile (countTask s) host (reply out)) (reply out).imageId true next) :
      Step c s .infNext next
  | infFailed (pc : s.inf = .received out) (bad : (out.isSuccessful && (reply out).ok) = false)
      (got : GotStep c (countErr (countTask s)) (reply out).imageId false next) :
      Step c s .infNext next
  | stitchSend (pc : s.inf = .stitch i) :
      Step c s .infNext {s with stitchSess := s.stitchSess.send i,inf := .loop}
  | infFinish (pc : s.inf = .finish at_) (ran : FinishStep c s at_ after flow) :
      Step c s .infNext {after with inf := infAfter flow}
  | stitchPoll (pc : s.stitch = .loop) (running : s.doneEvt = false) :
      Step c s .stitchNext {s with stitch := .fetching}
  | stitchFetch (pc : s.stitch = .fetching) (got : s.stitchSess.fetch out again = some session) :
      Step c s (.stitchFetch out again) {s with stitchSess := session,stitch := .received out}
  | stitchExit (pc : s.stitch = .loop) (ended : s.doneEvt = true) :
      Step c s .stitchNext {s with stitch := .exited}
  | stitchLeave (pc : s.stitch = .fetching) (ended : s.doneEvt = true) :
      Step c s .stitchNext {s with stitch := .exited}
  | stitchDump (pc : s.stitch = .received out) (good : (out.isSuccessful && (reply out).ok) = true)
      (dumps : c.dumps = true) :
      Step c s .stitchNext {recordReply s (reply out) with
        stitch := .dump (recordOf s (reply out)) (reply out).imageId}
  | stitchCount (pc : s.stitch = .received out) (good : (out.isSuccessful && (reply out).ok) = true)
      (dumps : c.dumps = false) :
      Step c s .stitchNext {recordReply s (reply out) with
        stitch := .finish (.enter (reply out).imageId false)}
  | stitchFailed (pc : s.stitch = .received out) (bad : (out.isSuccessful && (reply out).ok) = false) :
      Step c s .stitchNext {s with stitch := .finish (.enter (reply out).imageId true)}
  | dumped (pc : s.stitch = .dump record imageId) :
      Step c s .stitchNext
        {s with dump := s.dump ++ [record],stitch := .finish (.enter imageId false)}
  | stitchFinish (pc : s.stitch = .finish at_) (ran : FinishStep c s at_ after flow) :
      Step c s .stitchNext {after with stitch := stitchAfter flow}
  | stall (running : s.doneEvt = false) (pending : s.totals.imgDone < c.count) :
      Step c s .watchdog {s with stalled := true,doneEvt := true}

theorem finish_sound (ran : finish c s at_ = (after,flow)) : FinishStep c s at_ after flow := by
  cases at_ with
  | enter imageId failed =>
    cases imageId with
    | none => simp only [finish] at ran; cases ran; exact .unknown rfl
    | some i =>
      cases known : s.imgState i with
      | none =>
        have missing : s.frame (some i) = none := known
        simp only [finish,missing] at ran
        cases ran
        exact .unknown missing
      | some frame =>
        have found : s.frame (some i) = some frame := known
        simp only [finish,found] at ran
        split at ran
        · cases ran; exact .again known ‹_›
        · cases ran; exact .mark known (by simpa using ‹¬frame.done = true›)
  | remove imageId =>
    cases imageId with
    | none => simp only [finish] at ran; cases ran; exact .noPath
    | some i => simp only [finish] at ran; cases ran; exact .remove
  | release i =>
    simp only [finish] at ran
    split at ran
    · cases ran; exact .release ‹_›
    · cases ran; exact .full ‹_›

theorem countGot_sound (c : Config) (s : State) (imageId : Option Nat) (ok : Bool) :
    GotStep c s imageId ok (countGot c s imageId ok) := by
  cases imageId with
  | none => exact .unknown rfl
  | some i =>
    cases known : s.imgState i with
    | none =>
      have missing : s.frame (some i) = none := known
      simp only [countGot,missing]
      exact .unknown missing
    | some frame =>
      have found : s.frame (some i) = some frame := known
      simp only [countGot,found]
      split
      · rename_i full
        cases err : (frame.err || !ok) with
        | true => exact .failed known full.1 full.2 err
        | false => exact .ready known full.1 full.2 err
      · rename_i stay
        refine .counted known ?_
        by_cases less : frame.got+1 < c.nTiles
        · exact .inl less
        · exact .inr (by simpa [Nat.le_of_not_lt less] using stay)

theorem segSubmit_sound (taken : segSubmit c s = some next) : Step c s .segSubmit next := by
  unfold segSubmit at taken
  cases pc : s.submitter with
  | acquire i =>
    simp only [pc] at taken
    split at taken
    · split at taken
      · cases Option.some.inj taken; exact .acquire pc ‹_› ‹_›
      · cases taken
    · cases Option.some.inj taken; exact .submitted pc ‹_›
  | register i => simp only [pc] at taken; cases Option.some.inj taken; exact .register pc
  | send i => simp only [pc] at taken; cases Option.some.inj taken; exact .send pc
  | exited => simp [pc] at taken

theorem segFetch_sound (taken : segFetch c s out again = some next) :
    Step c s (.segFetch out again) next := by
  unfold segFetch at taken
  cases pc : s.seg with
  | loop =>
    simp only [pc] at taken
    split at taken
    · obtain ⟨session,got,rfl⟩ := Option.map_eq_some_iff.mp taken
      exact .segFetch pc ‹_› got
    · cases taken
  | _ => simp [pc] at taken

theorem segNext_sound (taken : segNext c s = some next) : Step c s .segNext next := by
  unfold segNext at taken
  cases pc : s.seg with
  | loop =>
    simp only [pc] at taken
    split at taken
    · cases taken
    · cases Option.some.inj taken; exact .segExit pc ‹_›
  | received out =>
    simp only [pc] at taken
    split at taken
    · cases Option.some.inj taken
      exact .segFailed pc (by rename_i bad; revert bad; cases out.isSuccessful <;> simp)
    · cases Option.some.inj taken
      exact .segSplit pc (by rename_i good; revert good; cases out.isSuccessful <;> simp)
  | tiles imageId tile =>
    simp only [pc] at taken
    split at taken
    · cases Option.some.inj taken; exact .tileSend pc ‹_›
    · cases Option.some.inj taken; exact .tilesSent pc ‹_›
  | finish at_ =>
    simp only [pc] at taken
    cases Option.some.inj taken
    exact .segFinish pc (finish_sound rfl)
  | exited => simp [pc] at taken
  | crashed error => simp [pc] at taken

theorem infFetch_sound (taken : infFetch c s out again = some next) :
    Step c s (.infFetch out again) next := by
  unfold infFetch at taken
  cases pc : s.inf with
  | loop =>
    simp only [pc] at taken
    split at taken
    · obtain ⟨session,got,rfl⟩ := Option.map_eq_some_iff.mp taken
      exact .infFetch pc ‹_› got
    · cases taken
  | _ => simp [pc] at taken

theorem infNext_sound (taken : infNext c s = some next) : Step c s .infNext next := by
  unfold infNext at taken
  cases pc : s.inf with
  | loop =>
    simp only [pc] at taken
    split at taken
    · cases taken
    · cases Option.some.inj taken; exact .infExit pc ‹_›
  | received out =>
    simp only [pc] at taken
    cases ok : (out.isSuccessful && (reply out).ok) with
    | false =>
      simp only [ok,Bool.false_eq_true,if_false] at taken
      cases Option.some.inj taken
      exact .infFailed pc ok (countGot_sound _ _ _ _)
    | true =>
      simp only [ok,if_true] at taken
      cases named : (reply out).host with
      | none => simp only [named] at taken; cases Option.some.inj taken; exact .infNoHost pc ok named
      | some host =>
        simp only [named] at taken
        cases Option.some.inj taken
        exact .infOk pc ok named (countGot_sound _ _ _ _)
  | stitch i => simp only [pc] at taken; cases Option.some.inj taken; exact .stitchSend pc
  | finish at_ =>
    simp only [pc] at taken
    cases Option.some.inj taken
    exact .infFinish pc (finish_sound rfl)
  | exited => simp [pc] at taken
  | crashed error => simp [pc] at taken

theorem stitchFetch_sound (taken : stitchFetch s out again = some next) :
    Step c s (.stitchFetch out again) next := by
  unfold stitchFetch at taken
  cases pc : s.stitch with
  | fetching =>
    simp only [pc] at taken
    obtain ⟨session,got,rfl⟩ := Option.map_eq_some_iff.mp taken
    exact .stitchFetch pc got
  | _ => simp [pc] at taken

theorem stitchNext_sound (taken : stitchNext c s = some next) : Step c s .stitchNext next := by
  unfold stitchNext at taken
  cases pc : s.stitch with
  | loop =>
    simp only [pc] at taken
    split at taken
    · cases Option.some.inj taken; exact .stitchExit pc ‹_›
    · cases Option.some.inj taken; exact .stitchPoll pc (by simpa using ‹¬s.doneEvt = true›)
  | fetching =>
    simp only [pc] at taken
    split at taken
    · cases Option.some.inj taken; exact .stitchLeave pc ‹_›
    · cases taken
  | received out =>
    simp only [pc] at taken
    cases ok : (out.isSuccessful && (reply out).ok) with
    | false =>
      simp only [ok,Bool.false_eq_true,if_false] at taken
      cases Option.some.inj taken
      exact .stitchFailed pc ok
    | true =>
      simp only [ok,if_true] at taken
      split at taken
      · cases Option.some.inj taken; exact .stitchDump pc ok ‹_›
      · cases Option.some.inj taken; exact .stitchCount pc ok (by simpa using ‹¬c.dumps = true›)
  | dump record imageId => simp only [pc] at taken; cases Option.some.inj taken; exact .dumped pc
  | finish at_ =>
    simp only [pc] at taken
    cases Option.some.inj taken
    exact .stitchFinish pc (finish_sound rfl)
  | exited => simp [pc] at taken
  | crashed error => simp [pc] at taken

theorem watchdog_sound (taken : watchdog c s = some next) : Step c s .watchdog next := by
  unfold watchdog at taken
  split at taken
  · rename_i may
    cases Option.some.inj taken
    exact .stall may.1 may.2
  · cases taken

theorem step_sound (taken : step c s action = some next) : Step c s action next := by
  cases action with
  | segSubmit => exact segSubmit_sound taken
  | segFetch out again => exact segFetch_sound taken
  | segNext => exact segNext_sound taken
  | infFetch out again => exact infFetch_sound taken
  | infNext => exact infNext_sound taken
  | stitchFetch out again => exact stitchFetch_sound taken
  | stitchNext => exact stitchNext_sound taken
  | watchdog => exact watchdog_sound taken

structure SameLanes (s after : State) : Prop where
  segSess : after.segSess = s.segSess
  infSess : after.infSess = s.infSess
  stitchSess : after.stitchSess = s.stitchSess
  submitter : after.submitter = s.submitter
  seg : after.seg = s.seg
  inf : after.inf = s.inf
  stitch : after.stitch = s.stitch
  seen : after.segSeen = s.segSeen ∧ after.infSeen = s.infSeen

theorem countFinished_eq : countFinished c s failed = {s with
    totals := {s.totals with imgDone := s.totals.imgDone+1,
                             imgErr := if failed then s.totals.imgErr+1 else s.totals.imgErr},
    doneEvt := s.doneEvt || decide (c.count ≤ s.totals.imgDone+1),
    finishSet := s.finishSet || decide (c.count ≤ s.totals.imgDone+1)} := by
  unfold countFinished
  by_cases all : c.count ≤ s.totals.imgDone+1 <;> simp [all]

theorem finish_lanes (ran : FinishStep c s at_ after flow) : SameLanes s after := by
  cases ran with
  | mark => rw [countFinished_eq]; exact ⟨rfl,rfl,rfl,rfl,rfl,rfl,rfl,rfl,rfl⟩
  | unknown => rw [countFinished_eq]; exact ⟨rfl,rfl,rfl,rfl,rfl,rfl,rfl,rfl,rfl⟩
  | _ => exact ⟨rfl,rfl,rfl,rfl,rfl,rfl,rfl,rfl,rfl⟩

-- A fetched output answers a task the session was given.
theorem fetch_parts [DecidableEq Task] {session next : Session Task}
    (got : session.fetch out again = some next) :
    (out.task ∈ session.submitted ∨ out.task ∈ session.pending) ∧
      next.submitted = session.submitted ∧ next.fetched = out :: session.fetched ∧
      (again = true ∧ next.pending = session.pending ∨
        again = false ∧ out.task ∈ session.pending ∧ next.pending = session.pending.erase out.task) := by
  unfold Session.fetch at got
  split at got
  · split at got
    · cases Option.some.inj got; exact ⟨.inl ‹_›,rfl,rfl,.inl ⟨‹_›,rfl⟩⟩
    · cases got
  · split at got
    · cases Option.some.inj got
      exact ⟨.inr ‹_›,rfl,rfl,.inr ⟨by simpa using ‹¬again = true›,‹_›,rfl⟩⟩
    · cases got

theorem honest_reply (honest : Honest out imageId) :
    (reply out).imageId = imageId ∨ (reply out).imageId = none := by
  unfold reply
  split
  · cases parsed : out.text with
    | none => exact .inr rfl
    | some text => exact .inl (honest text ‹_› parsed)
  · exact .inr rfl

theorem readable_reply (readable : Readable out imageId) : (reply out).imageId = imageId := by
  obtain ⟨successful,text,parsed,same⟩ := readable
  simp [reply,successful,parsed,same]

theorem unsuccessful_reply {out : Out Task} (unsuccessful : out.isSuccessful = false) :
    reply out = {} := by
  simp [reply,unsuccessful]

end SymphonyAkida.ShardClient
