import SymphonyAkida.ShardClientDelivery

namespace SymphonyAkida.ShardClient
variable {Task : Type}

-- The client seen from one frame. While every task returns exactly one output
-- the frame walks through the stages below; the other frames do not matter.
inductive FinishAt | enter | remove | release
deriving DecidableEq

inductive SegAt
  | away
  | received
  | tiles (sent : Nat)
  | finish (at_ : FinishAt)

inductive InfAt
  | away
  | received
  | stitch
  | finish (at_ : FinishAt)

inductive StitchAt
  | away
  | received
  | dump
  | finish (at_ : FinishAt)

def Finish.on (i : Nat) : Finish → Option FinishAt
  | .enter imageId _ => if imageId = some i then some .enter else none
  | .remove imageId => if imageId = some i then some .remove else none
  | .release j => if j = i then some .release else none

def Flow.on (i : Nat) : Flow → Option FinishAt
  | .next at_ => at_.on i
  | _ => none

def segAt (i : Nat) : SegPc → SegAt
  | .received out => if out.task = i then .received else .away
  | .tiles imageId tile => if imageId = some i then .tiles tile else .away
  | .finish at_ => (at_.on i).elim .away .finish
  | _ => .away

def infAt (i : Nat) : InfPc → InfAt
  | .received out => if out.task.imageId = some i then .received else .away
  | .stitch j => if j = i then .stitch else .away
  | .finish at_ => (at_.on i).elim .away .finish
  | _ => .away

def stitchAt (i : Nat) : StitchPc → StitchAt
  | .received out => if out.task = i then .received else .away
  | .dump _ imageId => if imageId = some i then .dump else .away
  | .finish at_ => (at_.on i).elim .away .finish
  | _ => .away

-- got, err, dispatched and done of the frame, then how often its directory was
-- removed and its permit released.
structure Core where
  data : Option (Nat × Bool × Bool × Bool)
  removed : Nat
  released : Nat

def core (s : State) (i : Nat) : Core :=
  ⟨(s.imgState i).map fun frame => (frame.got,frame.err,frame.dispatched,frame.done),
    s.removed.count i,s.released.count i⟩

-- The queues count the frame's tasks whose output is still to come, `tilesSent`
-- the inference tasks submitted for it.
structure Tally where
  core : Core
  sending : Bool := false
  segQueue : Nat := 0
  seg : SegAt := .away
  tilesSent : Nat := 0
  infQueue : Nat := 0
  inf : InfAt := .away
  stitchQueue : Nat := 0
  stitch : StitchAt := .away

def tilesOf (tasks : List InfTask) (i : Nat) : Nat := tasks.countP fun task => task.imageId = some i

def tally (s : State) (i : Nat) : Tally where
  core := core s i
  sending := match s.submitter with | .send j => decide (j = i) | _ => false
  segQueue := s.segSess.pending.count i
  seg := segAt i s.seg
  tilesSent := tilesOf s.infSess.submitted i
  infQueue := tilesOf s.infSess.pending i
  inf := infAt i s.inf
  stitchQueue := s.stitchSess.pending.count i
  stitch := stitchAt i s.stitch

inductive Gathered
  | stitch
  | infClosing (at_ : FinishAt)
  | stitching
  | stitched
  | dumping
  | stitchClosing (at_ : FinishAt)
  | finished
  | lost

inductive Stage
  | unborn
  | sending
  | segmenting
  | segmented
  | segLost
  | segClosing (at_ : FinishAt)
  | segFinished
  | inferring (fanning : Bool) (sent queued : Nat) (held : Bool) (got : Nat) (err : Bool)
  | gathered (fanning : Bool) (err : Bool) (at_ : Gathered)

def FinishAt.core (got : Nat) (err dispatched : Bool) : FinishAt → Core
  | .enter => ⟨some (got,err,dispatched,false),0,0⟩
  | .remove => ⟨some (got,err,dispatched,true),0,0⟩
  | .release => ⟨some (got,err,dispatched,true),1,0⟩

def finishedCore (got : Nat) (err dispatched : Bool) : Core := ⟨some (got,err,dispatched,true),1,1⟩

def fanAt (fanning : Bool) (sent : Nat) : SegAt := if fanning then .tiles sent else .away

def Gathered.tally (n : Nat) (fanning err : Bool) : Gathered → Tally
  | .stitch => {core := FinishAt.core n err true .enter,seg := fanAt fanning n,tilesSent := n,inf := .stitch}
  | .infClosing at_ =>
    {core := at_.core n err true,seg := fanAt fanning n,tilesSent := n,inf := .finish at_}
  | .stitching =>
    {core := FinishAt.core n err true .enter,seg := fanAt fanning n,tilesSent := n,stitchQueue := 1}
  | .stitched =>
    {core := FinishAt.core n err true .enter,seg := fanAt fanning n,tilesSent := n,stitch := .received}
  | .dumping =>
    {core := FinishAt.core n err true .enter,seg := fanAt fanning n,tilesSent := n,stitch := .dump}
  | .stitchClosing at_ =>
    {core := at_.core n err true,seg := fanAt fanning n,tilesSent := n,stitch := .finish at_}
  | .finished => {core := finishedCore n err true,seg := fanAt fanning n,tilesSent := n}
  | .lost => {core := FinishAt.core n err true .enter,seg := fanAt fanning n,tilesSent := n}

def Stage.tally (n : Nat) : Stage → Tally
  | .unborn => {core := ⟨none,0,0⟩}
  | .sending => {core := FinishAt.core 0 false false .enter,sending := true}
  | .segmenting => {core := FinishAt.core 0 false false .enter,segQueue := 1}
  | .segmented => {core := FinishAt.core 0 false false .enter,seg := .received}
  | .segLost => {core := FinishAt.core 0 false false .enter}
  | .segClosing at_ => {core := at_.core 0 false false,seg := .finish at_}
  | .segFinished => {core := finishedCore 0 false false}
  | .inferring fanning sent queued held got err =>
    {core := FinishAt.core got err false .enter,seg := fanAt fanning sent,tilesSent := sent,
     infQueue := queued,inf := if held then .received else .away}
  | .gathered fanning err at_ => at_.tally n fanning err

-- Outputs out, held and counted never exceed the tasks submitted; they are
-- fewer when an output lost its image id.
def Stage.Valid (n : Nat) : Stage → Prop
  | .inferring fanning sent queued held got _ =>
    queued+held.toNat+got ≤ sent ∧ sent ≤ n ∧ (fanning = false → sent = n) ∧ (got < n ∨ got = 0)
  | _ => True

def Stage.Lossless : Stage → Prop
  | .inferring _ sent queued held got _ => queued+held.toNat+got = sent
  | .segLost => False
  | .gathered _ _ .lost => False
  | _ => True

def StageOf (strict : Bool) (n : Nat) (view : Tally) : Prop :=
  ∃ stage : Stage, stage.Valid n ∧ (strict = true → stage.Lossless) ∧ view = stage.tally n

def Staged (strict : Bool) (c : Config) (s : State) : Prop := ∀ i, StageOf strict c.nTiles (tally s i)

theorem initial_staged (strict : Bool) (c : Config) : Staged strict c (start c) :=
  fun _ => ⟨.unborn,trivial,fun _ => trivial,rfl⟩

inductive FinishMove : Option FinishAt → Core → Option FinishAt → Core → Prop where
  | idle : FinishMove none whole none whole
  | mark : FinishMove (some .enter) ⟨some (got,err,dispatched,false),removed,released⟩
      (some .remove) ⟨some (got,err,dispatched,true),removed,released⟩
  | remove : FinishMove (some .remove) ⟨data,removed,released⟩ (some .release) ⟨data,removed+1,released⟩
  | release : FinishMove (some .release) ⟨data,removed,released⟩ none ⟨data,removed,released+1⟩

theorem finish_move (ran : FinishStep c s at_ after flow) (room : flow ≠ .raised .valueError)
    (undone : at_.on i = some .enter → ∃ got err dispatched,
      (core s i).data = some (got,err,dispatched,false)) :
    FinishMove (at_.on i) (core s i) (flow.on i) (core after i) := by
  cases ran with
  | @again j frame failed known done =>
    by_cases same : j = i
    · subst j
      obtain ⟨_,_,_,data⟩ := undone (by simp [Finish.on])
      simp [core,known,done] at data
    · simp only [Finish.on,Option.some.injEq,same,if_false,Flow.on]; exact .idle
  | @mark j frame failed known fresh =>
    by_cases same : j = i
    · subst j
      have before : core s i = ⟨some (frame.got,frame.err,frame.dispatched,false),
        s.removed.count i,s.released.count i⟩ := by simp [core,known,fresh]
      have later : core (countFinished c (s.setFrame i {frame with done := true}) failed) i =
          ⟨some (frame.got,frame.err,frame.dispatched,true),s.removed.count i,s.released.count i⟩ := by
        simp [core,countFinished_eq,State.setFrame]
      rw [before,later]
      simp only [Finish.on,if_true,Flow.on]
      exact .mark
    · have kept : core (countFinished c (s.setFrame j {frame with done := true}) failed) i = core s i := by
        simp [core,countFinished_eq,State.setFrame,Ne.symm same]
      rw [kept]
      simp only [Finish.on,Option.some.injEq,same,if_false,Flow.on]
      exact .idle
  | @unknown imageId failed missing =>
    have kept : core (countFinished c s failed) i = core s i := by simp [core,countFinished_eq]
    rw [kept]
    by_cases same : imageId = some i
    · subst same
      obtain ⟨_,_,_,data⟩ := undone (by simp [Finish.on])
      have none : s.imgState i = none := missing
      simp [core,none] at data
    · simp only [Finish.on,same,if_false,Flow.on]; exact .idle
  | noPath => exact .idle
  | @remove j =>
    by_cases same : j = i
    · subst j
      simp only [Finish.on,if_true,Flow.on,core,List.count_cons_self]
      exact .remove
    · simp only [Finish.on,Option.some.injEq,same,if_false,Flow.on,core,List.count_cons_of_ne same]
      exact .idle
  | @release j free =>
    by_cases same : j = i
    · subst j
      simp only [Finish.on,if_true,Flow.on,core,List.count_cons_self]
      exact .release
    · simp only [Finish.on,same,if_false,Flow.on,core,List.count_cons_of_ne same]
      exact .idle
  | full => exact absurd rfl room

-- A closing frame is marked, then its directory goes, then its permit.
theorem closing_move (move : FinishMove (some at_) (at_.core got err dispatched) next later) :
    (∃ further, next = some further ∧ later = further.core got err dispatched) ∨
      next = none ∧ later = finishedCore got err dispatched := by
  cases at_ with
  | enter => cases move; exact .inl ⟨.remove,rfl,rfl⟩
  | remove => cases move; exact .inl ⟨.release,rfl,rfl⟩
  | release => cases move; exact .inr ⟨rfl,rfl⟩

-- What one step of the client can do to a frame. The losing moves need an
-- environment that is not strict.
inductive Move (strict : Bool) (n : Nat) (view : Tally) : Tally → Prop where
  | register (fresh : view.core.data = none) (idle : view.sending = false) :
      Move strict n view {view with
        core := {view.core with data := some (0,false,false,false)},sending := true}
  | send (pc : view.sending = true) :
      Move strict n view {view with sending := false,segQueue := view.segQueue+1}
  | segFetch (pc : view.seg = .away) (waiting : 0 < view.segQueue) :
      Move strict n view {view with segQueue := view.segQueue-1,seg := .received}
  | segFailed (pc : view.seg = .received) : Move strict n view {view with seg := .finish .enter}
  | segSplit (pc : view.seg = .received) : Move strict n view {view with seg := .tiles 0}
  | segLost (pc : view.seg = .received) (loose : strict = false) :
      Move strict n view {view with seg := .away}
  | tileSend (pc : view.seg = .tiles tile) (more : tile < n) :
      Move strict n view {view with
        seg := .tiles (tile+1),tilesSent := view.tilesSent+1,infQueue := view.infQueue+1}
  | tilesSent (pc : view.seg = .tiles tile) (all : ¬tile < n) : Move strict n view {view with seg := .away}
  | segClose (pc : view.seg = .finish at_) (move : FinishMove (some at_) view.core flow later) :
      Move strict n view {view with core := later,seg := flow.elim .away .finish}
  | infFetch (pc : view.inf = .away) (waiting : 0 < view.infQueue) :
      Move strict n view {view with infQueue := view.infQueue-1,inf := .received}
  | infLost (pc : view.inf = .received) (loose : strict = false) :
      Move strict n view {view with inf := .away}
  | counted (pc : view.inf = .received) (data : view.core.data = some (got,err,dispatched,done))
      (stay : got+1 < n ∨ dispatched = true) :
      Move strict n view {view with
        core := {view.core with data := some (got+1,later,dispatched,done)},inf := .away}
  | gathered (failed : Bool) (pc : view.inf = .received) (data : view.core.data = some (got,err,false,done))
      (full : n ≤ got+1) :
      Move strict n view {view with
        core := {view.core with data := some (got+1,failed,true,done)},
        inf := if failed then .finish .enter else .stitch}
  | stitchSend (pc : view.inf = .stitch) :
      Move strict n view {view with inf := .away,stitchQueue := view.stitchQueue+1}
  | infClose (pc : view.inf = .finish at_) (move : FinishMove (some at_) view.core flow later) :
      Move strict n view {view with core := later,inf := flow.elim .away .finish}
  | stitchFetch (pc : view.stitch = .away) (waiting : 0 < view.stitchQueue) :
      Move strict n view {view with stitchQueue := view.stitchQueue-1,stitch := .received}
  | stitchLost (pc : view.stitch = .received) (loose : strict = false) :
      Move strict n view {view with stitch := .away}
  | stitchDump (pc : view.stitch = .received) : Move strict n view {view with stitch := .dump}
  | stitchEnd (pc : view.stitch = .received ∨ view.stitch = .dump) :
      Move strict n view {view with stitch := .finish .enter}
  | stitchClose (pc : view.stitch = .finish at_) (move : FinishMove (some at_) view.core flow later) :
      Move strict n view {view with core := later,stitch := flow.elim .away .finish}

@[simp] theorem Gathered.tally_sending : (Gathered.tally n fanning err at_).sending = false := by
  cases at_ <;> rfl
@[simp] theorem Gathered.tally_segQueue : (Gathered.tally n fanning err at_).segQueue = 0 := by
  cases at_ <;> rfl
@[simp] theorem Gathered.tally_seg : (Gathered.tally n fanning err at_).seg = fanAt fanning n := by
  cases at_ <;> rfl
@[simp] theorem Gathered.tally_infQueue : (Gathered.tally n fanning err at_).infQueue = 0 := by
  cases at_ <;> rfl
theorem Gathered.tally_data (n : Nat) (fanning err : Bool) (at_ : Gathered) :
    ∃ done, (at_.tally n fanning err).core.data = some (n,err,true,done) := by
  cases at_ with
  | infClosing inside | stitchClosing inside => cases inside <;> exact ⟨_,rfl⟩
  | _ => exact ⟨_,rfl⟩

theorem fanAt_tiles (pc : fanAt fanning sent = .tiles tile) : fanning = true ∧ tile = sent := by
  cases fanning <;> simp_all [fanAt]

theorem fanAt_received : fanAt fanning sent ≠ .received := by cases fanning <;> simp [fanAt]
theorem fanAt_finish : fanAt fanning sent ≠ .finish at_ := by cases fanning <;> simp [fanAt]

section
variable {stage : Stage}

theorem Stage.of_sending (pc : (stage.tally n).sending = true) : stage = .sending := by
  cases stage <;> simp_all [Stage.tally]

theorem Stage.of_fresh (fresh : (stage.tally n).core.data = none) : stage = .unborn := by
  cases stage with
  | unborn => rfl
  | segClosing at_ => cases at_ <;> cases fresh
  | gathered fanning err at_ =>
    obtain ⟨done,data⟩ := Gathered.tally_data n fanning err at_
    have none : (at_.tally n fanning err).core.data = none := fresh
    rw [data] at none
    cases none
  | _ => cases fresh

theorem Stage.of_segQueue (waiting : 0 < (stage.tally n).segQueue) : stage = .segmenting := by
  cases stage <;> simp_all [Stage.tally]

theorem Stage.of_segReceived (pc : (stage.tally n).seg = .received) : stage = .segmented := by
  cases stage <;> simp_all [Stage.tally,fanAt_received]

theorem Stage.of_segFinish (pc : (stage.tally n).seg = .finish at_) : stage = .segClosing at_ := by
  cases stage <;> simp_all [Stage.tally,fanAt_finish]

theorem Stage.of_tiles (pc : (stage.tally n).seg = .tiles tile) :
    (∃ queued held got err, stage = .inferring true tile queued held got err) ∨
      tile = n ∧ ∃ err at_, stage = .gathered true err at_ := by
  cases stage with
  | inferring fanning sent queued held got err =>
    obtain ⟨rfl,rfl⟩ := fanAt_tiles pc
    exact .inl ⟨queued,held,got,err,rfl⟩
  | gathered fanning err at_ =>
    obtain ⟨rfl,rfl⟩ := fanAt_tiles ((Gathered.tally_seg ..).symm.trans pc)
    exact .inr ⟨rfl,err,at_,rfl⟩
  | _ => cases pc

theorem Stage.of_infQueue (waiting : 0 < (stage.tally n).infQueue) :
    ∃ fanning sent queued held got err, stage = .inferring fanning sent queued held got err := by
  cases stage with
  | inferring => exact ⟨_,_,_,_,_,_,rfl⟩
  | _ => simp_all [Stage.tally]

theorem Stage.of_infReceived (pc : (stage.tally n).inf = .received) :
    ∃ fanning sent queued got err, stage = .inferring fanning sent queued true got err := by
  cases stage with
  | inferring fanning sent queued held got err =>
    cases held with
    | true => exact ⟨_,_,_,_,_,rfl⟩
    | false => cases pc
  | gathered fanning err at_ => cases at_ <;> cases pc
  | _ => cases pc

theorem Stage.of_stitch (pc : (stage.tally n).inf = .stitch) :
    ∃ fanning err, stage = .gathered fanning err .stitch := by
  cases stage with
  | inferring fanning sent queued held got err => cases held <;> cases pc
  | gathered fanning err at_ => cases at_ <;> cases pc; exact ⟨_,_,rfl⟩
  | _ => cases pc

theorem Stage.of_infFinish (pc : (stage.tally n).inf = .finish at_) :
    ∃ fanning err, stage = .gathered fanning err (.infClosing at_) := by
  cases stage with
  | inferring fanning sent queued held got err => cases held <;> cases pc
  | gathered fanning err at_ => cases at_ <;> cases pc; exact ⟨_,_,rfl⟩
  | _ => cases pc

theorem Stage.of_stitchQueue (waiting : 0 < (stage.tally n).stitchQueue) :
    ∃ fanning err, stage = .gathered fanning err .stitching := by
  cases stage with
  | gathered fanning err at_ =>
    cases at_ with
    | stitching => exact ⟨_,_,rfl⟩
    | _ => simp_all [Stage.tally,Gathered.tally]
  | _ => simp_all [Stage.tally]

theorem Stage.of_stitchReceived (pc : (stage.tally n).stitch = .received) :
    ∃ fanning err, stage = .gathered fanning err .stitched := by
  cases stage with
  | gathered fanning err at_ => cases at_ <;> cases pc; exact ⟨_,_,rfl⟩
  | _ => cases pc

theorem Stage.of_dump (pc : (stage.tally n).stitch = .dump) :
    ∃ fanning err, stage = .gathered fanning err .dumping := by
  cases stage with
  | gathered fanning err at_ => cases at_ <;> cases pc; exact ⟨_,_,rfl⟩
  | _ => cases pc

theorem Stage.of_stitchFinish (pc : (stage.tally n).stitch = .finish at_) :
    ∃ fanning err, stage = .gathered fanning err (.stitchClosing at_) := by
  cases stage with
  | gathered fanning err at_ => cases at_ <;> cases pc; exact ⟨_,_,rfl⟩
  | _ => cases pc

end

theorem Move.staged (move : Move strict n view next) (known : StageOf strict n view) :
    StageOf strict n next := by
  obtain ⟨stage,valid,lossless,rfl⟩ := known
  cases move with
  | register fresh =>
    obtain rfl := Stage.of_fresh fresh
    exact ⟨.sending,trivial,fun _ => trivial,rfl⟩
  | send pc =>
    obtain rfl := Stage.of_sending pc
    exact ⟨.segmenting,trivial,fun _ => trivial,rfl⟩
  | segFetch pc waiting =>
    obtain rfl := Stage.of_segQueue waiting
    exact ⟨.segmented,trivial,fun _ => trivial,rfl⟩
  | segFailed pc =>
    obtain rfl := Stage.of_segReceived pc
    exact ⟨.segClosing .enter,trivial,fun _ => trivial,rfl⟩
  | segSplit pc =>
    obtain rfl := Stage.of_segReceived pc
    exact ⟨.inferring true 0 0 false 0 false,by simp [Stage.Valid],fun _ => rfl,rfl⟩
  | segLost pc loose =>
    obtain rfl := Stage.of_segReceived pc
    exact ⟨.segLost,trivial,by simp [loose],rfl⟩
  | @tileSend tile pc more =>
    rcases Stage.of_tiles pc with ⟨queued,held,got,err,rfl⟩ | ⟨rfl,_⟩
    · refine ⟨.inferring true (tile+1) (queued+1) held got err,?_,fun strict => ?_,rfl⟩
      · simp only [Stage.Valid] at valid ⊢
        exact ⟨by omega,by omega,by simp,valid.2.2.2⟩
      · have kept := lossless strict
        simp only [Stage.Lossless] at kept ⊢
        omega
    · exact absurd more (Nat.lt_irrefl _)
  | @tilesSent tile pc all =>
    rcases Stage.of_tiles pc with ⟨queued,held,got,err,rfl⟩ | ⟨rfl,err,at_,rfl⟩
    · refine ⟨.inferring false tile queued held got err,?_,lossless,rfl⟩
      simp only [Stage.Valid] at valid ⊢
      exact ⟨valid.1,valid.2.1,fun _ => by omega,valid.2.2.2⟩
    · exact ⟨.gathered false err at_,trivial,by cases at_ <;> exact lossless,by cases at_ <;> rfl⟩
  | segClose pc move =>
    obtain rfl := Stage.of_segFinish pc
    rcases closing_move move with ⟨further,rfl,rfl⟩ | ⟨rfl,rfl⟩
    · exact ⟨.segClosing further,trivial,fun _ => trivial,rfl⟩
    · exact ⟨.segFinished,trivial,fun _ => trivial,rfl⟩
  | infFetch pc waiting =>
    obtain ⟨fanning,sent,queued,held,got,err,rfl⟩ := Stage.of_infQueue waiting
    cases held with
    | true => cases pc
    | false =>
      have some : 0 < queued := waiting
      refine ⟨.inferring fanning sent (queued-1) true got err,?_,fun strict => ?_,rfl⟩
      · simp only [Stage.Valid,Bool.toNat_false,Bool.toNat_true] at valid ⊢
        exact ⟨by omega,valid.2⟩
      · have kept := lossless strict
        simp only [Stage.Lossless,Bool.toNat_false,Bool.toNat_true] at kept ⊢
        omega
  | infLost pc loose =>
    obtain ⟨fanning,sent,queued,got,err,rfl⟩ := Stage.of_infReceived pc
    refine ⟨.inferring fanning sent queued false got err,?_,by simp [loose],rfl⟩
    simp only [Stage.Valid,Bool.toNat_false,Bool.toNat_true] at valid ⊢
    exact ⟨by omega,valid.2⟩
  | @counted got err dispatched done later pc data stay =>
    obtain ⟨fanning,sent,queued,_,_,rfl⟩ := Stage.of_infReceived pc
    cases data
    have less : got+1 < n := stay.resolve_right (by simp)
    refine ⟨.inferring fanning sent queued false (got+1) _,?_,fun strict => ?_,rfl⟩
    · simp only [Stage.Valid,Bool.toNat_false,Bool.toNat_true] at valid ⊢
      exact ⟨by omega,valid.2.1,valid.2.2.1,.inl less⟩
    · have kept := lossless strict
      simp only [Stage.Lossless,Bool.toNat_false,Bool.toNat_true] at kept ⊢
      omega
  | @gathered got err done failed pc data full =>
    obtain ⟨fanning,sent,queued,_,_,rfl⟩ := Stage.of_infReceived pc
    cases data
    simp only [Stage.Valid,Bool.toNat_true] at valid
    -- Every task of the frame is accounted for: nothing is queued any more.
    obtain rfl : n = got+1 := by omega
    obtain rfl : sent = got+1 := by omega
    obtain rfl : queued = 0 := by omega
    cases failed with
    | true => exact ⟨.gathered fanning true (.infClosing .enter),trivial,fun _ => trivial,rfl⟩
    | false => exact ⟨.gathered fanning false .stitch,trivial,fun _ => trivial,rfl⟩
  | stitchSend pc =>
    obtain ⟨fanning,err,rfl⟩ := Stage.of_stitch pc
    exact ⟨.gathered fanning err .stitching,trivial,fun _ => trivial,rfl⟩
  | infClose pc move =>
    obtain ⟨fanning,err,rfl⟩ := Stage.of_infFinish pc
    rcases closing_move move with ⟨further,rfl,rfl⟩ | ⟨rfl,rfl⟩
    · exact ⟨.gathered fanning err (.infClosing further),trivial,fun _ => trivial,rfl⟩
    · exact ⟨.gathered fanning err .finished,trivial,fun _ => trivial,rfl⟩
  | stitchFetch pc waiting =>
    obtain ⟨fanning,err,rfl⟩ := Stage.of_stitchQueue waiting
    exact ⟨.gathered fanning err .stitched,trivial,fun _ => trivial,rfl⟩
  | stitchLost pc loose =>
    obtain ⟨fanning,err,rfl⟩ := Stage.of_stitchReceived pc
    exact ⟨.gathered fanning err .lost,trivial,by simp [loose],rfl⟩
  | stitchDump pc =>
    obtain ⟨fanning,err,rfl⟩ := Stage.of_stitchReceived pc
    exact ⟨.gathered fanning err .dumping,trivial,fun _ => trivial,rfl⟩
  | stitchEnd pc =>
    rcases pc with pc | pc
    · obtain ⟨fanning,err,rfl⟩ := Stage.of_stitchReceived pc
      exact ⟨.gathered fanning err (.stitchClosing .enter),trivial,fun _ => trivial,rfl⟩
    · obtain ⟨fanning,err,rfl⟩ := Stage.of_dump pc
      exact ⟨.gathered fanning err (.stitchClosing .enter),trivial,fun _ => trivial,rfl⟩
  | stitchClose pc move =>
    obtain ⟨fanning,err,rfl⟩ := Stage.of_stitchFinish pc
    rcases closing_move move with ⟨further,rfl,rfl⟩ | ⟨rfl,rfl⟩
    · exact ⟨.gathered fanning err (.stitchClosing further),trivial,fun _ => trivial,rfl⟩
    · exact ⟨.gathered fanning err .finished,trivial,fun _ => trivial,rfl⟩

structure Held (strict : Bool) (s : State) : Prop where
  seg : ∀ out, s.seg = .received out → if strict then Readable out (some out.task) else
    Honest out (some out.task)
  inf : ∀ out, s.inf = .received out → (if strict then Readable out out.task.imageId else
    Honest out out.task.imageId) ∧ (strict = true → NamesHost out)
  stitch : ∀ out, s.stitch = .received out → if strict then Readable out (some out.task) else
    Honest out (some out.task)

theorem initial_held (strict : Bool) (c : Config) : Held strict (start c) := by
  refine ⟨?_,?_,?_⟩ <;> intro out pc <;> cases pc

theorem got_idle (got : GotStep c s imageId ok next) (out : Out InfTask) : next.inf ≠ .received out := by
  cases got <;> simp

theorem step_held (held : Held strict s) (step : Step c s action next)
    (replies : action.replies strict) (hosts : strict = true → action.namesHost) :
    Held strict next := by
  obtain ⟨seg,inf,stitch⟩ := held
  cases step with
  | segFetch pc more got => exact ⟨fun out same => by cases same; exact replies,inf,stitch⟩
  | infFetch pc more got =>
    exact ⟨seg,fun out same => by cases same; exact ⟨replies,hosts⟩,stitch⟩
  | stitchFetch pc got => exact ⟨seg,inf,fun out same => by cases same; exact replies⟩
  | @segFinish at_ after flow pc ran =>
    have lanes := finish_lanes ran
    exact ⟨by cases flow <;> simp [segAfter],by simpa [lanes.inf] using inf,
      by simpa [lanes.stitch] using stitch⟩
  | @infFinish at_ after flow pc ran =>
    have lanes := finish_lanes ran
    exact ⟨by simpa [lanes.seg] using seg,by cases flow <;> simp [infAfter],
      by simpa [lanes.stitch] using stitch⟩
  | @stitchFinish at_ after flow pc ran =>
    have lanes := finish_lanes ran
    exact ⟨by simpa [lanes.seg] using seg,by simpa [lanes.inf] using inf,
      by cases flow <;> simp [stitchAfter]⟩
  | infOk pc good named got | infFailed pc bad got =>
    have lanes := got_lanes got
    have same : next.seg = s.seg := lanes.seg
    have other : next.stitch = s.stitch := lanes.stitch
    exact ⟨by simpa [same] using seg,fun out pc => absurd pc (got_idle got out),
      by simpa [other] using stitch⟩
  | _ => exact ⟨by first | exact seg | simp,by first | exact inf | simp,by first | exact stitch | simp⟩

theorem fetch_once [DecidableEq Task] {session next : Session Task}
    (got : session.fetch out again = some next) (once : again = false) :
    out.task ∈ session.pending ∧ next.pending = session.pending.erase out.task := by
  obtain ⟨_,_,_,pending⟩ := fetch_parts got
  exact (pending.resolve_left fun twice => by simp [once] at twice).2

theorem tilesOf_erase {tasks : List InfTask} (member : task ∈ tasks) (i : Nat) :
    tilesOf tasks i = tilesOf (tasks.erase task) i+(if task.imageId = some i then 1 else 0) := by
  have split := (List.perm_cons_erase member).countP_eq (fun task => decide (task.imageId = some i))
  simpa [tilesOf,List.countP_cons] using split

theorem tilesOf_pos {tasks : List InfTask} (member : task ∈ tasks) (same : task.imageId = some i) :
    0 < tilesOf tasks i := List.countP_pos_iff.mpr ⟨task,member,by simpa using same⟩

-- The stage of frame i in _finish: marked only from `enter`.
theorem Staged.undone (staged : Staged strict c s)
    (inside : segAt i s.seg = .finish .enter ∨ infAt i s.inf = .finish .enter ∨
      stitchAt i s.stitch = .finish .enter) :
    ∃ got err dispatched, (core s i).data = some (got,err,dispatched,false) := by
  obtain ⟨stage,_,_,view⟩ := staged i
  have whole : core s i = (stage.tally c.nTiles).core := congrArg Tally.core view
  have seg : segAt i s.seg = (stage.tally c.nTiles).seg := congrArg Tally.seg view
  have inf : infAt i s.inf = (stage.tally c.nTiles).inf := congrArg Tally.inf view
  have stitch : stitchAt i s.stitch = (stage.tally c.nTiles).stitch := congrArg Tally.stitch view
  rw [whole]
  rcases inside with pc | pc | pc
  · obtain rfl := Stage.of_segFinish (seg.symm.trans pc)
    exact ⟨_,_,_,rfl⟩
  · obtain ⟨_,_,rfl⟩ := Stage.of_infFinish (inf.symm.trans pc)
    exact ⟨_,_,_,rfl⟩
  · obtain ⟨_,_,rfl⟩ := Stage.of_stitchFinish (stitch.symm.trans pc)
    exact ⟨_,_,_,rfl⟩

theorem segAt_after (flow : Flow) (i : Nat) : segAt i (segAfter flow) = (flow.on i).elim .away .finish := by
  cases flow <;> rfl
theorem infAt_after (flow : Flow) (i : Nat) : infAt i (infAfter flow) = (flow.on i).elim .away .finish := by
  cases flow <;> rfl
theorem stitchAt_after (flow : Flow) (i : Nat) :
    stitchAt i (stitchAfter flow) = (flow.on i).elim .away .finish := by
  cases flow <;> rfl

theorem submit_moves (slots : Slots c s held) (step : Step c s .segSubmit next) (i : Nat) :
    tally next i = tally s i ∨ Move strict c.nTiles (tally s i) (tally next i) := by
  cases step with
  | acquire pc left free => left; simp [tally,core,pc]
  | submitted pc none => left; simp [tally,core,pc]
  | @register j pc =>
    by_cases same : j = i
    · right
      subst j
      have fresh : s.imgState i = none := by
        cases known : s.imgState i with
        | none => rfl
        | some frame =>
          have old := (slots.2.2.1 i).mp ⟨frame,known⟩
          rw [pc] at old
          exact absurd old (Nat.lt_irrefl i)
      have view : tally {s.setFrame i {sample := c.sample i} with submitter := .send i} i =
          {tally s i with core := {(tally s i).core with data := some (0,false,false,false)},
                          sending := true} := by
        simp [tally,core,State.setFrame]
      rw [view]
      exact .register (by simp [tally,core,fresh]) (by simp [tally,pc])
    · left
      simp [tally,core,State.setFrame,pc,same,Ne.symm same]
  | @send j pc =>
    by_cases same : j = i
    · right
      subst j
      have view : tally {s with segSess := s.segSess.send i,submitter := .acquire (i+1)} i =
          {tally s i with sending := false,segQueue := (tally s i).segQueue+1} := by
        simp [tally,core,Session.send]
      rw [view]
      exact .send (by simp [tally,pc])
    · left
      simp [tally,core,Session.send,pc,same]

theorem finish_moves (ran : FinishStep c s at_ after flow) (room : flow ≠ .raised .valueError)
    (undone : at_.on i = some .enter → ∃ got err dispatched,
      (core s i).data = some (got,err,dispatched,false)) :
    (at_.on i = none ∧ flow.on i = none ∧ core after i = core s i) ∨
      ∃ place, at_.on i = some place ∧
        FinishMove (some place) (core s i) (flow.on i) (core after i) := by
  have move := finish_move ran room undone
  cases inside : at_.on i with
  | none =>
    rw [inside] at move
    generalize flow.on i = later,core after i = whole,core s i = old at move ⊢
    cases move
    exact .inl ⟨rfl,rfl,rfl⟩
  | some place => exact .inr ⟨place,rfl,by rwa [inside] at move⟩

-- A received segment or stitch output: its thread goes on with the frame of the
-- task, or with none when the reply lost its id. `put` writes the thread's place.
theorem received_moves {view : Tally} (put : α → Tally) {received away : α} (target : α) {imageId : Option Nat}
    (carried : imageId = some task ∨ strict = false ∧ imageId = none)
    (at_ : view = put (if task = i then received else away))
    (lose : view = put received → strict = false → Move strict n view (put away))
    (move : view = put received → Move strict n view (put target)) :
    put (if imageId = some i then target else away) = view ∨
      Move strict n view (put (if imageId = some i then target else away)) := by
  by_cases same : task = i
  · right
    rw [if_pos same] at at_
    rcases carried with rfl | ⟨loose,rfl⟩
    · rw [if_pos (congrArg some same)]
      exact move at_
    · rw [if_neg (Option.some_ne_none i).symm]
      exact lose at_ loose
  · left
    rw [if_neg same] at at_
    rcases carried with rfl | ⟨_,rfl⟩
    · rw [if_neg fun equal => same (Option.some.inj equal),at_]
    · rw [if_neg (Option.some_ne_none i).symm,at_]

theorem seg_received (held : Held strict s) (pc : s.seg = .received out) (target : SegAt)
    (shape : segAt i later = if (reply out).imageId = some i then target else .away)
    (move : (tally s i).seg = .received → Move strict n (tally s i) {tally s i with seg := target}) :
    {tally s i with seg := segAt i later} = tally s i ∨
      Move strict n (tally s i) {tally s i with seg := segAt i later} := by
  have at_ : tally s i = {tally s i with seg := if out.task = i then .received else .away} := by
    simp [tally,pc,segAt]
  rw [shape]
  exact received_moves (fun place => {tally s i with seg := place}) target (replies_carried strict (held.seg out pc))
    at_ (fun same loose => .segLost (congrArg Tally.seg same) loose) fun same => move (congrArg Tally.seg same)

theorem seg_moves (held : Held strict s) (staged : Staged strict c s) (step : Step c s action next)
    (thread : (∃ out again, action = .segFetch out again) ∨ action = .segNext) (once : action.once)
    (safe : next.seg ≠ .crashed .valueError) (i : Nat) :
    tally next i = tally s i ∨ Move strict c.nTiles (tally s i) (tally next i) := by
  cases step with
  | @segFetch out again session pc more got =>
    obtain ⟨member,pending⟩ := fetch_once got once
    by_cases same : out.task = i
    · right
      have view : tally {s with segSess := session,seg := .received out,segSeen := s.segSeen+1} i =
          {tally s i with segQueue := (tally s i).segQueue-1,seg := .received} := by
        simp [tally,core,pending,← same,segAt]
      rw [view]
      exact .segFetch (by simp [tally,pc,segAt]) (by simpa [tally,← same] using member)
    · left
      simp [tally,core,pending,segAt,same,pc,List.count_erase_of_ne (Ne.symm same)]
  | segExit pc all => left; simp [tally,core,segAt,pc]
  | segFailed pc bad =>
    exact seg_received held pc _ (by simp only [segAt,Finish.on]; split <;> rfl) .segFailed
  | segSplit pc good => exact seg_received held pc _ (by simp only [segAt]) .segSplit
  | @tileSend imageId tile pc more =>
    by_cases same : imageId = some i
    · right
      have view : tally {s with infSess := s.infSess.send ⟨imageId,tile⟩,seg := .tiles imageId (tile+1)} i =
          {tally s i with seg := .tiles (tile+1),tilesSent := (tally s i).tilesSent+1,
                          infQueue := (tally s i).infQueue+1} := by
        simp [tally,core,segAt,same,Session.send,tilesOf]
      rw [view]
      exact .tileSend (by simp [tally,pc,segAt,same]) more
    · left
      simp [tally,core,segAt,same,Session.send,tilesOf,pc]
  | @tilesSent imageId tile pc all =>
    by_cases same : imageId = some i
    · right
      exact .tilesSent (by simp [tally,pc,segAt,same]) all
    · left
      simp [tally,core,segAt,same,pc]
  | @segFinish at_ after flow pc ran =>
    have lanes := finish_lanes ran
    have view : tally {after with seg := segAfter flow} i =
        {tally s i with core := core after i,seg := (flow.on i).elim .away .finish} := by
      simp [tally,core,lanes.submitter,lanes.segSess,lanes.infSess,lanes.stitchSess,lanes.inf,
        lanes.stitch,segAt_after]
    rw [view]
    rcases finish_moves (i:=i) ran (fun full => safe (by simp [full,segAfter])) fun inside =>
      staged.undone (.inl (by simp [pc,segAt,inside])) with ⟨outside,gone,same⟩ | ⟨place,inside,move⟩
    · left; simp [tally,pc,segAt,outside,gone,same]
    · right; exact .segClose (by simp [tally,pc,segAt,inside]) move
  | _ => simp at thread

theorem got_tally (lanes : SameLanes s {t with inf := s.inf})
    (history : t.removed = s.removed ∧ t.released = s.released)
    (got : GotStep c t imageId ok next) (i : Nat) : tally next i = {tally s i with
      core := {(tally s i).core with data := (next.imgState i).map fun frame =>
        (frame.got,frame.err,frame.dispatched,frame.done)},
      inf := infAt i next.inf} := by
  obtain ⟨frames,pc,rfl⟩ := got_only got
  simp [tally,core,history,show t.submitter = s.submitter from lanes.submitter,
    show t.segSess = s.segSess from lanes.segSess,show t.infSess = s.infSess from lanes.infSess,
    show t.stitchSess = s.stitchSess from lanes.stitchSess,show t.seg = s.seg from lanes.seg,
    show t.stitch = s.stitch from lanes.stitch]

theorem got_moves (got : GotStep c t (reply out).imageId ok next) (pc : s.inf = .received out)
    (lanes : SameLanes s {t with inf := s.inf}) (frames : t.imgState = s.imgState)
    (history : t.removed = s.removed ∧ t.released = s.released)
    (carried : (reply out).imageId = out.task.imageId ∨ strict = false ∧ (reply out).imageId = none)
    (i : Nat)
    (known : out.task.imageId = some i → ∃ frame, s.imgState i = some frame) :
    tally next i = tally s i ∨ Move strict c.nTiles (tally s i) (tally next i) := by
  rw [got_tally lanes history got i]
  by_cases same : out.task.imageId = some i
  · have at_ : (tally s i).inf = .received := by simp [tally,pc,infAt,same]
    obtain ⟨frame,found⟩ := known same
    have data : (tally s i).core.data = some (frame.got,frame.err,frame.dispatched,frame.done) := by
      simp [tally,core,found]
    right
    rcases carried with carried | ⟨loose,lost⟩
    · rw [carried,same] at got
      generalize mine : some i = imageId at got
      cases got with
      | unknown missing =>
        subst mine
        have none : t.imgState i = none := missing
        simp [frames,found] at none
      | counted there stay =>
        cases Option.some.inj mine
        rw [frames,found] at there
        cases Option.some.inj there
        simpa [infAt,State.setFrame] using Move.counted at_ data stay
      | failed there full fresh err =>
        cases Option.some.inj mine
        rw [frames,found] at there
        cases Option.some.inj there
        rw [fresh] at data
        simpa [infAt,Finish.on,State.setFrame] using
          Move.gathered true at_ data full
      | ready there full fresh fine =>
        cases Option.some.inj mine
        rw [frames,found] at there
        cases Option.some.inj there
        rw [fresh] at data
        simpa [infAt,State.setFrame] using Move.gathered false at_ data full
    · rw [lost] at got
      generalize mine : none = imageId at got
      cases got with
      | unknown =>
        simpa [infAt,frames,tally,core] using Move.infLost (n:=c.nTiles) at_ loose
      | _ => cases mine
  · left
    have other : (reply out).imageId ≠ some i := by
      rcases carried with carried | ⟨_,lost⟩
      · simpa [carried] using same
      · simp [lost]
    generalize (reply out).imageId = imageId at got other
    cases got with
    | unknown => simp [infAt,frames,tally,core,pc,same]
    | counted | failed | ready =>
      have differs : _ ≠ i := fun equal => other (congrArg some equal)
      simp [infAt,frames,tally,core,pc,same,Finish.on,differs,Ne.symm differs,State.setFrame]

theorem named_host (readable : Readable out imageId) (names : NamesHost out)
    (good : (out.isSuccessful && (reply out).ok) = true) : (reply out).host ≠ none := by
  obtain ⟨successful,text,parsed,_⟩ := readable
  have same : reply out = text := by simp [reply,successful,parsed]
  rw [same] at good ⊢
  have host := names text parsed (by simpa [successful] using good)
  exact Option.isSome_iff_ne_none.mp host

theorem Staged.received_known (staged : Staged strict c s) (pc : s.inf = .received out)
    (same : out.task.imageId = some i) : ∃ frame, s.imgState i = some frame := by
  obtain ⟨stage,_,_,view⟩ := staged i
  have at_ : (stage.tally c.nTiles).inf = .received := by
    rw [← view]; simp [tally,pc,infAt,same]
  obtain ⟨_,_,_,_,_,rfl⟩ := Stage.of_infReceived at_
  have data : (core s i).data = some _ := congrArg (fun view => view.core.data) view
  obtain ⟨frame,found,_⟩ := Option.map_eq_some_iff.mp data
  exact ⟨frame,found⟩

theorem inf_moves (held : Held strict s) (staged : Staged strict c s)
    (step : Step c s action next)
    (thread : (∃ out again, action = .infFetch out again) ∨ action = .infNext) (once : action.once)
    (safe : next.inf ≠ .crashed .valueError) (i : Nat) :
    tally next i = tally s i ∨ Move strict c.nTiles (tally s i) (tally next i) := by
  cases step with
  | @infFetch out again session pc more got =>
    obtain ⟨member,pending⟩ := fetch_once got once
    have split := tilesOf_erase member i
    obtain ⟨_,submitted,_,_⟩ := fetch_parts got
    by_cases same : out.task.imageId = some i
    · right
      rw [if_pos same] at split
      have view : tally {s with infSess := session,inf := .received out,infSeen := s.infSeen+1} i =
          {tally s i with infQueue := (tally s i).infQueue-1,inf := .received} := by
        simp [tally,core,pending,submitted,same,infAt,split]
      rw [view]
      exact .infFetch (by simp [tally,pc,infAt]) (tilesOf_pos member same)
    · left
      rw [if_neg same] at split
      simp [tally,core,pending,submitted,infAt,same,pc,split]
  | infExit pc all => left; simp [tally,core,infAt,pc]
  | @infNoHost out pc good missing =>
    by_cases same : out.task.imageId = some i
    · right
      have at_ : (tally s i).inf = .received := by simp [tally,pc,infAt,same]
      cases strict with
      | true =>
        obtain ⟨replies,hosts⟩ := held.inf out pc
        exact absurd missing (named_host (by simpa using replies) (hosts rfl) good)
      | false => exact .infLost at_ rfl
    · left; simp [tally,core,infAt,pc,same,countTask]
  | @infOk out host next pc good named got =>
    exact got_moves got pc ⟨rfl,rfl,rfl,rfl,rfl,rfl,rfl,rfl,rfl⟩ rfl ⟨rfl,rfl⟩
      (replies_carried strict (held.inf out pc).1) i fun same => staged.received_known pc same
  | @infFailed out next pc bad got =>
    exact got_moves got pc ⟨rfl,rfl,rfl,rfl,rfl,rfl,rfl,rfl,rfl⟩ rfl ⟨rfl,rfl⟩
      (replies_carried strict (held.inf out pc).1) i fun same => staged.received_known pc same
  | @stitchSend j pc =>
    by_cases same : j = i
    · right
      subst j
      have view : tally {s with stitchSess := s.stitchSess.send i,inf := .loop} i =
          {tally s i with inf := .away,stitchQueue := (tally s i).stitchQueue+1} := by
        simp [tally,core,Session.send,infAt]
      rw [view]
      exact .stitchSend (by simp [tally,pc,infAt])
    · left
      simp [tally,core,Session.send,pc,same,infAt]
  | @infFinish at_ after flow pc ran =>
    have lanes := finish_lanes ran
    have view : tally {after with inf := infAfter flow} i =
        {tally s i with core := core after i,inf := (flow.on i).elim .away .finish} := by
      simp [tally,core,lanes.submitter,lanes.segSess,lanes.infSess,lanes.stitchSess,lanes.seg,
        lanes.stitch,infAt_after]
    rw [view]
    rcases finish_moves (i:=i) ran (fun full => safe (by simp [full,infAfter])) fun inside =>
      staged.undone (.inr (.inl (by simp [pc,infAt,inside]))) with ⟨outside,gone,same⟩ | ⟨place,inside,move⟩
    · left; simp [tally,pc,infAt,outside,gone,same]
    · right; exact .infClose (by simp [tally,pc,infAt,inside]) move
  | _ => simp at thread

theorem stitch_received (held : Held strict s) (pc : s.stitch = .received out) (target : StitchAt)
    (shape : stitchAt i later = if (reply out).imageId = some i then target else .away)
    (move : (tally s i).stitch = .received → Move strict n (tally s i) {tally s i with stitch := target}) :
    {tally s i with stitch := stitchAt i later} = tally s i ∨
      Move strict n (tally s i) {tally s i with stitch := stitchAt i later} := by
  have at_ : tally s i = {tally s i with stitch := if out.task = i then .received else .away} := by
    simp [tally,pc,stitchAt]
  rw [shape]
  exact received_moves (fun place => {tally s i with stitch := place}) target
    (replies_carried strict (held.stitch out pc)) at_
    (fun same loose => .stitchLost (congrArg Tally.stitch same) loose) fun same => move (congrArg Tally.stitch same)

theorem stitch_moves (held : Held strict s) (staged : Staged strict c s) (step : Step c s action next)
    (thread : (∃ out again, action = .stitchFetch out again) ∨ action = .stitchNext)
    (once : action.once) (safe : next.stitch ≠ .crashed .valueError) (i : Nat) :
    tally next i = tally s i ∨ Move strict c.nTiles (tally s i) (tally next i) := by
  cases step with
  | @stitchFetch out again session pc got =>
    obtain ⟨member,pending⟩ := fetch_once got once
    by_cases same : out.task = i
    · right
      have view : tally {s with stitchSess := session,stitch := .received out} i =
          {tally s i with stitchQueue := (tally s i).stitchQueue-1,stitch := .received} := by
        simp [tally,core,pending,← same,stitchAt]
      rw [view]
      exact .stitchFetch (by simp [tally,pc,stitchAt]) (by simpa [tally,← same] using member)
    · left
      simp [tally,core,pending,stitchAt,same,pc,List.count_erase_of_ne (Ne.symm same)]
  | stitchPoll pc running | stitchExit pc ended | stitchLeave pc ended => left; simp [tally,core,stitchAt,pc]
  | stitchDump pc good dumps => exact stitch_received held pc _ (by simp only [stitchAt]) .stitchDump
  | stitchCount pc good dumps | stitchFailed pc bad =>
    exact stitch_received held pc _ (by simp only [stitchAt,Finish.on]; split <;> rfl)
      fun at_ => .stitchEnd (.inl at_)
  | @dumped record imageId pc =>
    by_cases same : imageId = some i
    · right
      have at_ : (tally s i).stitch = .dump := by simp [tally,pc,stitchAt,same]
      have view : tally {s with dump := s.dump ++ [record],stitch := .finish (.enter imageId false)} i =
          {tally s i with stitch := .finish .enter} := by simp [tally,core,stitchAt,Finish.on,same]
      rw [view]
      exact .stitchEnd (.inr at_)
    · left
      simp [tally,core,stitchAt,Finish.on,pc,same]
  | @stitchFinish at_ after flow pc ran =>
    have lanes := finish_lanes ran
    have view : tally {after with stitch := stitchAfter flow} i =
        {tally s i with core := core after i,stitch := (flow.on i).elim .away .finish} := by
      simp [tally,core,lanes.submitter,lanes.segSess,lanes.infSess,lanes.stitchSess,lanes.seg,
        lanes.inf,stitchAt_after]
    rw [view]
    rcases finish_moves (i:=i) ran (fun full => safe (by simp [full,stitchAfter])) fun inside =>
      staged.undone (.inr (.inr (by simp [pc,stitchAt,inside]))) with ⟨outside,gone,same⟩ | ⟨place,inside,move⟩
    · left; simp [tally,pc,stitchAt,outside,gone,same]
    · right; exact .stitchClose (by simp [tally,pc,stitchAt,inside]) move
  | _ => simp at thread

-- Nothing is delivered twice, and a strict environment loses no reply.
structure Delivers (strict : Bool) (action : Action) : Prop where
  once : action.once
  replies : action.replies strict
  hosts : strict = true → action.namesHost

structure Lives (strict : Bool) (c : Config) (s : State) : Prop where
  sound : Sound strict c s
  held : Held strict s
  staged : Staged strict c s

theorem step_moves (lives : Lives strict c s) (room : NoOverRelease next)
    (step : Step c s action next) (delivers : Delivers strict action) (i : Nat) :
    tally next i = tally s i ∨ Move strict c.nTiles (tally s i) (tally next i) := by
  obtain ⟨sound,held,staged⟩ := lives
  cases action with
  | segSubmit => exact submit_moves sound.slots step i
  | segFetch out again => exact seg_moves held staged step (.inl ⟨_,_,rfl⟩) delivers.once room.1 i
  | segNext => exact seg_moves held staged step (.inr rfl) delivers.once room.1 i
  | infFetch out again => exact inf_moves held staged step (.inl ⟨_,_,rfl⟩) delivers.once room.2.1 i
  | infNext => exact inf_moves held staged step (.inr rfl) delivers.once room.2.1 i
  | stitchFetch out again =>
    exact stitch_moves held staged step (.inl ⟨_,_,rfl⟩) delivers.once room.2.2 i
  | stitchNext => exact stitch_moves held staged step (.inr rfl) delivers.once room.2.2 i
  | watchdog => cases step; exact .inl rfl

theorem step_lives (lives : Lives strict c s) (step : Step c s action next)
    (delivers : Delivers strict action) : Lives strict c next := by
  have sound := step_sound_kept lives.sound step delivers.replies
  refine ⟨sound,step_held lives.held step delivers.replies delivers.hosts,fun i => ?_⟩
  rcases step_moves lives sound.room step delivers i with same | move
  · rw [same]; exact lives.staged i
  · exact move.staged (lives.staged i)

theorem initial_lives (strict : Bool) (c : Config) : Lives strict c (start c) :=
  ⟨initial_sound strict c,initial_held strict c,initial_staged strict c⟩

theorem reached_lives (path : Runs.Reached (step c) (fun _ action => Delivers strict action) (start c) s) :
    Lives strict c s :=
  path.invariant (Lives strict c) (initial_lives strict c) fun _ _ _ lives delivers taken =>
    step_lives lives (step_sound taken) delivers

end SymphonyAkida.ShardClient
