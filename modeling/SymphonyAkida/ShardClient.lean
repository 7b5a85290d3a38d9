import SymphonyAkida.Library.Runs

namespace SymphonyAkida.ShardClient
variable {Task : Type}

-- What main fixes before the threads start. Frame i of the run has the
-- image_id "<run_id>_<i>"; the run id is constant, so i stands for it.
-- `sample i` is the index FramePool.read(i) returns beside the bytes.
structure Config where
  count : Nat
  inFlight : Nat
  nTiles : Nat
  sample : Nat → Nat
  dumps : Bool

-- The keys the client reads from a reply, absent keys with the defaults of
-- its own reply.get calls.
structure Reply where
  imageId : Option Nat := none
  ok : Bool := false
  host : Option String := none
  inferenceUs : Nat := 0
  decodeUs : Nat := 0
  device : Option String := none
  product : Option String := none
  model : Option String := none
  boxes : Option (List (List Rat)) := none
  scores : Option (List Rat) := none
  labels : Option (List Nat) := none
  truncated : Option (List Bool) := none
  classHist : List (String × Nat) := []

-- One task output as a session hands it over. `task` says which submitted
-- task it answers; the client never reads it. `text` is the output's text
-- parsed, none when json.loads raises.
structure Out (Task : Type) where
  task : Task
  isSuccessful : Bool
  text : Option Reply

-- _reply: an unsuccessful output loses its whole payload.
def reply (out : Out Task) : Reply :=
  if out.isSuccessful then out.text.getD {} else {}

structure InfTask where
  imageId : Option Nat
  tile : Nat
deriving DecidableEq

-- One SOAM session. `fetched` is a history variable, latest output first.
structure Session (Task : Type) where
  submitted : List Task := []
  pending : List Task := []
  fetched : List (Out Task) := []

def Session.send (session : Session Task) (task : Task) : Session Task :=
  {session with submitted := task :: session.submitted,pending := task :: session.pending}

-- fetch_task_output(1, _) returning `out`: for the first time, or `again`.
def Session.fetch [DecidableEq Task] (session : Session Task) (out : Out Task) (again : Bool) :
    Option (Session Task) :=
  if again then
    if out.task ∈ session.submitted then some {session with fetched := out :: session.fetched} else none
  else if out.task ∈ session.pending then
    some {session with pending := session.pending.erase out.task,fetched := out :: session.fetched}
  else none

abbrev Counter := List (String × Nat)

def Counter.add : Counter → String → Nat → Counter
  | [],key,n => [(key,n)]
  | (k,v) :: rest,key,n => if k = key then (k,v+n) :: rest else (k,v) :: Counter.add rest key n

def Counter.addAll (counter : Counter) (rows : List (String × Nat)) : Counter :=
  rows.foldl (fun counter row => counter.add row.1 row.2) counter

structure Identity where
  device : Option String
  product : Option String
  model : Option String

def setdefault (ids : List (String × Identity)) (key : String) (value : Identity) :
    List (String × Identity) :=
  if ids.any (fun row => row.1 == key) then ids else ids ++ [(key,value)]

structure Frame where
  got : Nat := 0
  err : Bool := false
  done : Bool := false
  dispatched : Bool := false
  sample : Nat

structure Totals where
  segErr : Nat := 0
  infDone : Nat := 0
  infErr : Nat := 0
  imgDone : Nat := 0
  imgErr : Nat := 0
  boxes : Nat := 0
  decodeUs : Nat := 0

structure Record where
  sample : Option Nat
  boxes : Option (List (List Rat))
  scores : Option (List Rat)
  labels : Option (List Nat)
  truncated : Option (List Bool)

inductive PyError | typeError | keyError | valueError
deriving DecidableEq

-- Where a thread stands inside _finish: before the locked block, before
-- shutil.rmtree(os.path.join(PIPE_DIR, image_id)), before sem.release().
inductive Finish where
  | enter (imageId : Option Nat) (failed : Bool)
  | remove (imageId : Option Nat)
  | release (imageId : Nat)

inductive SubmitPc where
  | acquire (i : Nat)
  | register (i : Nat)
  | send (i : Nat)
  | exited

-- `loop` is the head of the while loop. `crashed` is a thread an exception
-- ended; nothing restarts it.
inductive SegPc where
  | loop
  | received (out : Out Nat)
  | tiles (imageId : Option Nat) (tile : Nat)
  | finish (at_ : Finish)
  | exited
  | crashed (error : PyError)

inductive InfPc where
  | loop
  | received (out : Out InfTask)
  | stitch (imageId : Nat)
  | finish (at_ : Finish)
  | exited
  | crashed (error : PyError)

-- `fetching` is inside stitch_sess.fetch_task_output(1, 5): an output may come
-- whatever done_evt has become since the test of the loop.
inductive StitchPc where
  | loop
  | fetching
  | received (out : Out Nat)
  | dump (record : Record) (imageId : Option Nat)
  | finish (at_ : Finish)
  | exited
  | crashed (error : PyError)

-- `removed`, `released` and `finishSet` are history variables: the image ids
-- whose directory was removed, those whose permit _finish released, and
-- whether _finish has called done_evt.set(). No step reads them.
structure State where
  sem : Nat
  imgState : Nat → Option Frame := fun _ => none
  totals : Totals := {}
  perHost : Counter := []
  perHostUs : Counter := []
  perHostId : List (String × Identity) := []
  classes : Counter := []
  dump : List Record := []
  doneEvt : Bool := false
  stalled : Bool := false
  segSess : Session Nat := {}
  infSess : Session InfTask := {}
  stitchSess : Session Nat := {}
  submitter : SubmitPc := .acquire 0
  seg : SegPc := .loop
  segSeen : Nat := 0
  inf : InfPc := .loop
  infSeen : Nat := 0
  stitch : StitchPc := .loop
  removed : List Nat := []
  released : List Nat := []
  finishSet : Bool := false

def start (c : Config) : State := {sem := c.inFlight}

def State.setFrame (s : State) (imageId : Nat) (frame : Frame) : State :=
  {s with imgState := fun i => if i = imageId then some frame else s.imgState i}

def State.frame (s : State) (imageId : Option Nat) : Option Frame := imageId.bind s.imgState

def countFinished (c : Config) (s : State) (failed : Bool) : State :=
  let done := s.totals.imgDone+1
  let s := {s with totals := {s.totals with
    imgDone := done,imgErr := if failed then s.totals.imgErr+1 else s.totals.imgErr}}
  if c.count ≤ done then {s with doneEvt := true,finishSet := true} else s

inductive Flow where
  | next (at_ : Finish)
  | returned
  | raised (error : PyError)

-- _finish, one atomic part at a time.
def finish (c : Config) (s : State) : Finish → State × Flow
  | .enter imageId failed =>
    match imageId,s.frame imageId with
    | some i,some frame =>
      if frame.done then (s,.returned)
      else (countFinished c (s.setFrame i {frame with done := true}) failed,.next (.remove imageId))
    | _,_ => (countFinished c s failed,.next (.remove imageId))
  | .remove none => (s,.raised .typeError)
  | .remove (some i) => ({s with removed := i :: s.removed},.next (.release i))
  | .release i =>
    if s.sem < c.inFlight then ({s with sem := s.sem+1,released := i :: s.released},.returned)
    else (s,.raised .valueError)

def segSubmit (c : Config) (s : State) : Option State :=
  match s.submitter with
  | .acquire i =>
    if i < c.count then
      if 0 < s.sem then some {s with sem := s.sem-1,submitter := .register i} else none
    else some {s with submitter := .exited}
  | .register i => some {s.setFrame i {sample := c.sample i} with submitter := .send i}
  | .send i => some {s with segSess := s.segSess.send i,submitter := .acquire (i+1)}
  | .exited => none

-- seg_fetch at its loop head: the while test, then one fetched output.
def segFetch (c : Config) (s : State) (out : Out Nat) (again : Bool) : Option State :=
  match s.seg with
  | .loop =>
    if s.segSeen < c.count then
      (s.segSess.fetch out again).map fun session =>
        {s with segSess := session,seg := .received out,segSeen := s.segSeen+1}
    else none
  | _ => none

def segNext (c : Config) (s : State) : Option State :=
  match s.seg with
  | .loop => if s.segSeen < c.count then none else some {s with seg := .exited}
  | .received out =>
    let reply := reply out
    if !out.isSuccessful || !reply.ok then
      some {s with totals := {s.totals with segErr := s.totals.segErr+1},
                   seg := .finish (.enter reply.imageId true)}
    else some {s with seg := .tiles reply.imageId 0}
  | .tiles imageId tile =>
    if tile < c.nTiles then
      some {s with infSess := s.infSess.send ⟨imageId,tile⟩,seg := .tiles imageId (tile+1)}
    else some {s with seg := .loop}
  | .finish at_ =>
    let (after,flow) := finish c s at_
    some {after with seg := match flow with
      | .next at_ => .finish at_
      | .returned => .loop
      | .raised error => .crashed error}
  | .exited => none
  | .crashed _ => none

def infFetch (c : Config) (s : State) (out : Out InfTask) (again : Bool) : Option State :=
  match s.inf with
  | .loop =>
    if s.infSeen < c.count*c.nTiles then
      (s.infSess.fetch out again).map fun session =>
        {s with infSess := session,inf := .received out,infSeen := s.infSeen+1}
    else none
  | _ => none

def countTile (s : State) (host : String) (reply : Reply) : State :=
  {s with perHost := s.perHost.add host 1,
          perHostUs := s.perHostUs.add host reply.inferenceUs,
          perHostId := setdefault s.perHostId host ⟨reply.device,reply.product,reply.model⟩,
          totals := {s.totals with decodeUs := s.totals.decodeUs+reply.decodeUs}}

-- The frame part of inf_fetch's locked block, and the action taken after it.
def countGot (c : Config) (s : State) (imageId : Option Nat) (ok : Bool) : State :=
  match imageId,s.frame imageId with
  | some i,some frame =>
    let frame := {frame with got := frame.got+1,err := frame.err || !ok}
    if c.nTiles ≤ frame.got ∧ frame.dispatched = false then
      {s.setFrame i {frame with dispatched := true} with
        inf := if frame.err then .finish (.enter imageId true) else .stitch i}
    else {s.setFrame i frame with inf := .loop}
  | _,_ => {s with inf := .loop}

def infNext (c : Config) (s : State) : Option State :=
  match s.inf with
  | .loop => if s.infSeen < c.count*c.nTiles then none else some {s with inf := .exited}
  | .received out =>
    let reply := reply out
    let ok := out.isSuccessful && reply.ok
    let s := {s with totals := {s.totals with infDone := s.totals.infDone+1}}
    if ok then
      match reply.host with
      | none => some {s with inf := .crashed .keyError}
      | some host => some (countGot c (countTile s host reply) reply.imageId ok)
    else
      some (countGot c {s with totals := {s.totals with infErr := s.totals.infErr+1}} reply.imageId ok)
  | .stitch imageId => some {s with stitchSess := s.stitchSess.send imageId,inf := .loop}
  | .finish at_ =>
    let (after,flow) := finish c s at_
    some {after with inf := match flow with
      | .next at_ => .finish at_
      | .returned => .loop
      | .raised error => .crashed error}
  | .exited => none
  | .crashed _ => none

def stitchFetch (s : State) (out : Out Nat) (again : Bool) : Option State :=
  match s.stitch with
  | .fetching =>
    (s.stitchSess.fetch out again).map fun session => {s with stitchSess := session,stitch := .received out}
  | _ => none

-- A fetch that times out without an output tests the loop again.
def stitchNext (c : Config) (s : State) : Option State :=
  match s.stitch with
  | .loop => if s.doneEvt then some {s with stitch := .exited} else some {s with stitch := .fetching}
  | .fetching => if s.doneEvt then some {s with stitch := .exited} else none
  | .received out =>
    let reply := reply out
    let ok := out.isSuccessful && reply.ok
    if ok then
      let sample := (s.frame reply.imageId).map (·.sample)
      let s := {s with
        totals := {s.totals with boxes := s.totals.boxes+(reply.boxes.getD []).length},
        classes := s.classes.addAll reply.classHist}
      if c.dumps then
        some {s with stitch := .dump ⟨sample,reply.boxes,reply.scores,reply.labels,reply.truncated⟩
                                 reply.imageId}
      else some {s with stitch := .finish (.enter reply.imageId false)}
    else some {s with stitch := .finish (.enter reply.imageId true)}
  | .dump record imageId =>
    some {s with dump := s.dump ++ [record],stitch := .finish (.enter imageId false)}
  | .finish at_ =>
    let (after,flow) := finish c s at_
    some {after with stitch := match flow with
      | .next at_ => .finish at_
      | .returned => .loop
      | .raised error => .crashed error}
  | .exited => none
  | .crashed _ => none

-- watchdog giving up: a frame is pending and none completed for the timeout.
-- How long that is does not matter here, so it may happen at any time.
def watchdog (c : Config) (s : State) : Option State :=
  if s.doneEvt = false ∧ s.totals.imgDone < c.count then
    some {s with stalled := true,doneEvt := true}
  else none

inductive Action where
  | segSubmit
  | segFetch (out : Out Nat) (again : Bool)
  | segNext
  | infFetch (out : Out InfTask) (again : Bool)
  | infNext
  | stitchFetch (out : Out Nat) (again : Bool)
  | stitchNext
  | watchdog

-- One atomic step of one thread: a locked block, a semaphore operation, a
-- fetch, a submission or a file operation. Any thread may be next.
def step (c : Config) (s : State) : Action → Option State
  | .segSubmit => segSubmit c s
  | .segFetch out again => segFetch c s out again
  | .segNext => segNext c s
  | .infFetch out again => infFetch c s out again
  | .infNext => infNext c s
  | .stitchFetch out again => stitchFetch s out again
  | .stitchNext => stitchNext c s
  | .watchdog => watchdog c s

-- The replies of the three service containers carry the image_id of their
-- task. An output that is unsuccessful, or whose text does not parse, has none.
def Honest (out : Out Task) (imageId : Option Nat) : Prop :=
  ∀ text, out.isSuccessful = true → out.text = some text → text.imageId = imageId

def Readable (out : Out Task) (imageId : Option Nat) : Prop :=
  out.isSuccessful = true ∧ ∃ text, out.text = some text ∧ text.imageId = imageId

-- An ok reply of the inference stage names its host (Chip.predict_tile's
-- identity is always merged into it).
def NamesHost (out : Out InfTask) : Prop :=
  ∀ text, out.text = some text → text.ok = true → text.host.isSome

def Action.honest : Action → Prop
  | .segFetch out _ => Honest out (some out.task)
  | .infFetch out _ => Honest out out.task.imageId
  | .stitchFetch out _ => Honest out (some out.task)
  | _ => True

def Action.readable : Action → Prop
  | .segFetch out _ => Readable out (some out.task)
  | .infFetch out _ => Readable out out.task.imageId
  | .stitchFetch out _ => Readable out (some out.task)
  | _ => True

def Action.namesHost : Action → Prop
  | .infFetch out _ => NamesHost out
  | _ => True

def Action.once : Action → Prop
  | .segFetch _ again => again = false
  | .infFetch _ again => again = false
  | .stitchFetch _ again => again = false
  | _ => True

theorem readable_honest (action : Action) (readable : action.readable) : action.honest := by
  cases action with
  | segFetch out again =>
    obtain ⟨_,text,parsed,same⟩ := readable
    intro other _ found
    rw [parsed] at found
    cases Option.some.inj found
    exact same
  | infFetch out again =>
    obtain ⟨_,text,parsed,same⟩ := readable
    intro other _ found
    rw [parsed] at found
    cases Option.some.inj found
    exact same
  | stitchFetch out again =>
    obtain ⟨_,text,parsed,same⟩ := readable
    intro other _ found
    rw [parsed] at found
    cases Option.some.inj found
    exact same
  | _ => trivial

end SymphonyAkida.ShardClient
