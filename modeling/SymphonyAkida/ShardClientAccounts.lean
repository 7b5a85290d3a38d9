import SymphonyAkida.ShardClientFailure
import SymphonyAkida.ShardClientDirectory
import Mathlib.Algebra.GroupWithZero.Nat

namespace SymphonyAkida.ShardClient
variable {Task : Type}

def Out.good (out : Out Task) : Bool := out.isSuccessful && (reply out).ok

-- sum(counter.values()), and counter[key] where a missing key counts nothing.
def Counter.total (counter : Counter) : Nat := (counter.map (·.2)).sum
def Counter.get : Counter → String → Nat
  | [],_ => 0
  | (k,v) :: rest,key => if k = key then v else Counter.get rest key

structure Result where
  imagesDone : Nat
  imageErrors : Nat
  segmentsDone : Nat
  segmentErrors : Nat
  classes : Counter

def result (s : State) : Result where
  imagesDone := s.totals.imgDone-s.totals.imgErr
  imageErrors := s.totals.imgErr
  segmentsDone := s.perHost.total
  segmentErrors := s.totals.infErr+s.totals.segErr
  classes := s.classes

theorem Counter.total_add (counter : Counter) (key : String) (n : Nat) : (counter.add key n).total = counter.total+n := by
  induction counter with
  | nil => simp [Counter.add,Counter.total]
  | cons row rest ih =>
    unfold Counter.add
    split
    · simp only [Counter.total,List.map_cons,List.sum_cons]
      omega
    · simp only [Counter.total,List.map_cons,List.sum_cons] at ih ⊢
      omega

theorem Counter.get_add (counter : Counter) (key other : String) (n : Nat) :
    (counter.add key n).get other = counter.get other+if key = other then n else 0 := by
  induction counter with
  | nil => simp [Counter.add,Counter.get]
  | cons row rest ih =>
    obtain ⟨k,v⟩ := row
    by_cases here : k = key
    · subst here
      by_cases same : k = other
      · simp [Counter.add,Counter.get,same]
      · simp [Counter.add,Counter.get,same]
    · by_cases same : k = other
      · have differs : key ≠ other := fun equal => here (same.trans equal.symm)
        rw [Counter.add,if_neg here]
        simp [Counter.get,same,differs]
      · simpa [Counter.add,Counter.get,here,same] using ih

def rowsOf (rows : List (String × Nat)) (key : String) : Nat := ((rows.filter fun row => row.1 == key).map (·.2)).sum

theorem Counter.get_addAll (counter : Counter) (rows : List (String × Nat)) (key : String) :
    (counter.addAll rows).get key = counter.get key+rowsOf rows key := by
  induction rows generalizing counter with
  | nil => rfl
  | cons row rest ih =>
    have step : (counter.addAll (row :: rest)).get key = ((counter.add row.1 row.2).addAll rest).get key := rfl
    rw [step,ih,Counter.get_add]
    by_cases same : row.1 = key
    · simp [rowsOf,same]
      omega
    · simp [rowsOf,same]

-- The inference outputs seg_fetch still owes for the output it holds, and the
-- output inf_fetch has taken but not counted.
def owed (n : Nat) : SegPc → Nat
  | .received _ => n
  | .tiles _ tile => n-tile
  | _ => 0

def segHolds : SegPc → Nat
  | .received _ => 1
  | _ => 0

def infHolds : InfPc → Nat
  | .received _ => 1
  | .crashed .keyError => 1
  | _ => 0

-- The tile counters against the outputs fetched.
structure Tallied (c : Config) (s : State) : Prop where
  counted : s.perHost.total+s.totals.infErr+infHolds s.inf = s.infSeen
  split : s.infSess.submitted.length+owed c.nTiles s.seg+c.nTiles*s.totals.segErr = c.nTiles*s.segSeen
  fan : ∀ imageId tile, s.seg = .tiles imageId tile → tile ≤ c.nTiles
  errs : s.totals.segErr+segHolds s.seg ≤ s.segSeen

theorem initial_tallied (c : Config) : Tallied c (start c) := by
  refine ⟨rfl,rfl,?_,Nat.le_refl 0⟩
  intro imageId tile pc
  cases pc

theorem got_holds (got : GotStep c s imageId ok next) : infHolds next.inf = 0 := by cases got <;> rfl

theorem finish_counters (ran : FinishStep c s at_ after flow) : after.perHost = s.perHost ∧
    (after.totals.infErr = s.totals.infErr ∧ after.totals.segErr = s.totals.segErr) ∧
    after.totals.boxes = s.totals.boxes ∧ after.classes = s.classes ∧ after.dump = s.dump := by
  cases ran with
  | mark | unknown =>
    rw [countFinished_eq]
    exact ⟨rfl,⟨rfl,rfl⟩,rfl,rfl,rfl⟩
  | _ => exact ⟨rfl,⟨rfl,rfl⟩,rfl,rfl,rfl⟩

theorem finish_raises (ran : FinishStep c s at_ after flow) : flow ≠ .raised .keyError := by
  cases ran <;> simp

theorem infAfter_holds (raised : flow ≠ .raised .keyError) : infHolds (infAfter flow) = 0 := by
  cases flow with
  | raised error =>
    cases error with
    | keyError => exact absurd rfl raised
    | _ => rfl
  | _ => rfl

theorem step_tiles_counted (counted : s.perHost.total+s.totals.infErr+infHolds s.inf = s.infSeen)
    (step : Step c s action next) : next.perHost.total+next.totals.infErr+infHolds next.inf = next.infSeen := by
  cases step with
  | infFetch pc more got =>
    rw [pc] at counted
    simp only [infHolds] at counted ⊢
    omega
  | infExit pc all | infNoHost pc good missing | stitchSend pc =>
    rw [pc] at counted
    exact counted
  | infOk pc good named got =>
    have idle := got_holds got
    obtain ⟨frames,later,rfl⟩ := got_only got
    rw [pc] at counted
    simp only [countTile,countTask,Counter.total_add,infHolds] at counted idle ⊢
    omega
  | infFailed pc bad got =>
    have idle := got_holds got
    obtain ⟨frames,later,rfl⟩ := got_only got
    rw [pc] at counted
    simp only [countErr,countTask,infHolds] at counted idle ⊢
    omega
  | infFinish pc ran =>
    obtain ⟨hosts,errors,_⟩ := finish_counters ran
    have idle := infAfter_holds (finish_raises ran)
    rw [pc] at counted
    simp only [hosts,errors.1,(finish_lanes ran).seen.2,idle]
    exact counted
  | segFinish pc ran | stitchFinish pc ran =>
    obtain ⟨hosts,errors,_⟩ := finish_counters ran
    have lanes := finish_lanes ran
    simpa only [hosts,errors.1,lanes.inf,lanes.seen.2] using counted
  | _ => exact counted

-- A segment output becomes n_tiles inference tasks, sent or owed, or one error.
theorem step_split (tallied : Tallied c s) (step : Step c s action next) :
    next.infSess.submitted.length+owed c.nTiles next.seg+c.nTiles*next.totals.segErr = c.nTiles*next.segSeen ∧
      (∀ imageId tile, next.seg = .tiles imageId tile → tile ≤ c.nTiles) ∧
      next.totals.segErr+segHolds next.seg ≤ next.segSeen := by
  obtain ⟨_,split,fan,errs⟩ := tallied
  cases step with
  | segFetch pc more got =>
    rw [pc] at split errs
    simp only [owed,segHolds,Nat.mul_add] at split errs ⊢
    exact ⟨by omega,by simp,by omega⟩
  | segExit pc all =>
    rw [pc] at split errs
    exact ⟨split,by simp,errs⟩
  | segFailed pc bad =>
    rw [pc] at split errs
    simp only [owed,segHolds,Nat.mul_add] at split errs ⊢
    exact ⟨by omega,by simp,by omega⟩
  | segSplit pc good =>
    rw [pc] at split errs
    refine ⟨split,?_,Nat.le_of_succ_le errs⟩
    intro imageId tile same
    cases same
    exact Nat.zero_le _
  | tileSend pc more =>
    rw [pc] at split errs
    refine ⟨?_,?_,errs⟩
    · simp only [owed,Session.send,List.length_cons] at split ⊢
      omega
    · intro imageId tile same
      cases same
      exact more
  | tilesSent pc all =>
    rw [pc] at split errs
    refine ⟨?_,by simp,errs⟩
    simp only [owed] at split ⊢
    omega
  | @segFinish at_ after flow pc ran =>
    have errors := (finish_counters ran).2.1.2
    have lanes := finish_lanes ran
    rw [pc] at split errs
    have idle : owed c.nTiles (segAfter flow) = 0 ∧ segHolds (segAfter flow) = 0 := by cases flow <;> exact ⟨rfl,rfl⟩
    simp only [lanes.infSess,errors,lanes.seen.1,idle.1,idle.2]
    exact ⟨split,by cases flow <;> simp [segAfter],errs⟩
  | infFetch pc more got =>
    simp only [(fetch_parts got).2.1]
    exact ⟨split,fan,errs⟩
  | infOk pc good named got | infFailed pc bad got =>
    obtain ⟨_,_,rfl⟩ := got_only got
    exact ⟨split,fan,errs⟩
  | infFinish pc ran | stitchFinish pc ran =>
    have errors := (finish_counters ran).2.1.2
    have lanes := finish_lanes ran
    simp only [lanes.infSess,errors,lanes.seen.1,lanes.seg]
    exact ⟨split,fan,errs⟩
  | _ => exact ⟨split,fan,errs⟩

theorem step_tallied (tallied : Tallied c s) (step : Step c s action next) : Tallied c next := by
  obtain ⟨split,fan,errs⟩ := step_split tallied step
  exact ⟨step_tiles_counted tallied.counted step,split,fan,errs⟩

-- Every frame keeps the sample it was read from.
def Sampled (c : Config) (s : State) : Prop := ∀ i frame, s.imgState i = some frame → frame.sample = c.sample i

theorem finish_sampled (ran : FinishStep c s at_ after flow) (sampled : Sampled c s) : Sampled c after := by
  cases ran with
  | @mark i frame failed known undone =>
    rw [countFinished_eq]
    intro j other found
    simp only [State.setFrame] at found
    split at found
    · cases found
      subst j
      exact sampled i frame known
    · exact sampled j other found
  | unknown => rw [countFinished_eq]; exact sampled
  | _ => exact sampled

theorem got_sampled (got : GotStep c s imageId ok next) (sampled : Sampled c s) : Sampled c next := by
  cases got with
  | unknown => exact sampled
  | counted known | failed known | ready known =>
    intro j other found
    simp only [State.setFrame] at found
    split at found
    · cases found
      subst j
      have same := sampled _ _ known
      exact same
    · exact sampled j other found

theorem step_sampled (sampled : Sampled c s) (step : Step c s action next) : Sampled c next := by
  cases step with
  | @register i pc =>
    intro j frame found
    simp only [State.setFrame] at found
    split at found
    · cases found
      subst j
      rfl
    · exact sampled j frame found
  | segFinish pc ran | infFinish pc ran | stitchFinish pc ran =>
    have kept := finish_sampled ran sampled
    exact kept
  | infOk pc good named got | infFailed pc bad got =>
    exact got_sampled got sampled
  | _ => exact sampled

-- Every stitch task is fetched or still out, once.
def Answered (s : State) : Prop :=
  (s.stitchSess.fetched.map (·.task) ++ s.stitchSess.pending).Perm s.stitchSess.submitted

theorem step_answered (answered : Answered s) (step : Step c s action next) (once : action.once) : Answered next := by
  unfold Answered at answered ⊢
  cases step with
  | segFinish pc ran | infFinish pc ran | stitchFinish pc ran => rw [(finish_lanes ran).stitchSess]; exact answered
  | infOk pc good named got | infFailed pc bad got =>
    obtain ⟨_,_,rfl⟩ := got_only got
    exact answered
  | stitchSend pc =>
    simp only [Session.send]
    exact List.perm_middle.trans (answered.cons _)
  | @stitchFetch out again session pc got =>
    obtain ⟨member,pending⟩ := fetch_once got once
    obtain ⟨_,submitted,fetched,_⟩ := fetch_parts got
    simp only [submitted,fetched,pending,List.map_cons,List.cons_append]
    refine List.Perm.trans ?_ answered
    exact List.perm_middle.symm.trans ((List.perm_cons_erase member).symm.append_left _)
  | _ => exact answered

-- Frames that seg_fetch and inf_fetch finish have failed.
structure Fails (s : State) : Prop where
  seg : ∀ imageId failed, s.seg = .finish (.enter imageId failed) → failed = true
  inf : ∀ imageId failed, s.inf = .finish (.enter imageId failed) → failed = true

theorem finish_enters (ran : FinishStep c s at_ after flow) : flow ≠ .next (.enter imageId failed) := by
  cases ran <;> simp

theorem got_fails (got : GotStep c s imageId ok next) :
    ∀ other failed, next.inf = .finish (.enter other failed) → failed = true := by
  cases got with
  | failed => intro other failed pc; cases pc; rfl
  | _ => intro other failed pc; cases pc

theorem step_fails (fails : Fails s) (step : Step c s action next) : Fails next := by
  obtain ⟨seg,inf⟩ := fails
  cases step with
  | segFailed pc bad => exact ⟨fun imageId failed same => by cases same; rfl,inf⟩
  | @segFinish at_ after flow pc ran =>
    refine ⟨fun imageId failed same => ?_,by simpa only [(finish_lanes ran).inf] using inf⟩
    cases flow with
    | next at_ => cases same; exact absurd rfl (finish_enters ran)
    | returned | raised => cases same
  | @infFinish at_ after flow pc ran =>
    refine ⟨by simpa only [(finish_lanes ran).seg] using seg,fun imageId failed same => ?_⟩
    cases flow with
    | next at_ => cases same; exact absurd rfl (finish_enters ran)
    | returned | raised => cases same
  | stitchFinish pc ran =>
    exact ⟨by simpa only [(finish_lanes ran).seg] using seg,by simpa only [(finish_lanes ran).inf] using inf⟩
  | infOk pc good named got | infFailed pc bad got =>
    have fails := got_fails got
    obtain ⟨_,_,rfl⟩ := got_only got
    exact ⟨seg,fails⟩
  | _ => exact ⟨by first | exact seg | simp,by first | exact inf | simp⟩

def handled (s : State) : List (Out Nat) :=
  match s.stitch with
  | .received _ => s.stitchSess.fetched.tail
  | _ => s.stitchSess.fetched

def stitched (s : State) : List (Out Nat) := ((handled s).filter Out.good).reverse

def recordFor (c : Config) (out : Out Nat) : Record :=
  ⟨some (c.sample out.task),(reply out).boxes,(reply out).scores,(reply out).labels,(reply out).truncated⟩

def boxCount (out : Out Nat) : Nat := ((reply out).boxes.getD []).length

-- What stitch_fetch has counted in its locked block and not yet written, or
-- not yet finished.
def unwritten : StitchPc → List Record
  | .dump record _ => [record]
  | _ => []

def uncounted : StitchPc → Nat
  | .dump _ _ => 1
  | .finish (.enter _ false) => 1
  | _ => 0

theorem handled_all (idle : ∀ out, s.stitch ≠ .received out) : handled s = s.stitchSess.fetched := by
  unfold handled
  split
  · exact absurd ‹_› (idle _)
  · rfl

-- The output in hand is the last one fetched.
def Logged (s : State) : Prop := ∀ out, s.stitch = .received out → s.stitchSess.fetched = out :: handled s

-- The totals and the dump against the ok outputs handled.
structure Recorded (c : Config) (s : State) : Prop where
  log : Logged s
  dump : s.dump ++ unwritten s.stitch = if c.dumps then (stitched s).map (recordFor c) else []
  boxes : s.totals.boxes = ((stitched s).map boxCount).sum
  classes : ∀ key, s.classes.get key = ((stitched s).map fun out => rowsOf (reply out).classHist key).sum

structure Stitches (c : Config) (s : State) : Prop extends Recorded c s where
  images : s.totals.imgDone+uncounted s.stitch = s.totals.imgErr+(stitched s).length

theorem initial_recorded (c : Config) : Recorded c (start c) := by
  refine ⟨?_,?_,rfl,fun _ => rfl⟩
  · intro out pc
    cases pc
  · cases c.dumps <;> rfl

theorem initial_stitches (c : Config) : Stitches c (start c) := ⟨initial_recorded c,rfl⟩

def gains (s : State) : Action → List (Out Nat)
  | .stitchNext =>
    match s.stitch with
    | .received out => if out.good then [out] else []
    | _ => []
  | _ => []

theorem gains_mem (member : out ∈ gains s action) : s.stitch = .received out ∧ out.good = true := by
  unfold gains at member
  split at member
  · split at member
    · split at member
      · rw [List.mem_singleton.mp member]
        exact ⟨‹_›,‹_›⟩
      · cases member
    · cases member
  · cases member

theorem gains_received (pc : s.stitch = .received out) : gains s .stitchNext = if out.good then [out] else [] := by
  simp only [gains,pc]

theorem gains_idle (idle : ∀ out, s.stitch ≠ .received out) (action : Action) : gains s action = [] :=
  List.eq_nil_iff_forall_not_mem.mpr fun out member => idle out (gains_mem member).1

-- What a step adds to the log and to what is counted of it.
structure Records (c : Config) (s : State) (action : Action) (next : State) : Prop where
  log : Logged next
  frames : stitched next = stitched s ++ gains s action
  written : next.dump ++ unwritten next.stitch =
    s.dump ++ unwritten s.stitch ++ if c.dumps then (gains s action).map fun out => recordOf s (reply out) else []
  boxes : next.totals.boxes = s.totals.boxes+((gains s action).map boxCount).sum
  classes : ∀ key, next.classes.get key =
    s.classes.get key+((gains s action).map fun out => rowsOf (reply out).classHist key).sum

theorem Records.of_handled (none : gains s action = []) (log : Logged next)
    (handles : (handled next).filter Out.good = (handled s).filter Out.good)
    (written : next.dump ++ unwritten next.stitch = s.dump ++ unwritten s.stitch)
    (boxes : next.totals.boxes = s.totals.boxes) (classes : next.classes = s.classes) : Records c s action next := by
  refine ⟨log,?_,?_,?_,?_⟩
  · rw [none,List.append_nil,stitched,stitched,handles]
  · rw [none,written]
    simp
  · rw [none,boxes]
    rfl
  · intro key
    rw [none,classes]
    rfl

theorem Records.of_same (none : gains s action = []) (log : Logged s) (stitch : next.stitch = s.stitch)
    (fetched : next.stitchSess.fetched = s.stitchSess.fetched) (dump : next.dump = s.dump)
    (boxes : next.totals.boxes = s.totals.boxes) (classes : next.classes = s.classes) : Records c s action next := by
  have handles : handled next = handled s := by simp only [handled,stitch,fetched]
  refine .of_handled none ?_ (by rw [handles]) (by rw [dump,stitch]) boxes classes
  unfold Logged
  rw [stitch,fetched,handles]
  exact log

theorem Records.push (log : Logged s) (pc : s.stitch = .received out) (good : out.good = true)
    (loop : ∀ other, next.stitch ≠ .received other) (fetched : next.stitchSess.fetched = s.stitchSess.fetched)
    (written : next.dump ++ unwritten next.stitch = s.dump ++ if c.dumps then [recordOf s (reply out)] else [])
    (boxes : next.totals.boxes = s.totals.boxes+boxCount out)
    (classes : next.classes = s.classes.addAll (reply out).classHist) : Records c s .stitchNext next := by
  have taken : gains s .stitchNext = [out] := by rw [gains_received pc,good,if_pos rfl]
  have handles : handled next = out :: handled s := by
    rw [← log out pc,← fetched]
    exact handled_all loop
  refine ⟨fun other same => absurd same (loop other),?_,?_,?_,?_⟩
  · simp only [taken,stitched,handles,List.filter_cons,good,if_true,List.reverse_cons]
  · rw [taken,written,pc]
    simp [unwritten]
  · rw [taken,boxes]
    simp
  · intro key
    rw [taken,classes,Counter.get_addAll]
    simp

theorem stitchAfter_idle (ran : FinishStep c s at_ after flow) :
    (∀ out, stitchAfter flow ≠ .received out) ∧ unwritten (stitchAfter flow) = [] ∧ uncounted (stitchAfter flow) = 0 := by
  cases flow with
  | next at_ =>
    refine ⟨by simp [stitchAfter],rfl,?_⟩
    cases at_ with
    | enter imageId failed => exact absurd rfl (finish_enters ran)
    | remove | release => rfl
  | returned | raised => exact ⟨by simp [stitchAfter],rfl,rfl⟩

theorem step_records (log : Logged s) (step : Step c s action next) : Records c s action next := by
  cases step with
  | segFinish pc ran | infFinish pc ran =>
    have lanes := finish_lanes ran
    obtain ⟨_,_,boxes,classes,dump⟩ := finish_counters ran
    exact .of_same rfl log lanes.stitch (by rw [lanes.stitchSess]) dump boxes classes
  | infOk pc good named got | infFailed pc bad got =>
    obtain ⟨_,_,rfl⟩ := got_only got
    exact .of_same rfl log rfl rfl rfl rfl rfl
  | @stitchFetch out again session pc got =>
    have fetched := (fetch_parts got).2.2.1
    have before : handled s = s.stitchSess.fetched := handled_all (by simp [pc])
    have later : handled {s with stitchSess := session,stitch := .received out} = handled s := by
      rw [before]
      simp [handled,fetched]
    refine .of_handled rfl ?_ (by rw [later]) (by simp [unwritten,pc]) rfl rfl
    intro other same
    cases same
    rw [later,before]
    exact fetched
  | stitchPoll pc running | stitchExit pc ended | stitchLeave pc ended =>
    exact .of_handled (gains_idle (by simp [pc]) _) (by simp [Logged]) (by simp [handled,pc]) (by simp [unwritten,pc]) rfl rfl
  | @stitchDump out pc good dumps =>
    refine .push log pc good (by simp) rfl ?_ rfl rfl
    rw [if_pos dumps]
    rfl
  | @stitchCount out pc good dumps =>
    refine .push log pc good (by simp) rfl ?_ rfl rfl
    rw [if_neg (by simp [dumps])]
    rfl
  | @stitchFailed out pc bad =>
    have bad : out.good = false := bad
    have handles : handled {s with stitch := .finish (.enter (reply out).imageId true)} = out :: handled s := log out pc
    refine .of_handled (by rw [gains_received pc,bad]; rfl) (by simp [Logged]) ?_ (by simp [unwritten,pc]) rfl rfl
    rw [handles,List.filter_cons,bad]
    simp
  | dumped pc =>
    exact .of_handled (gains_idle (by simp [pc]) _) (by simp [Logged]) (by simp [handled,pc]) (by simp [unwritten,pc]) rfl rfl
  | @stitchFinish at_ after flow pc ran =>
    have lanes := finish_lanes ran
    obtain ⟨_,_,boxes,classes,dump⟩ := finish_counters ran
    obtain ⟨moves,written,_⟩ := stitchAfter_idle ran
    have before : handled s = s.stitchSess.fetched := handled_all (by simp [pc])
    have later : handled {after with stitch := stitchAfter flow} = after.stitchSess.fetched := handled_all moves
    refine .of_handled (gains_idle (by simp [pc]) _) (fun out same => absurd same (moves out)) ?_ ?_ boxes classes
    · rw [later,before,lanes.stitchSess]
    · rw [dump,pc]
      exact congrArg (s.dump ++ ·) written
  | _ => exact .of_same rfl log rfl rfl rfl rfl rfl

theorem step_recorded (recorded : Recorded c s) (step : Step c s action next)
    (own : ∀ out, s.stitch = .received out → out.good = true → recordOf s (reply out) = recordFor c out) :
    Recorded c next := by
  obtain ⟨log,frames,written,boxes,classes⟩ := step_records recorded.log step
  refine ⟨log,?_,?_,?_⟩
  · have records : (gains s action).map (fun out => recordOf s (reply out)) = (gains s action).map (recordFor c) :=
      List.map_congr_left fun out member => own out (gains_mem member).1 (gains_mem member).2
    rw [written,recorded.dump,frames,records]
    cases c.dumps <;> simp
  · rw [boxes,recorded.boxes,frames,List.map_append,List.sum_append]
  · intro key
    rw [classes,recorded.classes,frames,List.map_append,List.sum_append]

theorem finish_images (ran : FinishStep c s at_ after flow) :
    (after.totals.imgDone = s.totals.imgDone ∧ after.totals.imgErr = s.totals.imgErr ∧
      ∀ imageId failed, at_ = .enter imageId failed → ∃ i frame, imageId = some i ∧ s.imgState i = some frame ∧
        frame.done = true) ∨
    ∃ imageId failed, at_ = .enter imageId failed ∧ after.totals.imgDone = s.totals.imgDone+1 ∧
      after.totals.imgErr = s.totals.imgErr+failed.toNat := by
  cases ran with
  | again known done => exact .inl ⟨rfl,rfl,fun imageId failed same => by cases same; exact ⟨_,_,rfl,known,done⟩⟩
  | @mark i frame failed known undone =>
    refine .inr ⟨_,_,rfl,?_⟩
    rw [countFinished_eq]
    cases failed <;> exact ⟨rfl,rfl⟩
  | @unknown imageId failed missing =>
    refine .inr ⟨_,_,rfl,?_⟩
    rw [countFinished_eq]
    cases failed <;> exact ⟨rfl,rfl⟩
  | _ => exact .inl ⟨rfl,rfl,fun imageId failed same => by cases same⟩

theorem finish_balance (ran : FinishStep c s at_ after flow)
    (failed : ∀ imageId flag, at_ = .enter imageId flag → flag = true) :
    after.totals.imgDone+s.totals.imgErr = s.totals.imgDone+after.totals.imgErr := by
  rcases finish_images ran with ⟨done,err,_⟩ | ⟨imageId,flag,enters,done,err⟩
  · rw [done,err]
  · have flagged := failed imageId flag enters
    subst flagged
    simp only [Bool.toNat_true] at err
    omega

theorem good_reply {out : Out Task} (honest : Honest out imageId) (good : out.good = true) :
    (reply out).imageId = imageId := by
  unfold Out.good at good
  cases successful : out.isSuccessful with
  | false => simp [successful] at good
  | true =>
    cases parsed : out.text with
    | none => simp [reply,successful,parsed] at good
    | some text =>
      have named := honest text successful parsed
      simpa [reply,successful,parsed] using named

theorem record_own (lives : Lives false c s) (sampled : Sampled c s) (pc : s.stitch = .received out)
    (good : out.good = true) : recordOf s (reply out) = recordFor c out := by
  have named : (reply out).imageId = some out.task := good_reply (by simpa using lives.held.stitch out pc) good
  obtain ⟨stage,_,_,view⟩ := lives.staged out.task
  have stitch : stitchAt out.task s.stitch = (stage.tally c.nTiles).stitch := congrArg Tally.stitch view
  obtain ⟨_,_,rfl⟩ := Stage.of_stitchReceived (stitch.symm.trans (by simp [pc,stitchAt]))
  have data : (core s out.task).data = some _ := congrArg (fun view => view.core.data) view
  obtain ⟨frame,known,_⟩ := Option.map_eq_some_iff.mp data
  simp [recordOf,recordFor,named,State.frame,known,sampled out.task frame known]

-- img_done moves with a frame's _finish, img_err when it failed, and the frame
-- of an ok output is counted once.
theorem step_images (lives : Lives false c s) (fails : Fails s) (step : Step c s action next) :
    next.totals.imgDone+uncounted next.stitch+s.totals.imgErr =
      s.totals.imgDone+uncounted s.stitch+next.totals.imgErr+(gains s action).length := by
  cases step with
  | segFinish pc ran =>
    have balance := finish_balance ran fun imageId failed same => fails.seg imageId failed (by rw [pc,same])
    simp only [(finish_lanes ran).stitch,gains,List.length_nil]
    omega
  | infFinish pc ran =>
    have balance := finish_balance ran fun imageId failed same => fails.inf imageId failed (by rw [pc,same])
    simp only [(finish_lanes ran).stitch,gains,List.length_nil]
    omega
  | infOk pc good named got | infFailed pc bad got =>
    obtain ⟨_,_,rfl⟩ := got_only got
    rfl
  | stitchFetch pc got => simp [uncounted,pc,gains]
  | stitchPoll pc running | stitchExit pc ended | stitchLeave pc ended => simp [uncounted,pc,gains]
  | stitchDump pc good dumps | stitchCount pc good dumps =>
    have good : Out.good _ = true := good
    simp only [gains_received pc,good,if_true,pc,uncounted,recordReply,List.length_singleton]
    omega
  | stitchFailed pc bad =>
    have bad : Out.good _ = false := bad
    simp [gains_received pc,bad,pc,uncounted]
  | dumped pc => simp [uncounted,pc,gains]
  | @stitchFinish at_ after flow pc ran =>
    have counts := (stitchAfter_idle ran).2.2
    simp only [counts,pc,gains,List.length_nil]
    rcases finish_images ran with ⟨done,err,marked⟩ | ⟨imageId,failed,rfl,done,err⟩
    · -- Under one output a task no frame is finished twice.
      have outside : uncounted (.finish at_) = 0 := by
        cases at_ with
        | enter imageId failed =>
          obtain ⟨i,frame,rfl,known,done⟩ := marked imageId failed rfl
          obtain ⟨_,_,_,data⟩ := lives.staged.undone (i:=i) (.inr (.inr (by simp [pc,stitchAt,Finish.on])))
          simp [core,known,done] at data
        | remove | release => rfl
      rw [done,err,outside]
      omega
    · rw [done,err]
      cases failed with
      | true => simp only [uncounted,Bool.toNat_true]; omega
      | false => simp only [uncounted,Bool.toNat_false]; omega
  | _ => rfl

theorem step_stitches (lives : Lives false c s) (sampled : Sampled c s) (fails : Fails s) (stitches : Stitches c s)
    (step : Step c s action next) : Stitches c next := by
  refine ⟨step_recorded stitches.toRecorded step fun out pc good => record_own lives sampled pc good,?_⟩
  have moved := step_images lives fails step
  have before := stitches.images
  rw [(step_records stitches.log step).frames,List.length_append]
  omega

theorem named_some (named : Named true c s) {imageId : Option Nat} (member : imageId ∈ ids s) : ∃ i, imageId = some i := by
  have admitted := named imageId member
  cases imageId with
  | none => simp [Admitted] at admitted
  | some i => exact ⟨i,rfl⟩

def Crashes (c : Config) (s : State) : Prop := s.inf = .crashed .keyError → ∃ i, IsDoomed c.nTiles (tally s i)

theorem step_crashes (lives : Lives false c s) (named : Named true c s) (crashes : Crashes c s)
    (step : Step c s action next) (delivers : Delivers false action) : Crashes c next := by
  intro ended
  by_cases already : s.inf = .crashed .keyError
  · obtain ⟨i,doomed⟩ := crashes already
    have later := step_lives lives step delivers
    rcases step_moves lives later.sound.room step delivers i with same | move
    · exact ⟨i,by rw [same]; exact doomed⟩
    · exact ⟨i,move.doomed doomed⟩
  · cases step with
    | @infNoHost out pc good missing =>
      obtain ⟨i,carried⟩ := named_some named (show (reply out).imageId ∈ ids s by simp [ids,pc,infCarries])
      have own : (reply out).imageId = out.task.imageId := good_reply (by simpa using (lives.held.inf out pc).1) good
      have task : out.task.imageId = some i := own.symm.trans carried
      obtain ⟨stage,valid,_,view⟩ := lives.staged i
      have inf : infAt i s.inf = (stage.tally c.nTiles).inf := congrArg Tally.inf view
      obtain ⟨fanning,sent,queued,got,err,rfl⟩ := Stage.of_infReceived (inf.symm.trans (by simp [pc,infAt,task]))
      have moved : tally {countTask s with inf := .crashed .keyError} i = {tally s i with inf := .away} := rfl
      simp only [Stage.Valid,Bool.toNat_true] at valid
      exact ⟨i,.inferring fanning sent queued false got err,
        .inferring (by simp only [Bool.toNat_false]; omega) valid.2.1 valid.2.2.1 valid.2.2.2,
        by rw [moved,view]; rfl⟩
    | @infFinish at_ after flow pc ran =>
      have raised := finish_raises ran
      cases flow <;> simp_all [infAfter]
    | segFinish pc ran | stitchFinish pc ran => exact absurd ((finish_lanes ran).inf.symm.trans ended) already
    | infOk pc good host got | infFailed pc bad got => exact absurd ended (got_running got _)
    | infFetch | infExit | stitchSend => cases ended
    | _ => exact absurd ended already

theorem Lives.all_marked (lives : Lives strict c s) (all : ∀ i < c.count, isDone s i) (i : Nat) :
    (tally s i).core.data ≠ some (got,err,dispatched,false) := by
  intro data
  obtain ⟨frame,known,undone⟩ := Option.map_eq_some_iff.mp data
  have below := (lives.sound.slots.2.2.1 i).mp ⟨frame,known⟩
  have taken := registered_acquired (c:=c) s.submitter
  have range := acquired_count lives.sound.slots.2.1
  obtain ⟨other,found,done⟩ := all i (by omega)
  rw [known] at found
  cases found
  simp [done] at undone

-- Nothing of the frame is queued, and no thread holds an output of it.
structure Settled (n : Nat) (view : Tally) : Prop where
  sending : view.sending ≠ true
  segQueue : ¬0 < view.segQueue
  seg : view.seg ≠ .received
  tiles : ∀ tile, view.seg = .tiles tile → tile = n
  infQueue : ¬0 < view.infQueue
  inf : view.inf ≠ .received
  stitch : view.stitch ≠ .received
  dump : view.stitch ≠ .dump
  enter : view.stitch ≠ .finish .enter

theorem Stage.settled {stage : Stage}
    (marked : ∀ got err dispatched, (stage.tally n).core.data ≠ some (got,err,dispatched,false)) :
    Settled n (stage.tally n) where
  sending pc := by obtain rfl := Stage.of_sending pc; exact marked _ _ _ rfl
  segQueue waiting := by obtain rfl := Stage.of_segQueue waiting; exact marked _ _ _ rfl
  seg pc := by obtain rfl := Stage.of_segReceived pc; exact marked _ _ _ rfl
  tiles tile pc := by
    rcases Stage.of_tiles pc with ⟨_,_,_,_,rfl⟩ | ⟨full,_⟩
    · exact absurd rfl (marked _ _ _)
    · exact full
  infQueue waiting := by obtain ⟨_,_,_,_,_,_,rfl⟩ := Stage.of_infQueue waiting; exact marked _ _ _ rfl
  inf pc := by obtain ⟨_,_,_,_,_,rfl⟩ := Stage.of_infReceived pc; exact marked _ _ _ rfl
  stitch pc := by obtain ⟨_,_,rfl⟩ := Stage.of_stitchReceived pc; exact marked _ _ _ rfl
  dump pc := by obtain ⟨_,_,rfl⟩ := Stage.of_dump pc; exact marked _ _ _ rfl
  enter pc := by obtain ⟨_,_,rfl⟩ := Stage.of_stitchFinish pc; exact marked _ _ _ rfl

theorem Lives.settled (lives : Lives strict c s) (all : ∀ i < c.count, isDone s i) (i : Nat) :
    Settled c.nTiles (tally s i) := by
  obtain ⟨stage,_,_,view⟩ := lives.staged i
  have marked : ∀ got err dispatched, (tally s i).core.data ≠ some (got,err,dispatched,false) :=
    fun _ _ _ => lives.all_marked all i
  rw [view] at marked ⊢
  exact Stage.settled marked

theorem Lives.seg_rest (lives : Lives false c s) (named : Named true c s) (all : ∀ i < c.count, isDone s i) :
    owed c.nTiles s.seg = 0 := by
  cases pc : s.seg with
  | received out => exact absurd (by simp [tally,pc,segAt]) (lives.settled all out.task).seg
  | tiles imageId tile =>
    obtain ⟨i,rfl⟩ := named_some named (show imageId ∈ ids s by simp [ids,pc,segCarries])
    have full := (lives.settled all i).tiles tile (by simp [tally,pc,segAt])
    rw [owed,full,Nat.sub_self]
  | _ => rfl

theorem Lives.inf_rest (lives : Lives false c s) (named : Named true c s) (crashes : Crashes c s)
    (all : ∀ i < c.count, isDone s i) : infHolds s.inf = 0 := by
  cases pc : s.inf with
  | received out =>
    obtain ⟨i,carried⟩ := named_some named (show (reply out).imageId ∈ ids s by simp [ids,pc,infCarries])
    have own := honest_reply (show Honest out out.task.imageId by simpa using (lives.held.inf out pc).1)
    have task : out.task.imageId = some i := by
      rcases own with own | lost
      · exact own.symm.trans carried
      · rw [lost] at carried; cases carried
    exact absurd (by simp [tally,pc,infAt,task]) (lives.settled all i).inf
  | crashed error =>
    cases error with
    | keyError =>
      obtain ⟨i,doomed⟩ := crashes pc
      obtain ⟨⟨_,_,_,data⟩,_⟩ := doomed_data doomed
      exact absurd data (lives.all_marked all i)
    | _ => rfl
  | _ => rfl

theorem Lives.stitch_rest (lives : Lives false c s) (named : Named true c s) (all : ∀ i < c.count, isDone s i) :
    uncounted s.stitch = 0 ∧ unwritten s.stitch = [] := by
  cases pc : s.stitch with
  | dump record imageId =>
    obtain ⟨i,rfl⟩ := named_some named (show imageId ∈ ids s by simp [ids,pc,stitchCarries])
    exact absurd (by simp [tally,pc,stitchAt]) (lives.settled all i).dump
  | finish at_ =>
    cases at_ with
    | enter imageId failed =>
      obtain ⟨i,rfl⟩ := named_some named (show imageId ∈ ids s by simp [ids,pc,stitchCarries,Finish.carries])
      exact absurd (by simp [tally,pc,stitchAt,Finish.on]) (lives.settled all i).enter
    | remove | release => exact ⟨rfl,rfl⟩
  | _ => exact ⟨rfl,rfl⟩

theorem Lives.all_sent (lives : Lives false c s) (all : ∀ i < c.count, isDone s i) : segSent c s.submitter = c.count := by
  obtain ⟨_,range,born,_⟩ := lives.sound.slots
  have entered : ∀ i < c.count, i < registered c s.submitter := by
    intro i below
    obtain ⟨frame,known,_⟩ := all i below
    exact (born i).mp ⟨frame,known⟩
  cases pc : s.submitter with
  | acquire i =>
    rw [pc] at range entered
    simp only [InRange] at range
    rcases Nat.lt_or_ge i c.count with less | full
    · exact absurd (entered i less) (Nat.lt_irrefl i)
    · exact Nat.le_antisymm range full
  | register i =>
    rw [pc] at range entered
    exact absurd (entered i range) (Nat.lt_irrefl i)
  | send i => exact absurd (by simp [tally,pc]) (lives.settled all i).sending
  | exited => rfl

structure AtRest (c : Config) (s : State) : Prop where
  seg : owed c.nTiles s.seg = 0
  inf : infHolds s.inf = 0
  stitch : uncounted s.stitch = 0 ∧ unwritten s.stitch = []
  handled : handled s = s.stitchSess.fetched
  segSeen : s.segSeen = c.count
  infSeen : s.infSeen = s.infSess.submitted.length

theorem Lives.at_rest (lives : Lives false c s) (named : Named true c s) (seen : Seen c s) (crashes : Crashes c s)
    (all : ∀ i < c.count, isDone s i) : AtRest c s where
  seg := lives.seg_rest named all
  inf := lives.inf_rest named crashes all
  stitch := lives.stitch_rest named all
  handled := handled_all fun out pc =>
    (lives.settled all out.task).stitch (by simp [tally,pc,stitchAt])
  segSeen := by
    have sent := seen.seg
    have none : s.segSess.pending = [] := List.eq_nil_iff_forall_not_mem.mpr fun i member =>
      (lives.settled all i).segQueue (List.count_pos_iff.mpr member)
    rw [none,List.length_nil,Nat.add_zero] at sent
    exact sent.trans (lives.all_sent all)
  infSeen := by
    have sent := seen.inf
    have none : s.infSess.pending = [] := by
      refine List.eq_nil_iff_forall_not_mem.mpr fun task member => ?_
      obtain ⟨i,same⟩ := named_some named (show task.imageId ∈ ids s by
        simp only [ids,List.mem_append,List.mem_map]
        exact .inl (.inl (.inr ⟨task,.inr member,rfl⟩)))
      exact (lives.settled all i).infQueue (tilesOf_pos member same)
    simpa [none] using sent

structure Accounts (c : Config) (s : State) : Prop where
  named : Named true c s
  counted : Counted s
  lives : Lives false c s
  seen : Seen c s
  crashes : Crashes c s
  tallied : Tallied c s
  sampled : Sampled c s
  answered : Answered s
  fails : Fails s
  stitches : Stitches c s

theorem initial_accounts (c : Config) : Accounts c (start c) where
  named := (initial_sound true c).named
  counted := rfl
  lives := initial_lives false c
  seen := initial_seen c
  crashes := by intro pc; cases pc
  tallied := initial_tallied c
  sampled := by intro i frame known; cases known
  answered := .refl _
  fails := ⟨(by intro imageId failed pc; cases pc),by intro imageId failed pc; cases pc⟩
  stitches := initial_stitches c

theorem step_accounts (accounts : Accounts c s) (step : Step c s action next) (answers : Answers s action) :
    Accounts c next := by
  obtain ⟨named,counted,lives,seen,crashes,tallied,sampled,answered,fails,stitches⟩ := accounts
  have delivers := answers.delivers
  have later := step_lives lives step delivers
  have range := lives.sound.slots.2.1
  exact {
    named := step_named range named step (show action.replies true from answers.2)
    counted := step_counted lives.sound.slots named later.sound.room counted step
    lives := later
    seen := step_seen range seen step answers.1
    crashes := step_crashes lives named crashes step delivers
    tallied := step_tallied tallied step
    sampled := step_sampled sampled step
    answered := step_answered answered step answers.1
    fails := step_fails fails step
    stitches := step_stitches lives sampled fails stitches step}

theorem reached_accounts (path : Runs.Reached (step c) Answers (start c) s) : Accounts c s :=
  path.invariant (Accounts c) (initial_accounts c) fun _ _ _ accounts answers taken =>
    step_accounts accounts (step_sound taken) answers

-- The ok stitch outputs in the order they came, one for each frame stitched.
def stitchedFrames (s : State) : List (Out Nat) := (s.stitchSess.fetched.filter Out.good).reverse

-- A stitch task is sent once for a frame and answered once.
theorem Accounts.stitched_nodup (accounts : Accounts c s) : ((stitchedFrames s).map (·.task)).Nodup := by
  have sent : s.stitchSess.submitted.Nodup := (List.nodup_append.mp accounts.lives.sound.dispatched.1).2.1
  have fetched : (s.stitchSess.fetched.map (·.task)).Nodup :=
    (List.nodup_append.mp (accounts.answered.nodup_iff.mpr sent)).1
  rw [stitchedFrames,List.map_reverse]
  exact List.nodup_reverse.mpr (fetched.sublist (List.filter_sublist.map _))

-- A run whose img_done reached count: the frames add up, the dump has one
-- record for each frame stitched, the totals are their sums, and every tile of
-- every frame that was split is counted once.
theorem accounts_balance (path : Runs.Reached (step c) Answers (start c) s) (ended : c.count ≤ s.totals.imgDone) :
    (result s).imagesDone+(result s).imageErrors = c.count ∧
    ((stitchedFrames s).map (·.task)).Nodup ∧ (stitchedFrames s).length = (result s).imagesDone ∧
    s.dump = (if c.dumps then (stitchedFrames s).map (recordFor c) else []) ∧
    s.totals.boxes = ((stitchedFrames s).map boxCount).sum ∧
    (∀ key, (result s).classes.get key = ((stitchedFrames s).map fun out => rowsOf (reply out).classHist key).sum) ∧
    s.totals.segErr ≤ c.count ∧
    (result s).segmentsDone+s.totals.infErr = c.nTiles*(c.count-s.totals.segErr) := by
  have accounts := reached_accounts path
  have slots := accounts.lives.sound.slots
  have all := slots.all_done accounts.counted ended
  have rest := accounts.lives.at_rest accounts.named accounts.seen accounts.crashes all
  have most : s.totals.imgDone ≤ c.count := by
    have size := accounts.counted.trans slots.done_count
    rw [size]
    simpa using List.length_filter_le (isDone s ·) (List.range c.count)
  have frames : stitched s = stitchedFrames s := by rw [stitched,rest.handled,stitchedFrames]
  obtain ⟨⟨_,dump,boxes,classes⟩,images⟩ := accounts.stitches
  rw [rest.stitch.2,List.append_nil,frames] at dump
  rw [frames] at boxes classes
  rw [rest.stitch.1,frames] at images
  have counted := accounts.tallied.counted
  rw [rest.inf,rest.infSeen] at counted
  have split := accounts.tallied.split
  rw [rest.seg,rest.segSeen] at split
  have errs := accounts.tallied.errs
  rw [rest.segSeen] at errs
  refine ⟨?_,accounts.stitched_nodup,?_,dump,boxes,classes,by omega,?_⟩
  · simp only [result]
    omega
  · simp only [result]
    omega
  · simp only [result,Nat.mul_sub]
    omega

theorem accounts_balance_stitched : ∃ s, 1 ≤ s.totals.imgDone ∧
    (result s).imagesDone+(result s).imageErrors = 1 ∧ (result s).segmentsDone+s.totals.infErr = 2*(1-s.totals.segErr) := by
  obtain ⟨s,path,ended⟩ := Runs.run_witness (step (oneFrame 2)) Answers (start (oneFrame 2)) (fun _ _ => true)
    (fun s => decide (1 ≤ s.totals.imgDone)) stitchFrame (by decide) fun action member _ _ => stitchFrame_answers member
  have ended : 1 ≤ s.totals.imgDone := by simpa using ended
  obtain ⟨images,_,_,_,_,_,_,tiles⟩ := accounts_balance path ended
  exact ⟨s,ended,images,tiles⟩

end SymphonyAkida.ShardClient
