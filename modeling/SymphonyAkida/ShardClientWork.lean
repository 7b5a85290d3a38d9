import SymphonyAkida.ShardClientOrder

namespace SymphonyAkida.ShardClient
variable {Task : Type}

def Finish.work : Finish → Nat
  | .enter _ _ => 3
  | .remove _ => 2
  | .release _ => 1

-- The steps of the client that an outstanding task stands for: its fetch, what
-- is done with the output, and the tasks sent on.
def stitchTask : Nat := 7
def infTask : Nat := 10
def segTask (n : Nat) : Nat := 11*n+5

def SubmitPc.work (c : Config) : SubmitPc → Nat
  | .acquire i => (c.count-i)*(segTask c.nTiles+3)+1
  | .register i => (c.count-(i+1))*(segTask c.nTiles+3)+segTask c.nTiles+3
  | .send i => (c.count-(i+1))*(segTask c.nTiles+3)+segTask c.nTiles+2
  | .exited => 0

def SegPc.work (n : Nat) : SegPc → Nat
  | .loop => 1
  | .received _ => 11*n+5
  | .tiles _ tile => 11*(n-tile)+2
  | .finish at_ => at_.work+1
  | .exited | .crashed _ => 0

def InfPc.work : InfPc → Nat
  | .loop => 1
  | .received _ => 10
  | .stitch _ => 9
  | .finish at_ => at_.work+1
  | .exited | .crashed _ => 0

def StitchPc.work : StitchPc → Nat
  | .loop => 2
  | .fetching => 1
  | .received _ => 7
  | .dump _ _ => 6
  | .finish at_ => at_.work+2
  | .exited | .crashed _ => 0

-- An upper bound of the steps left, the watchdog's included.
def stepsLeft (c : Config) (s : State) : Nat :=
  s.submitter.work c+s.seg.work c.nTiles+s.inf.work+s.stitch.work+
    s.segSess.pending.length*segTask c.nTiles+s.infSess.pending.length*infTask+s.stitchSess.pending.length*stitchTask+
    (!s.doneEvt).toNat

theorem stepsLeft_start (c : Config) : stepsLeft c (start c) = c.count*(segTask c.nTiles+3)+6 := by
  simp [stepsLeft,start,SubmitPc.work,SegPc.work,InfPc.work,StitchPc.work]

def Flow.work : Flow → Nat
  | .next at_ => at_.work+1
  | .returned => 1
  | .raised _ => 0

theorem finish_work (ran : FinishStep c s at_ after flow) : flow.work < at_.work+1 := by
  cases ran <;> simp [Flow.work,Finish.work]

theorem segFinish_work (n : Nat) (at_ : Finish) : SegPc.work n (.finish at_) = at_.work+1 := rfl
theorem infFinish_work (at_ : Finish) : InfPc.work (.finish at_) = at_.work+1 := rfl
theorem stitchFinish_work (at_ : Finish) : StitchPc.work (.finish at_) = at_.work+2 := rfl
theorem segAfter_work (n : Nat) (flow : Flow) : (segAfter flow).work n = flow.work := by cases flow <;> rfl
theorem infAfter_work (flow : Flow) : (infAfter flow).work = flow.work := by cases flow <;> rfl
theorem stitchAfter_work (flow : Flow) : (stitchAfter flow).work ≤ flow.work+1 := by cases flow <;> simp [stitchAfter,StitchPc.work,Flow.work]

theorem finish_watch (ran : FinishStep c s at_ after flow) : (!after.doneEvt).toNat ≤ (!s.doneEvt).toNat := by
  cases set : s.doneEvt with
  | false => cases after.doneEvt <;> decide
  | true => exact Nat.le_of_eq (by rw [finish_event ran set])

theorem got_work (got : GotStep c s imageId ok next) : next.inf.work < 10 := by cases got <;> simp [InfPc.work,Finish.work]

theorem next_frame (left : i < n) : (n-i)*k = (n-(i+1))*k+k := by
  rw [show n-i = n-(i+1)+1 by omega,Nat.succ_mul]

theorem step_left (step : Step c s action next) (once : action.once) : stepsLeft c next < stepsLeft c s := by
  cases step with
  | acquire pc left free =>
    simp only [stepsLeft,pc,SubmitPc.work,next_frame left]
    omega
  | submitted pc none =>
    simp only [stepsLeft,pc,SubmitPc.work]
    omega
  | register pc =>
    simp only [stepsLeft,pc,SubmitPc.work,State.setFrame]
    omega
  | send pc =>
    simp only [stepsLeft,pc,SubmitPc.work,Session.send,List.length_cons,Nat.succ_mul]
    omega
  | segFetch pc more got =>
    have size := fetch_length got once
    simp only [stepsLeft,pc,SegPc.work,segTask,← size,Nat.succ_mul]
    omega
  | segExit pc all | segFailed pc bad | segSplit pc good | tilesSent pc all =>
    simp only [stepsLeft,pc,SegPc.work,Finish.work]
    omega
  | tileSend pc more =>
    simp only [stepsLeft,pc,SegPc.work,Session.send,List.length_cons,Nat.succ_mul,infTask]
    omega
  | segFinish pc ran =>
    have lanes := finish_lanes ran
    have less := finish_work ran
    have watch := finish_watch ran
    simp only [stepsLeft,pc,segFinish_work,segAfter_work,lanes.submitter,lanes.inf,lanes.stitch,lanes.segSess,lanes.infSess,lanes.stitchSess]
    omega
  | infFetch pc more got =>
    have size := fetch_length got once
    simp only [stepsLeft,pc,InfPc.work,infTask,← size,Nat.succ_mul]
    omega
  | infExit pc all | infNoHost pc good missing =>
    simp only [stepsLeft,pc,InfPc.work,countTask]
    omega
  | infOk pc good named got | infFailed pc bad got =>
    have less := got_work got
    obtain ⟨_,_,rfl⟩ := got_only got
    simp only [stepsLeft,pc,InfPc.work,countTile,countTask,countErr] at less ⊢
    omega
  | stitchSend pc =>
    simp only [stepsLeft,pc,InfPc.work,Session.send,List.length_cons,Nat.succ_mul,stitchTask]
    omega
  | infFinish pc ran =>
    have lanes := finish_lanes ran
    have less := finish_work ran
    have watch := finish_watch ran
    simp only [stepsLeft,pc,infFinish_work,infAfter_work,lanes.submitter,lanes.seg,lanes.stitch,lanes.segSess,lanes.infSess,lanes.stitchSess]
    omega
  | stitchFetch pc got =>
    have size := fetch_length got once
    simp only [stepsLeft,pc,StitchPc.work,stitchTask,← size,Nat.succ_mul]
    omega
  | stitchPoll pc running | stitchExit pc ended | stitchLeave pc ended | stitchDump pc good dumps | stitchCount pc good dumps | stitchFailed pc bad | dumped pc =>
    simp only [stepsLeft,pc,StitchPc.work,Finish.work,recordReply]
    omega
  | stitchFinish pc ran =>
    have lanes := finish_lanes ran
    have less := finish_work ran
    have watch := finish_watch ran
    have after := stitchAfter_work ‹Flow›
    simp only [stepsLeft,pc,stitchFinish_work,lanes.submitter,lanes.seg,lanes.inf,lanes.segSess,lanes.infSess,lanes.stitchSess]
    omega
  | stall running pending =>
    simp only [stepsLeft,running]
    simp

end SymphonyAkida.ShardClient
