import SymphonyAkida.Library.Counting
import SymphonyAkida.ShardClientSteps

namespace SymphonyAkida.ShardClient
variable {Task : Type}

-- Frames between their mark in _finish and its sem.release().
def Finish.closing : Finish → List Nat
  | .enter _ _ => []
  | .remove imageId => imageId.toList
  | .release i => [i]

def Flow.closing : Flow → List Nat
  | .next at_ => at_.closing
  | _ => []

def segClosing : SegPc → List Nat
  | .finish at_ => at_.closing
  | _ => []
def infClosing : InfPc → List Nat
  | .finish at_ => at_.closing
  | _ => []
def stitchClosing : StitchPc → List Nat
  | .finish at_ => at_.closing
  | _ => []

def closing (s : State) : List Nat := segClosing s.seg ++ infClosing s.inf ++ stitchClosing s.stitch

@[simp] theorem segAfter_closing : segClosing (segAfter flow) = flow.closing := by cases flow <;> rfl
@[simp] theorem infAfter_closing : infClosing (infAfter flow) = flow.closing := by cases flow <;> rfl
@[simp] theorem stitchAfter_closing : stitchClosing (stitchAfter flow) = flow.closing := by
  cases flow <;> rfl

def acquired (c : Config) : SubmitPc → Nat
  | .acquire i => i
  | .register i => i+1
  | .send i => i+1
  | .exited => c.count

def registered (c : Config) : SubmitPc → Nat
  | .acquire i => i
  | .register i => i
  | .send i => i+1
  | .exited => c.count

def InRange (c : Config) : SubmitPc → Prop
  | .acquire i => i ≤ c.count
  | .register i => i < c.count
  | .send i => i < c.count
  | .exited => True

theorem registered_acquired (pc : SubmitPc) : registered c pc ≤ acquired c pc := by
  cases pc <;> simp [registered,acquired]

theorem acquired_count (range : InRange c pc) : acquired c pc ≤ c.count := by
  cases pc <;> simp only [InRange,acquired] at range ⊢ <;> omega

def isDone (s : State) (i : Nat) : Prop := ∃ frame, s.imgState i = some frame ∧ frame.done = true

instance (s : State) (i : Nat) : Decidable (isDone s i) :=
  decidable_of_iff ((s.imgState i).any (·.done) = true) (by
    unfold isDone; cases s.imgState i <;> simp)

-- The semaphore against the frames: every permit taken is free again exactly
-- when its frame's _finish released it. `held` are the frames marked done
-- whose permit is not released yet.
def Slots (c : Config) (s : State) (held : List Nat) : Prop :=
  s.sem+acquired c s.submitter = c.inFlight+s.released.length ∧
  InRange c s.submitter ∧
  (∀ i, (∃ frame, s.imgState i = some frame) ↔ i < registered c s.submitter) ∧
  (held ++ s.released).Nodup ∧
  ∀ i, i ∈ held ++ s.released ↔ isDone s i

theorem initial_slots (c : Config) : Slots c (start c) (closing (start c)) := by
  simp [Slots,start,closing,segClosing,infClosing,stitchClosing,acquired,registered,InRange,isDone]

theorem Slots.perm (slots : Slots c s held) (same : held.Perm other) : Slots c s other := by
  obtain ⟨permits,range,known,distinct,done⟩ := slots
  have whole := same.append_right s.released
  exact ⟨permits,range,known,whole.nodup_iff.mp distinct,fun i => whole.mem_iff.symm.trans (done i)⟩

theorem Slots.done_registered (slots : Slots c s held) (member : i ∈ held ++ s.released) :
    i < registered c s.submitter := by
  obtain ⟨_,_,known,_,done⟩ := slots
  obtain ⟨frame,found,_⟩ := (done i).mp member
  exact (known i).mp ⟨frame,found⟩

theorem Slots.held_bound (slots : Slots c s held) : s.sem+held.length ≤ c.inFlight := by
  have below : ∀ i ∈ held ++ s.released, i < registered c s.submitter :=
    fun _ => slots.done_registered
  obtain ⟨permits,_,_,distinct,_⟩ := slots
  have size := Counting.length_le distinct below
  have taken := registered_acquired (c:=c) s.submitter
  simp only [List.length_append] at size
  omega

-- What a thread inside _finish does to the slots, whoever else is inside.
theorem finish_slots (slots : Slots c s (at_.closing ++ rest))
    (known : ∀ imageId failed, at_ = .enter imageId failed →
      ∀ i, imageId = some i → ∃ frame, s.imgState i = some frame)
    (ran : FinishStep c s at_ after flow) :
    Slots c after (flow.closing ++ rest) ∧ flow ≠ .raised .valueError := by
  have bound := slots.held_bound
  obtain ⟨permits,range,born,distinct,done⟩ := slots
  cases ran with
  | again => exact ⟨⟨permits,range,born,distinct,done⟩,by simp⟩
  | @mark i frame failed found undone =>
    refine ⟨?_,by simp⟩
    have fresh : i ∉ rest ++ s.released := by
      intro member
      obtain ⟨other,same,marked⟩ := (done i).mp member
      rw [found] at same
      cases Option.some.inj same
      simp [undone] at marked
    simp only [Slots,countFinished_eq,State.setFrame,isDone]
    refine ⟨permits,range,?_,?_,?_⟩
    · intro j
      by_cases same : j = i
      · subst j; simpa using (born i).mp ⟨frame,found⟩
      · simpa [same] using born j
    · simpa [Flow.closing,Finish.closing] using ⟨by simpa using fresh,distinct⟩
    · intro j
      by_cases same : j = i
      · subst j; simp [Flow.closing,Finish.closing]
      · simpa [Flow.closing,Finish.closing,same,isDone] using done j
  | @unknown imageId failed missing =>
    refine ⟨?_,by simp⟩
    cases imageId with
    | none =>
      simp only [Slots,countFinished_eq,isDone]
      exact ⟨permits,range,born,distinct,done⟩
    | some i =>
      obtain ⟨frame,found⟩ := known _ _ rfl i rfl
      simp [State.frame,found] at missing
  | noPath => exact ⟨⟨permits,range,born,distinct,done⟩,by simp⟩
  | remove => exact ⟨⟨permits,range,born,distinct,done⟩,by simp⟩
  | @release i room =>
    refine ⟨?_,by simp⟩
    simp only [Slots,isDone]
    have moved : (i :: (rest ++ s.released)).Perm (rest ++ i :: s.released) :=
      List.perm_middle.symm
    refine ⟨by simp only [List.length_cons]; omega,range,born,?_,?_⟩
    · exact moved.nodup_iff.mp distinct
    · intro j
      exact moved.mem_iff.symm.trans (done j)
  | full full =>
    simp only [Finish.closing,List.length_append,List.length_singleton] at bound
    omega

-- Every image id that is in a session or that a thread will still act on.
def Finish.carries : Finish → List (Option Nat)
  | .enter imageId _ => [imageId]
  | _ => []

def Flow.carries : Flow → List (Option Nat)
  | .next at_ => at_.carries
  | _ => []

def segCarries : SegPc → List (Option Nat)
  | .received out => [(reply out).imageId]
  | .tiles imageId _ => [imageId]
  | .finish at_ => at_.carries
  | _ => []
def infCarries : InfPc → List (Option Nat)
  | .received out => [(reply out).imageId]
  | .stitch i => [some i]
  | .finish at_ => at_.carries
  | _ => []
def stitchCarries : StitchPc → List (Option Nat)
  | .received out => [(reply out).imageId]
  | .dump _ imageId => [imageId]
  | .finish at_ => at_.carries
  | _ => []

def inSession (session : Session Nat) : List (Option Nat) :=
  (session.submitted ++ session.pending).map some

def ids (s : State) : List (Option Nat) :=
  inSession s.segSess ++ (s.infSess.submitted ++ s.infSess.pending).map (·.imageId) ++
    inSession s.stitchSess ++ (segCarries s.seg ++ infCarries s.inf ++ stitchCarries s.stitch)

def Action.replies (strict : Bool) (action : Action) : Prop :=
  if strict then action.readable else action.honest

theorem finish_carries (ran : FinishStep c s at_ after flow) : flow.carries = [] := by
  cases ran <;> rfl

@[simp] theorem segAfter_carries : segCarries (segAfter flow) = flow.carries := by cases flow <;> rfl
@[simp] theorem infAfter_carries : infCarries (infAfter flow) = flow.carries := by cases flow <;> rfl
@[simp] theorem stitchAfter_carries : stitchCarries (stitchAfter flow) = flow.carries := by
  cases flow <;> rfl

theorem fetch_inSession {session next : Session Nat} (got : session.fetch out again = some next) :
    some out.task ∈ inSession session ∧ ∀ id ∈ inSession next, id ∈ inSession session := by
  obtain ⟨member,submitted,_,pending⟩ := fetch_parts got
  refine ⟨by simpa [inSession] using member,?_⟩
  intro id found
  rcases pending with ⟨_,same⟩ | ⟨_,_,less⟩
  · simpa [inSession,submitted,same] using found
  · simp only [inSession,submitted,less,List.mem_map,List.mem_append] at found ⊢
    obtain ⟨i,place,rfl⟩ := found
    exact ⟨i,place.imp_right List.mem_of_mem_erase,rfl⟩

theorem fetch_inTiles {session next : Session InfTask} (got : session.fetch out again = some next) :
    out.task.imageId ∈ (session.submitted ++ session.pending).map (·.imageId) ∧
      ∀ id ∈ (next.submitted ++ next.pending).map (·.imageId),
        id ∈ (session.submitted ++ session.pending).map (·.imageId) := by
  obtain ⟨member,submitted,_,pending⟩ := fetch_parts got
  refine ⟨List.mem_map.mpr ⟨out.task,List.mem_append.mpr member,rfl⟩,?_⟩
  intro id found
  rcases pending with ⟨_,same⟩ | ⟨_,_,less⟩
  · simpa only [submitted,same] using found
  · simp only [submitted,less,List.mem_map,List.mem_append] at found ⊢
    obtain ⟨i,place,rfl⟩ := found
    exact ⟨i,place.imp_right List.mem_of_mem_erase,rfl⟩

theorem replies_carried (strict : Bool) {out : Out Task}
    (replies : if strict then Readable out imageId else Honest out imageId) :
    (reply out).imageId = imageId ∨ strict = false ∧ (reply out).imageId = none := by
  cases strict with
  | true => exact .inl (readable_reply (by simpa using replies))
  | false => exact (honest_reply (by simpa using replies)).imp_right (And.intro rfl)

theorem got_carries (got : GotStep c s imageId ok next) :
    ∀ id ∈ infCarries next.inf, id = imageId := by
  cases got <;> simp [infCarries,Finish.carries]

theorem got_only (got : GotStep c s imageId ok next) :
    ∃ frames pc, next = {s with imgState := frames,inf := pc} := by
  cases got <;> exact ⟨_,_,rfl⟩

theorem got_lanes (got : GotStep c s imageId ok next) :
    SameLanes s {next with inf := s.inf} := by
  cases got <;> exact ⟨rfl,rfl,rfl,rfl,rfl,rfl,rfl,rfl,rfl⟩

theorem got_ids (pc : s.inf = .received out) (got : GotStep c t (reply out).imageId ok next)
    (lanes : SameLanes s {t with inf := s.inf}) : ∀ id ∈ ids next, id ∈ ids s := by
  intro id member
  have from_ := got_carries got id
  have kept := got_lanes got
  have := kept.segSess; have := kept.infSess; have := kept.stitchSess
  have := kept.seg; have := kept.stitch
  have := lanes.segSess; have := lanes.infSess; have := lanes.stitchSess
  have := lanes.seg; have := lanes.stitch
  grind [ids,infCarries]

-- No thread makes an image id up: a new one comes from seg_submit, and the
-- only thing a reply can do is to lose it.
theorem step_ids (step : Step c s action next) (replies : action.replies strict) :
    ∀ id ∈ ids next, id ∈ ids s ∨ (strict = false ∧ id = none) ∨
      ∃ i, s.submitter = .send i ∧ id = some i := by
  cases step with
  | @segFetch out session again pc more got =>
    obtain ⟨task,kept⟩ := fetch_inSession got
    have carried : (reply out).imageId = some out.task ∨ _ := replies_carried strict replies
    grind [ids,segCarries]
  | @infFetch out session again pc more got =>
    obtain ⟨task,kept⟩ := fetch_inTiles got
    have carried : (reply out).imageId = out.task.imageId ∨ _ := replies_carried strict replies
    grind [ids,infCarries]
  | @stitchFetch out again session pc got =>
    obtain ⟨task,kept⟩ := fetch_inSession got
    have carried : (reply out).imageId = some out.task ∨ _ := replies_carried strict replies
    grind [ids,stitchCarries]
  | segFinish pc ran | infFinish pc ran | stitchFinish pc ran =>
    have lanes := finish_lanes ran
    have none := finish_carries ran
    intro id member
    left
    simp only [ids,lanes.segSess,lanes.infSess,lanes.stitchSess,lanes.seg,lanes.inf,lanes.stitch,
      segAfter_carries,infAfter_carries,stitchAfter_carries,none] at member ⊢
    grind
  | infOk pc good named got =>
    exact fun id member => .inl (got_ids pc got ⟨rfl,rfl,rfl,rfl,rfl,rfl,rfl,rfl,rfl⟩ id member)
  | infFailed pc bad got =>
    exact fun id member => .inl (got_ids pc got ⟨rfl,rfl,rfl,rfl,rfl,rfl,rfl,rfl,rfl⟩ id member)
  | _ => grind [ids,inSession,segCarries,infCarries,stitchCarries,Finish.carries,State.setFrame,
      Session.send,recordReply,countTask]

def Admitted (strict : Bool) (bound : Nat) : Option Nat → Prop
  | some i => i < bound
  | none => strict = false

def Named (strict : Bool) (c : Config) (s : State) : Prop :=
  ∀ id ∈ ids s, Admitted strict (registered c s.submitter) id

theorem registered_mono (range : InRange c s.submitter) (step : Step c s action next) :
    registered c s.submitter ≤ registered c next.submitter ∧ InRange c next.submitter := by
  cases step with
  | acquire pc left free => simp_all [registered,InRange]
  | submitted pc none => simp_all [registered,InRange]
  | register pc => simp_all [registered,InRange]
  | send pc => rw [pc] at range ⊢; exact ⟨Nat.le_refl _,range⟩
  | segFinish pc ran | infFinish pc ran | stitchFinish pc ran =>
    have same := (finish_lanes ran).submitter
    simpa [same] using range
  | infOk pc good named got | infFailed pc bad got =>
    have same : next.submitter = s.submitter := (got_lanes got).submitter
    simpa [same] using range
  | _ => exact ⟨Nat.le_refl _,range⟩

theorem step_named (range : InRange c s.submitter) (named : Named strict c s)
    (step : Step c s action next) (replies : action.replies strict) : Named strict c next := by
  have grows := (registered_mono range step).1
  intro id member
  rcases step_ids step replies id member with old | ⟨loose,rfl⟩ | ⟨i,pc,rfl⟩
  · have admitted := named id old
    cases id with
    | none => exact admitted
    | some i => exact Nat.lt_of_lt_of_le admitted grows
  · exact loose
  · rw [pc] at grows
    exact Nat.lt_of_lt_of_le (Nat.lt_succ_self i) grows

def NoOverRelease (s : State) : Prop :=
  s.seg ≠ .crashed .valueError ∧ s.inf ≠ .crashed .valueError ∧ s.stitch ≠ .crashed .valueError

theorem Slots.of_lanes (slots : Slots c s held) (sem : next.sem = s.sem)
    (submitter : next.submitter = s.submitter) (released : next.released = s.released)
    (born : ∀ i, (∃ frame, next.imgState i = some frame) ↔ ∃ frame, s.imgState i = some frame)
    (done : ∀ i, isDone next i ↔ isDone s i) : Slots c next held := by
  obtain ⟨permits,range,known,distinct,marked⟩ := slots
  refine ⟨by rw [sem,submitter,released]; exact permits,by rw [submitter]; exact range,?_,
    by rw [released]; exact distinct,?_⟩
  · intro i; rw [born i,submitter]; exact known i
  · intro i; rw [done i,released]; exact marked i

theorem got_slots (got : GotStep c s imageId ok next) (slots : Slots c s held) : Slots c next held := by
  cases got with
  | unknown => exact slots.of_lanes rfl rfl rfl (fun _ => Iff.rfl) (fun _ => Iff.rfl)
  | counted known | failed known | ready known =>
    refine slots.of_lanes rfl rfl rfl ?_ ?_
    all_goals
      intro j
      simp only [isDone,State.setFrame]
      split
      · subst j; simp [known]
      · rfl

theorem got_closing (got : GotStep c s imageId ok next) : infClosing next.inf = [] := by
  cases got <;> rfl

theorem got_running (got : GotStep c s imageId ok next) (error : PyError) : next.inf ≠ .crashed error := by
  cases got <;> simp

theorem closing_seg (s : State) :
    (closing s).Perm (segClosing s.seg ++ (infClosing s.inf ++ stitchClosing s.stitch)) := by
  simp [closing]
theorem closing_inf (s : State) :
    (closing s).Perm (infClosing s.inf ++ (segClosing s.seg ++ stitchClosing s.stitch)) := by
  unfold closing
  exact (List.perm_append_comm.append_right _).trans (by rw [List.append_assoc])
theorem closing_stitch (s : State) :
    (closing s).Perm (stitchClosing s.stitch ++ (segClosing s.seg ++ infClosing s.inf)) := by
  unfold closing
  exact List.perm_append_comm

theorem Slots.known (slots : Slots c s held) (named : Named strict c s)
    (member : some i ∈ ids s) : ∃ frame, s.imgState i = some frame :=
  (slots.2.2.1 i).mpr (named _ member)

-- A step inside _finish, in whichever thread: the frames it is closing, before
-- and after, beside those of the other two.
structure Closes (s next after : State) (at_ : Finish) (flow : Flow) (rest : List Nat) : Prop where
  before : (closing s).Perm (at_.closing ++ rest)
  later : (closing next).Perm (flow.closing ++ rest)
  carries : ∀ imageId failed, at_ = .enter imageId failed → imageId ∈ ids s
  sem : next.sem = after.sem
  submitter : next.submitter = after.submitter
  released : next.released = after.released
  totals : next.totals = after.totals
  imgState : next.imgState = after.imgState

theorem seg_closes (pc : s.seg = .finish at_) (ran : FinishStep c s at_ after flow) :
    Closes s {after with seg := segAfter flow} after at_ flow (infClosing after.inf ++ stitchClosing after.stitch) := by
  have lanes := finish_lanes ran
  have before := closing_seg s
  have later := closing_seg {after with seg := segAfter flow}
  rw [pc,← lanes.inf,← lanes.stitch] at before
  rw [segAfter_closing] at later
  exact ⟨before,later,fun imageId failed same => by simp [ids,pc,segCarries,same,Finish.carries],rfl,rfl,rfl,rfl,rfl⟩

theorem inf_closes (pc : s.inf = .finish at_) (ran : FinishStep c s at_ after flow) :
    Closes s {after with inf := infAfter flow} after at_ flow (segClosing after.seg ++ stitchClosing after.stitch) := by
  have lanes := finish_lanes ran
  have before := closing_inf s
  have later := closing_inf {after with inf := infAfter flow}
  rw [pc,← lanes.seg,← lanes.stitch] at before
  rw [infAfter_closing] at later
  exact ⟨before,later,fun imageId failed same => by simp [ids,pc,infCarries,same,Finish.carries],rfl,rfl,rfl,rfl,rfl⟩

theorem stitch_closes (pc : s.stitch = .finish at_) (ran : FinishStep c s at_ after flow) :
    Closes s {after with stitch := stitchAfter flow} after at_ flow (segClosing after.seg ++ infClosing after.inf) := by
  have lanes := finish_lanes ran
  have before := closing_stitch s
  have later := closing_stitch {after with stitch := stitchAfter flow}
  rw [pc,← lanes.seg,← lanes.inf] at before
  rw [stitchAfter_closing] at later
  exact ⟨before,later,fun imageId failed same => by simp [ids,pc,stitchCarries,same,Finish.carries],rfl,rfl,rfl,rfl,rfl⟩

theorem Closes.slots (closes : Closes s next after at_ flow rest) (slots : Slots c s (closing s))
    (named : Named strict c s) (ran : FinishStep c s at_ after flow) :
    Slots c next (closing next) ∧ flow ≠ .raised .valueError := by
  obtain ⟨kept,room⟩ := finish_slots (slots.perm closes.before) (fun imageId failed same i equal =>
    slots.known named (equal ▸ closes.carries imageId failed same)) ran
  have moved : Slots c next (flow.closing ++ rest) :=
    kept.of_lanes closes.sem closes.submitter closes.released (fun i => by rw [closes.imgState])
      fun i => by rw [isDone,isDone,closes.imgState]
  exact ⟨moved.perm closes.later.symm,room⟩

theorem step_slots (slots : Slots c s (closing s)) (safe : NoOverRelease s) (named : Named strict c s)
    (step : Step c s action next) : Slots c next (closing next) ∧ NoOverRelease next := by
  obtain ⟨segSafe,infSafe,stitchSafe⟩ := safe
  cases step with
  | @acquire i pc left free =>
    obtain ⟨permits,range,born,distinct,done⟩ := slots
    rw [pc] at permits range born
    refine ⟨⟨?_,left,born,distinct,done⟩,segSafe,infSafe,stitchSafe⟩
    simp only [acquired] at permits ⊢
    omega
  | @submitted i pc none =>
    obtain ⟨permits,range,born,distinct,done⟩ := slots
    rw [pc] at permits range born
    have all : i = c.count := by simp only [InRange] at range; omega
    subst all
    exact ⟨⟨permits,trivial,born,distinct,done⟩,segSafe,infSafe,stitchSafe⟩
  | @register i pc =>
    obtain ⟨permits,range,born,distinct,done⟩ := slots
    rw [pc] at permits range born
    have fresh : ¬∃ frame, s.imgState i = some frame := fun known => by
      simpa [registered] using (born i).mp known
    refine ⟨⟨permits,range,?_,distinct,?_⟩,segSafe,infSafe,stitchSafe⟩
    · intro j
      simp only [State.setFrame,registered]
      split
      · simp_all
      · rw [born j]; simp only [registered]; omega
    · intro j
      refine (done j).trans ?_
      simp only [isDone,State.setFrame]
      split
      · subst j
        simp only [Option.some.injEq,exists_eq_left',Bool.false_eq_true,iff_false]
        intro given
        obtain ⟨frame,known,_⟩ := given
        exact fresh ⟨frame,known⟩
      · rfl
  | @send i pc =>
    obtain ⟨permits,range,born,distinct,done⟩ := slots
    rw [pc] at permits range born
    exact ⟨⟨permits,range,born,distinct,done⟩,segSafe,infSafe,stitchSafe⟩
  | @segFinish at_ after flow pc ran =>
    have lanes := finish_lanes ran
    obtain ⟨kept,room⟩ := (seg_closes pc ran).slots slots named ran
    refine ⟨kept,?_,by rw [lanes.inf]; exact infSafe,by rw [lanes.stitch]; exact stitchSafe⟩
    cases flow <;> simp_all [segAfter]
  | @infFinish at_ after flow pc ran =>
    have lanes := finish_lanes ran
    obtain ⟨kept,room⟩ := (inf_closes pc ran).slots slots named ran
    refine ⟨kept,by rw [lanes.seg]; exact segSafe,?_,by rw [lanes.stitch]; exact stitchSafe⟩
    cases flow <;> simp_all [infAfter]
  | @stitchFinish at_ after flow pc ran =>
    have lanes := finish_lanes ran
    obtain ⟨kept,room⟩ := (stitch_closes pc ran).slots slots named ran
    refine ⟨kept,by rw [lanes.seg]; exact segSafe,by rw [lanes.inf]; exact infSafe,?_⟩
    cases flow <;> simp_all [stitchAfter]
  | infOk pc good host got | infFailed pc bad got =>
    have lanes := got_lanes got
    have seg : next.seg = s.seg := lanes.seg
    have stitch : next.stitch = s.stitch := lanes.stitch
    have same : closing next = closing s := by
      simp only [closing,seg,stitch,got_closing got,pc]
      rfl
    rw [same]
    refine ⟨got_slots got (slots.of_lanes rfl rfl rfl (fun _ => Iff.rfl) fun _ => Iff.rfl),?_⟩
    exact ⟨by rw [seg]; exact segSafe,got_running got _,by rw [stitch]; exact stitchSafe⟩
  | _ =>
    refine ⟨(slots.perm (.of_eq ?_)).of_lanes rfl rfl rfl (fun _ => Iff.rfl) fun _ => Iff.rfl,?_⟩
    · simp [closing,segClosing,infClosing,stitchClosing,Finish.closing,recordReply,countTask, *]
    · simp_all [NoOverRelease,recordReply,countTask]

-- img_done against the frames it has counted, while every id is known.
def Counted (s : State) : Prop := s.totals.imgDone = (closing s).length+s.released.length

theorem finish_counted (known : ∀ imageId failed, at_ = .enter imageId failed → s.frame imageId ≠ none)
    (room : flow ≠ .raised .valueError) (ran : FinishStep c s at_ after flow) :
    after.totals.imgDone+at_.closing.length+s.released.length =
      s.totals.imgDone+flow.closing.length+after.released.length := by
  cases ran with
  | unknown missing => exact absurd missing (known _ _ rfl)
  | full => exact absurd rfl room
  | mark =>
    simp only [countFinished_eq,State.setFrame,Finish.closing,Flow.closing,List.length_nil,
      Option.toList_some,List.length_singleton,Nat.add_zero]
  | release =>
    simp only [Finish.closing,Flow.closing,List.length_nil,List.length_cons]
    omega
  | _ => rfl

theorem Slots.frame_known (slots : Slots c s held) (named : Named true c s) (member : imageId ∈ ids s) :
    s.frame imageId ≠ none := by
  have admitted := named imageId member
  cases imageId with
  | none => simp [Admitted] at admitted
  | some i =>
    obtain ⟨frame,found⟩ := slots.known named member
    simp [State.frame,found]

theorem Closes.counted (closes : Closes s next after at_ flow rest) (slots : Slots c s held)
    (named : Named true c s) (room : flow ≠ .raised .valueError) (counted : Counted s)
    (ran : FinishStep c s at_ after flow) : Counted next := by
  have moved := finish_counted (fun imageId failed same =>
    slots.frame_known named (closes.carries imageId failed same)) room ran
  have before := closes.before.length_eq
  have later := closes.later.length_eq
  rw [List.length_append] at before later
  unfold Counted at counted ⊢
  rw [closes.totals,closes.released]
  omega

theorem step_counted (slots : Slots c s (closing s)) (named : Named true c s)
    (room : NoOverRelease next) (counted : Counted s) (step : Step c s action next) : Counted next := by
  unfold Counted at counted ⊢
  cases step with
  | segFinish pc ran =>
    exact (seg_closes pc ran).counted slots named (fun full => room.1 (by simp [full,segAfter])) counted ran
  | infFinish pc ran =>
    exact (inf_closes pc ran).counted slots named (fun full => room.2.1 (by simp [full,infAfter])) counted ran
  | stitchFinish pc ran =>
    exact (stitch_closes pc ran).counted slots named (fun full => room.2.2 (by simp [full,stitchAfter])) counted ran
  | infOk pc good host got | infFailed pc bad got =>
    have seg : next.seg = s.seg := (got_lanes got).seg
    have stitch : next.stitch = s.stitch := (got_lanes got).stitch
    have same : closing next = closing s := by
      simp only [closing,seg,stitch,got_closing got,pc]
      rfl
    rw [same]
    obtain ⟨_,_,rfl⟩ := got_only got
    exact counted
  | _ =>
    simp [closing,segClosing,infClosing,stitchClosing,Finish.closing,State.setFrame,recordReply,
      countTask, *]

-- done_evt is set by the watchdog, or by the _finish that counted the last frame.
def Ended (c : Config) (s : State) : Prop :=
  (s.finishSet = true → c.count ≤ s.totals.imgDone) ∧
  (s.doneEvt = true → s.stalled = true ∨ s.finishSet = true)

theorem finish_ended (ran : FinishStep c s at_ after flow) (ended : Ended c s) : Ended c after := by
  obtain ⟨all,set⟩ := ended
  cases ran with
  | mark | unknown =>
    simp only [Ended,countFinished_eq,State.setFrame,Bool.or_eq_true,decide_eq_true_eq]
    exact ⟨fun h => h.elim (fun old => Nat.le_succ_of_le (all old)) id,
      fun h => h.elim (fun old => (set old).imp_right .inl) (fun now => .inr (.inr now))⟩
  | _ => exact ⟨all,set⟩

theorem step_ended (ended : Ended c s) (step : Step c s action next) : Ended c next := by
  cases step with
  | segFinish pc ran | infFinish pc ran | stitchFinish pc ran =>
    have later := finish_ended ran ended
    exact later
  | infOk pc good host got | infFailed pc bad got =>
    obtain ⟨_,_,rfl⟩ := got_only got
    exact ended
  | stall running pending => exact ⟨ended.1,fun _ => .inl rfl⟩
  | _ => exact ended

-- What inf_fetch reads of a frame: tiles got, err, dispatched. _finish leaves it alone.
def tileData (s : State) (i : Nat) : Option (Nat × Bool × Bool) :=
  (s.imgState i).map fun frame => (frame.got,frame.err,frame.dispatched)

theorem finish_data (ran : FinishStep c s at_ after flow) (i : Nat) : tileData after i = tileData s i := by
  cases ran with
  | @mark j frame failed known undone =>
    simp only [tileData,countFinished_eq,State.setFrame]
    split
    · subst i; simp [known]
    · rfl
  | unknown => simp only [tileData,countFinished_eq]
  | _ => rfl

theorem got_data (got : GotStep c s imageId ok next) (other : imageId ≠ some i) :
    tileData next i = tileData s i := by
  cases got with
  | unknown => rfl
  | counted | failed | ready =>
    simp only [tileData,State.setFrame]
    split
    · simp_all
    · rfl

-- Stitch tasks, sent or about to be sent: one for each frame dispatched to it.
def infStitching : InfPc → List Nat
  | .stitch i => [i]
  | _ => []

def stitching (s : State) : List Nat := infStitching s.inf ++ s.stitchSess.submitted

def Dispatched (s : State) : Prop :=
  (stitching s).Nodup ∧ ∀ i ∈ stitching s, ∃ got err, tileData s i = some (got,err,true)

theorem Dispatched.of_data (sent : Dispatched s) (same : stitching next = stitching s)
    (kept : ∀ i ∈ stitching s, tileData next i = tileData s i) : Dispatched next := by
  unfold Dispatched
  rw [same]
  exact ⟨sent.1,fun i member => by rw [kept i member]; exact sent.2 i member⟩

theorem got_dispatched (got : GotStep c s imageId ok next) (idle : infStitching s.inf = [])
    (sent : Dispatched s) : Dispatched next := by
  have before : stitching s = s.stitchSess.submitted := by simp [stitching,idle]
  unfold Dispatched at sent ⊢
  rw [before] at sent
  obtain ⟨distinct,marked⟩ := sent
  have old : ∀ i ∈ s.stitchSess.submitted, ∃ got err, tileData next i = some (got,err,true) := by
    intro i member
    obtain ⟨tiles,err,data⟩ := marked i member
    by_cases same : imageId = some i
    · subst same
      cases got with
      | unknown => exact ⟨tiles,err,data⟩
      | counted known | failed known | ready known => simp_all [tileData,State.setFrame]
    · exact ⟨tiles,err,(got_data got same).trans data⟩
  cases got with
  | unknown | counted | failed => exact ⟨distinct,old⟩
  | @ready i frame ok known full fresh =>
    have absent : i ∉ s.stitchSess.submitted := by
      intro member
      obtain ⟨tiles,err,data⟩ := marked i member
      simp [tileData,known,fresh] at data
    refine ⟨List.nodup_cons.mpr ⟨absent,distinct⟩,?_⟩
    intro j member
    rcases List.mem_cons.mp member with rfl | member
    · simp [tileData,State.setFrame]
    · exact old j member

theorem step_dispatched (slots : Slots c s held) (sent : Dispatched s) (step : Step c s action next) :
    Dispatched next := by
  cases step with
  | @register i pc =>
    refine sent.of_data rfl fun j member => ?_
    obtain ⟨tiles,err,data⟩ := sent.2 j member
    obtain ⟨frame,found,_⟩ := Option.map_eq_some_iff.mp data
    have old := (slots.2.2.1 j).mp ⟨frame,found⟩
    rw [pc] at old
    simp [tileData,State.setFrame,Nat.ne_of_lt (show j < i from old)]
  | segFinish pc ran =>
    exact sent.of_data (by simp [stitching,(finish_lanes ran).inf,(finish_lanes ran).stitchSess])
      fun j _ => finish_data ran j
  | @infFinish at_ after flow pc ran =>
    refine sent.of_data ?_ fun j _ => finish_data ran j
    simp only [stitching,(finish_lanes ran).stitchSess,pc]
    cases flow <;> rfl
  | stitchFinish pc ran =>
    exact sent.of_data (by simp [stitching,(finish_lanes ran).inf,(finish_lanes ran).stitchSess])
      fun j _ => finish_data ran j
  | infOk pc good host got | infFailed pc bad got =>
    exact got_dispatched got (by simp [countTile,countTask,countErr,pc,infStitching]) sent
  | stitchFetch pc got =>
    exact sent.of_data (by simp [stitching,(fetch_parts got).2.1]) fun _ _ => rfl
  | stitchSend pc =>
    exact sent.of_data (by simp [stitching,pc,infStitching,Session.send]) fun _ _ => rfl
  | _ => exact sent.of_data (by simp [stitching,infStitching,recordReply,countTask, *]) fun _ _ => rfl

end SymphonyAkida.ShardClient
