import SymphonyAkida.ShardClientLife

namespace SymphonyAkida.ShardClient

-- Every task is answered once, and the reply can be read.
def Answers (_ : State) (action : Action) : Prop := action.once ∧ action.readable

theorem Answers.delivers (answers : Answers s action) : Delivers false action :=
  ⟨answers.1,readable_honest action answers.2,fun strict => by cases strict⟩

theorem answers_lives (path : Runs.Reached (step c) Answers (start c) s) : Lives false c s :=
  path.invariant (Lives false c) (initial_lives false c) fun _ _ _ lives answers taken =>
    step_lives lives (step_sound taken) answers.delivers

def Removing (s : State) (i : Nat) : Prop :=
  s.seg = .finish (.remove (some i)) ∨ s.inf = .finish (.remove (some i)) ∨ s.stitch = .finish (.remove (some i))

structure NoTask (s : State) (i : Nat) : Prop where
  seg : i ∉ s.segSess.pending
  inf : ∀ task ∈ s.infSess.pending, task.imageId ≠ some i
  stitch : i ∉ s.stitchSess.pending

def submissions (s : State) (i : Nat) : Nat × Nat × Nat :=
  (s.segSess.submitted.count i,tilesOf s.infSess.submitted i,s.stitchSess.submitted.count i)

structure Quiet (n : Nat) (view : Tally) : Prop where
  sending : view.sending = false
  segQueue : view.segQueue = 0
  infQueue : view.infQueue = 0
  stitchQueue : view.stitchQueue = 0
  tiles : ∀ tile, view.seg = .tiles tile → tile = n
  stitch : view.inf ≠ .stitch

theorem Stage.quiet {stage : Stage} (marked : (stage.tally n).core.data = some (got,err,dispatched,true)) :
    Quiet n (stage.tally n) := by
  cases stage with
  | segClosing at_ | segFinished =>
    exact ⟨rfl,rfl,rfl,rfl,fun _ pc => (by cases pc),fun pc => by cases pc⟩
  | gathered fanning err at_ =>
    have tiles : ∀ tile, ((Stage.gathered fanning err at_).tally n).seg = .tiles tile → tile = n := fun tile pc =>
      (fanAt_tiles (Gathered.tally_seg.symm.trans pc)).2
    cases at_ with
    | infClosing inside | stitchClosing inside => exact ⟨rfl,rfl,rfl,rfl,tiles,fun pc => by cases pc⟩
    | finished => exact ⟨rfl,rfl,rfl,rfl,tiles,fun pc => by cases pc⟩
    | _ => cases marked
  | _ => cases marked

theorem isDone_data (s : State) (i : Nat) :
    isDone s i ↔ ∃ got err dispatched, (tally s i).core.data = some (got,err,dispatched,true) := by
  constructor
  · intro given
    obtain ⟨frame,known,done⟩ := given
    exact ⟨frame.got,frame.err,frame.dispatched,by simp [tally,core,known,done]⟩
  · intro given
    obtain ⟨got,err,dispatched,data⟩ := given
    obtain ⟨frame,known,same⟩ := Option.map_eq_some_iff.mp data
    simp only [Prod.mk.injEq] at same
    exact ⟨frame,known,same.2.2.2⟩

theorem Lives.quiet (lives : Lives strict c s) (done : isDone s i) : Quiet c.nTiles (tally s i) := by
  obtain ⟨stage,_,_,view⟩ := lives.staged i
  obtain ⟨got,err,dispatched,data⟩ := (isDone_data s i).mp done
  rw [view] at data ⊢
  exact Stage.quiet data

theorem Move.marked (move : Move strict n view next) (marked : view.core.data = some (got,err,dispatched,true)) :
    ∃ got err dispatched, next.core.data = some (got,err,dispatched,true) := by
  cases move with
  | register fresh => rw [fresh] at marked; cases marked
  | counted pc data stay =>
    rw [data] at marked
    cases marked
    exact ⟨_,_,_,rfl⟩
  | gathered failed pc data full =>
    rw [data] at marked
    cases marked
    exact ⟨_,_,_,rfl⟩
  | segClose pc move | infClose pc move | stitchClose pc move =>
    generalize view.core = core at move marked
    cases move with
    | mark => cases marked
    | remove => exact ⟨_,_,_,marked⟩
    | release => exact ⟨_,_,_,marked⟩
  | _ => exact ⟨_,_,_,marked⟩

theorem step_done (lives : Lives strict c s) (step : Step c s action next) (delivers : Delivers strict action)
    (done : isDone s i) : isDone next i := by
  have later := step_lives lives step delivers
  obtain ⟨got,err,dispatched,data⟩ := (isDone_data s i).mp done
  rcases step_moves lives later.sound.room step delivers i with same | move
  · exact (isDone_data next i).mpr ⟨got,err,dispatched,by rw [same]; exact data⟩
  · exact (isDone_data next i).mpr (move.marked data)

def Submitting (c : Config) (s : State) (i : Nat) : Prop :=
  s.submitter = .send i ∨ (∃ tile < c.nTiles, s.seg = .tiles (some i) tile) ∨ s.inf = .stitch i

theorem step_submissions (step : Step c s action next) (i : Nat) (idle : ¬Submitting c s i) :
    submissions next i = submissions s i := by
  cases step with
  | @send j pc =>
    have other : j ≠ i := fun same => idle (.inl (by rw [pc,same]))
    simp [submissions,Session.send,List.count_cons_of_ne other]
  | @tileSend imageId tile pc more =>
    have other : imageId ≠ some i := fun same => idle (.inr (.inl ⟨tile,more,by rw [pc,same]⟩))
    simp [submissions,Session.send,tilesOf,other]
  | @stitchSend j pc =>
    have other : j ≠ i := fun same => idle (.inr (.inr (by rw [pc,same])))
    simp [submissions,Session.send,List.count_cons_of_ne other]
  | segFinish pc ran | infFinish pc ran | stitchFinish pc ran =>
    have lanes := finish_lanes ran
    simp only [submissions,lanes.segSess,lanes.infSess,lanes.stitchSess]
  | segFetch pc more got | infFetch pc more got => simp only [submissions,(fetch_parts got).2.1]
  | stitchFetch pc got => simp only [submissions,(fetch_parts got).2.1]
  | infOk pc good host got | infFailed pc bad got =>
    obtain ⟨_,_,rfl⟩ := got_only got
    rfl
  | _ => rfl

theorem Quiet.idle (quiet : Quiet c.nTiles (tally s i)) : ¬Submitting c s i := by
  intro given
  rcases given with pc | ⟨tile,more,pc⟩ | pc
  · have sending := quiet.sending
    simp [tally,pc] at sending
  · have all := quiet.tiles tile (by simp [tally,pc,segAt])
    omega
  · exact quiet.stitch (by simp [tally,pc,infAt])

theorem Quiet.noTask (quiet : Quiet n (tally s i)) : NoTask s i where
  seg := List.count_eq_zero.mp quiet.segQueue
  inf := fun task member same => by
    have some := tilesOf_pos member same
    have none : tilesOf s.infSess.pending i = 0 := quiet.infQueue
    omega
  stitch := List.count_eq_zero.mp quiet.stitchQueue

-- The thread that removes the directory has marked the frame.
theorem Lives.removing_done (lives : Lives strict c s) (removing : Removing s i) : isDone s i := by
  obtain ⟨stage,_,_,view⟩ := lives.staged i
  rw [isDone_data,view]
  have seg : segAt i s.seg = (stage.tally c.nTiles).seg := congrArg Tally.seg view
  have inf : infAt i s.inf = (stage.tally c.nTiles).inf := congrArg Tally.inf view
  have stitch : stitchAt i s.stitch = (stage.tally c.nTiles).stitch := congrArg Tally.stitch view
  rcases removing with pc | pc | pc
  · have inside : (stage.tally c.nTiles).seg = .finish .remove := by rw [← seg]; simp [pc,segAt,Finish.on]
    obtain rfl := Stage.of_segFinish inside
    exact ⟨_,_,_,rfl⟩
  · have inside : (stage.tally c.nTiles).inf = .finish .remove := by rw [← inf]; simp [pc,infAt,Finish.on]
    obtain ⟨_,_,rfl⟩ := Stage.of_infFinish inside
    exact ⟨_,_,_,rfl⟩
  · have inside : (stage.tally c.nTiles).stitch = .finish .remove := by rw [← stitch]; simp [pc,stitchAt,Finish.on]
    obtain ⟨_,_,rfl⟩ := Stage.of_stitchFinish inside
    exact ⟨_,_,_,rfl⟩

theorem done_submissions (lives : Lives false c s) (done : isDone s i) (path : Runs.Reached (step c) Answers s t) :
    submissions t i = submissions s i := by
  have kept : (Lives false c t ∧ isDone t i) ∧ submissions t i = submissions s i := by
    refine path.invariant (fun t => (Lives false c t ∧ isDone t i) ∧ submissions t i = submissions s i)
      ⟨⟨lives,done⟩,rfl⟩ ?_
    rintro t action next ⟨⟨lives,done⟩,same⟩ answers taken
    have step := step_sound taken
    have delivers := answers.delivers
    refine ⟨⟨step_lives lives step delivers,step_done lives step delivers done⟩,?_⟩
    exact (step_submissions step i (lives.quiet done).idle).trans same
  exact kept.2

theorem Stage.released_removed (stage : Stage) (n : Nat) : (stage.tally n).core.released ≤ (stage.tally n).core.removed := by
  cases stage with
  | segClosing at_ => cases at_ <;> exact Nat.zero_le _
  | gathered fanning err at_ =>
    cases at_ with
    | infClosing inside | stitchClosing inside => cases inside <;> exact Nat.zero_le _
    | finished => exact Nat.le_refl 1
    | _ => exact Nat.zero_le _
  | segFinished => exact Nat.le_refl 1
  | _ => exact Nat.zero_le _

theorem Lives.released_removed (lives : Lives strict c s) (released : i ∈ s.released) : i ∈ s.removed := by
  obtain ⟨stage,_,_,view⟩ := lives.staged i
  have order := Stage.released_removed stage c.nTiles
  rw [← view] at order
  have counts : s.released.count i ≤ s.removed.count i := order
  exact List.count_pos_iff.mp (Nat.lt_of_lt_of_le (List.count_pos_iff.mpr released) counts)

theorem Lives.unremoved_bound (lives : Lives strict c s) {frames : List Nat} (distinct : frames.Nodup)
    (there : ∀ i ∈ frames, i ∈ s.segSess.submitted ∧ i ∉ s.removed) : frames.length ≤ c.inFlight := by
  have slots := lives.sound.slots
  have released : s.released.Nodup := (List.nodup_append.mp slots.2.2.2.1).2.1
  have apart : (frames ++ s.released).Nodup := by
    refine List.nodup_append.mpr ⟨distinct,released,?_⟩
    rintro i member _ done rfl
    exact (there i member).2 (lives.released_removed done)
  have below : ∀ i ∈ frames ++ s.released, i < registered c s.submitter := by
    intro i member
    rcases List.mem_append.mp member with waiting | done
    · have sent : some i ∈ ids s := by simp [ids,inSession,(there i waiting).1]
      exact lives.sound.named _ sent
    · exact slots.done_registered (List.mem_append_right _ done)
  have size := Counting.length_le apart below
  have taken := registered_acquired (c:=c) s.submitter
  have permits := slots.1
  simp only [List.length_append] at size
  omega

-- At a removal no task of the frame is out and none will be; and never are more
-- than in_flight directories of submitted frames there.
theorem directory_outlives (path : Runs.Reached (step c) Answers (start c) s) :
    (∀ i, Removing s i → NoTask s i ∧
      ∀ t, Runs.Reached (step c) Answers s t → submissions t i = submissions s i) ∧
    ∀ frames : List Nat, frames.Nodup → (∀ i ∈ frames, i ∈ s.segSess.submitted ∧ i ∉ s.removed) →
      frames.length ≤ c.inFlight := by
  have lives := answers_lives path
  constructor
  · intro i removing
    have done := lives.removing_done removing
    exact ⟨(lives.quiet done).noTask,fun t later => done_submissions lives done later⟩
  · intro frames distinct there
    exact lives.unremoved_bound distinct there

-- One frame of two tiles, up to the removal of its directory by stitch_fetch.
def stitchFrame : List Action :=
  splitFrame 2 ++ tileBack 0 false ++ tileBack 1 false ++
    [.infNext,.stitchNext,.stitchFetch (okOut 0 (some 0)) false,.stitchNext,.stitchNext]

theorem stitchFrame_answers (member : action ∈ stitchFrame) : Answers s action := by
  simp only [stitchFrame,splitFrame,tileBack,List.mem_append,List.mem_cons,List.mem_replicate,List.not_mem_nil,
    or_false] at member
  rcases member with ((((rfl | rfl | rfl | rfl | rfl) | ⟨_,rfl⟩) | rfl | rfl) | rfl | rfl) | rfl | rfl | rfl | rfl | rfl
  all_goals first | exact ⟨trivial,trivial⟩ | exact ⟨rfl,okOut_readable _ _⟩

def removesFirst : StitchPc → Bool
  | .finish (.remove (some 0)) => true
  | _ => false

theorem directory_outlives_stitched : ∃ s, Removing s 0 ∧ NoTask s 0 ∧ [0].length ≤ 1 := by
  obtain ⟨s,path,held⟩ := Runs.run_witness (step (oneFrame 2)) Answers (start (oneFrame 2)) (fun _ _ => true)
    (fun s => removesFirst s.stitch && decide (0 ∈ s.segSess.submitted ∧ 0 ∉ s.removed))
    stitchFrame (by decide) fun action member _ _ => stitchFrame_answers member
  simp only [Bool.and_eq_true,decide_eq_true_eq] at held
  have removing : Removing s 0 := by
    have place := held.1
    unfold removesFirst at place
    split at place
    · exact .inr (.inr ‹_›)
    · cases place
  obtain ⟨quiet,bound⟩ := directory_outlives path
  exact ⟨s,removing,(quiet 0 removing).1,bound [0] (by simp) (by simpa using held.2)⟩

end SymphonyAkida.ShardClient
