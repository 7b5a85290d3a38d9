import SymphonyAkida.ShardClientAccounts

namespace SymphonyAkida.ShardClient

-- The shutdown comment of main: the seg and inf fetch loops have hit their targets.
def LoopsDone (c : Config) (s : State) : Prop := s.segSeen = c.count ∧ s.infSeen = c.count*c.nTiles

def segBad : SegPc → Nat
  | .received out => (!out.good).toNat
  | _ => 0

def SegErrs (s : State) : Prop := s.totals.segErr+segBad s.seg = s.segSess.fetched.countP fun out => !out.good

theorem step_segErrs (errs : SegErrs s) (step : Step c s action next) : SegErrs next := by
  unfold SegErrs at errs ⊢
  cases step with
  | @segFetch out again session pc more got =>
    rw [pc] at errs
    simp only [(fetch_parts got).2.2.1,List.countP_cons,segBad] at errs ⊢
    cases out.good with
    | true => simpa using errs
    | false => simpa using errs
  | segExit pc all | tileSend pc more | tilesSent pc all =>
    rw [pc] at errs
    exact errs
  | @segFailed out pc bad =>
    have bad : out.good = false := bad
    rw [pc] at errs
    simpa [segBad,bad] using errs
  | @segSplit out pc good =>
    have good : out.good = true := good
    rw [pc] at errs
    simpa [segBad,good] using errs
  | @segFinish at_ after flow pc ran =>
    have lanes := finish_lanes ran
    have errors := (finish_counters ran).2.1.2
    have idle : segBad (segAfter flow) = 0 := by cases flow <;> rfl
    rw [pc] at errs
    simp only [lanes.segSess,errors,idle]
    exact errs
  | infFinish pc ran | stitchFinish pc ran =>
    have lanes := finish_lanes ran
    have errors := (finish_counters ran).2.1.2
    simpa only [lanes.segSess,lanes.seg,errors] using errs
  | infOk pc good named got | infFailed pc bad got =>
    obtain ⟨_,_,rfl⟩ := got_only got
    exact errs
  | _ => exact errs

theorem reached_segErrs (path : Runs.Reached (step c) Answers (start c) s) : SegErrs s :=
  path.invariant SegErrs rfl fun _ _ _ errs _ taken => step_segErrs errs (step_sound taken)

-- A segment output that is not ok, counted or in hand, takes its tiles from
-- those submitted, and the target of inf_fetch counts them all the same: once
-- one is fetched the loop never ends.
theorem inf_waits (path : Runs.Reached (step c) Answers (start c) s) (tiles : 0 < c.nTiles)
    (bad : ∃ out ∈ s.segSess.fetched, out.good = false) : s.infSeen < c.count*c.nTiles ∧ s.inf ≠ .exited := by
  have accounts := reached_accounts path
  have errs : SegErrs s := reached_segErrs path
  have some : 0 < s.totals.segErr+segBad s.seg := by
    obtain ⟨out,member,failed⟩ := bad
    rw [errs]
    exact List.countP_pos_iff.mpr ⟨out,member,by simp [failed]⟩
  have less : s.infSess.submitted.length+c.nTiles ≤ c.nTiles*s.segSeen := by
    have split := accounts.tallied.split
    cases pc : s.seg with
    | received out =>
      rw [pc] at split
      simp only [owed] at split
      omega
    | _ =>
      rw [pc] at some
      have counted : c.nTiles*1 ≤ c.nTiles*s.totals.segErr := Nat.mul_le_mul_left _ some
      omega
  have most : c.nTiles*s.segSeen ≤ c.count*c.nTiles := by
    have sent := accounts.seen.seg
    have range := segSent_le accounts.lives.sound.slots.2.1
    rw [Nat.mul_comm c.count]
    exact Nat.mul_le_mul_left _ (by omega)
  have seen := accounts.seen.inf
  have short : s.infSeen < c.count*c.nTiles := by omega
  refine ⟨short,fun exited => ?_⟩
  have reached := accounts.seen.infExit exited
  omega

theorem loops_end (path : Runs.Reached (step c) Answers (start c) s) (ended : s.finishSet = true) :
    LoopsDone c s ↔ c.nTiles = 0 ∨ ∀ out ∈ s.segSess.fetched, out.good = true := by
  constructor
  · intro done
    by_cases tiles : c.nTiles = 0
    · exact .inl tiles
    · refine .inr fun out member => ?_
      cases good : out.good with
      | true => rfl
      | false =>
        have short := (inf_waits path (Nat.pos_of_ne_zero tiles) ⟨out,member,good⟩).1
        have seen := done.2
        omega
  · intro good
    have accounts := reached_accounts path
    have sound := accounts.lives.sound
    have all := sound.slots.all_done accounts.counted (sound.ended.1 ended)
    have rest := accounts.lives.at_rest accounts.named accounts.seen accounts.crashes all
    have split := accounts.tallied.split
    rw [rest.seg,rest.segSeen,← rest.infSeen,Nat.add_zero] at split
    have none : c.nTiles*s.totals.segErr = 0 := by
      rcases good with tiles | good
      · rw [tiles,Nat.zero_mul]
      · have errs : s.totals.segErr+segBad s.seg = 0 := by
          rw [reached_segErrs path,List.countP_eq_zero]
          intro out member
          simp [good out member]
        rw [Nat.eq_zero_of_add_eq_zero_right errs,Nat.mul_zero]
    exact ⟨rest.segSeen,by rw [Nat.mul_comm]; omega⟩

theorem loops_end_stitched : ∃ s, s.finishSet = true ∧ LoopsDone (oneFrame 2) s := by
  obtain ⟨s,path,ended⟩ := Runs.run_witness (step (oneFrame 2)) Answers (start (oneFrame 2)) (fun _ _ => true)
    (fun s => s.finishSet && s.segSess.fetched.all Out.good) stitchFrame (by decide)
    fun action member _ _ => stitchFrame_answers member
  simp only [Bool.and_eq_true,List.all_eq_true] at ended
  exact ⟨s,ended.1,(loops_end path ended.1).mpr (.inr ended.2)⟩

-- One frame of one tile, whose split is answered but not ok.
def badOut : Out Nat := {task := 0,isSuccessful := true,text := some {imageId := some 0}}

def badSegment : List Action := [.segSubmit,.segSubmit,.segSubmit,.segFetch badOut false,.segNext,.segNext]

theorem badSegment_answers (member : action ∈ badSegment) : Answers s action := by
  simp only [badSegment,List.mem_cons,List.not_mem_nil,or_false] at member
  rcases member with rfl | rfl | rfl | rfl | rfl | rfl
  all_goals first | exact ⟨trivial,trivial⟩ | exact ⟨rfl,rfl,_,rfl,rfl⟩

theorem failed_split_waits : ¬∀ (c : Config) (s : State), Runs.Reached (step c) Answers (start c) s →
    s.finishSet = true → LoopsDone c s := by
  intro finished
  obtain ⟨s,path,ended⟩ := Runs.run_witness (step (oneFrame 1)) Answers (start (oneFrame 1)) (fun _ _ => true)
    (fun s => s.finishSet && decide (s.infSeen = 0)) badSegment (by decide)
    fun action member _ _ => badSegment_answers member
  simp only [Bool.and_eq_true,decide_eq_true_eq] at ended
  have done := (finished _ s path ended.1).2
  rw [ended.2] at done
  cases done

end SymphonyAkida.ShardClient
