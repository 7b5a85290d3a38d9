import SymphonyAkida.ShardClientAccounts

namespace SymphonyAkida.ShardClient

-- A frame's stitch output counted once: `outs` are handled ok outputs, one for
-- each frame that has any, and the totals and the dump are theirs alone.
structure CountedOnce (c : Config) (s : State) (outs : List (Out Nat)) : Prop where
  once : (outs.map (·.task)).Nodup
  came : ∀ out ∈ outs, out ∈ handled s ∧ out.good = true
  all : ∀ out ∈ handled s, out.good = true → ∃ one ∈ outs, one.task = out.task
  dump : s.dump ++ unwritten s.stitch = if c.dumps then outs.map (recordFor c) else []
  boxes : s.totals.boxes = (outs.map boxCount).sum
  classes : ∀ key, s.classes.get key = (outs.map fun out => rowsOf (reply out).classHist key).sum

-- stitch_fetch does not take a second ok output of a frame. An output that is
-- not ok may come again, before or after the ok one.
def FirstOk (s : State) : Action → Prop
  | .stitchFetch out _ => out.good = true → ∀ old ∈ s.stitchSess.fetched, old.good = true → old.task ≠ out.task
  | _ => True

theorem stitched_iff : out ∈ stitched s ↔ out ∈ handled s ∧ out.good = true := by
  rw [stitched,List.mem_reverse,List.mem_filter]

theorem step_fetched (step : Step c s action next) :
    (∃ out again, action = .stitchFetch out again ∧ next.stitch = .received out ∧
      next.stitchSess.fetched = out :: s.stitchSess.fetched) ∨
    (next.stitchSess.fetched = s.stitchSess.fetched ∧ ∀ out, next.stitch = .received out → s.stitch = .received out) := by
  cases step with
  | segFinish pc ran | infFinish pc ran =>
    have lanes := finish_lanes ran
    refine .inr ⟨by rw [lanes.stitchSess],fun out pc => ?_⟩
    rw [← lanes.stitch]
    exact pc
  | infOk pc good named got | infFailed pc bad got =>
    obtain ⟨_,_,rfl⟩ := got_only got
    exact .inr ⟨rfl,fun _ pc => pc⟩
  | @stitchFetch out again session pc got =>
    exact .inl ⟨out,again,rfl,rfl,(fetch_parts got).2.2.1⟩
  | stitchFinish pc ran =>
    have lanes := finish_lanes ran
    refine .inr ⟨by rw [lanes.stitchSess],fun out held => ?_⟩
    exact absurd held ((stitchAfter_idle ran).1 out)
  | stitchPoll | stitchExit | stitchLeave | stitchDump | stitchCount | stitchFailed | dumped => exact .inr ⟨rfl,fun _ pc => by cases pc⟩
  | _ => exact .inr ⟨rfl,fun _ pc => pc⟩

structure Reported (c : Config) (s : State) : Prop where
  sampled : Sampled c s
  held : ∀ out, s.stitch = .received out → Honest out (some out.task)
  recorded : Recorded c s

theorem initial_reported (c : Config) : Reported c (start c) where
  sampled := by intro i frame known; cases known
  held := by intro out pc; cases pc
  recorded := initial_recorded c

theorem Reported.own (reported : Reported c s) (sound : Sound false c s) (pc : s.stitch = .received out)
    (good : out.good = true) : recordOf s (reply out) = recordFor c out := by
  have named : (reply out).imageId = some out.task := good_reply (reported.held out pc) good
  have carried : some out.task ∈ ids s := by simp [ids,pc,stitchCarries,named]
  obtain ⟨frame,known⟩ := sound.slots.known sound.named carried
  simp [recordOf,recordFor,named,State.frame,known,reported.sampled out.task frame known]

theorem step_reported (sound : Sound false c s) (reported : Reported c s) (step : Step c s action next)
    (honest : action.honest) : Reported c next where
  sampled := step_sampled reported.sampled step
  held := by
    intro out pc
    rcases step_fetched step with ⟨other,again,rfl,now,_⟩ | ⟨_,before⟩
    · rw [now] at pc
      cases pc
      exact honest
    · exact reported.held out (before out pc)
  recorded := step_recorded reported.recorded step fun _ pc good => reported.own sound pc good

theorem reached_reported (path : Runs.Reached (step c) (fun _ action => action.honest) (start c) s) : Reported c s :=
  path.invariant_along (Reported c) (initial_reported c) fun _ _ _ prior reported honest taken =>
    step_reported (honest_sound prior) reported (step_sound taken) honest

theorem stitched_sublist (log : Logged s) :
    (stitched s).reverse.Sublist (s.stitchSess.fetched.filter Out.good) := by
  rw [stitched,List.reverse_reverse]
  refine List.Sublist.filter _ ?_
  cases pc : s.stitch with
  | received out =>
    rw [log out pc]
    exact List.sublist_cons_self _ _
  | _ => rw [handled_all (by simp [pc])]

def FetchedOnce (s : State) : Prop := ((s.stitchSess.fetched.filter Out.good).map (·.task)).Nodup

theorem step_fetchedOnce (once : FetchedOnce s) (step : Step c s action next) (first : FirstOk s action) :
    FetchedOnce next := by
  unfold FetchedOnce at once ⊢
  rcases step_fetched step with ⟨out,again,rfl,_,fetched⟩ | ⟨same,_⟩
  · rw [fetched,List.filter_cons]
    split
    · rename_i good
      rw [List.map_cons,List.nodup_cons]
      refine ⟨fun again => ?_,once⟩
      obtain ⟨old,member,task⟩ := List.mem_map.mp again
      obtain ⟨member,ok⟩ := List.mem_filter.mp member
      exact first good old member ok task
    · exact once
  · rw [same]
    exact once

theorem fetchedOnce_stitched (log : Logged s) (once : FetchedOnce s) : ((stitched s).map (·.task)).Nodup := by
  have fetched : ((s.stitchSess.fetched.filter Out.good).map (·.task)).Nodup := once
  have reversed := fetched.sublist ((stitched_sublist log).map (·.task))
  rw [List.map_reverse] at reversed
  exact List.nodup_reverse.mp reversed

theorem Recorded.countedOnce (recorded : Recorded c s) (once : ((stitched s).map (·.task)).Nodup) :
    CountedOnce c s (stitched s) where
  once := once
  came _ member := stitched_iff.mp member
  all _ member good := ⟨_,stitched_iff.mpr ⟨member,good⟩,rfl⟩
  dump := recorded.dump
  boxes := recorded.boxes
  classes := recorded.classes

-- With a dump the converse holds whatever is redelivered: one more ok output of
-- a frame is one more record, since _finish's guard comes after both.
theorem countedOnce_iff (path : Runs.Reached (step c) (fun _ action => action.honest) (start c) s)
    (dumps : c.dumps = true) : (∃ outs, CountedOnce c s outs) ↔ ((stitched s).map (·.task)).Nodup := by
  have recorded := (reached_reported path).recorded
  constructor
  · intro once
    obtain ⟨outs,counted⟩ := once
    have records := counted.dump.symm.trans recorded.dump
    simp only [dumps,if_true] at records
    have size : outs.length = (stitched s).length := by simpa using congrArg List.length records
    have covers : outs.map (·.task) ⊆ (stitched s).map (·.task) := by
      intro i member
      obtain ⟨out,found,rfl⟩ := List.mem_map.mp member
      exact List.mem_map_of_mem (stitched_iff.mpr (counted.came out found))
    have same : (outs.map (·.task)).Perm ((stitched s).map (·.task)) :=
      (counted.once.subperm covers).perm_of_length_le (by simp [size])
    exact same.nodup_iff.mp counted.once
  · exact fun once => ⟨stitched s,recorded.countedOnce once⟩

theorem stitched_once (path : Runs.Reached (step c) (fun s action => action.honest ∧ FirstOk s action) (start c) s) :
    ∃ outs, CountedOnce c s outs := by
  have reported := reached_reported (path.weaken fun _ _ => And.left)
  have once : FetchedOnce s := by
    refine path.invariant FetchedOnce List.nodup_nil ?_
    intro s action next once admitted taken
    exact step_fetchedOnce once (step_sound taken) admitted.2
  exact ⟨stitched s,reported.recorded.countedOnce (fetchedOnce_stitched reported.recorded.log once)⟩

-- Two frames of one tile with a dump, the first up to its record, and its
-- stitch output once more while the second is awaited.
def twoFrames : Config := {count := 2,inFlight := 1,nTiles := 1,sample := id,dumps := true}

def stitchedBack (again : Bool) : List Action :=
  [.stitchNext,.stitchFetch (okOut 0 (some 0)) again,.stitchNext,.stitchNext]

def recordFrame : List Action := splitFrame 1 ++ tileBack 0 false ++ [.infNext] ++ stitchedBack false

def recordTwice : List Action := recordFrame ++ List.replicate 3 .stitchNext ++ stitchedBack true

theorem recordTwice_readable (member : action ∈ recordTwice) : action.readable := by
  simp only [recordTwice,recordFrame,splitFrame,tileBack,stitchedBack,List.mem_append,List.mem_cons,
    List.mem_replicate,List.not_mem_nil,or_false] at member
  rcases member with (((((((rfl | rfl | rfl | rfl | rfl) | ⟨_,rfl⟩) | rfl | rfl) | rfl) | rfl | rfl | rfl | rfl) |
    ⟨_,rfl⟩) | rfl | rfl | rfl | rfl)
  all_goals first | exact okOut_readable _ _ | trivial

def emptyCheck (s : State) : Action → Bool
  | .stitchFetch _ _ => s.stitchSess.fetched.isEmpty
  | _ => true

theorem emptyCheck_first (checked : emptyCheck s action = true) : FirstOk s action := by
  cases action with
  | stitchFetch out again =>
    have none : s.stitchSess.fetched = [] := List.isEmpty_iff.mp checked
    intro _ old member
    rw [none] at member
    cases member
  | _ => trivial

theorem stitched_once_recorded : ∃ s, s.dump.length = 1 ∧ ∃ outs, CountedOnce twoFrames s outs := by
  obtain ⟨s,path,written⟩ := Runs.run_witness (step twoFrames) (fun s action => action.honest ∧ FirstOk s action)
    (start twoFrames) emptyCheck (fun s => decide (s.dump.length = 1)) recordFrame (by decide) (by
      intro action member s checked
      have readable := recordTwice_readable (List.mem_append_left _ (List.mem_append_left _ member))
      exact ⟨readable_honest action readable,emptyCheck_first checked⟩)
  exact ⟨s,by simpa using written,stitched_once path⟩

theorem redelivered_record_written : ¬∀ (c : Config) (s : State),
    Runs.Reached (step c) (fun _ action => action.readable) (start c) s → ∃ outs, CountedOnce c s outs := by
  intro counted
  obtain ⟨s,path,twice⟩ := Runs.run_witness (step twoFrames) (fun _ action => action.readable) (start twoFrames)
    (fun _ _ => true) (fun s => decide ((stitched s).map (·.task) = [0,0])) recordTwice (by decide)
    fun action member _ _ => recordTwice_readable member
  have once := (countedOnce_iff (path.weaken fun _ action => readable_honest action) rfl).mp (counted twoFrames s path)
  have twice : (stitched s).map (·.task) = [0,0] := by simpa using twice
  rw [twice] at once
  simp at once

end SymphonyAkida.ShardClient
