import SymphonyAkida.ShardClientSlots

namespace SymphonyAkida.ShardClient
variable {Task : Type}

-- The invariants of this module hold whatever is redelivered. `strict` only
-- decides whether a reply can lose its image id.
structure Sound (strict : Bool) (c : Config) (s : State) : Prop where
  slots : Slots c s (closing s)
  named : Named strict c s
  room : NoOverRelease s
  ended : Ended c s
  dispatched : Dispatched s

theorem initial_sound (strict : Bool) (c : Config) : Sound strict c (start c) := by
  refine ⟨initial_slots c,?_,?_,?_,?_⟩
  · intro id member; simp [ids,start,inSession,segCarries,infCarries,stitchCarries] at member
  · simp [NoOverRelease,start]
  · simp [Ended,start]
  · simp [Dispatched,start,stitching,infStitching]

theorem step_sound_kept (sound : Sound strict c s) (step : Step c s action next)
    (replies : action.replies strict) : Sound strict c next := by
  have kept := step_slots sound.slots sound.room sound.named step
  exact ⟨kept.1,step_named sound.slots.2.1 sound.named step replies,kept.2,
    step_ended sound.ended step,step_dispatched sound.slots sound.dispatched step⟩

theorem honest_sound (path : Runs.Reached (step c) (fun _ action => action.honest) (start c) s) :
    Sound false c s :=
  path.invariant (Sound false c) (initial_sound false c) fun _ _ _ sound honest taken =>
    step_sound_kept sound (step_sound taken) honest

theorem readable_sound (path : Runs.Reached (step c) (fun _ action => action.readable) (start c) s) :
    Sound true c s ∧ Counted s := by
  refine path.invariant (fun s => Sound true c s ∧ Counted s) ⟨initial_sound true c,rfl⟩ ?_
  intro s action next valid readable taken
  have kept := step_sound_kept valid.1 (step_sound taken) (show action.replies true from readable)
  exact ⟨kept,step_counted valid.1.slots valid.1.named kept.room valid.2 (step_sound taken)⟩

-- Frames whose _finish ran to its end: marked, and no thread between the mark
-- and the release.
def completed (s : State) (i : Nat) : Prop := isDone s i ∧ i ∉ closing s

instance (s : State) (i : Nat) : Decidable (completed s i) := inferInstanceAs (Decidable (_ ∧ _))

theorem Slots.done_below (slots : Slots c s held) (done : isDone s i) : i < c.count := by
  have below := slots.done_registered ((slots.2.2.2.2 i).mpr done)
  have range := acquired_count slots.2.1
  have taken := registered_acquired (c:=c) s.submitter
  omega

theorem Slots.released_completed (slots : Slots c s (closing s)) : i ∈ s.released ↔ completed s i := by
  obtain ⟨_,_,_,distinct,done⟩ := slots
  constructor
  · intro member
    exact ⟨(done i).mp (List.mem_append_right _ member),
      fun held => (List.nodup_append.mp distinct).2.2 i held i member rfl⟩
  · intro given
    obtain ⟨marked,outside⟩ := given
    exact (List.mem_append.mp ((done i).mpr marked)).resolve_left outside

theorem filter_length {l : List Nat} {holds : Nat → Prop} [DecidablePred holds] (distinct : l.Nodup)
    (same : ∀ i, i ∈ l ↔ holds i) (below : ∀ i, holds i → i < n) :
    ((List.range n).filter (holds ·)).length = l.length := by
  refine List.Perm.length_eq ((List.perm_ext_iff_of_nodup (List.nodup_range.filter _) distinct).mpr ?_)
  intro i
  simp only [List.mem_filter,List.mem_range,decide_eq_true_eq,same]
  exact ⟨And.right,fun h => ⟨below i h,h⟩⟩

theorem Slots.released_count (slots : Slots c s (closing s)) :
    s.released.length = ((List.range c.count).filter (completed s ·)).length :=
  (filter_length (List.nodup_append.mp slots.2.2.2.1).2.1 (fun _ => slots.released_completed)
    fun _ h => slots.done_below h.1).symm

theorem Slots.done_count (slots : Slots c s (closing s)) :
    (closing s).length+s.released.length = ((List.range c.count).filter (isDone s ·)).length := by
  rw [filter_length slots.2.2.2.1 slots.2.2.2.2 fun _ => slots.done_below,List.length_append]

theorem Slots.unfinished (slots : Slots c s (closing s)) :
    ((List.range c.count).filter fun i => (s.imgState i).isSome && !decide (isDone s i)).length ≤
      c.inFlight := by
  have bound : ∀ i ∈ ((List.range c.count).filter fun i => (s.imgState i).isSome && !decide (isDone s i)) ++
      (closing s ++ s.released), i < registered c s.submitter := by
    intro i member
    rcases List.mem_append.mp member with waiting | done
    · refine (slots.2.2.1 i).mp ?_
      simp only [List.mem_filter,Bool.and_eq_true] at waiting
      exact Option.isSome_iff_exists.mp waiting.2.1
    · exact slots.done_registered done
  have distinct : (((List.range c.count).filter fun i => (s.imgState i).isSome && !decide (isDone s i)) ++
      (closing s ++ s.released)).Nodup := by
    refine List.nodup_append.mpr ⟨List.nodup_range.filter _,slots.2.2.2.1,?_⟩
    rintro i waiting j done rfl
    simp [(slots.2.2.2.2 i).mp done] at waiting
  have size := Counting.length_le distinct bound
  have taken := registered_acquired (c:=c) s.submitter
  have permits := slots.1
  simp only [List.length_append] at size
  omega

theorem Slots.all_done (slots : Slots c s (closing s)) (counted : Counted s)
    (all : c.count ≤ s.totals.imgDone) : ∀ i < c.count, isDone s i := by
  have size := counted.symm ▸ slots.done_count
  intro i below
  have full : (List.range c.count).filter (isDone s ·) = List.range c.count :=
    List.filter_sublist.eq_of_length_le (by rw [List.length_range,← size]; exact all)
  have member := List.mem_range.mpr below
  rw [← full] at member
  simpa using (List.mem_filter.mp member).2

theorem slot_safety (path : Runs.Reached (step c) (fun _ action => action.readable) (start c) s) :
    NoOverRelease s ∧ s.sem ≤ c.inFlight ∧
    s.sem+acquired c s.submitter = c.inFlight+s.released.length ∧ s.released.Nodup ∧
    s.released.length = ((List.range c.count).filter (completed s ·)).length ∧
    s.totals.imgDone = ((List.range c.count).filter (isDone s ·)).length ∧
    ((List.range c.count).filter fun i => (s.imgState i).isSome && !decide (isDone s i)).length ≤
      c.inFlight ∧
    s.stitchSess.submitted.Nodup ∧
    (s.finishSet = true → ∀ i < c.count, isDone s i) := by
  obtain ⟨sound,counted⟩ := readable_sound path
  have slots := sound.slots
  have bound := slots.held_bound
  refine ⟨sound.room,by omega,slots.1,(List.nodup_append.mp slots.2.2.2.1).2.1,slots.released_count,
    counted.trans slots.done_count,slots.unfinished,?_,?_⟩
  · exact (List.nodup_append.mp sound.dispatched.1).2.1
  · exact fun set => slots.all_done counted (sound.ended.1 set)

def processed (s : State) : List (Out InfTask) :=
  match s.inf with
  | .received _ => s.infSess.fetched.tail
  | _ => s.infSess.fetched

def repliesOf (outs : List (Out InfTask)) (i : Nat) : List (Out InfTask) :=
  outs.filter fun out => (reply out).imageId = some i

def isOk (out : Out InfTask) : Prop := (out.isSuccessful && (reply out).ok) = true

def TilesReceived (c : Config) (s : State) (i : Nat) : Prop :=
  ∀ tile < c.nTiles, ∃ out ∈ s.infSess.fetched, out.task = ⟨some i,tile⟩ ∧ isOk out

-- While a frame is undispatched, no reply for one of its tiles comes twice.
def FreshTile (s : State) : Action → Prop
  | .infFetch out _ => ∀ i got err, (reply out).imageId = some i → tileData s i = some (got,err,false) →
      ∀ earlier ∈ repliesOf s.infSess.fetched i, earlier.task.tile ≠ out.task.tile
  | _ => True

-- The counter `got` of an undispatched frame is backed by distinct tiles.
structure Tiled (c : Config) (s : State) : Prop where
  sent : ∀ task ∈ s.infSess.submitted ++ s.infSess.pending, task.tile < c.nTiles
  answered : ∀ out ∈ s.infSess.fetched, out.task.tile < c.nTiles ∧
    ∀ i, (reply out).imageId = some i → out.task.imageId = some i ∧ ∃ data, tileData s i = some data
  held : ∀ out, s.inf = .received out → s.infSess.fetched.head? = some out
  counted : ∀ i got err, tileData s i = some (got,err,false) →
    got ≤ (repliesOf (processed s) i).length ∧
    ((repliesOf s.infSess.fetched i).map (·.task.tile)).Nodup ∧
    (err = false → ∀ out ∈ repliesOf (processed s) i, isOk out)
  complete : ∀ i ∈ stitching s, TilesReceived c s i

theorem initial_tiled (c : Config) : Tiled c (start c) := by
  refine ⟨?_,?_,?_,?_,?_⟩ <;> simp [start,tileData,stitching,infStitching]

theorem Tiled.keep (tiled : Tiled c s) (session : next.infSess = s.infSess)
    (log : processed next = processed s) (held : ∀ out, next.inf = .received out → s.inf = .received out)
    (data : ∀ i, tileData next i = tileData s i) (stitch : stitching next = stitching s) :
    Tiled c next := by
  obtain ⟨sent,answered,holds,counted,complete⟩ := tiled
  refine ⟨?_,?_,?_,?_,?_⟩
  · rw [session]; exact sent
  · rw [session]; simpa only [data] using answered
  · intro out pc; rw [session]; exact holds out (held out pc)
  · intro i; rw [data i,log,session]; exact counted i
  · rw [stitch]; simpa only [TilesReceived,session] using complete

theorem repliesOf_cons_same (same : (reply out).imageId = some i) :
    repliesOf (out :: outs) i = out :: repliesOf outs i := by simp [repliesOf,same]

theorem repliesOf_cons_other (other : (reply out).imageId ≠ some i) :
    repliesOf (out :: outs) i = repliesOf outs i := by simp [repliesOf,other]

theorem fetch_tiled (sound : Sound false c s) (tiled : Tiled c s) (pc : s.inf = .loop)
    (got : s.infSess.fetch out again = some session) (honest : Honest out out.task.imageId)
    (fresh : FreshTile s (.infFetch out again)) :
    Tiled c {s with infSess := session,inf := .received out,infSeen := s.infSeen+1} := by
  obtain ⟨sent,answered,holds,counted,complete⟩ := tiled
  obtain ⟨task,submitted,fetched,pending⟩ := fetch_parts got
  have member := (fetch_inTiles got).1
  refine ⟨?_,?_,?_,?_,?_⟩
  · intro other found
    refine sent other ?_
    rcases pending with ⟨_,same⟩ | ⟨_,_,less⟩
    · simpa [submitted,same] using found
    · simp only [submitted,less,List.mem_append] at found ⊢
      exact found.imp_right List.mem_of_mem_erase
  · intro other found
    rw [fetched] at found
    rcases List.mem_cons.mp found with rfl | old
    · refine ⟨sent _ (List.mem_append.mpr task),?_⟩
      intro i same
      have whose : other.task.imageId = some i := by
        rcases honest_reply honest with equal | lost
        · exact equal.symm.trans same
        · rw [lost] at same; cases same
      rw [whose] at member
      obtain ⟨frame,known⟩ := sound.slots.known sound.named (i:=i) (by
        simp only [ids,List.mem_append]; exact .inl (.inl (.inr member)))
      exact ⟨whose,_,by simp only [tileData,known,Option.map_some]; rfl⟩
    · exact answered other old
  · intro other same
    cases same
    simp [fetched]
  · intro i tiles err data
    have old := counted i tiles err data
    have log : processed s = s.infSess.fetched := by simp [processed,pc]
    rw [log] at old
    refine ⟨by simpa [processed,fetched] using old.1,?_,by simpa [processed,fetched] using old.2.2⟩
    show ((repliesOf session.fetched i).map (·.task.tile)).Nodup
    rw [fetched]
    by_cases same : (reply out).imageId = some i
    · rw [repliesOf_cons_same same,List.map_cons,List.nodup_cons]
      refine ⟨?_,old.2.1⟩
      rw [List.mem_map]
      intro given
      obtain ⟨earlier,before,equal⟩ := given
      exact fresh i tiles err same data earlier before equal
    · rw [repliesOf_cons_other same]; exact old.2.1
  · have unsent : stitching s = s.stitchSess.submitted := by simp [stitching,pc,infStitching]
    rw [unsent] at complete
    intro i sending tile less
    obtain ⟨earlier,before,rest⟩ := complete i sending tile less
    exact ⟨earlier,by simp [fetched,before],rest⟩

theorem ready_tiles (tiled : Tiled c s) (log : s.infSess.fetched = out :: processed s)
    (same : (reply out).imageId = some i) (data : tileData s i = some (got,false,false))
    (ok : isOk out) (full : c.nTiles ≤ got+1) : TilesReceived c s i := by
  obtain ⟨count,distinct,fine⟩ := tiled.counted i got false data
  rw [log,repliesOf_cons_same same] at distinct
  have below : ∀ tile ∈ (out :: repliesOf (processed s) i).map (·.task.tile), tile < c.nTiles := by
    intro tile member
    obtain ⟨other,found,rfl⟩ := List.mem_map.mp member
    refine (tiled.answered other ?_).1
    rw [log]
    rcases List.mem_cons.mp found with rfl | old
    · exact List.mem_cons_self
    · exact List.mem_cons_of_mem _ (List.mem_filter.mp old).1
  intro tile less
  obtain ⟨other,found,equal⟩ := List.mem_map.mp
    (Counting.covers distinct below (by simp only [List.length_map,List.length_cons]; omega) tile less)
  have listed : other ∈ s.infSess.fetched ∧ (reply other).imageId = some i ∧ isOk other := by
    rw [log]
    rcases List.mem_cons.mp found with rfl | old
    · exact ⟨List.mem_cons_self,same,ok⟩
    · have parts := List.mem_filter.mp old
      exact ⟨List.mem_cons_of_mem _ parts.1,by simpa using parts.2,fine rfl other old⟩
  refine ⟨other,listed.1,?_,listed.2.2⟩
  have whose := ((tiled.answered other listed.1).2 i listed.2.1).1
  cases task : other.task with
  | mk imageId index => simp_all

theorem got_known (got : GotStep c s imageId ok next) (known : tileData s i = some data) :
    ∃ later, tileData next i = some later := by
  by_cases same : imageId = some i
  · subst same
    cases got with
    | unknown => exact ⟨data,known⟩
    | counted | failed | ready => simp [tileData,State.setFrame]
  · exact ⟨data,(got_data got same).trans known⟩

theorem got_processed (got : GotStep c s imageId ok next) : processed next = s.infSess.fetched := by
  cases got <;> rfl

theorem got_counted (got : GotStep c s (some i) ok next)
    (data : tileData next i = some (tiles,err,false)) :
    ∃ before old, tiles = before+1 ∧ err = (old || !ok) ∧ tileData s i = some (before,old,false) := by
  generalize same : some i = imageId at got
  cases got with
  | unknown missing =>
    subst same
    have none : s.imgState i = none := missing
    have kept : tileData s i = some (tiles,err,false) := data
    simp [tileData,none] at kept
  | @counted j frame ok known =>
    cases Option.some.inj same
    simp only [tileData,State.setFrame,if_true,Option.map_some,Option.some.injEq,Prod.mk.injEq] at data
    obtain ⟨rfl,rfl,flag⟩ := data
    exact ⟨frame.got,frame.err,rfl,rfl,by simp [tileData,known,flag]⟩
  | failed known | ready known =>
    cases Option.some.inj same
    simp [tileData,State.setFrame] at data

theorem Tiled.held_log (tiled : Tiled c s) (pc : s.inf = .received out) :
    s.infSess.fetched = out :: processed s := by
  have head := tiled.held out pc
  cases list : s.infSess.fetched with
  | nil => simp [list] at head
  | cons first rest =>
    simp only [list,List.head?_cons,Option.some.injEq] at head
    simp [processed,pc,list,head]

-- The locked block of inf_fetch on the output it holds. `t` differs from s in
-- the counters only.
theorem got_tiled (tiled : Tiled c s) (pc : s.inf = .received out)
    (got : GotStep c t (reply out).imageId (out.isSuccessful && (reply out).ok) next)
    (session : t.infSess = s.infSess) (frames : t.imgState = s.imgState)
    (stitch : t.stitchSess = s.stitchSess) : Tiled c next := by
  have log := tiled.held_log pc
  have before : ∀ i, tileData t i = tileData s i := fun i => by simp only [tileData,frames]
  have after : next.infSess = s.infSess := by
    obtain ⟨_,_,rfl⟩ := got_only got
    exact session
  have seen : processed next = s.infSess.fetched := by rw [got_processed got,session]
  refine ⟨?_,?_,?_,?_,?_⟩
  · rw [after]; exact tiled.sent
  · rw [after]
    intro other found
    refine ⟨(tiled.answered other found).1,fun i same => ?_⟩
    obtain ⟨whose,data,known⟩ := (tiled.answered other found).2 i same
    exact ⟨whose,got_known got ((before i).trans known)⟩
  · intro other same
    have idle := got_closing got
    generalize (reply out).imageId = imageId at got
    cases got <;> cases same
  · intro i tiles err data
    rw [seen,after]
    by_cases same : (reply out).imageId = some i
    · rw [same] at got
      obtain ⟨less,old,rfl,rfl,known⟩ := got_counted got data
      obtain ⟨count,distinct,fine⟩ := tiled.counted i less old ((before i).symm.trans known)
      refine ⟨by rw [log,repliesOf_cons_same same]; exact Nat.succ_le_succ count,distinct,?_⟩
      intro clear other member
      simp only [Bool.or_eq_false_iff,Bool.not_eq_false'] at clear
      rw [log,repliesOf_cons_same same] at member
      rcases List.mem_cons.mp member with rfl | earlier
      · exact clear.2
      · exact fine clear.1 other earlier
    · have kept := tiled.counted i tiles err (((got_data got same).trans (before i)).symm.trans data)
      rw [log,repliesOf_cons_other same]
      rw [log,repliesOf_cons_other same] at kept
      exact kept
  · have old : ∀ i ∈ s.stitchSess.submitted, TilesReceived c next i := by
      intro i member
      simp only [TilesReceived,after]
      exact tiled.complete i (by simp [stitching,member])
    generalize same : (reply out).imageId = imageId at got
    generalize ok : (out.isSuccessful && (reply out).ok) = success at got
    cases got with
    | unknown | counted | failed => exact fun i member => old i (by simpa [stitching,infStitching,State.setFrame,stitch] using member)
    | @ready i frame success known full fresh fine =>
      intro j member
      rcases List.mem_cons.mp (show j ∈ i :: t.stitchSess.submitted from member) with rfl | earlier
      · simp only [Bool.or_eq_false_iff,Bool.not_eq_false'] at fine
        have data : tileData s j = some (frame.got,false,false) := by
          rw [← before j]
          simp [tileData,known,fresh,fine.1]
        intro tile less
        rw [after]
        exact ready_tiles tiled log same data (ok.trans fine.2) full tile less
      · exact old j (by simpa [stitch] using earlier)

theorem processed_fetched (member : out ∈ processed s) : out ∈ s.infSess.fetched := by
  unfold processed at member
  split at member
  · exact List.mem_of_mem_tail member
  · exact member

theorem Tiled.unborn_replies (tiled : Tiled c s) (unborn : tileData s i = none) :
    repliesOf s.infSess.fetched i = [] := by
  simp only [repliesOf,List.filter_eq_nil_iff,decide_eq_true_eq]
  intro out found whose
  obtain ⟨_,_,data⟩ := (tiled.answered out found).2 i whose
  rw [unborn] at data
  cases data

theorem register_tiled (sound : Sound false c s) (tiled : Tiled c s) (pc : s.submitter = .register i) :
    Tiled c {s.setFrame i {sample := c.sample i} with submitter := .send i} := by
  have unborn : tileData s i = none := by
    cases known : s.imgState i with
    | none => simp [tileData,known]
    | some frame =>
      have old := (sound.slots.2.2.1 i).mp ⟨frame,known⟩
      rw [pc] at old
      exact absurd old (Nat.lt_irrefl i)
  have none := tiled.unborn_replies unborn
  have fewer : repliesOf (processed s) i = [] := by
    simp only [repliesOf,List.filter_eq_nil_iff] at none ⊢
    exact fun out found => none out (processed_fetched found)
  have other : ∀ j, j ≠ i → tileData {s.setFrame i {sample := c.sample i} with submitter := .send i} j = tileData s j := by
    intro j differs
    simp [tileData,State.setFrame,differs]
  obtain ⟨sent,answered,holds,counted,complete⟩ := tiled
  refine ⟨sent,?_,holds,?_,complete⟩
  · intro out found
    refine ⟨(answered out found).1,fun j whose => ?_⟩
    obtain ⟨equal,data,known⟩ := (answered out found).2 j whose
    have differs : j ≠ i := fun equal => by rw [equal,unborn] at known; cases known
    exact ⟨equal,data,(other j differs).trans known⟩
  · intro j got err data
    by_cases equal : j = i
    · subst j
      simp only [tileData,State.setFrame,if_true,Option.map_some,Option.some.injEq,Prod.mk.injEq] at data
      obtain ⟨rfl,rfl,_⟩ := data
      change 0 ≤ (repliesOf (processed s) i).length ∧ ((repliesOf s.infSess.fetched i).map (·.task.tile)).Nodup ∧
        (false = false → ∀ out ∈ repliesOf (processed s) i, isOk out)
      rw [none,fewer]
      simp
    · exact counted j got err ((other j equal).symm.trans data)

theorem noHost_tiled (tiled : Tiled c s) (pc : s.inf = .received out) (good : isOk out) :
    Tiled c {countTask s with inf := .crashed .keyError} := by
  have log := tiled.held_log pc
  obtain ⟨sent,answered,holds,counted,complete⟩ := tiled
  refine ⟨sent,answered,by simp,?_,?_⟩
  · intro i got err data
    obtain ⟨count,distinct,fine⟩ := counted i got err data
    change got ≤ (repliesOf s.infSess.fetched i).length ∧ ((repliesOf s.infSess.fetched i).map (·.task.tile)).Nodup ∧
      (err = false → ∀ other ∈ repliesOf s.infSess.fetched i, isOk other)
    rw [log] at distinct ⊢
    by_cases whose : (reply out).imageId = some i
    · rw [repliesOf_cons_same whose] at distinct ⊢
      refine ⟨Nat.le_succ_of_le count,distinct,fun clear other member => ?_⟩
      rcases List.mem_cons.mp member with rfl | old
      · exact good
      · exact fine clear other old
    · rw [repliesOf_cons_other whose] at distinct ⊢
      exact ⟨count,distinct,fine⟩
  · exact fun i member => complete i (by simpa [stitching,pc,infStitching,countTask] using member)

theorem step_tiled (sound : Sound false c s) (tiled : Tiled c s) (step : Step c s action next)
    (honest : action.honest) (fresh : FreshTile s action) : Tiled c next := by
  have same : ∀ i, tileData s i = tileData s i := fun _ => rfl
  cases step with
  | register pc => exact register_tiled sound tiled pc
  | @tileSend imageId tile pc more =>
    obtain ⟨sent,answered,holds,counted,complete⟩ := tiled
    refine ⟨?_,answered,holds,counted,complete⟩
    intro task found
    simp only [Session.send,List.mem_append,List.mem_cons] at found
    rcases found with (rfl | old) | (rfl | old)
    · exact more
    · exact sent task (List.mem_append_left _ old)
    · exact more
    · exact sent task (List.mem_append_right _ old)
  | segFinish pc ran | stitchFinish pc ran =>
    have lanes := finish_lanes ran
    have data := finish_data ran
    exact tiled.keep lanes.infSess (by simp [processed,lanes.inf,lanes.infSess]) (by simp [lanes.inf])
      data (by simp [stitching,lanes.inf,lanes.stitchSess])
  | @infFinish at_ after flow pc ran =>
    have lanes := finish_lanes ran
    have data := finish_data ran
    refine tiled.keep lanes.infSess ?_ ?_ data ?_
    · simp only [processed,lanes.infSess,pc]
      cases flow <;> rfl
    · cases flow <;> simp [infAfter]
    · simp only [stitching,lanes.stitchSess,pc]
      cases flow <;> rfl
  | infNoHost pc good missing => exact noHost_tiled tiled pc good
  | infFetch pc more got => exact fetch_tiled sound tiled pc got honest fresh
  | @infOk out host next pc good named got =>
    rw [← good] at got
    exact got_tiled tiled pc got rfl rfl rfl
  | @infFailed out next pc bad got =>
    rw [← bad] at got
    exact got_tiled tiled pc got rfl rfl rfl
  | stitchSend pc =>
    exact tiled.keep rfl (by simp [processed,pc]) (by simp) same
      (by simp [stitching,infStitching,pc,Session.send])
  | stitchFetch pc got =>
    exact tiled.keep rfl (by simp [processed]) (by simp) same
      (by simp [stitching,(fetch_parts got).2.1])
  | _ =>
    refine tiled.keep rfl ?_ ?_ same ?_
    · simp [processed,recordReply, *]
    · simp [recordReply, *]
    · simp [stitching,infStitching,recordReply, *]

theorem stitch_after_tiles
    (path : Runs.Reached (step c) (fun s action => action.honest ∧ FreshTile s action) (start c) s) :
    ∀ i ∈ s.stitchSess.submitted, TilesReceived c s i := by
  have tiled : Tiled c s := by
    refine path.invariant_along (Tiled c) (initial_tiled c) ?_
    intro s action next prior tiled admitted taken
    have sound := honest_sound (prior.weaken fun _ _ => And.left)
    exact step_tiled sound tiled (step_sound taken) admitted.1 admitted.2
  exact fun i member => tiled.complete i (List.mem_append_right _ member)

-- Schedules of one frame in which every reply is ok.
def okOut (task : Task) (imageId : Option Nat) : Out Task :=
  {task,isSuccessful := true,text := some {imageId,ok := true,host := some "n1"}}

def splitFrame (tiles : Nat) : List Action :=
  [.segSubmit,.segSubmit,.segSubmit,.segFetch (okOut 0 (some 0)) false,.segNext] ++
    List.replicate (tiles+1) .segNext

def tileBack (tile : Nat) (again : Bool) : List Action :=
  [.infFetch (okOut ⟨some 0,tile⟩ (some 0)) again,.infNext]

def oneFrame (tiles : Nat) : Config :=
  {count := 1,inFlight := 1,nTiles := tiles,sample := id,dumps := false}

theorem okOut_readable (task : Task) (imageId : Option Nat) : Readable (okOut task imageId) imageId :=
  ⟨rfl,_,rfl,rfl⟩

theorem schedule_readable (action : Action)
    (member : action ∈ splitFrame tiles ++ tileBack first again ++ tileBack second later ++ [.infNext]) :
    action.readable := by
  simp only [splitFrame,tileBack,List.mem_append,List.mem_cons,List.mem_replicate,List.not_mem_nil,
    or_false] at member
  rcases member with ((((rfl | rfl | rfl | rfl | rfl) | ⟨_,rfl⟩) | (rfl | rfl)) | (rfl | rfl)) | rfl
  all_goals first | trivial | exact okOut_readable _ _

def tileCheck (s : State) : Action → Bool
  | .infFetch out _ => s.infSess.fetched.all fun earlier => earlier.task.tile != out.task.tile
  | _ => true

theorem tileCheck_fresh (checked : tileCheck s action = true) : FreshTile s action := by
  cases action with
  | infFetch out again =>
    intro i got err _ _ earlier member
    have differs := List.all_eq_true.mp checked earlier (List.mem_filter.mp member).1
    simpa using differs
  | _ => trivial

theorem stitch_after_tiles_two : ∃ s, 0 ∈ s.stitchSess.submitted ∧ TilesReceived (oneFrame 2) s 0 := by
  obtain ⟨s,path,sent⟩ := Runs.run_witness (step (oneFrame 2))
    (fun s action => action.honest ∧ FreshTile s action) (start (oneFrame 2)) tileCheck
    (fun s => decide (0 ∈ s.stitchSess.submitted))
    (splitFrame 2 ++ tileBack 0 false ++ tileBack 1 false ++ [.infNext]) (by decide)
    fun action member s checked =>
      ⟨readable_honest action (schedule_readable action member),tileCheck_fresh checked⟩
  have member : 0 ∈ s.stitchSess.submitted := by simpa using sent
  exact ⟨s,member,stitch_after_tiles path 0 member⟩

theorem slot_safety_redelivered : ∃ s, s.stitchSess.submitted = [0] ∧ NoOverRelease s ∧ s.sem ≤ 1 ∧
    s.totals.imgDone = ((List.range 1).filter (isDone s ·)).length := by
  obtain ⟨s,path,sent⟩ := Runs.run_witness (step (oneFrame 2)) (fun _ action => action.readable)
    (start (oneFrame 2)) (fun _ _ => true) (fun s => decide (s.stitchSess.submitted = [0]))
    (splitFrame 2 ++ tileBack 0 false ++ tileBack 0 true ++ [.infNext])
    (by decide) fun action member _ _ => schedule_readable action member
  obtain ⟨room,bound,_,_,_,counted,_⟩ := slot_safety path
  exact ⟨s,by simpa using sent,room,bound,counted⟩

-- Tile 0's output delivered twice, tile 1's never.
theorem redelivered_tile_stitched : ¬∀ (c : Config) (s : State),
    Runs.Reached (step c) (fun _ action => action.readable) (start c) s →
      ∀ i ∈ s.stitchSess.submitted, TilesReceived c s i := by
  intro received
  obtain ⟨s,path,sent⟩ := Runs.run_witness (step (oneFrame 2)) (fun _ action => action.readable)
    (start (oneFrame 2)) (fun _ _ => true)
    (fun s => decide (0 ∈ s.stitchSess.submitted) && s.infSess.fetched.all (·.task.tile == 0))
    (splitFrame 2 ++ tileBack 0 false ++ tileBack 0 true ++ [.infNext])
    (by decide) fun action member _ _ => schedule_readable action member
  simp only [Bool.and_eq_true,decide_eq_true_eq,List.all_eq_true,beq_iff_eq] at sent
  obtain ⟨out,found,task,_⟩ := received _ s path 0 sent.1 1 (by decide)
  have tile := sent.2 out found
  rw [task] at tile
  cases tile

end SymphonyAkida.ShardClient
