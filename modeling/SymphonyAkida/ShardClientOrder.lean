import SymphonyAkida.ShardClientRecords

namespace SymphonyAkida.ShardClient
variable {Task : Type}

def Session.Balanced (session : Session Task) : Prop := (session.fetched.map (·.task) ++ session.pending).Perm session.submitted

theorem Session.Balanced.send {session : Session Task} (balanced : session.Balanced) (task : Task) : (session.send task).Balanced :=
  List.perm_middle.trans (balanced.cons _)

theorem Session.Balanced.fetch [DecidableEq Task] {session next : Session Task} (balanced : session.Balanced)
    (got : session.fetch out again = some next) (once : again = false) : next.Balanced := by
  obtain ⟨member,pending⟩ := fetch_once got once
  obtain ⟨_,submitted,fetched,_⟩ := fetch_parts got
  simp only [Session.Balanced,submitted,fetched,pending,List.map_cons,List.cons_append]
  refine List.Perm.trans ?_ balanced
  exact List.perm_middle.symm.trans ((List.perm_cons_erase member).symm.append_left _)

inductive Session.Moves [DecidableEq Task] (session : Session Task) : Session Task → Prop where
  | stays : session.Moves session
  | sends (task : Task) : session.Moves (session.send task)
  | fetches (got : session.fetch out false = some next) : session.Moves next

theorem Session.Moves.balanced [DecidableEq Task] {session next : Session Task} (moves : session.Moves next)
    (balanced : session.Balanced) : next.Balanced := by
  cases moves with
  | stays => exact balanced
  | sends task => exact balanced.send task
  | fetches got => exact balanced.fetch got rfl

theorem Session.Moves.fetched [DecidableEq Task] {session next : Session Task} (moves : session.Moves next)
    (member : out ∈ session.fetched) : out ∈ next.fetched := by
  cases moves with
  | stays | sends => exact member
  | fetches got =>
    rw [(fetch_parts got).2.2.1]
    exact List.mem_cons_of_mem _ member

theorem Session.Moves.submitted [DecidableEq Task] {session next : Session Task} (moves : session.Moves next)
    (member : task ∈ session.submitted) : task ∈ next.submitted := by
  cases moves with
  | stays => exact member
  | sends other => exact List.mem_cons_of_mem _ member
  | fetches got =>
    rw [(fetch_parts got).2.1]
    exact member

structure SessionMoves (s next : State) : Prop where
  seg : s.segSess.Moves next.segSess
  inf : s.infSess.Moves next.infSess
  stitch : s.stitchSess.Moves next.stitchSess

theorem step_sessions (step : Step c s action next) (once : action.once) : SessionMoves s next := by
  cases step with
  | send pc => exact ⟨.sends _,.stays,.stays⟩
  | segFetch pc more got => exact ⟨.fetches (show _ = _ from once ▸ got),.stays,.stays⟩
  | tileSend pc more => exact ⟨.stays,.sends _,.stays⟩
  | infFetch pc more got => exact ⟨.stays,.fetches (show _ = _ from once ▸ got),.stays⟩
  | stitchSend pc => exact ⟨.stays,.stays,.sends _⟩
  | stitchFetch pc got => exact ⟨.stays,.stays,.fetches (show _ = _ from once ▸ got)⟩
  | segFinish pc ran | infFinish pc ran | stitchFinish pc ran =>
    have lanes := finish_lanes ran
    refine ⟨?_,?_,?_⟩
    · simp only [lanes.segSess]; exact .stays
    · simp only [lanes.infSess]; exact .stays
    · simp only [lanes.stitchSess]; exact .stays
  | infOk pc good named got | infFailed pc bad got =>
    obtain ⟨_,_,rfl⟩ := got_only got
    exact ⟨.stays,.stays,.stays⟩
  | _ => exact ⟨.stays,.stays,.stays⟩

def SplitOk (s : State) (imageId : Option Nat) : Prop :=
  ∃ i, imageId = some i ∧ ∃ out ∈ s.segSess.fetched, out.task = i ∧ out.good = true

theorem SplitOk.later (split : SplitOk s imageId) (moves : SessionMoves s next) : SplitOk next imageId := by
  obtain ⟨i,named,out,member,rest⟩ := split
  exact ⟨i,named,out,moves.seg.fetched member,rest⟩

structure SplitFirst (s : State) : Prop where
  held : ∀ out, s.seg = .received out → out ∈ s.segSess.fetched
  splitting : ∀ imageId tile, s.seg = .tiles imageId tile → SplitOk s imageId
  split : ∀ task ∈ s.infSess.submitted, SplitOk s task.imageId

theorem SplitFirst.keep (first : SplitFirst s) (moves : SessionMoves s next) (seg : next.seg = s.seg)
    (sent : next.infSess.submitted = s.infSess.submitted) : SplitFirst next where
  held out pc := moves.seg.fetched (first.held out (seg ▸ pc))
  splitting imageId tile pc := (first.splitting imageId tile (seg ▸ pc)).later moves
  split task member := (first.split task (sent ▸ member)).later moves

theorem SplitFirst.away (first : SplitFirst s) (moves : SessionMoves s next) (sent : next.infSess.submitted = s.infSess.submitted)
    (idle : ∀ out, next.seg ≠ .received out) (still : ∀ imageId tile, next.seg ≠ .tiles imageId tile) : SplitFirst next where
  held out pc := absurd pc (idle out)
  splitting imageId tile pc := absurd pc (still imageId tile)
  split task member := (first.split task (sent ▸ member)).later moves

theorem step_splitFirst (held : Held false s) (first : SplitFirst s) (step : Step c s action next) (once : action.once) :
    SplitFirst next := by
  have moves := step_sessions step once
  cases step with
  | @segFetch out again session pc more got =>
    refine ⟨fun other same => ?_,fun _ _ same => (by cases same),fun task member => (first.split task member).later moves⟩
    cases same
    simp only [(fetch_parts got).2.2.1]
    exact List.mem_cons_self
  | @segSplit out pc good =>
    refine ⟨fun _ same => (by cases same),fun imageId tile same => ?_,fun task member => (first.split task member).later moves⟩
    cases same
    exact ⟨out.task,good_reply (by simpa using held.seg out pc) good,out,first.held out pc,rfl,good⟩
  | @tileSend imageId tile pc more =>
    have split := first.splitting imageId tile pc
    refine ⟨fun _ same => (by cases same),fun other _ same => (by cases same; exact split.later moves),?_⟩
    intro task member
    rcases List.mem_cons.mp member with rfl | old
    · exact split.later moves
    · exact (first.split task old).later moves
  | @segFinish at_ after flow pc ran =>
    have sent : after.infSess.submitted = s.infSess.submitted := by rw [(finish_lanes ran).infSess]
    exact first.away moves sent (by cases flow <;> simp [segAfter]) (by cases flow <;> simp [segAfter])
  | segExit pc all | segFailed pc bad | tilesSent pc all => exact first.away moves rfl (by simp) (by simp)
  | infFinish pc ran | stitchFinish pc ran =>
    have lanes := finish_lanes ran
    exact first.keep moves lanes.seg (by simp only [lanes.infSess])
  | infFetch pc more got => exact first.keep moves rfl (fetch_parts got).2.1
  | infOk pc good named got | infFailed pc bad got =>
    obtain ⟨_,_,rfl⟩ := got_only got
    exact first.keep moves rfl rfl
  | _ => exact first.keep moves rfl rfl

theorem Lives.next_tile (lives : Lives strict c s) (pc : s.seg = .tiles (some i) tile) : tilesOf s.infSess.submitted i = tile := by
  obtain ⟨stage,_,_,view⟩ := lives.staged i
  have seg : segAt i s.seg = (stage.tally c.nTiles).seg := congrArg Tally.seg view
  have sent : tilesOf s.infSess.submitted i = (stage.tally c.nTiles).tilesSent := congrArg Tally.tilesSent view
  have place : (stage.tally c.nTiles).seg = .tiles tile := seg.symm.trans (by simp [pc,segAt])
  rw [sent]
  rcases Stage.of_tiles place with ⟨_,_,_,_,rfl⟩ | ⟨rfl,_,at_,rfl⟩
  · rfl
  · cases at_ <;> rfl

structure Numbered (s : State) : Prop where
  below : ∀ task ∈ s.infSess.submitted, ∀ i, task.imageId = some i → task.tile < tilesOf s.infSess.submitted i
  distinct : s.infSess.submitted.Nodup

theorem step_numbered (lives : Lives strict c s) (first : SplitFirst s) (numbered : Numbered s) (step : Step c s action next) :
    Numbered next := by
  obtain ⟨below,distinct⟩ := numbered
  cases step with
  | @tileSend imageId tile pc more =>
    obtain ⟨i,rfl,_⟩ := first.splitting imageId tile pc
    have count := lives.next_tile pc
    have more : tilesOf (⟨some i,tile⟩ :: s.infSess.submitted) i = tile+1 := by simp [tilesOf,← count]
    refine ⟨fun task member j named => ?_,List.nodup_cons.mpr ⟨fun old => ?_,distinct⟩⟩
    · rcases List.mem_cons.mp member with rfl | old
      · cases named
        exact Nat.lt_of_lt_of_eq (Nat.lt_succ_self tile) more.symm
      · refine Nat.lt_of_lt_of_le (below task old j named) ?_
        exact (List.sublist_cons_self _ _).countP_le
    · exact absurd (below _ old i rfl) (by simp only [count]; omega)
  | segFinish pc ran | infFinish pc ran | stitchFinish pc ran =>
    have same := (finish_lanes ran).infSess
    exact ⟨by simpa only [same] using below,by simpa only [same] using distinct⟩
  | infFetch pc more got =>
    have same := (fetch_parts got).2.1
    exact ⟨by simpa only [same] using below,by simpa only [same] using distinct⟩
  | infOk pc good named got | infFailed pc bad got =>
    obtain ⟨_,_,rfl⟩ := got_only got
    exact ⟨below,distinct⟩
  | _ => exact ⟨below,distinct⟩

def InOrder (c : Config) (s : State) : Prop := s.segSess.submitted = (List.range (segSent c s.submitter)).reverse

theorem step_inOrder (range : InRange c s.submitter) (order : InOrder c s) (step : Step c s action next) : InOrder c next := by
  unfold InOrder at order ⊢
  cases step with
  | acquire pc left free | register pc => simpa [pc,segSent,State.setFrame] using order
  | @submitted i pc none =>
    rw [pc] at range order
    have all : i = c.count := by simp only [InRange] at range; omega
    simpa [segSent,all] using order
  | @send i pc =>
    rw [pc] at order
    simp only [segSent] at order
    simp [Session.send,segSent,order,List.range_succ]
  | segFinish pc ran | infFinish pc ran | stitchFinish pc ran =>
    have lanes := finish_lanes ran
    simpa [lanes.segSess,lanes.submitter] using order
  | segFetch pc more got => simpa [(fetch_parts got).2.1] using order
  | infOk pc good named got | infFailed pc bad got =>
    obtain ⟨_,_,rfl⟩ := got_only got
    exact order
  | _ => exact order

theorem InOrder.nodup (order : InOrder c s) : s.segSess.submitted.Nodup := by
  rw [order,List.nodup_reverse]
  exact List.nodup_range

theorem Session.Balanced.apart {session : Session Task} (balanced : session.Balanced) (distinct : session.submitted.Nodup)
    (member : out ∈ session.fetched) : out.task ∉ session.pending := fun waits =>
  (List.nodup_append.mp (balanced.nodup_iff.mpr distinct)).2.2 _ (List.mem_map_of_mem member) _ waits rfl

theorem Session.Balanced.pending {session : Session Task} (balanced : session.Balanced) (waits : task ∈ session.pending) :
    task ∈ session.submitted := balanced.mem_iff.mp (List.mem_append_right _ waits)

theorem Session.Balanced.answered {session : Session Task} (balanced : session.Balanced) (member : out ∈ session.fetched) :
    out.task ∈ session.submitted := balanced.mem_iff.mp (List.mem_append_left _ (List.mem_map_of_mem member))

-- The order of a run in which nothing comes twice.
structure Ordered (c : Config) (s : State) : Prop where
  lives : Lives false c s
  tiled : Tiled c s
  seg : s.segSess.Balanced
  inf : s.infSess.Balanced
  stitch : s.stitchSess.Balanced
  order : InOrder c s
  numbered : Numbered s
  first : SplitFirst s

theorem initial_ordered (c : Config) : Ordered c (start c) where
  lives := initial_lives false c
  tiled := initial_tiled c
  seg := .refl _
  inf := .refl _
  stitch := .refl _
  order := rfl
  numbered := ⟨fun _ member => absurd member List.not_mem_nil,List.nodup_nil⟩
  first := ⟨fun _ pc => (by cases pc),fun _ _ pc => (by cases pc),fun _ member => absurd member List.not_mem_nil⟩

theorem Ordered.tile_sent (ordered : Ordered c s) (sent : ⟨some i,tile⟩ ∈ s.infSess.submitted) : i ∈ s.segSess.submitted := by
  obtain ⟨_,named,out,member,rfl,_⟩ := ordered.first.split _ sent
  cases named
  exact ordered.seg.answered member

theorem Ordered.stitch_sent (ordered : Ordered c s) (tiles : 0 < c.nTiles) (sent : i ∈ s.stitchSess.submitted) :
    i ∈ s.segSess.submitted := by
  obtain ⟨out,member,task,_⟩ := ordered.tiled.complete i (List.mem_append_right _ sent) 0 tiles
  have answered := ordered.inf.answered member
  rw [task] at answered
  exact ordered.tile_sent answered

theorem Ordered.sent_below (ordered : Ordered c s) (sent : i ∈ s.segSess.submitted) : i < c.count := by
  rw [ordered.order,List.mem_reverse,List.mem_range] at sent
  exact Nat.lt_of_lt_of_le sent (segSent_le ordered.lives.sound.slots.2.1)

theorem Ordered.stitched_nodup (ordered : Ordered c s) : (s.stitchSess.fetched.map (·.task)).Nodup := by
  have distinct : s.stitchSess.submitted.Nodup := (List.nodup_append.mp ordered.lives.sound.dispatched.1).2.1
  exact (List.nodup_append.mp (ordered.stitch.nodup_iff.mpr distinct)).1

theorem Ordered.freshTile (ordered : Ordered c s) (step : Step c s action next) (delivers : Delivers false action) :
    FreshTile s action := by
  cases step with
  | @infFetch out again session pc more got =>
    intro i got' err named data earlier member same
    obtain ⟨old,whose⟩ := List.mem_filter.mp member
    have whose : (reply earlier).imageId = some i := by simpa using whose
    have honest : Honest out out.task.imageId := delivers.replies
    have mine : out.task.imageId = some i := by
      rcases honest_reply honest with named' | none
      · exact named'.symm.trans named
      · rw [none] at named; cases named
    have theirs := ((ordered.tiled.answered earlier old).2 i whose).1
    have waits := (fetch_once got delivers.once).1
    have equal : earlier.task = out.task := by
      cases task : earlier.task with
      | mk imageId tile =>
        cases task' : out.task with
        | mk imageId' tile' => simp_all
    exact ordered.inf.apart ordered.numbered.distinct old (equal ▸ waits)
  | _ => trivial

theorem step_ordered (ordered : Ordered c s) (step : Step c s action next) (delivers : Delivers false action) : Ordered c next := by
  have moves := step_sessions step delivers.once
  exact {
    lives := step_lives ordered.lives step delivers
    tiled := step_tiled ordered.lives.sound ordered.tiled step delivers.replies (ordered.freshTile step delivers)
    seg := moves.seg.balanced ordered.seg
    inf := moves.inf.balanced ordered.inf
    stitch := moves.stitch.balanced ordered.stitch
    order := step_inOrder ordered.lives.sound.slots.2.1 ordered.order step
    numbered := step_numbered ordered.lives ordered.first ordered.numbered step
    first := step_splitFirst ordered.lives.held ordered.first step delivers.once}

theorem reached_ordered (path : Runs.Reached (step c) (fun _ action => Delivers false action) (start c) s) : Ordered c s :=
  path.invariant (Ordered c) (initial_ordered c) fun _ _ _ ordered delivers taken =>
    step_ordered ordered (step_sound taken) delivers

theorem Lives.unstitched (lives : Lives strict c s) (data : (core s i).data = some (got,err,false,done)) :
    i ∉ s.stitchSess.submitted := by
  intro sent
  obtain ⟨_,_,marked⟩ := lives.sound.dispatched.2 i (List.mem_append_right _ sent)
  obtain ⟨frame,known,same⟩ := Option.map_eq_some_iff.mp data
  obtain ⟨frame',known',same'⟩ := Option.map_eq_some_iff.mp marked
  rw [known] at known'
  cases known'
  simp only [Prod.mk.injEq] at same same'
  exact absurd (same.2.2.1.symm.trans same'.2.2) (by simp)

theorem unremoved (view : tally s i = stage) (none : stage.core.removed = 0) : i ∉ s.removed :=
  List.count_eq_zero.mp ((congrArg (fun view => view.core.removed) view).trans none)

-- While the segment task of a frame is out nothing of it was sent on.
structure SegOut (s : State) (i : Nat) : Prop where
  tiles : ∀ task ∈ s.infSess.submitted, task.imageId ≠ some i
  stitch : i ∉ s.stitchSess.submitted
  removed : i ∉ s.removed
  fresh : ∀ out ∈ s.segSess.fetched, out.task ≠ i

-- While one of its tiles is out the frame is split and not yet stitched.
structure InfOut (c : Config) (s : State) (i tile : Nat) : Prop where
  number : tile < c.nTiles
  split : SplitOk s (some i)
  stitch : i ∉ s.stitchSess.submitted
  removed : i ∉ s.removed
  fresh : ∀ out ∈ s.infSess.fetched, out.task ≠ ⟨some i,tile⟩

-- While its stitch task is out every tile of the frame is in.
structure StitchOut (c : Config) (s : State) (i : Nat) : Prop where
  tiles : TilesReceived c s i
  removed : i ∉ s.removed
  fresh : ∀ out ∈ s.stitchSess.fetched, out.task ≠ i

theorem Ordered.segOut (ordered : Ordered c s) (waits : i ∈ s.segSess.pending) : SegOut s i := by
  obtain ⟨stage,_,_,view⟩ := ordered.lives.staged i
  have queue : s.segSess.pending.count i = (stage.tally c.nTiles).segQueue := congrArg Tally.segQueue view
  obtain rfl := Stage.of_segQueue (queue ▸ List.count_pos_iff.mpr waits)
  have none : tilesOf s.infSess.submitted i = 0 := congrArg Tally.tilesSent view
  refine ⟨fun task member named => ?_,ordered.lives.unstitched (congrArg (fun view => view.core.data) view),
    unremoved view rfl,fun out member same => ?_⟩
  · exact absurd (tilesOf_pos member named) (by omega)
  · exact ordered.seg.apart ordered.order.nodup member (same ▸ waits)

theorem Ordered.infOut (ordered : Ordered c s) (waits : ⟨some i,tile⟩ ∈ s.infSess.pending) : InfOut c s i tile := by
  obtain ⟨stage,_,_,view⟩ := ordered.lives.staged i
  have queue : tilesOf s.infSess.pending i = (stage.tally c.nTiles).infQueue := congrArg Tally.infQueue view
  obtain ⟨_,_,_,_,_,_,rfl⟩ := Stage.of_infQueue (queue ▸ tilesOf_pos waits rfl)
  refine ⟨ordered.tiled.sent _ (List.mem_append_right _ waits),ordered.first.split _ (ordered.inf.pending waits),
    ordered.lives.unstitched (congrArg (fun view => view.core.data) view),unremoved view rfl,fun out member same => ?_⟩
  exact ordered.inf.apart ordered.numbered.distinct member (same ▸ waits)

theorem Ordered.stitchOut (ordered : Ordered c s) (waits : i ∈ s.stitchSess.pending) : StitchOut c s i := by
  obtain ⟨stage,_,_,view⟩ := ordered.lives.staged i
  have queue : s.stitchSess.pending.count i = (stage.tally c.nTiles).stitchQueue := congrArg Tally.stitchQueue view
  obtain ⟨_,_,rfl⟩ := Stage.of_stitchQueue (queue ▸ List.count_pos_iff.mpr waits)
  have distinct : s.stitchSess.submitted.Nodup := (List.nodup_append.mp ordered.lives.sound.dispatched.1).2.1
  refine ⟨ordered.tiled.complete i (List.mem_append_right _ (ordered.stitch.pending waits)),
    unremoved view rfl,fun out member same => ?_⟩
  exact ordered.stitch.apart distinct member (same ▸ waits)

end SymphonyAkida.ShardClient
