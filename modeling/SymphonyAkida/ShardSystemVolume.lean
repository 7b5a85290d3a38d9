import SymphonyAkida.ShardSystemRecords

namespace SymphonyAkida.ShardSystem
open TiledShard Outcome Jobs ShardClient

-- The volume has nothing under the frame's image id.
structure Setup.Clear (setup : Setup) (disk : Disk) (i : Nat) : Prop where
  directory : disk.dirs (setup.directory i) = false
  files : ∀ path, under (setup.directory i) path = true → disk.files path = none
  below : ∀ other, under (setup.directory i) other = true → disk.dirs other = false

def Setup.Foreign (setup : Setup) (path : String) : Prop := ∀ i, under (setup.directory i) path = false

structure Tidy (setup : Setup) (first : Disk) (sys : Sys) : Prop where
  clear : ∀ i, i ∉ sys.client.segSess.submitted ∨ i ∈ sys.client.removed → setup.Clear sys.disk i
  files : ∀ path, setup.Foreign path → sys.disk.files path = first.files path
  dirs : ∀ other, setup.Foreign other → (∀ i, other ≠ setup.directory i) → sys.disk.dirs other = first.dirs other

section
variable {setup : Setup} {sys next : Sys}

def dirView (directory : String) : View := ⟨directory,fun _ => False⟩
def fileView (directory path : String) : View := ⟨directory,(· = path)⟩

theorem apart_dir (task : Task) (differ : directory ≠ setup.directory task.frame) : setup.apart task (dirView directory) := by
  cases task with
  | seg i => exact ⟨differ,fun _ inside => inside⟩
  | inf i tile => exact id
  | stitch i => trivial

theorem apart_file (task : Task) (differ : directory ≠ setup.directory task.frame)
    (outside : under (setup.directory task.frame) path = false) : setup.apart task (fileView directory path) := by
  have away : ∀ name, Pipeline.join (setup.directory task.frame) name ≠ path := by
    intro name same
    rw [← same,under_path] at outside
    simp at outside
  cases task with
  | seg i => exact ⟨differ,fun k inside => away _ inside⟩
  | inf i tile => exact fun inside => away _ inside
  | stitch i => trivial

theorem act_within {change : Disk → Disk} (keeps : (rules setup).Keeps task sys.disk (.act change following)) :
    (∀ other, other ≠ setup.directory task.frame → (change sys.disk).dirs other = sys.disk.dirs other) ∧
      ∀ path, under (setup.directory task.frame) path = false → (change sys.disk).files path = sys.disk.files path := by
  refine ⟨fun other differ => ?_,fun path outside => ?_⟩
  · exact (keeps.unseen (apart_dir task differ)).1.symm
  · have differ : setup.directory (task.frame+1) ≠ setup.directory task.frame :=
      fun same => absurd (directory_inj setup same) (Nat.succ_ne_self _)
    exact ((keeps.unseen (apart_file task differ outside)).2 path rfl).symm

theorem trees_apart {i j : Nat} (differ : i ≠ j) (inside : under (setup.directory i) path = true) :
    under (setup.directory j) path = false := by
  rw [← Bool.not_eq_true]
  intro both
  rw [under,List.isPrefixOf_iff_prefix,toList_directory] at inside both
  obtain ⟨_,mine⟩ := inside
  obtain ⟨_,theirs⟩ := both
  have same := mine.trans theirs.symm
  simp only [List.append_assoc,List.append_cancel_left_eq] at same
  exact differ (Nat.repr_injective (String.toList_inj.mp (slash_cancel (slash_repr i) (slash_repr j) same)))

theorem Setup.Clear.moved (clear : setup.Clear disk i) (dirs : ∀ other, other = setup.directory i ∨
    under (setup.directory i) other = true → disk.dirs other = false → later.dirs other = false)
    (files : ∀ path, under (setup.directory i) path = true → disk.files path = none → later.files path = none) :
    setup.Clear later i where
  directory := dirs _ (.inl rfl) clear.directory
  files path inside := files path inside (clear.files path inside)
  below other inside := dirs other (.inr inside) (clear.below other inside)

theorem rmtree_clear (disk : Disk) (i : Nat) : setup.Clear (disk.rmtree (setup.directory i)) i where
  directory := by simp [Disk.rmtree]
  files path inside := by simp [Disk.rmtree,inside]
  below other inside := by simp [Disk.rmtree,inside]

theorem rmtree_keeps {i : Nat} (clear : setup.Clear disk j) : setup.Clear (disk.rmtree (setup.directory i)) j := by
  refine clear.moved (fun other _ gone => ?_) fun path _ gone => ?_
  · simp only [Disk.rmtree]
    split
    · rfl
    · exact gone
  · simp only [Disk.rmtree]
    split
    · rfl
    · exact gone

theorem act_clear {change : Disk → Disk} (keeps : (rules setup).Keeps task sys.disk (.act change following)) (differ : i ≠ task.frame)
    (clear : setup.Clear sys.disk i) : setup.Clear (change sys.disk) i := by
  obtain ⟨dirs,files⟩ := act_within keeps
  refine clear.moved (fun other inside gone => ?_) fun path inside gone => ?_
  · rw [dirs other fun same => ?_]
    · exact gone
    · rcases inside with own | below
      · exact differ (directory_inj setup (own.symm.trans same))
      · rw [same,directory_under] at below
        cases below
  · rw [files path (trees_apart differ inside)]
    exact gone

theorem initial_tidy (clean : ∀ i, setup.Clear disk i) : Tidy setup disk (setup.start disk) where
  clear i _ := clean i
  files _ _ := rfl
  dirs _ _ _ := rfl

theorem waiting_sent (inv : Inv setup sys) (waits : waiting sys.client task = true) : task.frame ∈ sys.client.segSess.submitted := by
  cases task with
  | seg i => exact inv.ordered.seg.pending (waiting_seg.mp waits)
  | inf i tile => exact inv.ordered.tile_sent (inv.ordered.inf.pending (waiting_inf.mp waits))
  | stitch i => exact inv.ordered.stitch_sent (nTiles_pos setup) (inv.ordered.stitch.pending (waiting_stitch.mp waits))

theorem service_tidy (inv : Inv setup sys) (tidy : Tidy setup first sys)
    (step : PoolStep (program setup) (waiting sys.client) sys.pool sys.disk work pool disk) :
    Tidy setup first {sys with pool := pool,disk := disk} := by
  cases step with
  | @act task change following held =>
    obtain ⟨waits,_,keeps⟩ := inv.jobs _ _ held
    obtain ⟨dirs,files⟩ := act_within keeps
    have sent := waiting_sent inv waits
    have there := waiting_unremoved inv.ordered waits
    refine ⟨fun i gone => ?_,fun path foreign => ?_,fun other foreign none => ?_⟩
    · refine act_clear keeps (fun same => ?_) (tidy.clear i gone)
      subst same
      exact gone.elim (· sent) there
    · exact (files path (foreign _)).trans (tidy.files path foreign)
    · exact (dirs other (none _)).trans (tidy.dirs other foreign none)
  | _ => exact ⟨tidy.clear,tidy.files,tidy.dirs⟩

theorem client_tidy (tidy : Tidy setup first sys) (step : ThreadStep sys.client thread client) :
    Tidy setup first {sys with client := client
                               disk := (removes sys.client thread).elim sys.disk fun i => sys.disk.rmtree (setup.directory i)} := by
  have sent : ∀ i, i ∈ sys.client.segSess.submitted → i ∈ client.segSess.submitted := by
    intro i member
    rcases step.seg with same | ⟨j,same⟩
    · exact same ▸ member
    · rw [same]
      exact List.mem_cons_of_mem _ member
  have before : ∀ i, i ∉ client.segSess.submitted ∨ i ∈ client.removed →
      removes sys.client thread = some i ∨ i ∉ sys.client.segSess.submitted ∨ i ∈ sys.client.removed := by
    intro i gone
    rw [step.removed,List.mem_append,Option.mem_toList] at gone
    tauto
  cases gone : removes sys.client thread with
  | none =>
    refine ⟨fun i free => ?_,tidy.files,tidy.dirs⟩
    rcases before i free with now | old
    · rw [gone] at now; cases now
    · exact tidy.clear i old
  | some j =>
    refine ⟨fun i free => ?_,fun path foreign => ?_,fun other foreign none => ?_⟩
    · rcases before i free with now | old
      · rw [gone] at now
        cases now
        exact rmtree_clear sys.disk j
      · exact rmtree_keeps (tidy.clear i old)
    · rw [← tidy.files path foreign]
      simp [Disk.rmtree,foreign j]
    · rw [← tidy.dirs other foreign none]
      simp [Disk.rmtree,none j,foreign j]

theorem step_tidy (along : Along false setup sys) (tidy : Tidy setup first sys) (taken : step setup sys action = some next) :
    Tidy setup first next := by
  cases action with
  | client thread =>
    obtain ⟨after,ran,rfl⟩ := Option.map_eq_some_iff.mp taken
    exact client_tidy tidy (thread_step (step_sound ran))
  | fetch task =>
    obtain ⟨output,held,taken⟩ := Option.bind_eq_some_iff.mp taken
    obtain ⟨after,ran,rfl⟩ := Option.map_eq_some_iff.mp taken
    have moves := step_sessions (step_sound ran) (by cases task <;> rfl)
    refine ⟨fun i gone => tidy.clear i ?_,tidy.files,tidy.dirs⟩
    rw [(fetch_step (step_sound ran)).removed] at gone
    exact gone.imp_left fun unsent sent => unsent (moves.seg.submitted sent)
  | service work =>
    obtain ⟨⟨pool,disk⟩,ran,rfl⟩ := Option.map_eq_some_iff.mp taken
    exact service_tidy along.inv tidy (Jobs.step_sound _ _ ran)

theorem reached_tidy (small : setup.meta_.numClasses ≤ 2^24) (clean : ∀ i, setup.Clear disk i)
    (path : Runs.Reached (step setup) (fun _ _ => True) (setup.start disk) sys) : Tidy setup disk sys :=
  path.invariant_along (Tidy setup disk) (initial_tidy clean) fun _ _ _ prior tidy _ taken =>
    step_tidy (reached_along small (prior.weaken fun _ _ _ given => by cases given)) tidy taken

theorem unremoved_permits {c : Config} {s : State} (ordered : Ordered c s) {frames : List Nat} (distinct : frames.Nodup)
    (there : ∀ i ∈ frames, i ∈ s.segSess.submitted ∧ i ∉ s.removed) : frames.length+s.sem ≤ c.inFlight := by
  have slots := ordered.lives.sound.slots
  have released : s.released.Nodup := (List.nodup_append.mp slots.2.2.2.1).2.1
  have apart : (frames ++ s.released).Nodup := by
    refine List.nodup_append.mpr ⟨distinct,released,?_⟩
    intro i member j done same
    exact (there i member).2 (ordered.lives.released_removed (same ▸ done))
  have below : ∀ i ∈ frames ++ s.released, i < registered c s.submitter := by
    intro i member
    rcases List.mem_append.mp member with waiting | done
    · have sent : some i ∈ ids s := by simp [ids,inSession,(there i waiting).1]
      exact ordered.lives.sound.named _ sent
    · exact slots.done_registered (List.mem_append_right _ done)
  have size := Counting.length_le apart below
  have taken := registered_acquired (c:=c) s.submitter
  have permits := slots.1
  simp only [List.length_append] at size
  omega

theorem disk_eq {a b : Disk} (left : ∀ i, setup.Clear a i) (right : ∀ i, setup.Clear b i)
    (files : ∀ path, setup.Foreign path → a.files path = b.files path)
    (dirs : ∀ other, setup.Foreign other → (∀ i, other ≠ setup.directory i) → a.dirs other = b.dirs other) : a = b := by
  have sameFiles : a.files = b.files := by
    funext path
    by_cases foreign : setup.Foreign path
    · exact files path foreign
    · obtain ⟨i,inside⟩ := not_forall.mp foreign
      rw [Bool.not_eq_false] at inside
      rw [(left i).files path inside,(right i).files path inside]
  have sameDirs : a.dirs = b.dirs := by
    funext other
    by_cases foreign : setup.Foreign other
    · by_cases none : ∀ i, other ≠ setup.directory i
      · exact dirs other foreign none
      · obtain ⟨i,same⟩ := not_forall.mp none
        rw [not_not.mp same,(left i).directory,(right i).directory]
    · obtain ⟨i,inside⟩ := not_forall.mp foreign
      rw [Bool.not_eq_false] at inside
      rw [(left i).below other inside,(right i).below other inside]
  cases a
  cases b
  congr

end

end SymphonyAkida.ShardSystem
