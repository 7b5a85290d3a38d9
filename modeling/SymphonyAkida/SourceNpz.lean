import SymphonyAkida.EvalShardMap

namespace SymphonyAkida.EvalShardMap

-- The first of the least: what min with a key returns.
structure FirstLeast (pool : List Sidecar) (chosen : Sidecar) : Prop where
  split : ∃ before after, pool = before ++ chosen :: after ∧ (∀ side ∈ before, chosen.count < side.count) ∧
    ∀ side ∈ after, chosen.count ≤ side.count

theorem leastCount_first (pool : List Sidecar) (filled : pool ≠ []) :
    ∃ chosen, leastCount pool = some chosen ∧ FirstLeast pool chosen := by
  -- The scan after `done`, of which `best` is the first least.
  have scan : ∀ (rest done : List Sidecar) (best : Sidecar), FirstLeast done best →
      FirstLeast (done ++ rest) (rest.foldl (fun best side => if side.count < best.count then side else best) best) := by
    intro rest
    induction rest with
    | nil => intro done best least; simpa using least
    | cons side rest ih =>
      intro done best least
      obtain ⟨before,after,rfl,lower,others⟩ := least
      have whole : before ++ best :: after ++ side :: rest = (before ++ best :: after ++ [side]) ++ rest := by simp
      rw [whole,List.foldl_cons]
      apply ih
      split
      · rename_i less
        refine ⟨before ++ best :: after,[],rfl,?_,by simp⟩
        intro other member
        rcases List.mem_append.mp member with early | late
        · exact less.trans (lower other early)
        · rcases List.mem_cons.mp late with rfl | late
          · exact less
          · exact lt_of_lt_of_le less (others other late)
      · rename_i more
        refine ⟨before,after ++ [side],by simp,lower,?_⟩
        intro other member
        rcases List.mem_append.mp member with late | last
        · exact others other late
        · rw [List.mem_singleton.mp last]
          exact not_lt.mp more
  cases pool with
  | nil => exact absurd rfl filled
  | cons first rest =>
    refine ⟨_,rfl,?_⟩
    exact scan rest [first] first ⟨[],[],rfl,by simp,by simp⟩

theorem FirstLeast.unique {pool : List Sidecar} (one : FirstLeast pool a) (two : FirstLeast pool b) : a = b := by
  obtain ⟨before,after,rfl,lower,others⟩ := one
  obtain ⟨before',after',same,lower',others'⟩ := two
  -- The two places split the pool alike, or one lies before the other.
  rcases List.append_eq_append_iff.mp same with ⟨more,early,late⟩ | ⟨more,early,late⟩
  · cases more with
    | nil => exact (List.cons.inj late).1
    | cons side more =>
      obtain ⟨rfl,rfl⟩ := List.cons.inj late
      have first := lower' a (by rw [early]; simp)
      have second := others b (by simp)
      exact absurd first (not_lt.mpr second)
  · cases more with
    | nil => exact (List.cons.inj late).1.symm
    | cons side more =>
      obtain ⟨rfl,rfl⟩ := List.cons.inj late
      have first := lower b (by rw [early]; simp)
      have second := others' a (by simp)
      exact absurd first (not_lt.mpr second)

-- Whether a set's dumps carry the other's name in front: the other is the set
-- itself, or its name with "_" begins the set's name.
def Fronts (other set : String) : Prop := other = set ∨ (other.toList ++ ['_']) <+: set.toList

instance (other set : String) : Decidable (Fronts other set) := inferInstanceAs (Decidable (_ ∨ _))

-- Only the set name can hold the "_" the scorer looks for.
theorem named_dump (set : String) (pid : Nat) (side : Sidecar) :
    named (dumpName set pid) side = true ↔ Fronts side.set set := by
  have tail : ∀ c ∈ ['r'] ++ Nat.toDigits 10 pid ++ ".jsonl".toList, c ≠ '_' := by
    intro c member
    rcases List.mem_append.mp member with early | late
    · rcases List.mem_append.mp early with first | digit
      · rw [List.mem_singleton.mp first]; decide
      · rintro rfl
        exact absurd (Nat.isDigit_of_mem_toDigits (by decide) (by decide) digit) (by decide)
    · rintro rfl
      exact absurd late (by decide)
  have shape : (dumpName set pid).toList = (set.toList ++ ['_']) ++ (['r'] ++ Nat.toDigits 10 pid ++ ".jsonl".toList) := by
    simp [dumpName]
  rw [named,List.isPrefixOf_iff_prefix,shape]
  constructor
  · intro given
    obtain ⟨rest,whole⟩ := given
    rw [List.append_assoc,List.append_assoc] at whole
    rcases List.append_eq_append_iff.mp whole with ⟨more,early,late⟩ | ⟨more,early,late⟩
    · cases more with
      | nil => exact .inl (String.toList_inj.mp (by simpa using early.symm))
      | cons c more =>
        obtain ⟨rfl,_⟩ := List.cons.inj late
        exact .inr ⟨more,by rw [early]; simp⟩
    · cases more with
      | nil => exact .inl (String.toList_inj.mp (by simpa using early))
      | cons c more =>
        have inside : ['r'] ++ Nat.toDigits 10 pid ++ ".jsonl".toList = more ++ (['_'] ++ rest) := (List.cons.inj late).2
        refine absurd rfl (tail '_' ?_)
        rw [inside]
        simp
  · intro given
    rcases given with same | inside
    · rw [same]
      exact List.prefix_append _ _
    · exact inside.trans ((List.prefix_append _ _).trans (List.prefix_append _ _))

-- Of the prepared sets whose name fronts the dump's, the first with the least
-- count points to the dump's own kit.
def OwnKitFirst (isFile : String → Bool) (sidecars : List Sidecar) (side : Sidecar) : Prop :=
  ∃ chosen, FirstLeast ((candidates isFile sidecars).filter fun other => decide (Fronts other.set side.set)) chosen ∧
    chosen.sourceNpz = side.sourceNpz

-- A dump is scored against its own kit exactly when no fronting set is in the way.
theorem own_kit (neededFrames : Int) (pid : Nat) (member : side ∈ candidates isFile sidecars) :
    findSourceNpz isFile sidecars (dumpName side.set pid) neededFrames = some side.sourceNpz ↔
      OwnKitFirst isFile sidecars side := by
  have pool : (candidates isFile sidecars).filter (named (dumpName side.set pid)) =
      (candidates isFile sidecars).filter fun other => decide (Fronts other.set side.set) := by
    refine List.filter_congr fun other _ => ?_
    rw [Bool.eq_iff_iff,named_dump,decide_eq_true_eq]
  have filled : (candidates isFile sidecars).filter (fun other => decide (Fronts other.set side.set)) ≠ [] := by
    refine List.ne_nil_of_mem (List.mem_filter.mpr ⟨member,?_⟩)
    exact decide_eq_true (.inl rfl)
  obtain ⟨chosen,found,first⟩ := leastCount_first _ filled
  unfold findSourceNpz
  simp only [pool,found,Option.some.injEq]
  constructor
  · exact fun same => ⟨chosen,first,same⟩
  · intro given
    obtain ⟨other,least,same⟩ := given
    rwa [first.unique least]

-- The sets of the README: the committed kit and the full split.
def committed : Sidecar := ⟨"voc2007",100,"/data/voc2007_test_r448_100.npz",true⟩

def fullSplit : Sidecar := ⟨"voc2007_test_r448",4952,"/data/voc2007_test_r448.npz",true⟩

theorem fullSplit_fronted : Fronts committed.set fullSplit.set := by decide +kernel

theorem own_kit_committed : findSourceNpz (fun _ => true) [committed,fullSplit] (dumpName "voc2007" 17) 100 =
    some "/data/voc2007_test_r448_100.npz" := by
  have only : ([committed,fullSplit].filter fun other => decide (Fronts other.set committed.set)) = [committed] := by
    decide +kernel
  have pool : candidates (fun _ => true) [committed,fullSplit] = [committed,fullSplit] := rfl
  have member : committed ∈ candidates (fun _ => true) [committed,fullSplit] := by rw [pool]; exact List.mem_cons_self
  refine (own_kit 100 17 member).mpr ⟨committed,?_,rfl⟩
  rw [pool,only]
  exact ⟨[],[],rfl,by simp,by simp⟩

-- A dump of the full split is scored against the committed kit.
theorem fullSplit_scored_wrong : ([committed,fullSplit].map (·.set)).Nodup ∧
    fullSplit ∈ candidates (fun _ => true) [committed,fullSplit] ∧ 4952 ≤ fullSplit.count ∧
    findSourceNpz (fun _ => true) [committed,fullSplit] (dumpName "voc2007_test_r448" 17) 4952 =
      some "/data/voc2007_test_r448_100.npz" ∧
    "/data/voc2007_test_r448_100.npz" ≠ fullSplit.sourceNpz := by
  have pool : candidates (fun _ => true) [committed,fullSplit] = [committed,fullSplit] := rfl
  refine ⟨by decide,by rw [pool]; simp,by decide,?_,by decide⟩
  have both : ([committed,fullSplit].filter (named (dumpName "voc2007_test_r448" 17))) = [committed,fullSplit] := by
    apply List.filter_eq_self.mpr
    intro side member
    rw [named_dump]
    rcases List.mem_cons.mp member with rfl | last
    · exact fullSplit_fronted
    · rw [List.mem_singleton.mp last]
      exact .inl rfl
  unfold findSourceNpz
  simp only [pool,both]
  rfl

end SymphonyAkida.EvalShardMap
