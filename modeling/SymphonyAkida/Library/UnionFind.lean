import Mathlib.Data.Finset.Card
import Mathlib.Data.Finset.Range
import Mathlib.Logic.Function.Iterate
import Mathlib.Logic.Relation

namespace UnionFind

-- parent[i], where an index outside the array is its own root.
def link (parent : List Nat) (i : Nat) : Nat := parent.getD i i

-- The walk to the root. Each node passed is re-pointed at its grandparent.
def find : Nat → List Nat → Nat → Option (Nat × List Nat)
  | 0,_,_ => none
  | fuel+1,parent,i =>
    if link parent i = i then some (i,parent)
    else
      let parent := parent.set i (link parent (link parent i))
      find fuel parent (link parent i)

def union (parent : List Nat) (i j : Nat) : Option (List Nat) := do
  let (ri,parent) ← find parent.length parent i
  let (rj,parent) ← find parent.length parent j
  return if ri = rj then parent else parent.set rj ri

def unionAll (parent : List Nat) (pairs : List (Nat × Nat)) : Option (List Nat) :=
  pairs.foldlM (fun parent pair => union parent pair.1 pair.2) parent

inductive RootOf (parent : List Nat) : Nat → Nat → Prop where
  | root (top : link parent i = i) : RootOf parent i i
  | step (up : link parent i ≠ i) (above : RootOf parent (link parent i) r) : RootOf parent i r

def Same (parent : List Nat) (i j : Nat) : Prop := ∃ r, RootOf parent i r ∧ RootOf parent j r

-- No cycles: some rank grows along every link.
def Ranked (parent : List Nat) (rank : Nat → Nat) : Prop :=
  ∀ i, link parent i ≠ i → rank i < rank (link parent i)

structure Forest (parent : List Nat) : Prop where
  bounds : ∀ i < parent.length, link parent i < parent.length
  ranked : ∃ rank, Ranked parent rank

theorem link_beyond (beyond : parent.length ≤ i) : link parent i = i := by
  simp [link,List.getD_eq_getElem?_getD,List.getElem?_eq_none beyond]

theorem link_set (below : i < parent.length) (target x : Nat) :
    link (parent.set i target) x = if x = i then target else link parent x := by
  by_cases same : x = i
  · subst same; simp [link,below]
  · simp [link,same,List.getElem?_set_ne (Ne.symm same)]

theorem below_of_up (up : link parent i ≠ i) : i < parent.length := by
  by_contra beyond
  exact up (link_beyond (Nat.le_of_not_lt beyond))

theorem RootOf.unique (left : RootOf parent i r) (right : RootOf parent i t) : r = t := by
  induction left with
  | root top =>
    cases right with
    | root => rfl
    | step up => exact absurd top up
  | step up above ih =>
    cases right with
    | root top => exact absurd top up
    | step _ other => exact ih other

theorem RootOf.top (rooted : RootOf parent i r) : link parent r = r := by
  induction rooted with
  | root top => exact top
  | step _ _ ih => exact ih

theorem RootOf.up (rooted : RootOf parent i r) : RootOf parent (link parent i) r := by
  cases rooted with
  | root top => rw [top]; exact .root top
  | step _ above => exact above

theorem RootOf.down (rooted : RootOf parent (link parent i) r) : RootOf parent i r := by
  by_cases top : link parent i = i
  · rwa [top] at rooted
  · exact .step top rooted

theorem RootOf.inside (forest : Forest parent) (rooted : RootOf parent i r) (below : i < parent.length) :
    r < parent.length := by
  induction rooted with
  | root => exact below
  | @step i r up above ih => exact ih (forest.bounds i below)

def height (parent : List Nat) (rank : Nat → Nat) (i : Nat) : Nat :=
  ((Finset.range parent.length).filter fun j => rank i < rank j).card

theorem height_link (forest : Forest parent) (ranked : Ranked parent rank) (up : link parent i ≠ i) :
    height parent rank (link parent i) < height parent rank i := by
  apply Finset.card_lt_card
  rw [Finset.ssubset_iff_of_subset]
  · refine ⟨link parent i,?_,?_⟩
    · simp only [Finset.mem_filter,Finset.mem_range]
      exact ⟨forest.bounds i (below_of_up up),ranked i up⟩
    · simp
  · intro j member
    simp only [Finset.mem_filter] at member ⊢
    exact ⟨member.1,Nat.lt_trans (ranked i up) member.2⟩

theorem height_lt (below : i < parent.length) : height parent rank i < parent.length := by
  have strict : ((Finset.range parent.length).filter fun j => rank i < rank j) ⊂
      Finset.range parent.length := by
    rw [Finset.ssubset_iff_of_subset (Finset.filter_subset _ _)]
    exact ⟨i,Finset.mem_range.mpr below,by simp⟩
  simpa [height] using Finset.card_lt_card strict

theorem Forest.root_exists (forest : Forest parent) (i : Nat) : ∃ r, RootOf parent i r := by
  obtain ⟨rank,ranked⟩ := forest.ranked
  induction n : height parent rank i using Nat.strong_induction_on generalizing i with
  | _ n ih =>
    by_cases top : link parent i = i
    · exact ⟨i,.root top⟩
    · obtain ⟨r,above⟩ := ih _ (n ▸ height_link forest ranked top) (link parent i) rfl
      exact ⟨r,.step top above⟩

def halve (parent : List Nat) (i : Nat) : List Nat := parent.set i (link parent (link parent i))

theorem halve_link (up : link parent i ≠ i) (x : Nat) :
    link (halve parent i) x = if x = i then link parent (link parent i) else link parent x :=
  link_set (below_of_up up) _ x

theorem halve_ranked (ranked : Ranked parent rank) (up : link parent i ≠ i) :
    Ranked (halve parent i) rank := by
  intro x moved
  rw [halve_link up] at moved ⊢
  split
  · subst x
    have first := ranked i up
    by_cases top : link parent (link parent i) = link parent i
    · rwa [top]
    · exact Nat.lt_trans first (ranked _ top)
  · rename_i other
    rw [if_neg other] at moved
    exact ranked x moved

theorem halve_forest (forest : Forest parent) (up : link parent i ≠ i) : Forest (halve parent i) := by
  obtain ⟨rank,ranked⟩ := forest.ranked
  refine ⟨?_,rank,halve_ranked ranked up⟩
  intro x below
  have size : (halve parent i).length = parent.length := List.length_set
  rw [size] at below ⊢
  rw [halve_link up]
  split
  · exact forest.bounds _ (forest.bounds i (below_of_up up))
  · exact forest.bounds x below

theorem halve_keeps (forest : Forest parent) (up : link parent i ≠ i) (rooted : RootOf parent x r) :
    RootOf (halve parent i) x r := by
  obtain ⟨rank,ranked⟩ := forest.ranked
  induction rooted with
  | @root x top =>
    refine .root ?_
    rw [halve_link up]
    split
    · subst x; exact absurd top up
    · exact top
  | @step x r upward above ih =>
    apply RootOf.down
    rw [halve_link up]
    split
    · subst x
      have other : link parent i ≠ i := up
      have higher := ih.up
      rwa [halve_link up,if_neg other] at higher
    · exact ih

theorem halve_root (forest : Forest parent) (up : link parent i ≠ i) :
    RootOf (halve parent i) x r ↔ RootOf parent x r := by
  constructor
  · intro rooted
    obtain ⟨old,known⟩ := forest.root_exists x
    rwa [(halve_keeps forest up known).unique rooted] at known
  · exact halve_keeps forest up

structure Compressed (parent next : List Nat) : Prop where
  forest : Forest next
  size : next.length = parent.length
  roots : ∀ x r, RootOf next x r ↔ RootOf parent x r

theorem find_spec (forest : Forest parent) (ranked : Ranked parent rank)
    (enough : height parent rank i < fuel) :
    ∃ r next, find fuel parent i = some (r,next) ∧ RootOf parent i r ∧ Compressed parent next := by
  induction fuel generalizing parent i with
  | zero => exact absurd enough (Nat.not_lt_zero _)
  | succ fuel ih =>
    unfold find
    by_cases top : link parent i = i
    · exact ⟨i,parent,by simp [top],.root top,forest,rfl,fun _ _ => Iff.rfl⟩
    · rw [if_neg top]
      have size : (halve parent i).length = parent.length := List.length_set
      have at_ : link (halve parent i) i = link parent (link parent i) := by
        rw [halve_link top,if_pos rfl]
      have lower : height (halve parent i) rank (link (halve parent i) i) < fuel := by
        have first := height_link forest ranked top
        have second : height parent rank (link parent (link parent i)) ≤
            height parent rank (link parent i) := by
          by_cases higher : link parent (link parent i) = link parent i
          · rw [higher]
          · exact Nat.le_of_lt (height_link forest ranked higher)
        rw [at_,height,size]
        unfold height at first second enough
        omega
      obtain ⟨r,next,found,rooted,compressed⟩ :=
        ih (halve_forest forest top) (halve_ranked ranked top) lower
      refine ⟨r,next,found,?_,compressed.forest,compressed.size.trans size,fun x t => ?_⟩
      · rw [at_,halve_root forest top] at rooted
        exact rooted.down.down
      · rw [compressed.roots,halve_root forest top]

theorem find_total (forest : Forest parent) (below : i < parent.length) :
    ∃ r next, find parent.length parent i = some (r,next) ∧ RootOf parent i r ∧
      Compressed parent next := by
  obtain ⟨rank,ranked⟩ := forest.ranked
  exact find_spec forest ranked (height_lt below)

-- More fuel changes nothing: the walk is over.
theorem find_fuel (more : fuel ≤ other) (found : find fuel parent i = some out) : find other parent i = some out := by
  induction fuel generalizing parent i other with
  | zero => cases found
  | succ fuel ih =>
    obtain ⟨rest,rfl⟩ := Nat.exists_eq_add_of_le more
    rw [Nat.add_right_comm]
    unfold find at found ⊢
    split at found
    · rename_i top
      rw [if_pos top]
      exact found
    · rename_i up
      rw [if_neg up]
      exact ih (Nat.le_add_right _ _) found

-- Following the links never leads back, but at a root.
theorem Forest.acyclic (forest : Forest parent) (cycle : (link parent)^[k+1] i = i) : link parent i = i := by
  obtain ⟨rank,ranked⟩ := forest.ranked
  have climbs : ∀ (k x : Nat), rank x ≤ rank ((link parent)^[k] x) := by
    intro k
    induction k with
    | zero => exact fun x => Nat.le_refl _
    | succ k ih =>
      intro x
      rw [Function.iterate_succ_apply]
      have later := ih (link parent x)
      by_cases top : link parent x = x
      · rwa [top] at later ⊢
      · exact Nat.le_trans (Nat.le_of_lt (ranked x top)) later
  by_contra up
  have first := ranked i up
  have back := climbs k (link parent i)
  rw [← Function.iterate_succ_apply,cycle] at back
  omega

theorem attach_root (down : j < parent.length) (top : link parent j = j) (other : link parent i = i)
    (distinct : i ≠ j) (rooted : RootOf parent x r) :
    RootOf (parent.set j i) x (if r = j then i else r) := by
  have lead : RootOf (parent.set j i) i i := .root (by rw [link_set down,if_neg distinct]; exact other)
  induction rooted with
  | @root x self =>
    by_cases same : x = j
    · rw [if_pos same]
      apply RootOf.down
      rw [link_set down,if_pos same]
      exact lead
    · rw [if_neg same]
      exact .root (by rw [link_set down,if_neg same]; exact self)
  | @step x r up above ih =>
    have inner : x ≠ j := fun same => up (same ▸ top)
    apply RootOf.down
    rw [link_set down,if_neg inner]
    exact ih

open Classical in
theorem attach_forest (forest : Forest parent) (down : j < parent.length) (top : link parent j = j)
    (up : i < parent.length) (other : link parent i = i) (distinct : i ≠ j) :
    Forest (parent.set j i) := by
  obtain ⟨rank,ranked⟩ := forest.ranked
  refine ⟨?_,fun x => if RootOf parent x j then rank x else rank x+rank j+1,?_⟩
  · intro x below
    rw [List.length_set] at below ⊢
    rw [link_set down]
    split
    · exact up
    · exact forest.bounds x below
  · intro x moved
    rw [link_set down] at moved ⊢
    by_cases same : x = j
    · subst x
      have outside : ¬RootOf parent i j := fun rooted => distinct (rooted.unique (.root other)).symm
      have inside : RootOf parent j j := .root top
      simp only [inside,outside,if_true,if_false]
      omega
    · rw [if_neg same] at moved ⊢
      have grows := ranked x moved
      have tree : RootOf parent (link parent x) j ↔ RootOf parent x j := ⟨RootOf.down,RootOf.up⟩
      simp only [tree]
      split <;> omega

theorem union_spec (forest : Forest parent) (first : i < parent.length) (second : j < parent.length) :
    ∃ next, union parent i j = some next ∧ Forest next ∧ next.length = parent.length ∧
      ∃ ri rj, RootOf parent i ri ∧ RootOf parent j rj ∧
        ∀ x r, RootOf parent x r → RootOf next x (if r = rj then ri else r) := by
  obtain ⟨ri,left,foundLeft,rootLeft,keptLeft⟩ := find_total forest first
  obtain ⟨rj,right,foundRight,rootRight,keptRight⟩ :=
    find_total keptLeft.forest (keptLeft.size.symm ▸ second)
  rw [keptLeft.roots] at rootRight
  have roots : ∀ x r, RootOf right x r ↔ RootOf parent x r := fun x r =>
    (keptRight.roots x r).trans (keptLeft.roots x r)
  have size : right.length = parent.length := keptRight.size.trans keptLeft.size
  have ran : union parent i j = some (if ri = rj then right else right.set rj ri) := by
    simp [union,foundLeft,foundRight]
  rw [ran]
  by_cases same : ri = rj
  · rw [if_pos same]
    refine ⟨right,rfl,keptRight.forest,size,ri,rj,rootLeft,rootRight,fun x r rooted => ?_⟩
    have kept := (roots x r).mpr rooted
    split
    · rename_i equal; rwa [equal,← same] at kept
    · exact kept
  · rw [if_neg same]
    have topLeft := ((roots i ri).mpr rootLeft).top
    have topRight := ((roots j rj).mpr rootRight).top
    have inLeft : ri < right.length := size.symm ▸ rootLeft.inside forest first
    have inRight : rj < right.length := size.symm ▸ rootRight.inside forest second
    refine ⟨_,rfl,attach_forest keptRight.forest inRight topRight inLeft topLeft same,
      List.length_set.trans size,ri,rj,rootLeft,rootRight,fun x r rooted => ?_⟩
    exact attach_root inRight topRight topLeft same ((roots x r).mpr rooted)

theorem Same.refl (forest : Forest parent) (x : Nat) : Same parent x x := by
  obtain ⟨r,rooted⟩ := forest.root_exists x
  exact ⟨r,rooted,rooted⟩

theorem Same.symm (same : Same parent x y) : Same parent y x := by
  obtain ⟨r,left,right⟩ := same
  exact ⟨r,right,left⟩

theorem Same.trans (left : Same parent x y) (right : Same parent y z) : Same parent x z := by
  obtain ⟨r,first,second⟩ := left
  obtain ⟨t,third,fourth⟩ := right
  rw [third.unique second] at fourth
  exact ⟨r,first,fourth⟩

-- The array holds the classes generated by the pairs united so far.
structure Partitions (parent : List Nat) (n : Nat) (joined : Nat → Nat → Prop) : Prop where
  forest : Forest parent
  size : parent.length = n
  classes : ∀ x y, Same parent x y ↔ Relation.EqvGen joined x y

theorem range_link (n i : Nat) : link (List.range n) i = i := by
  by_cases below : i < n
  · simp [link,below]
  · exact link_beyond (by simpa using below)

theorem range_partitions (n : Nat) : Partitions (List.range n) n fun _ _ => False := by
  refine ⟨⟨fun i below => by rwa [range_link],fun _ => 0,fun i up => absurd (range_link n i) up⟩,
    List.length_range,fun x y => ?_⟩
  constructor
  · intro given
    obtain ⟨r,left,right⟩ := given
    have first := left.unique (.root (range_link n x))
    have second := right.unique (.root (range_link n y))
    subst first second
    exact .refl _
  · intro related
    induction related with
    | rel _ _ impossible => exact impossible.elim
    | refl x => exact ⟨x,.root (range_link n x),.root (range_link n x)⟩
    | symm _ _ _ ih => exact ih.symm
    | trans _ _ _ _ _ left right => exact left.trans right

theorem union_partitions (parts : Partitions parent n joined) (first : i < n) (second : j < n) :
    ∃ next, union parent i j = some next ∧
      Partitions next n fun a b => joined a b ∨ (a = i ∧ b = j) := by
  obtain ⟨forest,size,classes⟩ := parts
  subst size
  obtain ⟨next,ran,later,kept,ri,rj,rootLeft,rootRight,moved⟩ := union_spec forest first second
  refine ⟨next,ran,later,kept,fun x y => ?_⟩
  have old : ∀ a b, Relation.EqvGen joined a b →
      Relation.EqvGen (fun a b => joined a b ∨ (a = i ∧ b = j)) a b :=
    fun a b related => by
      have wider : joined ≤ fun a b => joined a b ∨ (a = i ∧ b = j) := fun _ _ => Or.inl
      exact Relation.EqvGen.mono wider a b related
  have joins : Relation.EqvGen (fun a b => joined a b ∨ (a = i ∧ b = j)) i j :=
    .rel _ _ (.inr ⟨rfl,rfl⟩)
  constructor
  · intro given
    obtain ⟨t,left,right⟩ := given
    obtain ⟨r,rootX⟩ := forest.root_exists x
    obtain ⟨u,rootY⟩ := forest.root_exists y
    -- A class changes only by i's class taking in j's.
    have equal : (if r = rj then ri else r) = if u = rj then ri else u :=
      ((moved x r rootX).unique left).trans ((moved y u rootY).unique right).symm
    by_cases inX : r = rj
    · have toJ := old _ _ ((classes x j).mp ⟨rj,inX ▸ rootX,rootRight⟩)
      by_cases inY : u = rj
      · exact .trans _ _ _ toJ (.symm _ _ (old _ _ ((classes y j).mp ⟨rj,inY ▸ rootY,rootRight⟩)))
      · rw [if_pos inX,if_neg inY] at equal
        have toI := old _ _ ((classes y i).mp ⟨ri,equal ▸ rootY,rootLeft⟩)
        exact .trans _ _ _ toJ (.trans _ _ _ (.symm _ _ joins) (.symm _ _ toI))
    · by_cases inY : u = rj
      · rw [if_neg inX,if_pos inY] at equal
        have toI := old _ _ ((classes x i).mp ⟨ri,equal ▸ rootX,rootLeft⟩)
        have toJ := old _ _ ((classes y j).mp ⟨rj,inY ▸ rootY,rootRight⟩)
        exact .trans _ _ _ toI (.trans _ _ _ joins (.symm _ _ toJ))
      · rw [if_neg inX,if_neg inY] at equal
        exact old _ _ ((classes x y).mp ⟨r,rootX,equal ▸ rootY⟩)
  · have same : ∀ a b, Same parent a b → Same next a b := by
      rintro a b ⟨r,left,right⟩
      exact ⟨_,moved a r left,moved b r right⟩
    intro related
    induction related with
    | rel a b pair =>
      rcases pair with pair | ⟨rfl,rfl⟩
      · exact same a b ((classes a b).mpr (.rel _ _ pair))
      · have left := moved a ri rootLeft
        have right := moved b rj rootRight
        rw [if_pos rfl] at right
        split at left
        · exact ⟨ri,left,right⟩
        · exact ⟨ri,left,right⟩
    | refl a => exact Same.refl later a
    | symm _ _ _ ih => exact ih.symm
    | trans _ _ _ _ _ left right => exact left.trans right

theorem unionAll_partitions (parts : Partitions parent n joined)
    (inside : ∀ pair ∈ pairs, pair.1 < n ∧ pair.2 < n) :
    ∃ next, unionAll parent pairs = some next ∧
      Partitions next n fun a b => joined a b ∨ (a,b) ∈ pairs := by
  induction pairs generalizing parent joined with
  | nil => exact ⟨parent,rfl,by simpa using parts⟩
  | cons pair rest ih =>
    have both := inside pair List.mem_cons_self
    obtain ⟨middle,ran,united⟩ := union_partitions parts both.1 both.2
    obtain ⟨next,later,done⟩ := ih united fun other member => inside other (List.mem_cons_of_mem _ member)
    refine ⟨next,by simpa [unionAll,ran] using later,?_⟩
    have same : (fun a b => (joined a b ∨ (a = pair.1 ∧ b = pair.2)) ∨ (a,b) ∈ rest) =
        fun a b => joined a b ∨ (a,b) ∈ pair :: rest := by
      funext a b
      simp only [List.mem_cons,Prod.ext_iff,or_assoc]
    rwa [same] at done

end UnionFind
