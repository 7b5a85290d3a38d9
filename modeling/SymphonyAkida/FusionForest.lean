import SymphonyAkida.FusionSpec

namespace SymphonyAkida.TiledShard
open UnionFind (link RootOf Same Forest Partitions Compressed)

inductive Call where
  | find (i : Nat)
  | union (i j : Nat)

def Call.inside (n : Nat) : Call → Prop
  | .find i => i < n
  | .union i j => i < n ∧ j < n

-- What a call leaves of `parent`; none is a while loop that does not end.
def call (parent : List Nat) : Call → Option (List Nat)
  | .find i => (UnionFind.find parent.length parent i).map (·.2)
  | .union i j => UnionFind.union parent i j

def calls (parent : List Nat) (made : List Call) : Option (List Nat) := made.foldlM call parent

def Call.pair : Call → Option (Nat × Nat)
  | .find _ => none
  | .union i j => some (i,j)

def united (made : List Call) : List (Nat × Nat) := made.filterMap Call.pair

-- find returns the root of i's tree, however long it is let run, and no node
-- has another root after it.
structure Finds (parent : List Nat) (i : Nat) (root : Nat) (next : List Nat) : Prop where
  ends : ∀ fuel, parent.length ≤ fuel → UnionFind.find fuel parent i = some (root,next)
  root : RootOf parent i root
  kept : ∀ x r, RootOf next x r ↔ RootOf parent x r

theorem find_finds (forest : Forest parent) (below : i < parent.length) :
    ∃ root next, Finds parent i root next ∧ Compressed parent next := by
  obtain ⟨root,next,found,rooted,compressed⟩ := UnionFind.find_total forest below
  exact ⟨root,next,⟨fun fuel enough => UnionFind.find_fuel enough found,rooted,compressed.roots⟩,compressed⟩

-- A find moves nodes up within their trees, so the classes stay.
theorem compressed_partitions (parts : Partitions parent n joined) (compressed : Compressed parent next) :
    Partitions next n joined := by
  refine ⟨compressed.forest,compressed.size.trans parts.size,fun x y => ?_⟩
  rw [← parts.classes]
  simp only [Same,compressed.roots]

theorem call_partitions (parts : Partitions parent n joined) (inside : one.inside n) :
    ∃ next, call parent one = some next ∧ Partitions next n fun a b => joined a b ∨ one.pair = some (a,b) := by
  cases one with
  | find i =>
    obtain ⟨root,next,finds,compressed⟩ := find_finds parts.forest (parts.size.symm ▸ inside)
    refine ⟨next,by rw [call,finds.ends _ (Nat.le_refl _)]; rfl,?_⟩
    simpa only [Call.pair,reduceCtorEq,or_false] using compressed_partitions parts compressed
  | union i j =>
    obtain ⟨next,ran,later⟩ := UnionFind.union_partitions parts inside.1 inside.2
    refine ⟨next,ran,?_⟩
    have same : (fun a b => joined a b ∨ (a = i ∧ b = j)) = fun a b => joined a b ∨ (Call.union i j).pair = some (a,b) := by
      funext a b
      simp only [Call.pair,Option.some.injEq,Prod.mk.injEq,eq_comm]
    rwa [same] at later

theorem calls_partitions {made : List Call} (parts : Partitions parent n joined) (inside : ∀ one ∈ made, one.inside n) :
    ∃ next, calls parent made = some next ∧ Partitions next n fun a b => joined a b ∨ (a,b) ∈ united made := by
  induction made generalizing parent joined with
  | nil => exact ⟨parent,rfl,by simpa [united] using parts⟩
  | cons one rest ih =>
    obtain ⟨middle,ran,first⟩ := call_partitions parts (inside one List.mem_cons_self)
    obtain ⟨next,later,done⟩ := ih first fun other member => inside other (List.mem_cons_of_mem _ member)
    refine ⟨next,by simpa [calls,ran] using later,?_⟩
    have same : (fun a b => (joined a b ∨ one.pair = some (a,b)) ∨ (a,b) ∈ united rest) =
        fun a b => joined a b ∨ (a,b) ∈ united (one :: rest) := by
      funext a b
      cases paired : one.pair with
      | none => simp [united,paired]
      | some pair => simp [united,paired,eq_comm,or_assoc]
    rwa [same] at done

theorem unionAll_calls (parent : List Nat) (pairs : List (Nat × Nat)) :
    UnionFind.unionAll parent pairs = calls parent (pairs.map fun pair => .union pair.1 pair.2) := by
  rw [UnionFind.unionAll,calls,List.foldlM_map]
  rfl

theorem groupStep_calls (state : List Nat × List (Nat × List Nat)) (i : Nat) :
    (groupStep state i).map (·.1) = call state.1 (.find i) := by
  obtain ⟨parent,groups⟩ := state
  simp only [groupStep,call]
  cases UnionFind.find parent.length parent i with
  | none => rfl
  | some out => rfl

theorem groups_calls (state : List Nat × List (Nat × List Nat)) (nodes : List Nat) :
    (nodes.foldlM groupStep state).map (·.1) = calls state.1 (nodes.map Call.find) := by
  induction nodes generalizing state with
  | nil => rfl
  | cons i rest ih =>
    have first := groupStep_calls state i
    simp only [calls,List.map_cons,List.foldlM_cons]
    rw [← first]
    cases groupStep state i with
    | none => rfl
    | some next => exact ih next

-- `parent` after any calls on n nodes, from parent[i] = i.
theorem forest_calls (n : Nat) (made : List Call) (inside : ∀ one ∈ made, one.inside n) :
    ∃ parent, calls (List.range n) made = some parent ∧ parent.length = n ∧
      (∀ i < n, link parent i < n ∧ ∀ k, (link parent)^[k+1] i = i → link parent i = i) ∧
      (∀ i < n, ∃ root next, Finds parent i root next ∧ next.length = n) ∧
      ∀ i < n, ∀ j < n, ∀ r s, RootOf parent i r → RootOf parent j s →
        (r = s ↔ Relation.EqvGen (fun a b => (a,b) ∈ united made) i j) := by
  obtain ⟨parent,ran,parts⟩ := calls_partitions (UnionFind.range_partitions n) inside
  have size := parts.size
  refine ⟨parent,ran,size,?_,?_,?_⟩
  · intro i below
    refine ⟨size ▸ parts.forest.bounds i (size.symm ▸ below),fun k cycle => parts.forest.acyclic cycle⟩
  · intro i below
    obtain ⟨root,next,finds,compressed⟩ := find_finds parts.forest (size.symm ▸ below)
    exact ⟨root,next,finds,compressed.size.trans size⟩
  · intro i _ j _ r s first second
    have classes := parts.classes i j
    simp only [false_or] at classes
    rw [← classes]
    constructor
    · intro same
      exact ⟨r,first,same ▸ second⟩
    · intro joined
      obtain ⟨t,left,right⟩ := joined
      exact (first.unique left).trans (right.unique second)

theorem forest_calls_line : ∃ parent, calls (List.range 3) [.union 0 1,.find 2,.union 1 2] = some parent ∧
    ∀ i < 3, ∀ j < 3, ∀ r s, RootOf parent i r → RootOf parent j s →
      (r = s ↔ Relation.EqvGen (fun a b => (a,b) ∈ united [.union 0 1,.find 2,.union 1 2]) i j) := by
  obtain ⟨parent,ran,_,_,_,joined⟩ := forest_calls 3 [.union 0 1,.find 2,.union 1 2] (by simp [Call.inside])
  exact ⟨parent,ran,joined⟩

end SymphonyAkida.TiledShard
