import SymphonyAkida.Fusion
import SymphonyAkida.Library.Assoc
import SymphonyAkida.Library.Counting
import SymphonyAkida.Library.Greedy

namespace SymphonyAkida.TiledShard
open Outcome
variable {K : Type}

structure Grouped (parent : List Nat) (k : Nat) (groups : List (Nat × List Nat)) : Prop where
  keys : (groups.map (·.1)).Nodup
  filled : ∀ g ∈ groups, g.2 ≠ [] ∧ g.2.Nodup
  members : ∀ g ∈ groups, ∀ i, i ∈ g.2 ↔ i < k ∧ UnionFind.RootOf parent i g.1
  cover : ∀ i < k, ∃ g ∈ groups, i ∈ g.2

theorem addMember_alter (groups : List (Nat × List Nat)) (root i : Nat) :
    addMember groups root i = Assoc.alter root (fun members => members.getD [] ++ [i]) groups := by
  induction groups with
  | nil => rfl
  | cons g rest ih =>
    obtain ⟨key,list⟩ := g
    rw [addMember,Assoc.alter,ih]
    rfl

theorem Grouped.under (grouped : Grouped parent k groups) (root i : Nat) :
    i ∈ (groups.lookup root).getD [] ↔ i < k ∧ UnionFind.RootOf parent i root := by
  obtain ⟨_,_,members,cover⟩ := grouped
  cases found : groups.lookup root with
  | some list => exact members _ (Assoc.mem_of_lookup found) i
  | none =>
    simp only [Option.getD_none,List.not_mem_nil,false_iff]
    intro both
    obtain ⟨below,above⟩ := both
    obtain ⟨g,member,inside⟩ := cover i below
    exact Assoc.fresh_of_lookup found g member (((members g member i).mp inside).2.unique above)

theorem addMember_grouped (grouped : Grouped parent k groups) (rooted : UnionFind.RootOf parent k root) :
    Grouped parent (k+1) (addMember groups root k) := by
  have old := grouped.under root
  obtain ⟨keys,filled,members,cover⟩ := grouped
  have held : ∀ g, g ∈ addMember groups root k ↔
      (g ∈ groups ∧ g.1 ≠ root) ∨ g = (root,(groups.lookup root).getD [] ++ [k]) := by
    intro g
    rw [addMember_alter]
    exact Assoc.mem_alter keys root _ g
  have distinct : ((addMember groups root k).map (·.1)).Nodup := by
    rw [addMember_alter]
    exact Assoc.nodup_alter keys root _
  refine ⟨distinct,?_,?_,?_⟩
  · intro g member
    rcases (held _).mp member with ⟨before,_⟩ | rfl
    · exact filled g before
    · refine ⟨by simp,List.nodup_append.mpr ⟨?_,List.nodup_singleton _,?_⟩⟩
      · cases found : groups.lookup root with
        | some list => exact (filled _ (Assoc.mem_of_lookup found)).2
        | none => exact List.nodup_nil
      · intro i first j second equal
        rw [List.mem_singleton.mp second] at equal
        exact Nat.lt_irrefl k (equal ▸ ((old i).mp first).1)
  · intro g member i
    rcases (held _).mp member with ⟨before,other⟩ | rfl
    · rw [members g before i]
      constructor
      · intro given
        obtain ⟨below,above⟩ := given
        exact ⟨Nat.lt_succ_of_lt below,above⟩
      · intro given
        obtain ⟨below,above⟩ := given
        rcases Nat.lt_succ_iff_lt_or_eq.mp below with less | rfl
        · exact ⟨less,above⟩
        · exact absurd (above.unique rooted) other
    · simp only [List.mem_append,List.mem_singleton,old]
      constructor
      · intro given
        rcases given with ⟨below,above⟩ | rfl
        · exact ⟨Nat.lt_succ_of_lt below,above⟩
        · exact ⟨Nat.lt_succ_self _,rooted⟩
      · intro given
        obtain ⟨below,above⟩ := given
        rcases Nat.lt_succ_iff_lt_or_eq.mp below with less | rfl
        · exact .inl ⟨less,above⟩
        · exact .inr rfl
  · intro i below
    rcases Nat.lt_succ_iff_lt_or_eq.mp below with less | rfl
    · obtain ⟨g,member,inside⟩ := cover i less
      by_cases same : g.1 = root
      · refine ⟨_,(held _).mpr (.inr rfl),List.mem_append_left _ ?_⟩
        exact (old i).mpr ⟨less,same ▸ ((members g member i).mp inside).2⟩
      · exact ⟨g,(held _).mpr (.inl ⟨member,same⟩),inside⟩
    · exact ⟨_,(held _).mpr (.inr rfl),by simp⟩

-- The loop `for i in range(num)` with its finds.
theorem group_loop (forest : UnionFind.Forest parent) (k : Nat) (within : k ≤ parent.length) :
    ∃ last groups, (List.range k).foldlM groupStep (parent,[]) = some (last,groups) ∧
      UnionFind.Compressed parent last ∧ Grouped parent k groups := by
  induction k with
  | zero =>
    exact ⟨parent,[],rfl,⟨forest,rfl,fun _ _ => Iff.rfl⟩,⟨by simp,by simp,by simp,by simp⟩⟩
  | succ k ih =>
    obtain ⟨last,groups,ran,compressed,grouped⟩ := ih (Nat.le_of_succ_le within)
    obtain ⟨root,next,found,rooted,again⟩ := UnionFind.find_total compressed.forest
      (show k < last.length by rw [compressed.size]; exact within)
    rw [compressed.roots] at rooted
    refine ⟨next,addMember groups root k,?_,⟨again.forest,again.size.trans compressed.size,fun x r =>
      (again.roots x r).trans (compressed.roots x r)⟩,addMember_grouped grouped rooted⟩
    rw [List.range_succ,List.foldlM_append,ran]
    simp [groupStep,found]

-- Lists of nodes that are the classes of an equivalence, each class once.
structure IsPartition (n : Nat) (same : Nat → Nat → Prop) (parts : List (List Nat)) : Prop where
  filled : ∀ part ∈ parts, part ≠ [] ∧ part.Nodup
  inside : ∀ part ∈ parts, ∀ i ∈ part, i < n
  classes : ∀ part ∈ parts, ∀ i ∈ part, ∀ j < n, j ∈ part ↔ same i j
  cover : ∀ i < n, ∃ part ∈ parts, i ∈ part
  apart : parts.Pairwise fun left right => ∀ i ∈ left, i ∉ right

theorem grouped_partition (parts : UnionFind.Partitions parent n joined) (grouped : Grouped parent n groups) :
    IsPartition n (Relation.EqvGen joined) (sortedGroups groups) := by
  obtain ⟨forest,_,classes⟩ := parts
  obtain ⟨keys,filled,members,cover⟩ := grouped
  have from_ : ∀ {part}, part ∈ sortedGroups groups → ∃ g ∈ groups, g.2 = part := by
    intro part member
    obtain ⟨g,inside,same⟩ := List.mem_map.mp member
    exact ⟨g,(List.mem_insertionSort _).mp inside,same⟩
  refine ⟨?_,?_,?_,?_,?_⟩
  · intro part member
    obtain ⟨g,inside,rfl⟩ := from_ member
    exact filled g inside
  · intro part member i within
    obtain ⟨g,inside,rfl⟩ := from_ member
    exact ((members g inside i).mp within).1
  · intro part member i within j below
    obtain ⟨g,inside,rfl⟩ := from_ member
    have root := ((members g inside i).mp within).2
    rw [members g inside j,← classes i j]
    constructor
    · intro given
      obtain ⟨_,other⟩ := given
      exact ⟨g.1,root,other⟩
    · intro given
      obtain ⟨r,first,second⟩ := given
      rw [first.unique root] at second
      exact ⟨below,second⟩
  · intro i below
    obtain ⟨g,inside,within⟩ := cover i below
    exact ⟨g.2,List.mem_map.mpr ⟨g,(List.mem_insertionSort _).mpr inside,rfl⟩,within⟩
  · have sorted : (groups.insertionSort (·.1 ≤ ·.1)).Pairwise fun left right => left.1 ≠ right.1 := by
      have perm := (List.perm_insertionSort (fun a b : Nat × List Nat => a.1 ≤ b.1) groups).map (·.1)
      exact List.pairwise_map.mp (perm.nodup_iff.mpr keys)
    refine List.pairwise_map.mpr (sorted.imp_of_mem ?_)
    intro left right first second differ i within again
    rw [List.mem_insertionSort] at first second
    exact differ (((members left first i).mp within).2.unique ((members right second i).mp again).2)

theorem groups_partition (parts : UnionFind.Partitions parent n joined) :
    ∃ groups, groupByRoot n parent = some groups ∧
      IsPartition n (Relation.EqvGen joined) (sortedGroups groups) := by
  obtain ⟨last,groups,ran,_,grouped⟩ := group_loop parts.forest n (Nat.le_of_eq parts.size.symm)
  exact ⟨groups,by simp [groupByRoot,ran],grouped_partition parts grouped⟩

section
variable [Field K] [LinearOrder K] {detections out : TileDetections K} {rows : List (Row K)}
  {seams : List Seams} {seamIou : K}

-- low and high are the two halves of one object along some axis.
def Meets (rows : List (Row K)) (seams : List Seams) (seamIou : K) (low high : Nat) : Prop :=
  ∃ a b axis, rows[low]? = some a ∧ rows[high]? = some b ∧ (axis,Edge.high) ∈ seams.getD low [] ∧
    (axis,Edge.low) ∈ seams.getD high [] ∧ fragmentsJoin a.box b.box axis seamIou = true

-- The relation fusion closes transitively.
def SeamJoin (rows : List (Row K)) (seams : List Seams) (seamIou : K) (i j : Nat) : Prop :=
  (∃ a b, rows[i]? = some a ∧ rows[j]? = some b ∧ a.label = b.label ∧ a.tileId ≠ b.tileId) ∧
    (Meets rows seams seamIou i j ∨ Meets rows seams seamIou j i)

theorem SeamJoin.symm (join : SeamJoin rows seams seamIou i j) : SeamJoin rows seams seamIou j i := by
  obtain ⟨⟨a,b,first,second,label,tile⟩,meets⟩ := join
  exact ⟨⟨b,a,second,first,label.symm,Ne.symm tile⟩,meets.symm⟩

theorem halves_meets (boxes : detections.boxes = rows.map (·.box)) (first : rows[low]? = some a)
    (second : rows[high]? = some b) : halves detections seams seamIou axis low high = true ↔
      (axis,Edge.high) ∈ seams.getD low [] ∧ (axis,Edge.low) ∈ seams.getD high [] ∧
        fragmentsJoin a.box b.box axis seamIou = true := by
  simp only [halves,boxes,getD_row _ _ first,getD_row _ _ second,Bool.decide_and,Bool.and_eq_true,
    decide_eq_true_eq]

theorem seams_cut {seams : List Seams} (member : key ∈ seams.getD i []) : seams.getD i [] ≠ [] :=
  List.ne_nil_of_mem member

-- Every union call joins a related pair, the earlier index first, and every
-- related pair is united.
theorem mem_unions (boxes : detections.boxes = rows.map (·.box))
    (labels : detections.labels = rows.map (·.label)) (tileIds : detections.tileIds = rows.map (·.tileId)) :
    pair ∈ unions detections seams seamIou ↔
      pair.1 < pair.2 ∧ SeamJoin rows seams seamIou pair.1 pair.2 := by
  obtain ⟨i,j⟩ := pair
  have size : detections.boxes.length = rows.length := by rw [boxes,List.length_map]
  simp only [unions,size,List.mem_flatMap,List.mem_range,List.mem_ite_nil_left,List.mem_filter,
    decide_eq_true_eq]
  constructor
  · intro given
    obtain ⟨x,first,_,y,⟨second,less⟩,_,label,tile,axis,_,orientation,way,found⟩ := given
    simp only [not_not] at label
    have at_ := List.getElem?_eq_getElem first
    have other := List.getElem?_eq_getElem second
    rw [labels,getD_row _ _ at_,getD_row _ _ other] at label
    rw [tileIds,getD_row _ _ at_,getD_row _ _ other] at tile
    obtain ⟨low,high⟩ := orientation
    simp only [List.mem_ite_nil_right,List.mem_singleton,Prod.mk.injEq] at found
    obtain ⟨join,rfl,rfl⟩ := found
    refine ⟨less,⟨_,_,at_,other,label,tile⟩,?_⟩
    simp only [List.mem_cons,Prod.mk.injEq,List.not_mem_nil,or_false] at way
    rcases way with ⟨rfl,rfl⟩ | ⟨rfl,rfl⟩
    · exact .inl ⟨_,_,axis,at_,other,(halves_meets boxes at_ other).mp join⟩
    · exact .inr ⟨_,_,axis,other,at_,(halves_meets boxes other at_).mp join⟩
  · intro given
    obtain ⟨less,⟨a,b,at_,other,label,tile⟩,meets⟩ := given
    have first := (List.getElem?_eq_some_iff.mp at_).1
    have second := (List.getElem?_eq_some_iff.mp other).1
    have cut : seams.getD i [] ≠ [] ∧ seams.getD j [] ≠ [] := by
      rcases meets with ⟨_,_,_,_,_,high,low,_⟩ | ⟨_,_,_,_,_,high,low,_⟩
      · exact ⟨seams_cut high,seams_cut low⟩
      · exact ⟨seams_cut low,seams_cut high⟩
    refine ⟨i,first,cut.1,j,⟨second,less⟩,cut.2,?_,?_,?_⟩
    · rw [labels,getD_row _ _ at_,getD_row _ _ other]; exact not_not.mpr label
    · rw [tileIds,getD_row _ _ at_,getD_row _ _ other]; exact tile
    · rcases meets with ⟨x,y,axis,left,right,join⟩ | ⟨x,y,axis,left,right,join⟩
      · refine ⟨axis,by cases axis <;> simp,(i,j),by simp,?_⟩
        rw [List.mem_ite_nil_right]
        exact ⟨(halves_meets boxes left right).mpr join,List.mem_singleton_self _⟩
      · refine ⟨axis,by cases axis <;> simp,(j,i),by simp,?_⟩
        rw [List.mem_ite_nil_right]
        exact ⟨(halves_meets boxes left right).mpr join,List.mem_singleton_self _⟩

theorem unions_classes (boxes : detections.boxes = rows.map (·.box))
    (labels : detections.labels = rows.map (·.label)) (tileIds : detections.tileIds = rows.map (·.tileId)) :
    Relation.EqvGen (fun a b => (a,b) ∈ unions detections seams seamIou) =
      Relation.EqvGen (SeamJoin rows seams seamIou) := by
  funext x y
  refine propext ⟨fun related => ?_,fun related => ?_⟩
  · induction related with
    | rel a b pair => exact .rel _ _ ((mem_unions boxes labels tileIds).mp pair).2
    | refl => exact .refl _
    | symm _ _ _ ih => exact .symm _ _ ih
    | trans _ _ _ _ _ left right => exact .trans _ _ _ left right
  · induction related with
    | rel a b join =>
      rcases Nat.lt_trichotomy a b with less | rfl | more
      · exact .rel _ _ ((mem_unions boxes labels tileIds).mpr ⟨less,join⟩)
      · obtain ⟨⟨x,y,first,second,_,tile⟩,_⟩ := join
        cases first.symm.trans second
        exact absurd rfl tile
      · exact .symm _ _ (.rel _ _ ((mem_unions boxes labels tileIds).mpr ⟨more,join.symm⟩))
    | refl => exact .refl _
    | symm _ _ _ ih => exact .symm _ _ ih
    | trans _ _ _ _ _ left right => exact .trans _ _ _ left right

def maxRow : List (List K) → List K
  | [] => []
  | row :: rest => rest.foldl (List.zipWith max) row

-- The row that stands for a group; `cut` says whether its first member is cut.
def fuseRow (members : List (Row K)) (cut : Bool) : Option (Row K) := do
  let bestAt ← Argmax.argmax (members.map (·.score))
  let best ← members[bestAt]?
  let box ← enclose (members.map (·.box))
  let score ← Argmax.largest (members.map (·.score))
  return ⟨box,score,best.label,maxRow (members.map (·.classes)),best.tileId,members.length == 1 && cut⟩

def isCut (seams : List Seams) (members : List Nat) : Bool := !(seams.getD (members.headD 0) []).isEmpty

omit [Field K] in
theorem fuseRow_single (row : Row K) (cut : Bool) :
    fuseRow [row] cut = some {row with truncated := cut} := rfl

omit [Field K] in
theorem fuseRow_total (filled : members ≠ []) (cut : Bool) : ∃ row : Row K, fuseRow members cut = some row := by
  cases members with
  | nil => exact absurd rfl filled
  | cons first rest =>
    obtain ⟨k,largest⟩ : ∃ k, Argmax.argmax ((first :: rest).map (·.score)) = some k := ⟨_,rfl⟩
    obtain ⟨m,spec⟩ := Argmax.argmax_spec largest
    have here := spec.here
    rw [List.getElem?_map,Option.map_eq_some_iff] at here
    obtain ⟨best,found,_⟩ := here
    unfold fuseRow
    rw [largest]
    simp only [Option.bind_eq_bind,Option.bind_some,found]
    exact ⟨_,rfl⟩

structure SameFused (fused : Fused K width) (row : Row K) : Prop where
  box : fused.box = row.box
  score : fused.score = row.score
  label : fused.label = row.label
  tileId : fused.tileId = row.tileId
  truncated : fused.truncated = row.truncated

theorem orRaise_ok {error : Error} {x : Option α} (ran : orRaise error x = .ok a) : x = some a := by
  cases x with
  | none => cases ran
  | some b => cases ran; rfl

-- Arrays whose flags are about to be replaced.
structure ShownBut (detections : TileDetections K) (rows : List (Row K)) : Prop where
  boxes : detections.boxes = rows.map (·.box)
  scores : detections.scores = rows.map (·.score)
  labels : detections.labels = rows.map (·.label)
  tileIds : detections.tileIds = rows.map (·.tileId)

omit [Field K] in
theorem fuseGroup_shown (shown : ShownBut detections rows)
    (ran : fuseGroup detections seams members = .ok fused) :
    (∀ i ∈ members, i < rows.length) ∧
      ∃ row, fuseRow (pick rows members) (isCut seams members) = some row ∧ SameFused fused row := by
  unfold fuseGroup at ran
  obtain ⟨boxes,hBoxes,ran⟩ := bind_ok ran
  obtain ⟨scores,hScores,ran⟩ := bind_ok ran
  obtain ⟨bestAt,hBestAt,ran⟩ := bind_ok ran
  obtain ⟨best,hBest,ran⟩ := bind_ok ran
  obtain ⟨box,hBox,ran⟩ := bind_ok ran
  obtain ⟨score,hScore,ran⟩ := bind_ok ran
  obtain ⟨label,hLabel,ran⟩ := bind_ok ran
  obtain ⟨tileId,hTile,ran⟩ := bind_ok ran
  obtain ⟨classes,hClasses,ran⟩ := bind_ok ran
  cases ran
  rw [shown.boxes] at hBoxes
  rw [shown.scores] at hScores
  have inside : ∀ i ∈ members, i < rows.length := by simpa using (take_ok hBoxes).1
  rw [take_column inside] at hBoxes hScores
  cases hBoxes
  cases hScores
  have chosen := orRaise_ok hBest
  have label_ := orRaise_ok hLabel
  have tile_ := orRaise_ok hTile
  rw [shown.labels,List.getElem?_map,Option.map_eq_some_iff] at label_
  obtain ⟨row,found,rfl⟩ := label_
  rw [shown.tileIds,List.getElem?_map,found] at tile_
  cases tile_
  have at_ : (pick rows members)[bestAt]? = some row := by
    rw [pick_getElem? inside,chosen]
    exact found
  refine ⟨inside,⟨box,score,row.label,maxRow ((pick rows members).map (·.classes)),row.tileId,
    (pick rows members).length == 1 && isCut seams members⟩,?_,⟨rfl,rfl,rfl,rfl,?_⟩⟩
  · unfold fuseRow
    rw [orRaise_ok hBestAt,orRaise_ok hBox,orRaise_ok hScore]
    simp only [Option.bind_eq_bind,Option.bind_some,at_]
    rfl
  · simp [isCut,pick_length inside]

omit [Field K] in
theorem fuseClasses_total (classed : Classed width detections rows) (filled : members ≠ [])
    (inside : ∀ i ∈ members, i < rows.length) :
    ∃ row, fuseClasses detections.classes members = .ok row ∧
      row.map (·.1) = width.map fun _ => maxRow ((pick rows members).map (·.classes)) := by
  unfold Classed at classed
  generalize detections.classes = classes at classed ⊢
  cases classes with
  | none =>
    cases width with
    | some w => simp at classed
    | none => exact ⟨none,rfl,rfl⟩
  | some array =>
    cases width with
    | none => simp at classed
    | some w =>
      simp only [Option.map_some,Option.some.injEq,Prod.mk.injEq] at classed
      have within : ∀ i ∈ members, i < array.rows.length := by rw [classed.2]; simpa using inside
      obtain ⟨picked,taken,_,same⟩ := Classes.take_inside array within
      rw [classed.2,pick_map] at same
      have shape : picked.rows ≠ [] := by
        rw [same]
        obtain ⟨i,rest,rfl⟩ := List.exists_cons_of_ne_nil filled
        rw [pick_cons (inside i List.mem_cons_self)]
        simp
      obtain ⟨row,others,split⟩ := List.exists_cons_of_ne_nil shape
      have largest : ∃ top, maxRows picked = .ok top ∧ top.1 = maxRow picked.rows := by
        unfold maxRows
        split
        · rename_i empty; exact absurd empty shape
        · rename_i first rest cons
          exact ⟨_,rfl,by simp [cons,maxRow]⟩
      obtain ⟨top,ran,value⟩ := largest
      unfold fuseClasses
      dsimp only
      split
      · rename_i failed; rw [taken] at failed; cases failed
      · rename_i again succeeded
        rw [taken] at succeeded
        cases succeeded
        rw [ran]
        exact ⟨_,rfl,by simp [value,same]⟩

omit [Field K] in
theorem fuseGroup_total (seams : List Seams) (shown : ShownBut detections rows) (classed : Classed width detections rows)
    (filled : members ≠ []) (inside : ∀ i ∈ members, i < rows.length) :
    ∃ fused row, fuseGroup detections seams members = .ok fused ∧
      fuseRow (pick rows members) (isCut seams members) = some row ∧ SameFused fused row ∧
      fused.classes.map (·.1) = width.map fun _ => row.classes := by
  obtain ⟨classes,hClasses,same⟩ := fuseClasses_total classed filled inside
  have some : pick rows members ≠ [] := fun empty => filled (by
    have size := pick_length inside
    rw [empty] at size
    exact List.length_eq_zero_iff.mp size.symm)
  obtain ⟨row,ran⟩ := fuseRow_total some (isCut seams members)
  have whole := ran
  unfold fuseRow at ran
  simp only [Option.bind_eq_bind,Option.bind_eq_some_iff] at ran
  obtain ⟨bestAt,hBestAt,best,hBest,box,hBox,score,hScore,made⟩ := ran
  cases Option.some.inj made
  have picked := hBest
  rw [pick_getElem? inside,Option.bind_eq_some_iff] at picked
  obtain ⟨index,hIndex,found⟩ := picked
  have done : fuseGroup detections seams members = .ok ⟨box,score,best.label,classes,best.tileId,
      members.length == 1 && !(seams.getD (members.headD 0) []).isEmpty⟩ := by
    unfold fuseGroup
    rw [shown.boxes,shown.scores,shown.labels,shown.tileIds]
    simp only [take_column inside,hClasses,ok_bind,hBestAt,hIndex,hBox,hScore,orRaise_some,
      List.getElem?_map,found,Option.map_some]
    rfl
  refine ⟨_,_,done,whole,⟨rfl,rfl,rfl,rfl,?_⟩,same⟩
  simp [isCut,pick_length inside]

omit [Field K] in
theorem fuseAll_shown (shown : ShownBut detections rows) (ran : fuseAll detections seams parts = .ok fused) :
    ∃ fusedRows, parts.map (fun part => fuseRow (pick rows part) (isCut seams part)) = fusedRows.map some ∧
      List.Forall₂ SameFused fused fusedRows := by
  induction parts generalizing fused with
  | nil => cases ran; exact ⟨[],rfl,.nil⟩
  | cons members rest ih =>
    unfold fuseAll at ran
    obtain ⟨first,hFirst,ran⟩ := bind_ok ran
    obtain ⟨later,hLater,ran⟩ := bind_ok ran
    cases ran
    obtain ⟨_,row,made,same⟩ := fuseGroup_shown shown hFirst
    obtain ⟨more,all,others⟩ := ih hLater
    exact ⟨row :: more,by simp [made,all],.cons same others⟩

omit [Field K] in
theorem fuseAll_total (shown : ShownBut detections rows) (classed : Classed width detections rows)
    (filled : ∀ part ∈ parts, part ≠ []) (inside : ∀ part ∈ parts, ∀ i ∈ part, i < rows.length) :
    ∃ fused fusedRows, fuseAll detections seams parts = .ok fused ∧
      parts.map (fun part => fuseRow (pick rows part) (isCut seams part)) = fusedRows.map some ∧
      List.Forall₂ SameFused fused fusedRows ∧
      fused.map (fun one => one.classes.map (·.1)) =
        fusedRows.map fun row => width.map fun _ => row.classes := by
  induction parts with
  | nil => exact ⟨[],[],rfl,rfl,.nil,rfl⟩
  | cons members rest ih =>
    obtain ⟨first,row,ran,made,same,columns⟩ := fuseGroup_total seams shown classed
      (filled members List.mem_cons_self) (inside members List.mem_cons_self)
    obtain ⟨later,more,ranLater,all,others,columnsLater⟩ := ih
      (fun part member => filled part (List.mem_cons_of_mem _ member))
      (fun part member => inside part (List.mem_cons_of_mem _ member))
    refine ⟨first :: later,row :: more,?_,by simp [made,all],.cons same others,
      by rw [List.map_cons,List.map_cons,columns,columnsLater]⟩
    simp only [fuseAll,ran,ranLater]
    rfl

omit [Field K] [LinearOrder K] in
theorem same_columns {fused : List (Fused K width)} (same : List.Forall₂ SameFused fused rows) :
    fused.map (·.box) = rows.map (·.box) ∧ fused.map (·.score) = rows.map (·.score) ∧
    fused.map (·.label) = rows.map (·.label) ∧ fused.map (·.tileId) = rows.map (·.tileId) ∧
    fused.map (·.truncated) = rows.map (·.truncated) := by
  induction same with
  | nil => exact ⟨rfl,rfl,rfl,rfl,rfl⟩
  | cons first _ ih =>
    simp only [List.map_cons,first.box,first.score,first.label,first.tileId,first.truncated,ih,and_self]

def alone (n : Nat) : List (List Nat) := (List.range n).map fun i => [i]

theorem alone_partition (refl : ∀ i, same i i) (only : ∀ i < n, ∀ j < n, same i j → i = j) :
    IsPartition n same (alone n) := by
  have shape : ∀ {part}, part ∈ alone n → ∃ i < n, part = [i] := by
    intro part member
    obtain ⟨i,below,rfl⟩ := List.mem_map.mp member
    exact ⟨i,List.mem_range.mp below,rfl⟩
  refine ⟨?_,?_,?_,?_,?_⟩
  · intro part member
    obtain ⟨i,_,rfl⟩ := shape member
    exact ⟨by simp,List.nodup_singleton i⟩
  · intro part member i inside
    obtain ⟨j,below,rfl⟩ := shape member
    rw [List.mem_singleton.mp inside]
    exact below
  · intro part member i inside j below
    obtain ⟨k,least,rfl⟩ := shape member
    rw [List.mem_singleton.mp inside,List.mem_singleton]
    constructor
    · rintro rfl; exact refl j
    · exact fun related => (only k least j below related).symm
  · intro i below
    exact ⟨[i],List.mem_map.mpr ⟨i,List.mem_range.mpr below,rfl⟩,List.mem_singleton_self i⟩
  · refine List.pairwise_map.mpr (List.nodup_range.imp fun differ i first second => ?_)
    rw [List.mem_singleton] at first second
    exact differ (first.symm.trans second)

theorem IsPartition.head_mem (parts : IsPartition n same list) : ∀ part ∈ list, part.headD 0 ∈ part := by
  intro part member
  obtain ⟨i,rest,rfl⟩ := List.exists_cons_of_ne_nil (parts.filled part member).1
  exact List.mem_cons_self

theorem IsPartition.heads_nodup (parts : IsPartition n same list) : (list.map (·.headD 0)).Nodup := by
  refine List.pairwise_map.mpr (parts.apart.imp_of_mem fun {left right} first second apart equal => ?_)
  exact apart _ (parts.head_mem left first) (equal ▸ parts.head_mem right second)

theorem IsPartition.heads_below (parts : IsPartition n same list) : ∀ i ∈ list.map (·.headD 0), i < n := by
  intro i member
  obtain ⟨part,inside,rfl⟩ := List.mem_map.mp member
  exact parts.inside part inside _ (parts.head_mem part inside)

theorem IsPartition.all_alone (parts : IsPartition n same list) (full : list.length = n) :
    ∀ i < n, ∀ j < n, same i j → i = j := by
  have leads := Counting.covers parts.heads_nodup parts.heads_below (by rw [List.length_map,full])
  intro i first j second related
  obtain ⟨left,inLeft,leadLeft⟩ := List.mem_map.mp (leads i first)
  obtain ⟨right,inRight,leadRight⟩ := List.mem_map.mp (leads j second)
  have here : i ∈ left := leadLeft ▸ parts.head_mem left inLeft
  have there : j ∈ left := (parts.classes left inLeft i here j second).mpr related
  have own : j ∈ right := leadRight ▸ parts.head_mem right inRight
  by_cases equal : left = right
  · rw [← leadLeft,← leadRight,equal]
  · rcases Greedy.either parts.apart inLeft inRight equal with apart | apart
    · exact absurd own (apart j there)
    · exact absurd there (apart j own)

-- What fuse_seam_fragments returns: one row for each component.
structure IsFusion (rows : List (Row K)) (seams : List Seams) (seamIou : K) (parts : List (List Nat))
    (fused : List (Row K)) : Prop where
  components : IsPartition rows.length (Relation.EqvGen (SeamJoin rows seams seamIou)) parts
  made : parts.map (fun part => fuseRow (pick rows part) (isCut seams part)) = fused.map some

-- The rows with the flags their seams give them.
def cutRows (rows : List (Row K)) (seams : List Seams) : List (Row K) :=
  List.zipWith (fun row keys => {row with truncated := !List.isEmpty keys}) rows seams

omit [Field K] [LinearOrder K] in
theorem cutRows_shown (shown : ShownBut detections rows) (aligned : seams.length = rows.length) :
    Shown {detections with truncated := some (seams.map (!·.isEmpty))} (cutRows rows seams) := by
  have same : ∀ {β : Type} (f : Row K → β) (keep : ∀ row flag, f {row with truncated := flag} = f row),
      (cutRows rows seams).map f = rows.map f := by
    intro β f keep
    rw [cutRows,List.map_zipWith]
    simp only [keep]
    exact List.ext_getElem (by simp [aligned]) fun i left right => by simp
  refine ⟨?_,?_,?_,?_,?_⟩
  · rw [same (·.box) fun _ _ => rfl]; exact shown.boxes
  · rw [same (·.score) fun _ _ => rfl]; exact shown.scores
  · rw [same (·.label) fun _ _ => rfl]; exact shown.labels
  · rw [same (·.tileId) fun _ _ => rfl]; exact shown.tileIds
  · rw [cutRows,List.map_zipWith]
    exact congrArg some (List.ext_getElem (by simp [aligned]) fun i left right => by simp)

theorem pick_single {rows : List α} (below : i < rows.length) : pick rows [i] = [rows[i]] := by
  rw [pick_cons below]; rfl

theorem alone_fusion (aligned : seams.length = rows.length)
    (only : ∀ i < rows.length, ∀ j < rows.length,
      Relation.EqvGen (SeamJoin rows seams seamIou) i j → i = j) :
    IsFusion rows seams seamIou (alone rows.length) (cutRows rows seams) := by
  refine ⟨alone_partition .refl only,?_⟩
  refine List.ext_getElem (by simp [alone,cutRows,aligned]) fun i left right => ?_
  have below : i < rows.length := by simpa [alone] using left
  have within : i < seams.length := aligned.symm ▸ below
  simp only [alone,List.map_map,List.getElem_map,List.getElem_range,Function.comp_apply,
    pick_single below,fuseRow_single,cutRows,List.getElem_zipWith,isCut,List.headD_cons,
    List.getD_eq_getElem?_getD,List.getElem?_eq_getElem within,Option.getD_some]

theorem fuse_groups (seams : List Seams) (seamIou : K) (shown : ShownBut detections rows) :
    ∃ groups, (UnionFind.unionAll (List.range rows.length) (unions detections seams seamIou)).bind
        (groupByRoot rows.length) = some groups ∧
      IsPartition rows.length (Relation.EqvGen (SeamJoin rows seams seamIou)) (sortedGroups groups) := by
  have spec : ∀ pair, pair ∈ unions detections seams seamIou ↔
      pair.1 < pair.2 ∧ SeamJoin rows seams seamIou pair.1 pair.2 :=
    fun _ => mem_unions shown.boxes shown.labels shown.tileIds
  have inside : ∀ pair ∈ unions detections seams seamIou,
      pair.1 < rows.length ∧ pair.2 < rows.length := by
    intro pair member
    obtain ⟨_,⟨a,b,first,second,_⟩,_⟩ := (spec pair).mp member
    exact ⟨(List.getElem?_eq_some_iff.mp first).1,(List.getElem?_eq_some_iff.mp second).1⟩
  obtain ⟨parent,ran,parts⟩ := UnionFind.unionAll_partitions
    (UnionFind.range_partitions rows.length) inside
  obtain ⟨groups,grouped,partition⟩ := groups_partition parts
  refine ⟨groups,by rw [ran]; exact grouped,?_⟩
  simp only [false_or] at partition
  rwa [unions_classes shown.boxes shown.labels shown.tileIds] at partition

theorem sortedGroups_length (groups : List (Nat × List Nat)) :
    (sortedGroups groups).length = groups.length := by
  simp [sortedGroups]

omit [Field K] [LinearOrder K] in
theorem fused_shown {fused : List (Fused K width)} (same : List.Forall₂ SameFused fused rows)
    (boxes : out.boxes = fused.map (·.box)) (scores : out.scores = fused.map (·.score))
    (labels : out.labels = fused.map (·.label)) (tileIds : out.tileIds = fused.map (·.tileId))
    (truncated : out.truncated = some (fused.map (·.truncated))) : Shown out rows := by
  obtain ⟨b,s,l,i,c⟩ := same_columns same
  exact ⟨boxes.trans b,scores.trans s,labels.trans l,tileIds.trans i,truncated.trans (congrArg some c)⟩

def fuseGroups (detections : TileDetections K) (seams : List Seams) (seamIou : K) : List (List Nat) :=
  let num := detections.boxes.length
  if num < 2 then alone num
  else
    match (UnionFind.unionAll (List.range num) (unions detections seams seamIou)).bind (groupByRoot num) with
    | none => alone num
    | some groups => if groups.length = num then alone num else sortedGroups groups

theorem fuse_shown (shown : ShownBut detections rows) (aligned : seams.length = rows.length)
    (ran : fuseSeamFragments detections seams seamIou = .ok out) :
    ∃ fused, IsFusion rows seams seamIou (fuseGroups detections seams seamIou) fused ∧ Shown out fused := by
  have size : detections.boxes.length = rows.length := by rw [shown.boxes,List.length_map]
  have again : ShownBut {detections with truncated := some (seams.map (!·.isEmpty))} rows :=
    ⟨shown.boxes,shown.scores,shown.labels,shown.tileIds⟩
  obtain ⟨groups,found,partition⟩ := fuse_groups seams seamIou again
  have known : (UnionFind.unionAll (List.range rows.length) (unions detections seams seamIou)).bind (groupByRoot rows.length) = some groups :=
    found
  unfold fuseSeamFragments at ran
  unfold fuseGroups
  simp only [size,found] at ran
  simp only [size,known]
  split at ran
  · rename_i few
    cases ran
    rw [if_pos few]
    exact ⟨_,alone_fusion aligned fun i first j second _ => by omega,cutRows_shown shown aligned⟩
  · rename_i many
    rw [if_neg many]
    split at ran
    · rename_i full
      cases ran
      rw [if_pos full]
      refine ⟨_,alone_fusion aligned ?_,cutRows_shown shown aligned⟩
      exact partition.all_alone ((sortedGroups_length groups).trans full)
    · rename_i fewer
      rw [if_neg fewer]
      cases all : fuseAll {detections with truncated := some (seams.map (!·.isEmpty))} seams
          (sortedGroups groups) with
      | error e => simp [all,Except.map] at ran
      | ok fused =>
        simp only [all,Except.map,Except.ok.injEq] at ran
        obtain ⟨fusedRows,made,same⟩ := fuseAll_shown again all
        exact ⟨fusedRows,⟨partition,made⟩,by rw [← ran]; exact fused_shown same rfl rfl rfl rfl rfl⟩

omit [Field K] [LinearOrder K] in
theorem cutRows_classed (classed : Classed width detections rows) (aligned : seams.length = rows.length)
    (flags : Option (List Bool)) :
    Classed width {detections with truncated := flags} (cutRows rows seams) := by
  have same : (cutRows rows seams).map (·.classes) = rows.map (·.classes) := by
    rw [cutRows,List.map_zipWith]
    exact List.ext_getElem (by simp [aligned]) fun i left right => by simp
  rw [Classed,same]
  exact classed

omit [Field K] [LinearOrder K] in
theorem filter_classes {fused : List (Fused K w)} (columns : fused.map (fun one => one.classes.map (·.1)) =
    rows.map fun row => some row.classes) :
    fused.filterMap (fun one => one.classes.map (·.1)) = rows.map (·.classes) := by
  have whole := congrArg (List.filterMap id) columns
  simpa [List.filterMap_map,Function.comp_def] using whole

theorem fuse_total (shown : ShownBut detections rows) (classed : Classed width detections rows)
    (aligned : seams.length = rows.length) :
    ∃ out parts fused, fuseSeamFragments detections seams seamIou = .ok out ∧
      IsFusion rows seams seamIou parts fused ∧ Shown out fused ∧ Classed width out fused := by
  have size : detections.boxes.length = rows.length := by rw [shown.boxes,List.length_map]
  have again : ShownBut {detections with truncated := some (seams.map (!·.isEmpty))} rows :=
    ⟨shown.boxes,shown.scores,shown.labels,shown.tileIds⟩
  obtain ⟨groups,found,partition⟩ := fuse_groups seams seamIou again
  have plain := cutRows_shown shown aligned
  have columns := cutRows_classed classed aligned (some (seams.map (!·.isEmpty)))
  unfold fuseSeamFragments
  simp only [size,found]
  split
  · exact ⟨_,_,_,rfl,alone_fusion aligned fun i first j second _ => by omega,plain,columns⟩
  · split
    · rename_i full
      refine ⟨_,_,_,rfl,alone_fusion aligned ?_,plain,columns⟩
      exact partition.all_alone ((sortedGroups_length groups).trans full)
    · obtain ⟨fused,fusedRows,ran,made,same,classes⟩ := fuseAll_total again
        (show Classed width {detections with truncated := some (seams.map (!·.isEmpty))} rows from classed)
        (fun part member => (partition.filled part member).1) partition.inside
      rw [ran]
      refine ⟨_,_,fusedRows,rfl,⟨partition,made⟩,fused_shown same rfl rfl rfl rfl rfl,?_⟩
      unfold Classed at classed ⊢
      simp only [Option.map_map,Function.comp_def]
      cases width with
      | none =>
        rw [Option.map_none,Option.map_eq_none_iff] at classed
        simp [classed]
      | some w =>
        obtain ⟨array,held,shape⟩ := Option.map_eq_some_iff.mp classed
        have wide : array.width = w := congrArg Prod.fst shape
        simp only [held,Option.map_some,Option.some.injEq,Prod.mk.injEq]
        exact ⟨wide,filter_classes classes⟩

end

end SymphonyAkida.TiledShard
