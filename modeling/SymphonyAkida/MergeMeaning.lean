import SymphonyAkida.MergeProvenance

namespace SymphonyAkida.TiledShard
variable {K : Type} [Field K] [LinearOrder K] {params : MergeParams K} {seamIou : K} {width : Nat}

-- What the merge makes of a set of detections, each with the seams that cut it.
-- No list and no index: rows are known by their values.
def Facing (seamIou : K) (low high : Row K × Seams) : Prop :=
  ∃ axis, (axis,Edge.high) ∈ low.2 ∧ (axis,Edge.low) ∈ high.2 ∧
    fragmentsJoin low.1.box high.1.box axis seamIou = true

def Paired (seamIou : K) (a b : Row K × Seams) : Prop :=
  a.1.label = b.1.label ∧ a.1.tileId ≠ b.1.tileId ∧ (Facing seamIou a b ∨ Facing seamIou b a)

def Linked (inputs : Set (Row K × Seams)) (seamIou : K) : Row K × Seams → Row K × Seams → Prop :=
  Relation.EqvGen fun a b => a ∈ inputs ∧ b ∈ inputs ∧ Paired seamIou a b

def group (inputs : Set (Row K × Seams)) (seamIou : K) (a : Row K × Seams) : Set (Row K) :=
  {row | ∃ b ∈ inputs, Linked inputs seamIou a b ∧ b.1 = row}

def LoneCut (members : Set (Row K)) : Prop := ∃ row, members = {row} ∧ row.truncated = true

def Fuses (inputs : Set (Row K × Seams)) (seamIou : K) (width : Nat) (a : Row K × Seams) (row : Row K) : Prop :=
  Sums (some width) (group inputs seamIou a) (LoneCut (group inputs seamIou a)) row

-- Visited earlier, for scores that differ.
def Before (preferComplete : Bool) (a b : Row K) : Prop :=
  (preferComplete = true ∧ a.truncated = false ∧ b.truncated = true) ∨
    ((preferComplete = true → a.truncated = b.truncated) ∧ b.score < a.score)

def Strikes (threshold : K) (overlap : Box K → Box K → K) (onlyTruncatedVictims : Bool) (a b : Row K) : Prop :=
  a.label = b.label ∧ threshold ≤ overlap a.box b.box ∧ (onlyTruncatedVictims = true → b.truncated = true)

structure Merged (params : MergeParams K) (width : Nat) (inputs : Set (Row K × Seams))
    (fused contained kept : Set (Row K)) : Prop where
  each : params.fuseSeams = true → ∀ row ∈ fused, ∃ a ∈ inputs, Fuses inputs params.seamIou width a row
  every : params.fuseSeams = true → ∀ a ∈ inputs, ∃ row ∈ fused, Fuses inputs params.seamIou width a row
  apart : params.fuseSeams = false → fused = Prod.fst '' inputs
  containment : params.iosThresh ≤ 1 →
    Greedy.IsKernel (Strikes params.iosThresh ios params.onlyTruncatedVictims) (Before params.preferComplete)
      fused contained
  everything : ¬params.iosThresh ≤ 1 → contained = fused
  nms : Greedy.IsKernel (Strikes params.nmsIou iou false) (Before params.preferComplete) contained kept

omit [Field K] in
theorem before_irrefl (prefer : Bool) (a : Row K) : ¬Before prefer a a := by
  intro given
  rcases given with ⟨_,whole,cut⟩ | ⟨_,less⟩
  · rw [whole] at cut; cases cut
  · exact lt_irrefl _ less

omit [Field K] in
theorem before_trans {prefer : Bool} {a b c : Row K} (first : Before prefer a b) (second : Before prefer b c) :
    Before prefer a c := by
  rcases first with ⟨on,whole,cut⟩ | ⟨same,less⟩
  · rcases second with ⟨_,other,_⟩ | ⟨equal,_⟩
    · rw [other] at cut; cases cut
    · exact .inl ⟨on,whole,(equal on).symm.trans cut⟩
  · rcases second with ⟨on,other,cut⟩ | ⟨equal,further⟩
    · exact .inl ⟨on,(same on).trans other,cut⟩
    · exact .inr ⟨fun on => (same on).trans (equal on),further.trans less⟩

instance (prefer : Bool) : IsStrictOrder (Row K) (Before prefer) where
  irrefl := before_irrefl prefer
  trans _ _ _ := before_trans

variable {rows fused : List (Row K)} {contained kept : List Nat} {items : List (Row K × Seams)}

omit [Field K] [LinearOrder K] in
theorem score_place (distinct : (rows.map (·.score)).Nodup) {i j : Nat} (first : rows[i]? = some a)
    (second : rows[j]? = some b) (same : a.score = b.score) : i = j := by
  have below : i < (rows.map (·.score)).length := by simpa using (List.getElem?_eq_some_iff.mp first).1
  refine (List.getElem?_inj below distinct).mp ?_
  simp [first,second,same]

omit [Field K] in
theorem precedes_before (distinct : (rows.map (·.score)).Nodup) {i j : Nat} (differ : i ≠ j)
    (first : rows[i]? = some a) (second : rows[j]? = some b) (ordered : Precedes prefer rows i j) :
    Before prefer a b := by
  obtain ⟨a',b',atI,atJ,ordered⟩ := ordered
  cases first.symm.trans atI
  cases second.symm.trans atJ
  refine ordered.imp id fun later => ⟨later.1,?_⟩
  rcases later.2 with less | ⟨same,_⟩
  · exact less
  · exact absurd (score_place distinct first second same) differ

-- With distinct scores greedy suppression depends on the rows alone.
omit [Field K] in
theorem survivors_kernel {threshold : K} {overlap : Box K → Box K → K} {prefer only : Bool}
    (distinct : (rows.map (·.score)).Nodup) (survivors : Survivors threshold overlap prefer only rows kept) :
    Greedy.IsKernel (Strikes threshold overlap only) (Before prefer) {row | row ∈ rows}
      {row | row ∈ pick rows kept} := by
  refine ⟨?_,?_,?_⟩
  · intro row member
    obtain ⟨i,_,found⟩ := mem_pick.mp member
    exact List.mem_of_getElem? found
  · intro a first b second less strikes
    obtain ⟨i,inI,atI⟩ := mem_pick.mp first
    obtain ⟨j,inJ,atJ⟩ := mem_pick.mp second
    refine survivors.free i inI j inJ ⟨a,b,atI,atJ,less.imp id fun later => ⟨later.1,.inl later.2⟩⟩ ?_
    refine ⟨a,b,atI,atJ,?_,strikes⟩
    rintro rfl
    cases atI.symm.trans atJ
    exact before_irrefl prefer a less
  · intro b member
    obtain ⟨j,below,atJ⟩ := List.getElem_of_mem member
    have atJ := (List.getElem?_eq_getElem below).trans (congrArg some atJ)
    rcases survivors.covers j below with held | ⟨i,held,hit,less⟩
    · exact .inl (mem_pick.mpr ⟨j,held,atJ⟩)
    · obtain ⟨a,b',atI,atJ',differ,strikes⟩ := hit
      cases atJ.symm.trans atJ'
      exact .inr ⟨a,mem_pick.mpr ⟨i,held,atI⟩,strikes,precedes_before distinct differ.symm atI atJ less⟩

theorem seamJoin_paired {i j : Nat} : SeamJoin (items.map (·.1)) (items.map (·.2)) seamIou i j ↔
    ∃ a b, items[i]? = some a ∧ items[j]? = some b ∧ Paired seamIou a b := by
  have facing : ∀ {low high : Nat} {a b : Row K × Seams}, items[low]? = some a → items[high]? = some b →
      (Meets (items.map (·.1)) (items.map (·.2)) seamIou low high ↔ Facing seamIou a b) := by
    intro low high a b first second
    simp [Meets,Facing,first,second]
  constructor
  · intro given
    obtain ⟨⟨a,b,first,second,label,tile⟩,meets⟩ := given
    rw [List.getElem?_map,Option.map_eq_some_iff] at first second
    obtain ⟨a,first,rfl⟩ := first
    obtain ⟨b,second,rfl⟩ := second
    exact ⟨a,b,first,second,label,tile,meets.imp (facing first second).mp (facing second first).mp⟩
  · intro given
    obtain ⟨a,b,first,second,label,tile,meets⟩ := given
    refine ⟨⟨a.1,b.1,by simp [first],by simp [second],label,tile⟩,?_⟩
    exact meets.imp (facing first second).mpr (facing second first).mpr

theorem linked_iff (distinct : items.Nodup) {i j : Nat} (first : items[i]? = some a) (second : items[j]? = some b) :
    Relation.EqvGen (SeamJoin (items.map (·.1)) (items.map (·.2)) seamIou) i j ↔
      Linked {x | x ∈ items} seamIou a b := by
  refine Classes.carry_iff (fun (i : Nat) a => items[i]? = some a) ?_ ?_ ?_ ?_ first second
  · intro i a b left right
    exact Option.some.inj (left.symm.trans right)
  · intro i j a left right
    exact (List.getElem?_inj (List.getElem?_eq_some_iff.mp left).1 distinct).mp (left.trans right.symm)
  · intro i j join
    obtain ⟨a,b,first,second,paired⟩ := seamJoin_paired.mp join
    exact ⟨a,b,first,second,List.mem_of_getElem? first,List.mem_of_getElem? second,paired⟩
  · rintro a b ⟨first,second,paired⟩
    obtain ⟨i,below,rfl⟩ := List.getElem_of_mem first
    obtain ⟨j,within,rfl⟩ := List.getElem_of_mem second
    have atI := List.getElem?_eq_getElem below
    have atJ := List.getElem?_eq_getElem within
    exact ⟨i,j,atI,atJ,seamJoin_paired.mpr ⟨_,_,atI,atJ,paired⟩⟩

theorem held_group {parts : List (List Nat)} (distinct : items.Nodup)
    (fusion : IsFusion (items.map (·.1)) (items.map (·.2)) seamIou parts fused) (member : part ∈ parts)
    (inside : i ∈ part) (found : items[i]? = some a) :
    held (items.map (·.1)) {j | j ∈ part} = group {x | x ∈ items} seamIou a := by
  ext row
  constructor
  · intro given
    obtain ⟨j,within,at_⟩ := given
    rw [List.getElem?_map,Option.map_eq_some_iff] at at_
    obtain ⟨b,at_,rfl⟩ := at_
    have below := fusion.components.inside part member j within
    have related := (fusion.components.classes part member i inside j below).mp within
    exact ⟨b,List.mem_of_getElem? at_,(linked_iff distinct found at_).mp related,rfl⟩
  · intro given
    obtain ⟨b,within,linked,rfl⟩ := given
    obtain ⟨j,below,rfl⟩ := List.getElem_of_mem within
    have at_ := List.getElem?_eq_getElem below
    refine ⟨j,?_,by simp [at_]⟩
    exact (fusion.components.classes part member i inside j (by simpa using below)).mpr
      ((linked_iff distinct found at_).mpr linked)

omit [Field K] [LinearOrder K] in
theorem cutAlone_lone {members : Set Nat} (distinct : rows.Nodup) (filled : i ∈ members)
    (inside : ∀ j ∈ members, j < rows.length) : CutAlone rows members ↔ LoneCut (held rows members) := by
  constructor
  · intro given
    obtain ⟨j,row,rfl,found,cut⟩ := given
    refine ⟨row,?_,cut⟩
    ext other
    constructor
    · intro given
      obtain ⟨k,rfl,at_⟩ := given
      exact Option.some.inj (at_.symm.trans found)
    · rintro rfl
      exact ⟨j,rfl,found⟩
  · intro given
    obtain ⟨row,single,cut⟩ := given
    have all : ∀ j ∈ members, rows[j]? = some row := by
      intro j member
      have below := inside j member
      have found := List.getElem?_eq_getElem below
      have here : rows[j] ∈ held rows members := ⟨j,member,found⟩
      rw [single] at here
      exact found.trans (congrArg some here)
    refine ⟨i,row,?_,all i filled,cut⟩
    ext j
    constructor
    · intro member
      exact (List.getElem?_inj (inside j member) distinct).mp ((all j member).trans (all i filled).symm)
    · rintro rfl
      exact filled

theorem part_fuses {parts : List (List Nat)} (distinct : (items.map (·.1)).Nodup)
    (flags : ∀ x ∈ items, x.1.truncated = !x.2.isEmpty) (wide : ∀ x ∈ items, x.1.classes.length = width)
    (fusion : IsFusion (items.map (·.1)) (items.map (·.2)) seamIou parts fused) {f : Nat}
    (at_ : parts[f]? = some part) (made : fused[f]? = some row) (inside : i ∈ part) (found : items[i]? = some a) :
    Fuses {x | x ∈ items} seamIou width a row := by
  have member := List.mem_of_getElem? at_
  have columns : (items.map (·.1)).map (·.truncated) = (items.map (·.2)).map (!·.isEmpty) := by
    rw [List.map_map,List.map_map]
    exact List.map_congr_left flags
  have widths : ∀ w, some width = some w → ∀ row ∈ items.map (·.1), row.classes.length = w := by
    rintro w same row listed
    obtain ⟨x,held,rfl⟩ := List.mem_map.mp listed
    exact (wide x held).trans (Option.some.inj same)
  have sums := part_sums fusion columns widths at_ made
  rw [propext (cutAlone_lone distinct (show i ∈ {j | j ∈ part} from inside) (fusion.components.inside part member)),
    held_group (distinct.of_map _) fusion member inside found] at sums
  exact sums

theorem part_score {parts : List (List Nat)} (fusion : IsFusion rows seams seamIou parts fused) {f : Nat}
    (at_ : parts[f]? = some part) (made : fused[f]? = some row) : ∃ i ∈ part, (rows[i]?).map (·.score) = some row.score := by
  have fused_ := congrArg (·[f]?) fusion.made
  simp only [List.getElem?_map,at_,made,Option.map_some,Option.some.injEq] at fused_
  obtain ⟨old,member,same⟩ := fuseRow_score fused_
  obtain ⟨i,inside,found⟩ := mem_pick.mp member
  exact ⟨i,inside,by rw [found,Option.map_some,same]⟩

theorem fused_scores {parts : List (List Nat)} (distinct : (rows.map (·.score)).Nodup)
    (fusion : IsFusion rows seams seamIou parts fused) : (fused.map (·.score)).Nodup := by
  have size : parts.length = fused.length := by simpa using congrArg List.length fusion.made
  refine List.pairwise_map.mpr (List.pairwise_iff_getElem.mpr ?_)
  intro f g belowF belowG less same
  obtain ⟨i,inF,scoreF⟩ := part_score fusion (List.getElem?_eq_getElem (size.symm ▸ belowF))
    (List.getElem?_eq_getElem belowF)
  obtain ⟨j,inG,scoreG⟩ := part_score fusion (List.getElem?_eq_getElem (size.symm ▸ belowG))
    (List.getElem?_eq_getElem belowG)
  have below := fusion.components.inside _ (List.getElem_mem _) i inF
  have equal : i = j := by
    refine (List.getElem?_inj (by simpa using below) distinct).mp ?_
    rw [List.getElem?_map,List.getElem?_map,scoreF,scoreG,same]
  exact List.pairwise_iff_getElem.mp fusion.components.apart f g _ _ less i inF (equal ▸ inG)

omit [Field K] [LinearOrder K] in
theorem picked_scores (distinct : (rows.map (·.score)).Nodup) {keep : List Nat} (order : keep.Nodup)
    (inside : ∀ i ∈ keep, i < rows.length) : ((pick rows keep).map (·.score)).Nodup := by
  rw [← pick_map]
  exact pick_nodup distinct order (by simpa using inside)

theorem trace_merged (distinct : (items.map (·.1.score)).Nodup)
    (flags : ∀ x ∈ items, x.1.truncated = !x.2.isEmpty) (wide : ∀ x ∈ items, x.1.classes.length = width)
    (trace : IsNms params (items.map (·.1)) (items.map (·.2)) fused contained kept) :
    Merged params width {x | x ∈ items} {row | row ∈ fused} {row | row ∈ pick fused contained}
      {row | row ∈ pick (pick fused contained) kept} ∧
    ((pick (pick fused contained) kept).map (·.score)).Nodup := by
  have scores : ((items.map (·.1)).map (·.score)).Nodup := by simpa [Function.comp_def] using distinct
  have fusedScores : (fused.map (·.score)).Nodup := by
    cases on : params.fuseSeams with
    | true =>
      obtain ⟨parts,fusion⟩ := trace.fusion on
      exact fused_scores scores fusion
    | false => rwa [trace.apart on]
  have containedScores := picked_scores fusedScores trace.inside.1 trace.inside.2
  refine ⟨⟨?_,?_,?_,?_,?_,survivors_kernel containedScores trace.nms⟩,
    picked_scores containedScores (survivors_distinct trace.nms) trace.nms.inside⟩
  · intro on row member
    obtain ⟨parts,fusion⟩ := trace.fusion on
    have size : parts.length = fused.length := by simpa using congrArg List.length fusion.made
    obtain ⟨f,below,rfl⟩ := List.getElem_of_mem member
    have at_ := List.getElem?_eq_getElem (size.symm ▸ below)
    have listed := List.mem_of_getElem? at_
    obtain ⟨i,inside⟩ := List.exists_mem_of_ne_nil _ (fusion.components.filled _ listed).1
    have within : i < items.length := by simpa using fusion.components.inside _ listed i inside
    have found := List.getElem?_eq_getElem within
    exact ⟨_,List.mem_of_getElem? found,part_fuses (scores.of_map _) flags wide fusion at_
      (List.getElem?_eq_getElem below) inside found⟩
  · intro on a member
    obtain ⟨parts,fusion⟩ := trace.fusion on
    have size : parts.length = fused.length := by simpa using congrArg List.length fusion.made
    obtain ⟨i,below,rfl⟩ := List.getElem_of_mem member
    obtain ⟨part,listed,inside⟩ := fusion.components.cover i (by simpa using below)
    obtain ⟨f,within,rfl⟩ := List.getElem_of_mem listed
    have found := List.getElem?_eq_getElem (size ▸ within)
    exact ⟨_,List.mem_of_getElem? found,part_fuses (scores.of_map _) flags wide fusion
      (List.getElem?_eq_getElem within) found inside (List.getElem?_eq_getElem below)⟩
  · intro off
    rw [trace.apart off]
    ext row
    simp
  · intro low
    exact survivors_kernel fusedScores (trace.containment low)
  · intro high
    rw [trace.everything high,pick_range]

end SymphonyAkida.TiledShard
