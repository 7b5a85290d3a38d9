import SymphonyAkida.MergeProvenance

namespace SymphonyAkida.TiledShard
open Outcome
variable {K : Type} [Field K] [LinearOrder K] {detections out : TileDetections K} {rows fused : List (Row K)}
  {seams : List Seams} {seamIou : K}

structure Joined (width : Option Nat) (rows : List (Row K)) (seams : List Seams) (part : List Nat)
    (row : Row K) : Prop where
  sums : Sums width (held rows {i | i ∈ part}) (∃ i, part = [i] ∧ seams.getD i [] ≠ []) row
  single : ∀ i, part = [i] →
    ∃ old, rows[i]? = some old ∧ row = {old with truncated := !(seams.getD i []).isEmpty}

omit [Field K] [LinearOrder K] in
theorem alone_cut (seams : List Seams) (inside : ∀ i ∈ part, i < rows.length) :
    ((pick rows part).length == 1 && isCut seams part) = true ↔ ∃ i, part = [i] ∧ seams.getD i [] ≠ [] := by
  rw [Bool.and_eq_true,beq_iff_eq,pick_length inside]
  constructor
  · intro given
    obtain ⟨one,cut⟩ := given
    obtain ⟨i,rfl⟩ := List.length_eq_one_iff.mp one
    refine ⟨i,rfl,?_⟩
    intro none
    rw [isCut,List.headD_cons,none] at cut
    cases cut
  · intro given
    obtain ⟨i,rfl,cut⟩ := given
    refine ⟨rfl,?_⟩
    rw [isCut,List.headD_cons,Bool.not_eq_true',Bool.eq_false_iff,Ne,List.isEmpty_iff]
    exact cut

theorem part_joined {parts : List (List Nat)} (fusion : IsFusion rows seams seamIou parts fused)
    (wide : ∀ w, width = some w → ∀ row ∈ rows, row.classes.length = w) (member : part ∈ parts)
    (made : fuseRow (pick rows part) (isCut seams part) = some row) : Joined width rows seams part row := by
  have inside := fusion.components.inside part member
  have widths : ∀ w, width = some w → ∀ other ∈ pick rows part, other.classes.length = w := by
    intro w known other picked
    obtain ⟨i,_,place⟩ := mem_pick.mp picked
    exact wide w known other (List.mem_of_getElem? place)
  constructor
  · have sums := fuseRow_sums made (part_labels fusion member) widths
    rw [(part_component fusion member).2] at sums
    rwa [propext (alone_cut seams inside)] at sums
  · rintro i rfl
    have below := inside i List.mem_cons_self
    rw [pick_single below,fuseRow_single] at made
    exact ⟨rows[i],List.getElem?_eq_getElem below,(Option.some.inj made).symm⟩

omit [Field K] [LinearOrder K] in
theorem classed_wide (classed : Classed width detections rows) :
    ∀ w, width = some w → ∀ row ∈ rows, row.classes.length = w := by
  rintro w rfl row member
  obtain ⟨array,_,shape⟩ := Option.map_eq_some_iff.mp classed
  have same : array.rows = rows.map (·.classes) := congrArg Prod.snd shape
  have wide : array.width = w := congrArg Prod.fst shape
  rw [← wide]
  apply array.rect
  rw [same]
  exact List.mem_map.mpr ⟨row,member,rfl⟩

-- One row for each class of the seam relation, whatever the detections.
theorem fuse_components (seamIou : K) (shown : ShownBut detections rows) (classed : Classed width detections rows)
    (aligned : seams.length = rows.length) :
    ∃ out parts fused, fuseSeamFragments detections seams seamIou = .ok out ∧
      Shown out fused ∧ Classed width out fused ∧
      IsPartition rows.length (Relation.EqvGen (SeamJoin rows seams seamIou)) parts ∧
      List.Forall₂ (Joined width rows seams) parts fused := by
  obtain ⟨out,parts,fused,ran,fusion,after,columns⟩ : ∃ out parts fused,
      fuseSeamFragments detections seams seamIou = .ok out ∧ IsFusion rows seams seamIou parts fused ∧
      Shown out fused ∧ Classed width out fused := fuse_total shown classed aligned
  refine ⟨out,parts,fused,ran,after,columns,fusion.components,?_⟩
  have made : List.Forall₂ (fun part row => fuseRow (pick rows part) (isCut seams part) = some row) parts fused := by
    have equal := List.forall₂_eq_eq_eq (α := Option (Row K)) ▸ fusion.made
    exact List.forall₂_map_right_iff.mp (List.forall₂_map_left_iff.mp equal)
  rw [List.forall₂_iff_zip] at made ⊢
  refine ⟨made.1,fun {part row} paired => ?_⟩
  exact part_joined fusion (classed_wide classed) (List.of_mem_zip paired).1 (made.2 paired)

-- Three pieces of one label, the outer two from tile 0, each meeting the middle one.
def chainRows : List (Row ℚ) :=
  [⟨⟨0,0,1/2,1/2⟩,9/10,7,[],0,true⟩,⟨⟨1/2,0,1,1⟩,8/10,7,[],1,true⟩,⟨⟨0,1/2,1/2,1⟩,7/10,7,[],0,true⟩]

def chainSeams : List Seams := [[(.x,.high)],[(.x,.low)],[(.x,.high)]]

def chainDetections : TileDetections ℚ where
  boxes := chainRows.map (·.box)
  scores := chainRows.map (·.score)
  labels := chainRows.map (·.label)
  classes := none
  tileIds := chainRows.map (·.tileId)
  truncated := some (chainRows.map (·.truncated))

theorem chain_shown : ShownBut chainDetections chainRows := ⟨rfl,rfl,rfl,rfl⟩

theorem chain_classed : Classed none chainDetections chainRows := rfl

theorem chain_total : ∃ out parts fused, fuseSeamFragments chainDetections chainSeams (1/5) = .ok out ∧
    IsFusion chainRows chainSeams (1/5) parts fused ∧ Shown out fused ∧ Classed none out fused := by
  have aligned : chainSeams.length = chainRows.length := rfl
  exact fuse_total chain_shown chain_classed aligned

theorem fuse_components_chain : ∃ out parts fused, fuseSeamFragments chainDetections chainSeams (1/5) = .ok out ∧
    Shown out fused ∧ Classed none out fused ∧
    IsPartition 3 (Relation.EqvGen (SeamJoin chainRows chainSeams (1/5))) parts ∧
    List.Forall₂ (Joined none chainRows chainSeams) parts fused := by
  have aligned : chainSeams.length = chainRows.length := rfl
  exact fuse_components (1/5) chain_shown chain_classed aligned

def Link (rows : List (Row K)) (seams : List Seams) (seamIou : K) (part : List Nat) (i j : Nat) : Prop :=
  i ∈ part ∧ j ∈ part ∧ SeamJoin rows seams seamIou i j

theorem joined_inside (join : SeamJoin rows seams seamIou i j) : i < rows.length ∧ j < rows.length := by
  obtain ⟨⟨a,b,first,second,_⟩,_⟩ := join
  exact ⟨(List.getElem?_eq_some_iff.mp first).1,(List.getElem?_eq_some_iff.mp second).1⟩

-- Being related is being reached by joins that stay inside the part.
theorem part_links {parts : List (List Nat)}
    (components : IsPartition rows.length (Relation.EqvGen (SeamJoin rows seams seamIou)) parts)
    (member : part ∈ parts) (related : Relation.EqvGen (SeamJoin rows seams seamIou) i j) :
    (i ∈ part ↔ j ∈ part) ∧ (i ∈ part → Relation.ReflTransGen (Link rows seams seamIou part) i j) := by
  have symmetric : Std.Symm (Link rows seams seamIou part) :=
    ⟨fun a b ⟨first,second,join⟩ => ⟨second,first,join.symm⟩⟩
  induction related with
  | rel a b join =>
    obtain ⟨left,right⟩ := joined_inside join
    have both : a ∈ part ↔ b ∈ part := by
      constructor
      · intro inside
        exact (components.classes part member a inside b right).mpr (.rel _ _ join)
      · intro inside
        exact (components.classes part member b inside a left).mpr (.symm _ _ (.rel _ _ join))
    exact ⟨both,fun inside => .single ⟨inside,both.mp inside,join⟩⟩
  | refl a => exact ⟨Iff.rfl,fun _ => .refl⟩
  | symm a b _ ih => exact ⟨ih.1.symm,fun inside => Relation.ReflTransGen.stdSymm.symm _ _ (ih.2 (ih.1.mpr inside))⟩
  | trans a b c _ _ first second =>
    exact ⟨first.1.trans second.1,fun inside => (first.2 inside).trans (second.2 (first.1.mp inside))⟩

def tileOf (rows : List (Row K)) (i : Nat) : Option Nat := (rows[i]?).map (·.tileId)

theorem joined_tiles (join : SeamJoin rows seams seamIou i j) : tileOf rows i ≠ tileOf rows j := by
  obtain ⟨⟨a,b,first,second,_,apart⟩,_⟩ := join
  unfold tileOf
  rw [first,second]
  exact fun same => apart (Option.some.inj same)

-- Fusion pairs no two detections of one tile. Two of them share a group only
-- over joins through other tiles.
theorem fused_over_tiles (shown : ShownBut detections rows) (aligned : seams.length = rows.length)
    (ran : fuseSeamFragments detections seams seamIou = .ok out) :
    (∀ pair ∈ unions detections seams seamIou, tileOf rows pair.1 ≠ tileOf rows pair.2) ∧
    ∃ parts fused, IsFusion rows seams seamIou parts fused ∧ Shown out fused ∧
      ∀ part ∈ parts, ∀ i ∈ part, ∀ j ∈ part, i ≠ j →
        Relation.TransGen (Link rows seams seamIou part) i j ∧
        (tileOf rows i = tileOf rows j → ∃ k ∈ part, k ≠ i ∧ k ≠ j ∧
          SeamJoin rows seams seamIou i k ∧ tileOf rows k ≠ tileOf rows i) := by
  constructor
  · intro pair member
    exact joined_tiles ((mem_unions shown.boxes shown.labels shown.tileIds).mp member).2
  obtain ⟨fused,fusion,after⟩ := fuse_shown shown aligned ran
  refine ⟨_,fused,fusion,after,?_⟩
  intro part member i first j second differ
  have related := (fusion.components.classes part member i first j
    (fusion.components.inside part member j second)).mp second
  have path := (part_links fusion.components member related).2 first
  obtain same | steps := Relation.reflTransGen_iff_eq_or_transGen.mp path
  · exact absurd same.symm differ
  refine ⟨steps,fun equal => ?_⟩
  obtain ⟨k,⟨_,inside,join⟩,_⟩ := Relation.TransGen.head'_iff.mp steps
  have apart := joined_tiles join
  refine ⟨k,inside,?_,?_,join,apart.symm⟩
  · rintro rfl; exact apart rfl
  · rintro rfl; exact apart equal

theorem fused_over_tiles_chain : ∃ out, fuseSeamFragments chainDetections chainSeams (1/5) = .ok out ∧
    (∀ pair ∈ unions chainDetections chainSeams (1/5), tileOf chainRows pair.1 ≠ tileOf chainRows pair.2) ∧
    ∃ parts fused, IsFusion chainRows chainSeams (1/5) parts fused ∧ Shown out fused ∧
      ∀ part ∈ parts, ∀ i ∈ part, ∀ j ∈ part, i ≠ j →
        Relation.TransGen (Link chainRows chainSeams (1/5) part) i j ∧
        (tileOf chainRows i = tileOf chainRows j → ∃ k ∈ part, k ≠ i ∧ k ≠ j ∧
          SeamJoin chainRows chainSeams (1/5) i k ∧ tileOf chainRows k ≠ tileOf chainRows i) := by
  obtain ⟨out,_,_,ran,_⟩ := chain_total
  exact ⟨out,ran,fused_over_tiles chain_shown rfl ran⟩

-- The chain is one group, with two detections of tile 0 in it.
theorem chain_shares_tile : ∃ out parts fused, fuseSeamFragments chainDetections chainSeams (1/5) = .ok out ∧
    IsFusion chainRows chainSeams (1/5) parts fused ∧ Shown out fused ∧
    ∃ part ∈ parts, 0 ∈ part ∧ 2 ∈ part ∧ tileOf chainRows 0 = tileOf chainRows 2 := by
  obtain ⟨out,parts,fused,ran,fusion,after,_⟩ := chain_total
  have united : (0,1) ∈ unions chainDetections chainSeams (1/5) ∧ (1,2) ∈ unions chainDetections chainSeams (1/5) := by
    decide +kernel
  have first := ((mem_unions chain_shown.boxes chain_shown.labels chain_shown.tileIds).mp united.1).2
  have second := ((mem_unions chain_shown.boxes chain_shown.labels chain_shown.tileIds).mp united.2).2
  obtain ⟨part,member,inside⟩ := fusion.components.cover 0 (by decide)
  refine ⟨out,parts,fused,ran,fusion,after,part,member,inside,?_,rfl⟩
  exact (fusion.components.classes part member 0 inside 2 (by decide)).mpr
    (.trans _ _ _ (.rel _ _ first) (.rel _ _ second))

end SymphonyAkida.TiledShard
