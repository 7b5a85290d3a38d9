import SymphonyAkida.MergeMeaning

namespace SymphonyAkida.TiledShard
open Outcome
variable {K : Type} [Field K] [LinearOrder K] {params : MergeParams K} {seamIou : K} {width : Nat}
  {name : Nat → Nat} {inputs : Set (Row K × Seams)} {members : Set (Row K)} {lone : Prop}

-- A row under another numbering of the tiles.
def renamed (name : Nat → Nat) (row : Row K) : Row K := {row with tileId := name row.tileId}

def renamedInput (name : Nat → Nat) (input : Row K × Seams) : Row K × Seams := (renamed name input.1,input.2)

-- No two tiles of the inputs get one number.
def Faithful (name : Nat → Nat) (inputs : Set (Row K × Seams)) : Prop :=
  ∀ a ∈ inputs, ∀ b ∈ inputs, name a.1.tileId = name b.1.tileId → a.1.tileId = b.1.tileId

-- Nothing but the tile numbers, and those only for being equal, is in a link.
theorem linked_renamed (faithful : Faithful name inputs) (distinct : Set.InjOn (·.1.score) inputs)
    (first : a ∈ inputs) (second : b ∈ inputs) :
    Linked inputs seamIou a b ↔
      Linked (renamedInput name '' inputs) seamIou (renamedInput name a) (renamedInput name b) := by
  have paired : ∀ x ∈ inputs, ∀ y ∈ inputs,
      (Paired seamIou (renamedInput name x) (renamedInput name y) ↔ Paired seamIou x y) := by
    intro x left y right
    have tiles : name x.1.tileId ≠ name y.1.tileId ↔ x.1.tileId ≠ y.1.tileId :=
      ⟨fun apart same => apart (congrArg name same),fun apart same => apart (faithful x left y right same)⟩
    exact and_congr_right fun _ => and_congr_left fun _ => tiles
  refine Classes.carry_iff (fun x y => x ∈ inputs ∧ renamedInput name x = y) ?_ ?_ ?_ ?_
    ⟨first,rfl⟩ ⟨second,rfl⟩
  · rintro x y z ⟨_,rfl⟩ ⟨_,rfl⟩
    rfl
  · rintro x y z ⟨left,rfl⟩ ⟨right,same⟩
    exact distinct left right (congrArg (·.1.score) same).symm
  · rintro x y ⟨left,right,pair⟩
    exact ⟨_,_,⟨left,rfl⟩,⟨right,rfl⟩,⟨x,left,rfl⟩,⟨y,right,rfl⟩,(paired x left y right).mpr pair⟩
  · rintro _ _ ⟨⟨x,left,rfl⟩,⟨y,right,rfl⟩,pair⟩
    exact ⟨x,y,⟨left,rfl⟩,⟨right,rfl⟩,left,right,(paired x left y right).mp pair⟩

theorem group_renamed (faithful : Faithful name inputs) (distinct : Set.InjOn (·.1.score) inputs)
    (member : a ∈ inputs) : group (renamedInput name '' inputs) seamIou (renamedInput name a) =
      renamed name '' group inputs seamIou a := by
  ext row
  constructor
  · intro given
    obtain ⟨_,⟨b,inside,rfl⟩,linked,rfl⟩ := given
    exact ⟨b.1,⟨b,inside,(linked_renamed faithful distinct member inside).mpr linked,rfl⟩,rfl⟩
  · intro given
    obtain ⟨_,⟨b,inside,linked,rfl⟩,rfl⟩ := given
    exact ⟨renamedInput name b,⟨b,inside,rfl⟩,(linked_renamed faithful distinct member inside).mp linked,rfl⟩

theorem group_scores (distinct : Set.InjOn (·.1.score) inputs) (seamIou : K) (a : Row K × Seams) :
    Set.InjOn (·.score) (group inputs seamIou a) := by
  rintro _ ⟨b,left,_,rfl⟩ _ ⟨c,right,_,rfl⟩ same
  rw [distinct left right same]

omit [Field K] [LinearOrder K] in
theorem renamed_scores (distinct : Set.InjOn (·.score) members) (name : Nat → Nat) :
    Set.InjOn (·.score) (renamed name '' members) := by
  rintro _ ⟨a,left,rfl⟩ _ ⟨b,right,rfl⟩ same
  exact congrArg (renamed name) (distinct left right same)

omit [Field K] [LinearOrder K] in
theorem lone_renamed (distinct : Set.InjOn (·.score) members) (name : Nat → Nat) :
    LoneCut (renamed name '' members) ↔ LoneCut members := by
  constructor
  · intro given
    obtain ⟨row,single,cut⟩ := given
    have inside : row ∈ renamed name '' members := single ▸ Set.mem_singleton row
    obtain ⟨a,member,rfl⟩ := inside
    refine ⟨a,?_,cut⟩
    ext b
    constructor
    · intro other
      have place : renamed name b ∈ renamed name '' members := ⟨b,other,rfl⟩
      rw [single,Set.mem_singleton_iff] at place
      exact distinct other member (congrArg (·.score) place)
    · rintro rfl
      exact member
  · intro given
    obtain ⟨row,rfl,cut⟩ := given
    exact ⟨renamed name row,Set.image_singleton,cut⟩

theorem sums_renamed (sums : Sums (some width) members lone row) (name : Nat → Nat) :
    Sums (some width) (renamed name '' members) lone (renamed name row) := by
  have columns : ∀ {β : Type} (f : Row K → β), (∀ row, f (renamed name row) = f row) →
      f '' (renamed name '' members) = f '' members := by
    intro β f same
    rw [Set.image_image]
    exact Set.image_congr fun row _ => same row
  refine ⟨?_,?_,?_,?_,sums.truncated,?_⟩
  · rw [columns (·.box) fun _ => rfl]
    exact sums.box
  · rintro _ ⟨member,inside,rfl⟩
    exact sums.label member inside
  · intro w known
    obtain ⟨size,greatest⟩ := sums.classes w known
    refine ⟨size,fun c below => ?_⟩
    rw [columns (·.classes.getD c 0) fun _ => rfl]
    exact greatest c below
  · obtain ⟨best,inside,tile,most⟩ := sums.tile
    refine ⟨renamed name best,⟨best,inside,rfl⟩,congrArg name tile,?_⟩
    rintro _ ⟨other,member,rfl⟩
    exact most other member
  · rw [columns (·.score) fun _ => rfl]
    exact sums.score

omit [Field K] in
theorem encloses_unique {a b : Box K} (first : Encloses a boxes) (second : Encloses b boxes) : a = b := by
  cases a
  cases b
  rw [Box.mk.injEq]
  exact ⟨first.left.unique second.left,first.top.unique second.top,first.right.unique second.right,
    first.bottom.unique second.bottom⟩

-- The members fix the row: with distinct scores there is one best member.
theorem sums_unique (distinct : Set.InjOn (·.score) members) (first : Sums (some width) members lone a)
    (second : Sums (some width) members lone b) : a = b := by
  have score : a.score = b.score := first.score.unique second.score
  have box : a.box = b.box := encloses_unique first.box second.box
  obtain ⟨best,inside,tileA,most⟩ := first.tile
  obtain ⟨other,within,tileB,more⟩ := second.tile
  have same : best = other := distinct inside within (le_antisymm (more best inside) (most other within))
  have label : a.label = b.label := (first.label best inside).symm.trans (second.label best inside)
  have tile : a.tileId = b.tileId := by rw [← tileA,← tileB,same]
  have flag : a.truncated = b.truncated := Bool.eq_iff_iff.mpr (first.truncated.trans second.truncated.symm)
  have classes : a.classes = b.classes := by
    obtain ⟨sizeA,greatestA⟩ := first.classes width rfl
    obtain ⟨sizeB,greatestB⟩ := second.classes width rfl
    refine List.ext_getElem (sizeA.trans sizeB.symm) fun c left right => ?_
    have equal := (greatestA c (sizeA ▸ left)).unique (greatestB c (sizeA ▸ left))
    simpa [left,right] using equal
  cases a
  cases b
  rw [Row.mk.injEq]
  exact ⟨box,score,label,classes,tile,flag⟩

theorem fuses_renamed (faithful : Faithful name inputs) (distinct : Set.InjOn (·.1.score) inputs) (member : a ∈ inputs)
    (first : Fuses inputs seamIou width a row)
    (second : Fuses (renamedInput name '' inputs) seamIou width (renamedInput name a) other) :
    other = renamed name row := by
  have scores := group_scores distinct seamIou a
  unfold Fuses at first second
  rw [group_renamed faithful distinct member,propext (lone_renamed scores name)] at second
  exact sums_unique (renamed_scores scores name) second (sums_renamed first name)

variable {fused contained kept fused' contained' kept' : Set (Row K)}

theorem fused_renamed (faithful : Faithful name inputs) (distinct : Set.InjOn (·.1.score) inputs)
    (first : Merged params width inputs fused contained kept)
    (second : Merged params width (renamedInput name '' inputs) fused' contained' kept') :
    fused' = renamed name '' fused := by
  cases on : params.fuseSeams with
  | false =>
    rw [first.apart on,second.apart on,Set.image_image,Set.image_image]
    rfl
  | true =>
    ext other
    constructor
    · intro member
      obtain ⟨_,⟨a,input,rfl⟩,made⟩ := second.each on other member
      obtain ⟨row,held,fuses⟩ := first.every on a input
      exact ⟨row,held,(fuses_renamed faithful distinct input fuses made).symm⟩
    · intro given
      obtain ⟨row,member,rfl⟩ := given
      obtain ⟨a,input,fuses⟩ := first.each on row member
      obtain ⟨other,held,made⟩ := second.every on (renamedInput name a) ⟨a,input,rfl⟩
      rwa [← fuses_renamed faithful distinct input fuses made]

theorem merged_renamed (faithful : Faithful name inputs) (distinct : Set.InjOn (·.1.score) inputs)
    (finite : fused'.Finite) (first : Merged params width inputs fused contained kept)
    (second : Merged params width (renamedInput name '' inputs) fused' contained' kept') :
    kept' = renamed name '' kept := by
  have fusion := fused_renamed faithful distinct first second
  have containment : contained' = renamed name '' contained := by
    by_cases low : params.iosThresh ≤ 1
    · refine (second.containment low).unique finite ?_
      rw [fusion]
      exact (first.containment low).image (fun _ _ => Iff.rfl) fun _ _ => Iff.rfl
    · rw [first.everything low,second.everything low,fusion]
  have less : contained' ⊆ fused' := by
    by_cases low : params.iosThresh ≤ 1
    · exact (second.containment low).inside
    · exact (second.everything low).subset
  refine second.nms.unique (finite.subset less) ?_
  rw [containment]
  exact first.nms.image (fun _ _ => Iff.rfl) fun _ _ => Iff.rfl

theorem finishRows_perm (unbounded : params.maxBoxes = none) (rows : List (Row K)) :
    (finishRows params rows).Perm ((rows.filter (stays params.clip)).map (finishRow params)) := by
  rw [finishRows_eq,unbounded]
  exact pick_perm (Argsort.argsort_perm _ _)

theorem finishRow_renamed (name : Nat → Nat) (row : Row K) :
    finishRow params (renamed name row) = renamed name (finishRow params row) := by
  rw [finishRow_eq,finishRow_eq]
  rfl

theorem finishRows_renamed (unbounded : params.maxBoxes = none) {rows other : List (Row K)}
    (same : other.Perm (rows.map (renamed name))) :
    (finishRows params other).Perm ((finishRows params rows).map (renamed name)) := by
  calc
    (finishRows params other).Perm ((other.filter (stays params.clip)).map (finishRow params)) :=
      finishRows_perm unbounded other
    List.Perm _ (((rows.map (renamed name)).filter (stays params.clip)).map (finishRow params)) :=
      (same.filter _).map _
    _ = ((rows.filter (stays params.clip)).map (finishRow params)).map (renamed name) := by
      rw [List.filter_map,List.map_map,List.map_map]
      exact List.map_congr_left fun row _ => finishRow_renamed name row
    List.Perm _ ((finishRows params rows).map (renamed name)) :=
      ((finishRows_perm unbounded rows).map _).symm

variable {items items' : List (Row K × Seams)} {fusedA fusedB : List (Row K)} {containedA containedB keptA keptB : List Nat}

theorem traces_renamed (unbounded : params.maxBoxes = none) (faithful : Faithful name {x | x ∈ items})
    (distinct : (items.map (·.1.score)).Nodup) (distinct' : (items'.map (·.1.score)).Nodup)
    (flags : ∀ x ∈ items, x.1.truncated = !x.2.isEmpty) (wide : ∀ x ∈ items, x.1.classes.length = width)
    (same : {x | x ∈ items'} = renamedInput name '' {x | x ∈ items})
    (first : IsNms params (items.map (·.1)) (items.map (·.2)) fusedA containedA keptA)
    (second : IsNms params (items'.map (·.1)) (items'.map (·.2)) fusedB containedB keptB) :
    (finishRows params (pick (pick fusedB containedB) keptB)).Perm
      ((finishRows params (pick (pick fusedA containedA) keptA)).map (renamed name)) := by
  have back : ∀ x ∈ items', ∃ y ∈ items, renamedInput name y = x := by
    intro x member
    exact same.subset member
  have flags' : ∀ x ∈ items', x.1.truncated = !x.2.isEmpty := by
    intro x member
    obtain ⟨y,inside,rfl⟩ := back x member
    exact flags y inside
  have wide' : ∀ x ∈ items', x.1.classes.length = width := by
    intro x member
    obtain ⟨y,inside,rfl⟩ := back x member
    exact wide y inside
  obtain ⟨mergedA,scoresA⟩ := trace_merged distinct flags wide first
  obtain ⟨mergedB,scoresB⟩ := trace_merged distinct' flags' wide' second
  rw [same] at mergedB
  have apart : Set.InjOn (·.1.score) {x | x ∈ items} := fun x left y right equal =>
    List.inj_on_of_nodup_map distinct left right equal
  have kept := merged_renamed faithful apart (List.finite_toSet fusedB) mergedA mergedB
  refine finishRows_renamed unbounded ?_
  have scoresA' : (((pick (pick fusedA containedA) keptA).map (renamed name)).map (·.score)).Nodup := by
    rw [List.map_map]
    exact scoresA
  refine (List.perm_ext_iff_of_nodup (scoresB.of_map _) (scoresA'.of_map _)).mpr fun row => ?_
  rw [List.mem_map]
  exact Set.ext_iff.mp kept row

end SymphonyAkida.TiledShard
