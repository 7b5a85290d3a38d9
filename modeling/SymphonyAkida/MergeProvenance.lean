import SymphonyAkida.MergeStages
import SymphonyAkida.Library.Classes
import Mathlib.Algebra.Field.Rat
import Mathlib.Algebra.Order.Ring.Rat
import Mathlib.Order.Bounds.Basic

namespace SymphonyAkida.TiledShard
open Outcome
variable {K : Type} [Field K] [LinearOrder K] {out : TileDetections K} {rows fused : List (Row K)}
  {params : MergeParams K} {seams : List Seams}

def held (rows : List (Row K)) (members : Set Nat) : Set (Row K) := {row | ∃ i ∈ members, rows[i]? = some row}

def IsComponent (rows : List (Row K)) (seams : List Seams) (seamIou : K) (members : Set Nat) : Prop :=
  ∃ i < rows.length, ∀ j, j ∈ members ↔ j < rows.length ∧ Relation.EqvGen (SeamJoin rows seams seamIou) i j

structure Encloses (box : Box K) (boxes : Set (Box K)) : Prop where
  left : IsLeast ((·.x1) '' boxes) box.x1
  top : IsLeast ((·.y1) '' boxes) box.y1
  right : IsGreatest ((·.x2) '' boxes) box.x2
  bottom : IsGreatest ((·.y2) '' boxes) box.y2

-- What one row says about the detections it stands for, before clip and penalty.
structure Sums (width : Option Nat) (members : Set (Row K)) (alone : Prop) (row : Row K) : Prop where
  box : Encloses row.box ((·.box) '' members)
  label : ∀ member ∈ members, member.label = row.label
  classes : ∀ w, width = some w → row.classes.length = w ∧
    ∀ c < w, IsGreatest ((·.classes.getD c 0) '' members) (row.classes.getD c 0)
  tile : ∃ best ∈ members, best.tileId = row.tileId ∧ ∀ other ∈ members, other.score ≤ best.score
  truncated : row.truncated = true ↔ alone
  score : IsGreatest ((·.score) '' members) row.score

omit [Field K] in
theorem largest_image {f : Row K → K} {members : List (Row K)} (found : Argmax.largest (members.map f) = some top) :
    IsGreatest (f '' {row | row ∈ members}) top := by
  obtain ⟨place,most⟩ := Argmax.largest_spec found
  obtain ⟨row,member,same⟩ := List.mem_map.mp place
  refine ⟨⟨row,member,same⟩,?_⟩
  rintro _ ⟨other,inside,rfl⟩
  exact most _ (List.mem_map.mpr ⟨other,inside,rfl⟩)

omit [Field K] in
theorem least_image {f : Row K → K} {members : List (Row K)} (found : Argmax.least (members.map f) = some low) :
    IsLeast (f '' {row | row ∈ members}) low := by
  obtain ⟨place,least⟩ := Argmax.least_spec found
  obtain ⟨row,member,same⟩ := List.mem_map.mp place
  refine ⟨⟨row,member,same⟩,?_⟩
  rintro _ ⟨other,inside,rfl⟩
  exact least _ (List.mem_map.mpr ⟨other,inside,rfl⟩)

omit [Field K] in
theorem enclose_encloses {members : List (Row K)} (found : enclose (members.map (·.box)) = some box) :
    Encloses box ((·.box) '' {row | row ∈ members}) := by
  unfold enclose at found
  simp only [List.map_map,Option.bind_eq_bind,Option.bind_eq_some_iff] at found
  obtain ⟨x1,left,y1,top,x2,right,y2,bottom,made⟩ := found
  cases Option.some.inj made
  refine ⟨?_,?_,?_,?_⟩ <;> rw [Set.image_image]
  · exact least_image left
  · exact least_image top
  · exact largest_image right
  · exact largest_image bottom

theorem foldl_zipWith_getD (rest : List (List K)) (row : List K) (size : row.length = width)
    (all : ∀ other ∈ rest, other.length = width) (below : c < width) :
    (rest.foldl (List.zipWith max) row).getD c 0 = (rest.map (·.getD c 0)).foldl max (row.getD c 0) := by
  induction rest generalizing row with
  | nil => rfl
  | cons other rest ih =>
    have wide := all other List.mem_cons_self
    rw [List.foldl_cons,List.map_cons,List.foldl_cons,ih _ (by simp [size,wide])
      fun later member => all later (List.mem_cons_of_mem _ member)]
    have left : c < row.length := size.symm ▸ below
    have right : c < other.length := wide.symm ▸ below
    simp [left,right]

theorem maxRow_greatest {members : List (Row K)} (filled : members ≠ [])
    (wide : ∀ member ∈ members, member.classes.length = w) :
    (maxRow (members.map (·.classes))).length = w ∧ ∀ c < w,
      IsGreatest ((·.classes.getD c 0) '' {row | row ∈ members})
        ((maxRow (members.map (·.classes))).getD c 0) := by
  cases members with
  | nil => exact absurd rfl filled
  | cons first rest =>
    have size := wide first List.mem_cons_self
    have all : ∀ other ∈ rest.map (·.classes), other.length = w := by
      intro other member
      obtain ⟨row,inside,rfl⟩ := List.mem_map.mp member
      exact wide row (List.mem_cons_of_mem _ inside)
    refine ⟨foldl_zipWith_length _ _ size all,?_⟩
    intro c below
    have step := foldl_zipWith_getD (rest.map (·.classes)) first.classes size all below
    rw [List.map_map] at step
    exact largest_image (congrArg some step.symm)

theorem fuseRow_sums {members : List (Row K)} (made : fuseRow members cut = some row)
    (common : ∀ a ∈ members, ∀ b ∈ members, a.label = b.label)
    (wide : ∀ w, width = some w → ∀ member ∈ members, member.classes.length = w) :
    Sums width {row | row ∈ members} ((members.length == 1 && cut) = true) row := by
  unfold fuseRow at made
  simp only [Option.bind_eq_bind,Option.bind_eq_some_iff] at made
  obtain ⟨bestAt,first,best,found,box,enclosing,score,top,whole⟩ := made
  cases Option.some.inj whole
  have inside := List.mem_of_getElem? found
  refine ⟨enclose_encloses enclosing,fun member other => common member other best inside,?_,
    ⟨best,inside,rfl,?_⟩,Iff.rfl,largest_image top⟩
  · intro w known
    exact maxRow_greatest (List.ne_nil_of_mem inside) (wide w known)
  · intro other member
    obtain ⟨m,spec⟩ := Argmax.argmax_spec first
    have here := spec.here
    rw [List.getElem?_map,found,Option.map_some,Option.some.injEq] at here
    rw [here]
    exact spec.most _ (List.mem_map.mpr ⟨other,member,rfl⟩)

theorem joined_label {seamIou : K} (related : Relation.EqvGen (SeamJoin rows seams seamIou) i j) :
    ∀ a b, rows[i]? = some a → rows[j]? = some b → a.label = b.label := by
  have agree : ∀ x y, SeamJoin rows seams seamIou x y → (rows[x]?).map (·.label) = (rows[y]?).map (·.label) := by
    rintro x y ⟨⟨a,b,first,second,label,_⟩,_⟩
    rw [first,second,Option.map_some,Option.map_some,label]
  have same := Classes.constant (fun k => (rows[k]?).map (·.label)) agree related
  intro a b first second
  rw [first,second,Option.map_some,Option.map_some,Option.some.injEq] at same
  exact same

theorem part_component {seamIou : K} (fusion : IsFusion rows seams seamIou parts fused) (member : part ∈ parts) :
    IsComponent rows seams seamIou {j | j ∈ part} ∧ {row | row ∈ pick rows part} = held rows {j | j ∈ part} := by
  obtain ⟨filled,_⟩ := fusion.components.filled part member
  obtain ⟨i,rest,same⟩ := List.exists_cons_of_ne_nil filled
  have first : i ∈ part := same ▸ List.mem_cons_self
  refine ⟨⟨i,fusion.components.inside part member i first,?_⟩,?_⟩
  · intro j
    constructor
    · intro inside
      have below := fusion.components.inside part member j inside
      exact ⟨below,(fusion.components.classes part member i first j below).mp inside⟩
    · intro given
      obtain ⟨below,related⟩ := given
      exact (fusion.components.classes part member i first j below).mpr related
  · ext row
    exact mem_pick

theorem part_labels {seamIou : K} (fusion : IsFusion rows seams seamIou parts fused) (member : part ∈ parts) :
    ∀ a ∈ pick rows part, ∀ b ∈ pick rows part, a.label = b.label := by
  intro a first b second
  obtain ⟨i,inI,atI⟩ := mem_pick.mp first
  obtain ⟨j,inJ,atJ⟩ := mem_pick.mp second
  have related := (fusion.components.classes part member i inI j
    (fusion.components.inside part member j inJ)).mp inJ
  exact joined_label related a b atI atJ

def CutAlone (rows : List (Row K)) (members : Set Nat) : Prop :=
  ∃ i row, members = {i} ∧ rows[i]? = some row ∧ row.truncated = true

omit [Field K] [LinearOrder K] in
theorem cut_alone (flags : rows.map (·.truncated) = seams.map (!·.isEmpty)) (distinct : part.Nodup)
    (inside : ∀ i ∈ part, i < rows.length) :
    ((pick rows part).length == 1 && isCut seams part) = true ↔ CutAlone rows {j | j ∈ part} := by
  have flag : ∀ (i : Nat) row, rows[i]? = some row → (!(seams.getD i []).isEmpty) = row.truncated := by
    intro i row found
    have same := congrArg (·[i]?) flags
    simp only [List.getElem?_map,found,Option.map_some] at same
    obtain ⟨keys,at_,flag⟩ := Option.map_eq_some_iff.mp same.symm
    simp [at_,flag]
  rw [Bool.and_eq_true,beq_iff_eq,pick_length inside]
  constructor
  · intro given
    obtain ⟨one,cut⟩ := given
    obtain ⟨i,rfl⟩ := List.length_eq_one_iff.mp one
    have found := List.getElem?_eq_getElem (inside i List.mem_cons_self)
    exact ⟨i,_,by ext j; simp,found,(flag i _ found).symm.trans cut⟩
  · intro given
    obtain ⟨i,row,single,found,cut⟩ := given
    have all : ∀ j ∈ part, j = i := fun j member => (Set.ext_iff.mp single j).mp member
    have first : i ∈ part := (Set.ext_iff.mp single i).mpr rfl
    have whole : part = [i] := Counting.eq_singleton distinct first all
    subst whole
    exact ⟨rfl,(flag i row found).trans cut⟩

theorem part_sums {seamIou : K} (fusion : IsFusion rows seams seamIou parts fused)
    (flags : rows.map (·.truncated) = seams.map (!·.isEmpty))
    (wide : ∀ w, width = some w → ∀ row ∈ rows, row.classes.length = w) {f : Nat} (at_ : parts[f]? = some part)
    (found : fused[f]? = some row) :
    Sums width (held rows {j | j ∈ part}) (CutAlone rows {j | j ∈ part}) row := by
  have member := List.mem_of_getElem? at_
  have made := congrArg (·[f]?) fusion.made
  simp only [List.getElem?_map,at_,found,Option.map_some,Option.some.injEq] at made
  have widths : ∀ w, width = some w → ∀ other ∈ pick rows part, other.classes.length = w := by
    intro w known other inside
    obtain ⟨i,_,place⟩ := mem_pick.mp inside
    exact wide w known other (List.mem_of_getElem? place)
  have sums := fuseRow_sums made (part_labels fusion member) widths
  rw [(part_component fusion member).2] at sums
  rwa [propext (cut_alone flags (fusion.components.filled part member).2
    (fusion.components.inside part member))] at sums

-- What a returned row says about the input detections it stands for.
structure Stands (params : MergeParams K) (width : Option Nat) (rows : List (Row K)) (members : Set Nat)
    (row : Row K) : Prop where
  box : ∃ whole, Encloses whole ((·.box) '' held rows members) ∧
    row.box = if params.clip then whole.clip else whole
  label : ∀ member ∈ held rows members, member.label = row.label
  classes : ∀ w, width = some w → row.classes.length = w ∧
    ∀ c < w, IsGreatest ((·.classes.getD c 0) '' held rows members) (row.classes.getD c 0)
  tile : ∃ best ∈ held rows members, best.tileId = row.tileId ∧
    ∀ other ∈ held rows members, other.score ≤ best.score
  truncated : row.truncated = true ↔ CutAlone rows members
  score : ∃ top, IsGreatest ((·.score) '' held rows members) top ∧
    row.score = if row.truncated then top*params.truncatedPenalty else top

theorem finish_stands (sums : Sums width (held rows members) (CutAlone rows members) row) :
    Stands params width rows members (finishRow params row) := by
  rw [finishRow_eq]
  refine ⟨⟨row.box,sums.box,rfl⟩,sums.label,sums.classes,sums.tile,sums.truncated,row.score,sums.score,?_⟩
  unfold scaled
  dsimp only
  split <;> simp

theorem entryRow_width (frameSize : Int) (edgeEps : K) (tileId : Nat) (tile : Tile) {entry : TileEntry K}
    (below : j < entry.boxes.length) :
    (entryRow frameSize edgeEps tileId tile entry j).classes.length = (entry.classes.map (·.width)).getD 0 := by
  cases held : entry.classes with
  | none => simp [entryRow,held]
  | some array =>
    have inside : j < array.rows.length := by
      rw [entry.classesParallel array held]
      exact below
    apply array.rect
    simp [entryRow,held,inside]

theorem entryRows_width {entry : TileEntry K} (same : entry.classes.map (·.width) = some w) :
    ∀ row ∈ entryRows frameSize edgeEps tileId tile entry, row.classes.length = w := by
  intro row member
  obtain ⟨j,below,rfl⟩ := List.mem_map.mp member
  rw [entryRow_width frameSize edgeEps tileId tile (List.mem_range.mp below),same,Option.getD_some]

theorem inputRows_width {pairs : List (Tile × TileEntry K)}
    (same : ∀ pair ∈ pairs, pair.2.classes.map (·.width) = some w) (tileId : Nat) :
    ∀ row ∈ inputRows frameSize edgeEps tileId pairs, row.classes.length = w := by
  induction pairs generalizing tileId with
  | nil => simp [inputRows]
  | cons pair rest ih =>
    obtain ⟨tile,entry⟩ := pair
    intro row member
    rcases List.mem_append.mp member with here | later
    · exact entryRows_width (same (tile,entry) List.mem_cons_self) row here
    · exact ih (fun pair other => same pair (List.mem_cons_of_mem _ other)) (tileId+1) row later

theorem inputRows_flags (frameSize : Int) (edgeEps : K) (pairs : List (Tile × TileEntry K)) (tileId : Nat) :
    (inputRows frameSize edgeEps tileId pairs).map (·.truncated) =
      (inputSeams frameSize edgeEps pairs).map (!·.isEmpty) := by
  induction pairs generalizing tileId with
  | nil => rfl
  | cons pair rest ih =>
    obtain ⟨tile,entry⟩ := pair
    rw [inputRows,inputSeams,List.map_append,List.map_append,ih,
      (entryRows_columns frameSize edgeEps entry tileId tile).2.2.2.2]

-- A frame of size 0 only goes unnoticed when nothing was detected.
theorem gather_frame (pairs : List (Tile × TileEntry K)) (zero : frameSize = 0)
    (ran : gather frameSize edgeEps tileId pairs pool = .ok later) :
    inputRows frameSize edgeEps tileId pairs = [] := by
  induction pairs generalizing tileId pool with
  | nil => rfl
  | cons pair rest ih =>
    obtain ⟨tile,entry⟩ := pair
    obtain ⟨middle,first,second⟩ := bind_ok ran
    have empty : entry.boxes.length = 0 := by
      apply Classical.byContradiction
      intro filled
      simp only [gatherTile,TileEntry.cast_id,if_neg filled,tileBoxesToFrame,if_pos zero] at first
      cases first
    rw [inputRows,(entryRows_empty frameSize edgeEps empty tileId tile).1,ih second]
    rfl

theorem merge_frame (ran : mergeTileDetections perTile tiles frameSize params = .ok out) :
    perTile.length = tiles.length ∧
      (inputRows frameSize params.edgeEps 0 (tiles.zip perTile) ≠ [] → frameSize ≠ 0) := by
  obtain ⟨pool,gathering,_⟩ := bind_ok ran
  obtain ⟨sizes,gathering⟩ := gatherAll_ok gathering
  exact ⟨sizes,fun filled zero => filled (gather_frame _ zero gathering)⟩

variable {contained kept : List Nat}

def sources (params : MergeParams K) (fused : List (Row K)) (contained kept : List Nat) : List Nat :=
  pick (pick contained kept) (finishPicks params (pick (pick fused contained) kept))

variable [IsStrictOrderedRing K]

theorem sources_spec (trace : IsNms params rows seams fused contained kept) :
    (sources params fused contained kept).Nodup ∧ (∀ f ∈ sources params fused contained kept, f < fused.length) ∧
      finishRows params (pick (pick fused contained) kept) =
        (pick fused (sources params fused contained kept)).map (finishRow params) := by
  have first := trace.inside.2
  have second : ∀ m ∈ kept, m < contained.length := by
    intro m member
    rw [← pick_length first]
    exact trace.nms.inside m member
  have finish := finish_spec params (pick (pick fused contained) kept)
  have third : ∀ e ∈ finishPicks params (pick (pick fused contained) kept), e < (pick contained kept).length := by
    intro e member
    have below := finish.below e member
    rwa [pick_length trace.nms.inside,← pick_length second] at below
  have inside : ∀ f ∈ pick contained kept, f < fused.length := by
    intro f member
    obtain ⟨m,_,found⟩ := mem_pick.mp member
    exact first f (List.mem_of_getElem? found)
  refine ⟨?_,?_,?_⟩
  · exact pick_nodup (pick_nodup trace.inside.1 (survivors_distinct trace.nms) second) finish.distinct third
  · intro f member
    obtain ⟨e,_,found⟩ := mem_pick.mp member
    exact inside f (List.mem_of_getElem? found)
  · rw [finishRows,pick_pick first,pick_pick inside,sources,pick_pick first]

omit [IsStrictOrderedRing K] in
theorem parts_apart {seamIou : K} (fusion : IsFusion rows seams seamIou parts fused) {f g : Nat}
    (first : parts[f]? = some left) (second : parts[g]? = some right) (same : {j | j ∈ left} = {j | j ∈ right}) :
    f = g := by
  have head := fusion.components.head_mem left (List.mem_of_getElem? first)
  have other : left.headD 0 ∈ right := (Set.ext_iff.mp same _).mp head
  apply Classical.byContradiction
  intro differ
  obtain ⟨belowF,atF⟩ := List.getElem?_eq_some_iff.mp first
  obtain ⟨belowG,atG⟩ := List.getElem?_eq_some_iff.mp second
  have apart := List.pairwise_iff_getElem.mp fusion.components.apart
  rcases Nat.lt_or_gt_of_ne differ with less | more
  · have none := apart f g belowF belowG less
    rw [atF,atG] at none
    exact none _ head other
  · have none := apart g f belowG belowF more
    rw [atF,atG] at none
    exact none _ other head

theorem trace_provenance (fuse : params.fuseSeams = true)
    (flags : rows.map (·.truncated) = seams.map (!·.isEmpty))
    (wide : ∀ w, width = some w → ∀ row ∈ rows, row.classes.length = w)
    (trace : IsNms params rows seams fused contained kept) :
    ∃ component : Fin (finishRows params (pick (pick fused contained) kept)).length → Set Nat,
      Function.Injective component ∧ ∀ k, IsComponent rows seams params.seamIou (component k) ∧
        Stands params width rows (component k) ((finishRows params (pick (pick fused contained) kept)).get k) := by
  obtain ⟨parts,fusion⟩ := trace.fusion fuse
  obtain ⟨distinct,inside,shape⟩ := sources_spec trace
  have size : parts.length = fused.length := by simpa using congrArg List.length fusion.made
  have place : ∀ (k : Nat) row, (finishRows params (pick (pick fused contained) kept))[k]? = some row →
      ∃ f part before, (sources params fused contained kept)[k]? = some f ∧ parts[f]? = some part ∧
        fused[f]? = some before ∧ row = finishRow params before := by
    intro k row found
    rw [shape,List.getElem?_map,Option.map_eq_some_iff] at found
    obtain ⟨before,found,rfl⟩ := found
    rw [pick_getElem? inside,Option.bind_eq_some_iff] at found
    obtain ⟨f,at_,found⟩ := found
    have within := inside f (List.mem_of_getElem? at_)
    exact ⟨f,_,before,at_,List.getElem?_eq_getElem (size.symm ▸ within),found,rfl⟩
  refine ⟨fun k => {j | j ∈ parts.getD ((sources params fused contained kept).getD k.1 0) []},?_,?_⟩
  · intro k l same
    obtain ⟨f,left,_,atF,partF,_⟩ := place k.1 _ (List.getElem?_eq_getElem k.2)
    obtain ⟨g,right,_,atG,partG,_⟩ := place l.1 _ (List.getElem?_eq_getElem l.2)
    simp only [List.getD_eq_getElem?_getD,atF,atG,partF,partG,Option.getD_some] at same
    have equal := parts_apart fusion partF partG same
    subst equal
    exact Fin.ext ((List.getElem?_inj (List.getElem?_eq_some_iff.mp atF).1 distinct).mp (atF.trans atG.symm))
  · intro k
    obtain ⟨f,part,row,atF,partF,rowF,made⟩ := place k.1 _ (List.getElem?_eq_getElem k.2)
    simp only [List.getD_eq_getElem?_getD,atF,partF,Option.getD_some]
    refine ⟨(part_component fusion (List.mem_of_getElem? partF)).1,?_⟩
    rw [List.get_eq_getElem,made]
    exact finish_stands (part_sums fusion flags wide partF rowF)

-- Provenance: the result's rows, each with its own component of the seam-join
-- relation on the input.
theorem merge_provenance (fuse : params.fuseSeams = true)
    (same : ∀ entry ∈ perTile, entry.classes.map (·.width) = width)
    (ran : mergeTileDetections perTile tiles frameSize params = .ok out) :
    ∃ (outRows : List (Row K)) (component : Fin outRows.length → Set Nat), Shown out outRows ∧
      (outRows ≠ [] → Classed width out outRows) ∧ Function.Injective component ∧
      (∀ k, IsComponent (inputRows frameSize params.edgeEps 0 (tiles.zip perTile))
          (inputSeams frameSize params.edgeEps (tiles.zip perTile)) params.seamIou (component k) ∧
        Stands params width (inputRows frameSize params.edgeEps 0 (tiles.zip perTile)) (component k)
          (outRows.get k)) ∧
      ByScore outRows ∧ ∀ stop, 0 ≤ stop → params.maxBoxes = some stop → (outRows.length : Int) ≤ stop := by
  obtain ⟨sizes,frame⟩ := merge_frame ran
  by_cases empty : inputRows frameSize params.edgeEps 0 (tiles.zip perTile) = []
  · rcases merge_cases ran with ⟨_,held,rfl⟩ | ⟨filled,_⟩
    · exact ⟨[],fun k => k.elim0,empty_shown held,fun filled => absurd rfl filled,fun k => k.elim0,
        fun k => k.elim0,List.Pairwise.nil,fun stop positive _ => positive⟩
    · exact absurd empty filled
  · obtain ⟨other,again,result⟩ := merge_total params sizes (fun _ _ _ => frame empty)
      fun entry member _ => same entry member
    cases ran.symm.trans again
    rcases result with ⟨none,_⟩ | ⟨fused,contained,kept,trace,shown,classed⟩
    · exact absurd none empty
    · have flags := inputRows_flags frameSize params.edgeEps (tiles.zip perTile) 0
      have wide : ∀ w, width = some w → ∀ row ∈ inputRows frameSize params.edgeEps 0 (tiles.zip perTile),
          row.classes.length = w := by
        rintro w rfl
        exact inputRows_width (fun pair member => same pair.2 (List.of_mem_zip member).2) 0
      obtain ⟨component,injective,every⟩ := trace_provenance fuse flags wide trace
      have finish := finish_spec params (pick (pick fused contained) kept)
      refine ⟨_,component,shown,fun _ => classed,injective,every,finish.sorted,?_⟩
      intro stop positive most
      have bound := finish.most stop positive most
      have size : (finishRows params (pick (pick fused contained) kept)).length ≤
          (finishPicks params (pick (pick fused contained) kept)).length := by
        rw [finishRows,List.length_map]
        exact List.length_filterMap_le _ _
      omega

-- One object cut in two by the seam between two tiles.
def leftHalf : TileEntry ℚ where
  boxes := [⟨1/2,1/4,1,3/4⟩]
  scores := [9/10]
  labels := [5]
  classes := some ⟨2,[[1/10,9/10]],by simp⟩
  scoresParallel := rfl
  labelsParallel := rfl
  classesParallel := by rintro array same; cases same; rfl

def rightHalf : TileEntry ℚ where
  boxes := [⟨0,1/4,1/2,3/4⟩]
  scores := [7/10]
  labels := [5]
  classes := some ⟨2,[[3/10,7/10]],by simp⟩
  scoresParallel := rfl
  labelsParallel := rfl
  classesParallel := by rintro array same; cases same; rfl

theorem merge_provenance_halves : ∃ out : TileDetections ℚ,
    mergeTileDetections [leftHalf,rightHalf] [⟨"top_left",0,0,224⟩,⟨"top_right",224,0,224⟩] 448 {} = .ok out ∧
    (out.boxes = [⟨1/4,1/8,3/4,3/8⟩] ∧ out.classes.map (·.rows) = some [[3/10,9/10]] ∧
      out.truncated = some [false]) ∧
    ∃ (outRows : List (Row ℚ)) (component : Fin outRows.length → Set Nat), Shown out outRows ∧
      (outRows ≠ [] → Classed (some 2) out outRows) ∧ Function.Injective component ∧
      (∀ k, IsComponent (inputRows 448 (1/20) 0 [(⟨"top_left",0,0,224⟩,leftHalf),(⟨"top_right",224,0,224⟩,rightHalf)])
          (inputSeams 448 (1/20) [(⟨"top_left",0,0,224⟩,leftHalf),(⟨"top_right",224,0,224⟩,rightHalf)]) (1/5)
          (component k) ∧
        Stands {} (some 2)
          (inputRows 448 (1/20) 0 [(⟨"top_left",0,0,224⟩,leftHalf),(⟨"top_right",224,0,224⟩,rightHalf)])
          (component k) (outRows.get k)) ∧
      ByScore outRows ∧ ∀ stop, 0 ≤ stop → (none : Option Int) = some stop → (outRows.length : Int) ≤ stop := by
  have ran : (mergeTileDetections [leftHalf,rightHalf]
      [⟨"top_left",0,0,224⟩,⟨"top_right",224,0,224⟩] 448 {}).toOption.map
        (fun out => (out.boxes,out.classes.map (·.rows),out.truncated)) =
      some ([⟨1/4,1/8,3/4,3/8⟩],some [[3/10,9/10]],some [false]) := by decide +kernel
  obtain ⟨out,found,shape⟩ := Option.map_eq_some_iff.mp ran
  simp only [Prod.mk.injEq] at shape
  refine ⟨out,toOption_ok found,shape,?_⟩
  exact merge_provenance rfl (by simp [leftHalf,rightHalf]) (toOption_ok found)

end SymphonyAkida.TiledShard
