import SymphonyAkida.MergeSpec

namespace SymphonyAkida.TiledShard
open Outcome
variable {K : Type} [Field K] [LinearOrder K] {detections out : TileDetections K} {rows : List (Row K)}
  {params : MergeParams K}

theorem pick_nodup {keep : List α} {order : List Nat} (distinct : keep.Nodup) (order_ : order.Nodup)
    (inside : ∀ k ∈ order, k < keep.length) : (pick keep order).Nodup := by
  induction order with
  | nil => exact List.nodup_nil
  | cons k rest ih =>
    have below := inside k List.mem_cons_self
    have later : ∀ j ∈ rest, j < keep.length := fun j member => inside j (List.mem_cons_of_mem _ member)
    rw [List.nodup_cons] at order_
    rw [pick_cons below,List.nodup_cons]
    refine ⟨?_,ih order_.2 later⟩
    intro again
    obtain ⟨j,member,found⟩ := mem_pick.mp again
    have within := later j member
    rw [List.getElem?_eq_getElem within,Option.some.injEq] at found
    have same := (List.Nodup.getElem_inj_iff distinct).mp found
    exact order_.1 (same ▸ member)

def clipped (clip : Bool) (row : Row K) : Row K := if clip then {row with box := row.box.clip} else row

def stays (clip : Bool) (row : Row K) : Bool := !clip || hasArea row.box.clip

@[simp] theorem stays_false : (stays false : Row K → Bool) = fun _ => true := rfl

@[simp] theorem stays_true : (stays true : Row K → Bool) = fun row => hasArea row.box.clip := rfl

@[simp] theorem clipped_false : (clipped false : Row K → Row K) = id := rfl

def penalized (truncatedPenalty : K) (row : Row K) : Row K :=
  {row with score := scaled truncatedPenalty row.score row.truncated}

def finishRow (params : MergeParams K) (row : Row K) : Row K :=
  penalized params.truncatedPenalty (clipped params.clip row)

theorem finishRow_eq (params : MergeParams K) (row : Row K) : finishRow params row = {row with
    box := if params.clip then row.box.clip else row.box
    score := scaled params.truncatedPenalty row.score row.truncated} := by
  unfold finishRow penalized clipped
  split <;> rfl

theorem clip_shown (shown : Shown detections rows) :
    Shown {detections with boxes := detections.boxes.map Box.clip} (rows.map (clipped true)) := by
  obtain ⟨boxes,scores,labels,tileIds,truncated⟩ := shown
  refine ⟨?_,?_,?_,?_,?_⟩ <;> simp only [List.map_map,Function.comp_def,clipped]
  · rw [boxes,List.map_map]; rfl
  · exact scores
  · exact labels
  · exact tileIds
  · exact truncated

theorem clipStage_shown (shown : Shown detections rows) (clip : Bool)
    (ran : (if clip then clipStage detections else .ok detections) = .ok out) :
    Shown out ((rows.filter (stays clip)).map (clipped clip)) := by
  cases clip with
  | false =>
    cases ran
    simpa using shown
  | true =>
    have mask : (detections.boxes.map Box.clip).map hasArea =
        (rows.map (clipped true)).map fun row => hasArea row.box := by
      simp [shown.boxes,clipped,Function.comp_def]
    simp only [if_true,clipStage,mask] at ran
    have kept := indexMask_shown (clip_shown shown) (fun row => hasArea row.box) ran
    rw [List.filter_map] at kept
    simpa [clipped,Function.comp_def] using kept

theorem clipStage_total (shown : Shown detections rows) (classed : Classed width detections rows) (clip : Bool) :
    ∃ out, (if clip then clipStage detections else .ok detections) = .ok out ∧
      Classed width out ((rows.filter (stays clip)).map (clipped clip)) := by
  cases clip with
  | false => exact ⟨detections,rfl,by simpa using classed⟩
  | true =>
    have mask : (detections.boxes.map Box.clip).map hasArea =
        (rows.map (clipped true)).map fun row => hasArea row.box := by
      simp [shown.boxes,clipped,Function.comp_def]
    have columns : Classed width {detections with boxes := detections.boxes.map Box.clip}
        (rows.map (clipped true)) := by
      unfold Classed at classed ⊢
      simpa [clipped,Function.comp_def] using classed
    obtain ⟨out,ran,kept⟩ := indexMask_total (clip_shown shown) columns fun row => hasArea row.box
    rw [List.filter_map] at kept
    refine ⟨out,?_,by simpa [clipped,Function.comp_def] using kept⟩
    simpa only [if_true,clipStage,mask] using ran

omit [LinearOrder K] in
theorem scaled_one (score : K) (truncated : Bool) : scaled 1 score truncated = score := by
  unfold scaled
  split <;> exact mul_one score

-- Leaving the scores alone is scaling them by 1.
theorem penalize_shown (shown : Shown detections rows) (truncatedPenalty : K) :
    Shown (penalize truncatedPenalty detections) (rows.map (penalized truncatedPenalty)) := by
  obtain ⟨boxes,scores,labels,tileIds,truncated⟩ := shown
  have columns : ∀ {β : Type} (f : Row K → β), (∀ row, f (penalized truncatedPenalty row) = f row) →
      (rows.map (penalized truncatedPenalty)).map f = rows.map f := by
    intro β f same
    rw [List.map_map]
    exact List.map_congr_left fun row _ => same row
  have scores_ : (rows.map (penalized truncatedPenalty)).map (·.score) =
      List.zipWith (scaled truncatedPenalty) (rows.map (·.score)) (rows.map (·.truncated)) := by
    rw [List.zipWith_map,List.zipWith_self,List.map_map]
    rfl
  unfold penalize
  simp only [truncated]
  split
  · rename_i one
    refine ⟨?_,?_,?_,?_,?_⟩
    · rw [columns (·.box) fun _ => rfl]; exact boxes
    · rw [columns (·.score) fun row => by subst one; exact scaled_one row.score row.truncated]
      exact scores
    · rw [columns (·.label) fun _ => rfl]; exact labels
    · rw [columns (·.tileId) fun _ => rfl]; exact tileIds
    · rw [columns (·.truncated) fun _ => rfl]; exact truncated
  · refine ⟨?_,?_,?_,?_,?_⟩
    · rw [columns (·.box) fun _ => rfl]; exact boxes
    · rw [scores_,scores]
    · rw [columns (·.label) fun _ => rfl]; exact labels
    · rw [columns (·.tileId) fun _ => rfl]; exact tileIds
    · rw [columns (·.truncated) fun _ => rfl]

theorem penalize_classed (classed : Classed width detections rows) (truncatedPenalty : K) :
    Classed width (penalize truncatedPenalty detections) (rows.map (penalized truncatedPenalty)) := by
  have same : (penalize truncatedPenalty detections).classes = detections.classes := by
    unfold penalize
    split
    · rfl
    · split <;> rfl
  unfold Classed at classed ⊢
  rw [same,classed]
  simp [penalized,Function.comp_def]

def ranks (maxBoxes : Option Int) (rows : List (Row K)) : List Nat :=
  let order := Argsort.argsort (fun i => -(rows.map (·.score)).getD i 0) rows.length
  match maxBoxes with
  | none => order
  | some stop => sliceTo order stop

theorem rankOrder_eq (shown : Shown detections rows) (maxBoxes : Option Int) : rankOrder maxBoxes detections = ranks maxBoxes rows := by
  unfold rankOrder ranks
  cases maxBoxes with
  | none => simp only [shown.scores,List.length_map]
  | some stop => simp only [shown.scores,List.length_map]

theorem rankStage_eq (shown : Shown detections rows) (maxBoxes : Option Int) :
    rankStage maxBoxes detections = index detections (ranks maxBoxes rows) := by
  rw [rankStage,rankOrder_eq shown]

theorem ranks_sublist (maxBoxes : Option Int) (rows : List (Row K)) :
    (ranks maxBoxes rows).Sublist (ranks none rows) := by
  cases maxBoxes with
  | none => exact List.Sublist.refl _
  | some stop => exact List.take_sublist _ _

theorem mem_ranks_none {rows : List (Row K)} : i ∈ ranks none rows ↔ i < rows.length := Argsort.mem_argsort

theorem ranks_inside (maxBoxes : Option Int) (rows : List (Row K)) : ∀ i ∈ ranks maxBoxes rows, i < rows.length :=
  fun _ member => mem_ranks_none.mp ((ranks_sublist maxBoxes rows).subset member)

theorem ranks_nodup (maxBoxes : Option Int) (rows : List (Row K)) : (ranks maxBoxes rows).Nodup :=
  (Argsort.argsort_nodup _ _).sublist (ranks_sublist maxBoxes rows)

theorem ranks_most {stop : Int} (positive : 0 ≤ stop) (rows : List (Row K)) :
    ((ranks (some stop) rows).length : Int) ≤ stop := by
  have size : (ranks (some stop) rows).length ≤ stop.toNat := by
    unfold ranks sliceTo
    simp only [if_pos positive]
    exact List.length_take_le _ _
  omega

def ByScore (rows : List (Row K)) : Prop := rows.Pairwise fun a b => b.score ≤ a.score

theorem ranks_sorted [IsStrictOrderedRing K] (maxBoxes : Option Int) (rows : List (Row K)) :
    ByScore (pick rows (ranks maxBoxes rows)) := by
  have order : (ranks maxBoxes rows).Pairwise
      (Argsort.before fun i => -(rows.map (·.score)).getD i 0) :=
    (Argsort.argsort_sorted _ _).sublist (ranks_sublist maxBoxes rows)
  exact pick_descending Row.score order

def finishPicks (params : MergeParams K) (rows : List (Row K)) : List Nat :=
  let kept := maskIndices (rows.map (stays params.clip))
  pick kept (ranks params.maxBoxes ((rows.filter (stays params.clip)).map (finishRow params)))

def finishRows (params : MergeParams K) (rows : List (Row K)) : List (Row K) :=
  (pick rows (finishPicks params rows)).map (finishRow params)

theorem finishRows_eq (params : MergeParams K) (rows : List (Row K)) : finishRows params rows =
    pick ((rows.filter (stays params.clip)).map (finishRow params))
      (ranks params.maxBoxes ((rows.filter (stays params.clip)).map (finishRow params))) := by
  unfold finishRows finishPicks
  rw [← pick_pick (mask_inside rows _),pick_mask,pick_map]

theorem finish_rows (params : MergeParams K) (rows : List (Row K)) :
    (((rows.filter (stays params.clip)).map (clipped params.clip)).map (penalized params.truncatedPenalty)) =
      (rows.filter (stays params.clip)).map (finishRow params) := List.map_map

theorem finish_shown (shown : Shown detections rows) (ran : finishStages params detections = .ok out) :
    Shown out (finishRows params rows) := by
  obtain ⟨middle,first,second⟩ := bind_ok ran
  have ranked := penalize_shown (clipStage_shown shown params.clip first) params.truncatedPenalty
  rw [finish_rows] at ranked
  rw [rankStage_eq ranked] at second
  rw [finishRows_eq]
  exact (index_shown ranked second).2

theorem finish_total (shown : Shown detections rows) (classed : Classed width detections rows) :
    ∃ out, finishStages params detections = .ok out ∧ Classed width out (finishRows params rows) := by
  obtain ⟨middle,first,columns⟩ := clipStage_total shown classed params.clip
  have ranked := penalize_shown (clipStage_shown shown params.clip first) params.truncatedPenalty
  have columns := penalize_classed columns params.truncatedPenalty
  rw [finish_rows] at ranked columns
  obtain ⟨out,second,last⟩ := index_total ranked columns (ranks_inside params.maxBoxes _)
  refine ⟨out,?_,by rw [finishRows_eq]; exact last⟩
  unfold finishStages
  rw [first,ok_bind,rankStage_eq ranked,second]

structure IsFinish (params : MergeParams K) (rows : List (Row K)) (picks : List Nat) : Prop where
  distinct : picks.Nodup
  inside : ∀ i ∈ picks, ∃ row, rows[i]? = some row ∧ stays params.clip row = true
  sorted : ByScore ((pick rows picks).map (finishRow params))
  most : ∀ stop, 0 ≤ stop → params.maxBoxes = some stop → (picks.length : Int) ≤ stop
  all : params.maxBoxes = none → ∀ i row, rows[i]? = some row → stays params.clip row = true → i ∈ picks

theorem IsFinish.below (finish : IsFinish params rows picks) : ∀ i ∈ picks, i < rows.length := by
  intro i member
  obtain ⟨row,found,_⟩ := finish.inside i member
  exact (List.getElem?_eq_some_iff.mp found).1

theorem mem_mask {rows : List α} {keep : α → Bool} :
    i ∈ maskIndices (rows.map keep) ↔ ∃ row, rows[i]? = some row ∧ keep row = true := by
  unfold maskIndices
  rw [List.mem_filter,List.mem_range,List.length_map]
  constructor
  · intro given
    obtain ⟨below,held⟩ := given
    exact ⟨rows[i],List.getElem?_eq_getElem below,by simpa [below] using held⟩
  · intro given
    obtain ⟨row,found,held⟩ := given
    obtain ⟨below,_⟩ := List.getElem?_eq_some_iff.mp found
    exact ⟨below,by simpa [found] using held⟩

theorem finish_spec [IsStrictOrderedRing K] (params : MergeParams K) (rows : List (Row K)) :
    IsFinish params rows (finishPicks params rows) := by
  have size : ((rows.filter (stays params.clip)).map (finishRow params)).length =
      (maskIndices (rows.map (stays params.clip))).length := by
    rw [List.length_map,← pick_mask,pick_length (mask_inside rows _)]
  have within : ∀ k ∈ ranks params.maxBoxes ((rows.filter (stays params.clip)).map (finishRow params)),
      k < (maskIndices (rows.map (stays params.clip))).length := by
    intro k member
    rw [← size]
    exact ranks_inside _ _ k member
  refine ⟨?_,?_,?_,?_,?_⟩
  · exact pick_nodup (List.nodup_range.filter _) (ranks_nodup _ _) within
  · intro i member
    obtain ⟨k,_,found⟩ := mem_pick.mp member
    exact mem_mask.mp (List.mem_of_getElem? found)
  · have sorted := ranks_sorted params.maxBoxes ((rows.filter (stays params.clip)).map (finishRow params))
    rw [← finishRows_eq] at sorted
    exact sorted
  · intro stop positive most
    unfold finishPicks
    rw [pick_length within,most]
    exact ranks_most positive _
  · intro none i row found held
    obtain ⟨k,below,rfl⟩ := List.getElem_of_mem (mem_mask.mpr ⟨row,found,held⟩)
    refine mem_pick.mpr ⟨k,?_,List.getElem?_eq_getElem below⟩
    rw [none]
    exact mem_ranks_none.mpr (size.symm ▸ below)

end SymphonyAkida.TiledShard
