import SymphonyAkida.DecodeMerge

namespace SymphonyAkida.TiledShard
open Outcome
variable {K : Type} [Field K] [LinearOrder K] {np : Numpy K} {numClasses : Nat} {params : MergeParams K}
  {rows fused : List (Row K)} {seams : List Seams}

structure LabelledRow (objThreshold : K) (numClasses : Nat) (row : Row K) : Prop where
  width : row.classes.length = numClasses
  label : ∃ k : Nat, row.label = k ∧ Labelled objThreshold row.score k row.classes

def Consistent (objThreshold : K) (n : Nat) (scores : List K) (labels : List Int) (classes : Option (Classes K)) : Prop :=
  ∀ i < n, ∃ score array row, ∃ k : Nat, scores[i]? = some score ∧ labels[i]? = some (k : Int) ∧
    classes = some array ∧ array.rows[i]? = some row ∧ Labelled objThreshold score k row

-- The members share their label, so each one's best is in the same column, and
-- the largest of them is the best of the maxima.
theorem fuse_labelled {members : List (Row K)} (each : ∀ m ∈ members, LabelledRow objThreshold numClasses m)
    (common : ∀ a ∈ members, ∀ b ∈ members, a.label = b.label) (made : fuseRow members cut = some row) :
    LabelledRow objThreshold numClasses row := by
  have sums : Sums (some numClasses) {row | row ∈ members} _ row := fuseRow_sums made common fun w known m member => by
    cases known
    exact (each m member).width
  obtain ⟨width,maxima⟩ := sums.classes numClasses rfl
  obtain ⟨⟨top,inside,_⟩,above⟩ := sums.score
  obtain ⟨k,label,best⟩ := (each top inside).label
  have shared : ∀ m ∈ members, ∃ v, Argmax.FirstLargest m.classes k v ∧ 0 < v ∧ objThreshold < v ∧ v ≤ m.score := by
    intro m member
    obtain ⟨j,other,best⟩ := (each m member).label
    have same : j = k := Int.ofNat.inj (other.symm.trans ((common m member top inside).trans label))
    exact same ▸ best.best
  have below : k < numClasses := by
    obtain ⟨v,first,_⟩ := shared top inside
    rw [← (each top inside).width]
    exact (List.getElem?_eq_some_iff.mp first.here).1
  have reaches : ∀ m ∈ members, m.classes.getD k 0 ≤ row.classes.getD k 0 := fun m member =>
    (maxima k below).2 ⟨m,member,rfl⟩
  refine ⟨width,k,(sums.label top inside).symm.trans label,row.classes.getD k 0,?_,?_,?_,?_⟩
  · refine Argmax.FirstLargest.maxima (fun m member => ?_) (fun m member => ?_) (width ▸ below) (width ▸ maxima)
    · rw [(each m member).width,width]
    · obtain ⟨v,first,_⟩ := shared m member
      exact ⟨v,first⟩
  · obtain ⟨v,first,positive,_⟩ := shared top inside
    exact lt_of_lt_of_le positive (first.getD 0 ▸ reaches top inside)
  · obtain ⟨v,first,_,passes,_⟩ := shared top inside
    exact lt_of_lt_of_le passes (first.getD 0 ▸ reaches top inside)
  · obtain ⟨m,member,same⟩ := (maxima k below).1
    obtain ⟨v,first,_,_,under⟩ := shared m member
    calc row.classes.getD k 0 = m.classes.getD k 0 := same.symm
      _ = v := first.getD 0
      _ ≤ m.score := under
      _ ≤ row.score := above ⟨m,member,rfl⟩

section
variable [IsStrictOrderedRing K]

theorem decoded_found (exact : Exact np) (nonneg : 0 ≤ objThreshold)
    (ran : decodeTile np output anchors numClasses objThreshold nmsThreshold = .ok entry) :
    ∃ found kept : List (Candidate K numClasses), candidates np output anchors numClasses objThreshold = .ok found ∧
      entry = entryOf kept ∧ ∀ one ∈ kept, one ∈ found := by
  obtain ⟨found,first,ran⟩ := bind_ok ran
  cases ran
  have ranked : ∀ one ∈ found, Ranked objThreshold one := fun one member => decoded_ranked exact first member
  refine ⟨found,_,first,rfl,?_⟩
  intro one member
  rw [filter_rescored (nms_length np nmsThreshold found) (fun k one at_ => nms_value ranked at_) nonneg ranked] at member
  obtain ⟨pair,inside,rfl⟩ := List.mem_map.mp member
  exact (List.of_mem_zip (List.mem_filter.mp inside).1).1

theorem decoded_labels (exact : Exact np) (nonneg : 0 ≤ objThreshold)
    (ran : decodeTile np output anchors numClasses objThreshold nmsThreshold = .ok entry) :
    Consistent objThreshold entry.boxes.length entry.scores entry.labels entry.classes := by
  obtain ⟨found,kept,first,rfl,listed⟩ := decoded_found exact nonneg ran
  intro i below
  have below : i < kept.length := by simpa [entryOf] using below
  have at_ := List.getElem?_eq_getElem below
  exact ⟨kept[i].score,_,kept[i].classes.toList,kept[i].label,by simp [entryOf,at_],by simp [entryOf,at_],rfl,
    by simp [at_],decoded_labelled exact first (listed _ (List.getElem_mem below))⟩

theorem decoded_single (exact : Exact np) (half : 1/2 ≤ objThreshold)
    (ran : decodeTile np output anchors numClasses objThreshold nmsThreshold = .ok entry) :
    ∀ array, entry.classes = some array → ∀ row ∈ array.rows, ∃! c : Nat, ∃ v, row[c]? = some v ∧ v ≠ 0 := by
  have nonneg : 0 ≤ objThreshold := le_trans (by linarith) half
  obtain ⟨found,kept,first,rfl,listed⟩ := decoded_found exact nonneg ran
  intro array same row member
  cases Option.some.inj same
  obtain ⟨one,inside,rfl⟩ := List.mem_map.mp member
  obtain ⟨m,best,positive,_⟩ := (decoded_labelled exact first (listed one inside)).best
  refine ⟨one.label,⟨m,best.here,ne_of_gt positive⟩,?_⟩
  rintro c ⟨v,held,some_⟩
  by_contra apart
  rcases one_class exact first half (listed one inside) held best.here apart with zero | zero
  · exact some_ zero
  · exact absurd zero (ne_of_gt positive)

theorem decoded_rows (exact : Exact np) (nonneg : 0 ≤ objThreshold) {perTile : List (TileEntry K)} {tiles : List Tile}
    (decoded : ∀ entry ∈ perTile, Decoded np anchors numClasses objThreshold entry) (frameSize : Int) (edgeEps : K) :
    ∀ row ∈ inputRows frameSize edgeEps 0 (tiles.zip perTile), LabelledRow objThreshold numClasses row := by
  intro row member
  obtain ⟨tile,entry,id,j,paired,below,rfl⟩ := inputRows_mem member
  have inside := (List.of_mem_zip paired).2
  obtain ⟨output,nmsThreshold,ran⟩ := decoded entry inside
  obtain ⟨score,array,row,k,scored,labelled,classes,listed,best⟩ := decoded_labels exact nonneg ran j below
  have width := entryRow_width frameSize edgeEps id tile below
  rw [decoded_width (decoded entry inside),Option.getD_some] at width
  refine ⟨width,k,?_,?_⟩
  · simp [entryRow,labelled]
  · simpa [entryRow,scored,classes,listed] using best

theorem merged_labels (exact : Exact np) (nonneg : 0 ≤ objThreshold) {perTile : List (TileEntry K)} {tiles : List Tile}
    (decoded : ∀ entry ∈ perTile, Decoded np anchors numClasses objThreshold entry)
    (unpenalized : params.truncatedPenalty = 1) (ran : mergeTileDetections perTile tiles frameSize params = .ok out) :
    Consistent objThreshold out.boxes.length out.scores out.labels out.classes := by
  obtain ⟨sizes,frame⟩ := merge_frame ran
  have sized : ∀ entry ∈ perTile, entry.boxes.length ≠ 0 → frameSize ≠ 0 := by
    intro entry member some_
    exact frame fun empty => some_ (rows_empty sizes empty entry member)
  obtain ⟨same,again,cases_⟩ := merge_total params sizes sized (fun entry member _ => decoded_width (decoded entry member))
  cases ran.symm.trans again
  rcases cases_ with ⟨_,width,rfl⟩ | ⟨fused,contained,kept,trace,shown,classed⟩
  · exact fun i below => absurd below (Nat.not_lt_zero i)
  · have rows := stage_rows (LabelledRow objThreshold numClasses) trace (decoded_rows exact nonneg decoded frameSize _)
      fun members cut row each common made => fuse_labelled each common made
    obtain ⟨array,classes,columns⟩ := Option.map_eq_some_iff.mp classed
    intro i below
    rw [shown.boxes,List.length_map] at below
    obtain ⟨row,inside,final⟩ := List.mem_map.mp (List.getElem_mem below)
    obtain ⟨_,_,first⟩ := mem_pick.mp inside
    obtain ⟨_,k,label,best⟩ := rows row (List.mem_of_getElem? first)
    have at_ := List.getElem?_eq_getElem below
    rw [← final,finishRow_eq,unpenalized,scaled_one] at at_
    refine ⟨row.score,array,row.classes,k,?_,?_,classes,?_,best⟩
    · simp [shown.scores,at_]
    · simp [shown.labels,at_,label]
    · rw [(Prod.mk.inj columns).2,List.getElem?_map,at_,Option.map_some]

theorem labels_follow (exact : Exact np) (nonneg : 0 ≤ objThreshold) {perTile : List (TileEntry K)} {tiles : List Tile}
    (decoded : ∀ entry ∈ perTile, Decoded np anchors numClasses objThreshold entry)
    (unpenalized : params.truncatedPenalty = 1) :
    (∀ output nmsThreshold entry, decodeTile np output anchors numClasses objThreshold nmsThreshold = .ok entry →
      Consistent objThreshold entry.boxes.length entry.scores entry.labels entry.classes ∧
      (1/2 ≤ objThreshold → ∀ array, entry.classes = some array → ∀ row ∈ array.rows,
        ∃! c : Nat, ∃ v, row[c]? = some v ∧ v ≠ 0)) ∧
    ∀ frameSize out, mergeTileDetections perTile tiles frameSize params = .ok out →
      Consistent objThreshold out.boxes.length out.scores out.labels out.classes := by
  constructor
  · intro output nmsThreshold entry ran
    exact ⟨decoded_labels exact nonneg ran,fun half => decoded_single exact half ran⟩
  · intro frameSize out ran
    exact merged_labels exact nonneg decoded unpenalized ran

end

theorem labels_follow_pair : ∃ left right out, decodeTile powers leftCells [(1,1/2)] 3 (1/2) (1/2) = .ok left ∧
    decodeTile powers rightCells [(1,1/2)] 3 (1/2) (1/2) = .ok right ∧
    right.classes.map (·.rows) = some [[32/45,0,0],[0,0,64/81]] ∧
    (∀ array, right.classes = some array → ∀ row ∈ array.rows, ∃! c : Nat, ∃ v, row[c]? = some v ∧ v ≠ 0) ∧
    mergeTileDetections [left,right] pairTiles 448 {truncatedPenalty := 1} = .ok out ∧
    out.labels = [0,2] ∧ out.classes.map (·.rows) = some [[64/81,0,0],[0,0,64/81]] ∧
    Consistent (1/2) 2 out.scores out.labels out.classes := by
  obtain ⟨left,right,ranLeft,ranRight,_,_,_,classes⟩ := cells_decoded
  have merged : (decodeTile powers leftCells [(1,1/2)] 3 (1/2) (1/2) >>= fun left =>
      decodeTile powers rightCells [(1,1/2)] 3 (1/2) (1/2) >>= fun right =>
      mergeTileDetections [left,right] pairTiles 448 {truncatedPenalty := 1}).toOption.map
        (fun out => (out.boxes.length,out.labels,out.classes.map (·.rows))) =
        some (2,[0,2],some [[64/81,0,0],[0,0,64/81]]) := by decide +kernel
  rw [ranLeft,ok_bind,ranRight,ok_bind] at merged
  obtain ⟨out,found,shape⟩ := Option.map_eq_some_iff.mp merged
  simp only [Prod.mk.injEq] at shape
  have ran := toOption_ok found
  have unpenalized : ({truncatedPenalty := 1} : MergeParams ℚ).truncatedPenalty = 1 := rfl
  obtain ⟨tile,rows⟩ := labels_follow powers_exact (by norm_num) (cells_entries ranLeft ranRight) unpenalized
  have consistent := rows 448 out ran
  rw [shape.1] at consistent
  exact ⟨left,right,out,ranLeft,ranRight,classes,(tile _ _ _ ranRight).2 (le_refl _),ran,shape.2.1,shape.2.2,consistent⟩

end SymphonyAkida.TiledShard
