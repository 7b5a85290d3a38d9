import SymphonyAkida.Pipeline
import SymphonyAkida.DecodeSpec
import SymphonyAkida.MergeStages
import Mathlib.Algebra.Order.Floor.Ring
import Mathlib.Data.Rat.Floor
import Std.Data.String.ToNat

namespace SymphonyAkida.Pipeline
open TiledShard Arrays Outcome

-- The file names keep the tiles apart.
theorem join_cancel (directory : String) (same : join directory a = join directory b) : a = b := by
  unfold join at same
  have chars := congrArg String.toList same
  split at chars
  · simp only [String.toList_append] at chars
    exact String.toList_inj.mp (List.append_cancel_left chars)
  · simp only [String.toList_append] at chars
    exact String.toList_inj.mp (List.append_cancel_left chars)

theorem between_inj {before after : String} {i j : Nat} (same : before ++ toString i ++ after = before ++ toString j ++ after) :
    i = j := by
  have chars := congrArg String.toList same
  simp only [String.toList_append] at chars
  have digits := List.append_cancel_left (List.append_cancel_right chars)
  exact Nat.repr_injective (String.toList_inj.mp digits)

theorem segPath_inj {directory : String} {i j : Nat} (same : segPath directory i = segPath directory j) : i = j :=
  between_inj (join_cancel directory same)

theorem detPath_inj {directory : String} {i j : Nat} (same : detPath directory i = detPath directory j) : i = j :=
  between_inj (join_cancel directory same)

theorem seg_det (directory : String) (i j : Nat) : segPath directory i ≠ detPath directory j := by
  intro same
  have chars := congrArg String.toList (join_cancel directory same)
  simp [toString,String.toList_append] at chars

section
variable {K : Type}

@[simp] theorem write_same (bus : Bus K) (path : String) (file : File K) : bus.write path file path = some file :=
  if_pos rfl

theorem write_other (bus : Bus K) (file : File K) (differ : other ≠ path) : bus.write path file other = bus other :=
  if_neg differ

def Ready (directory : String) (bus : Bus K) (crops : List (Image size size 3)) : Prop :=
  ∀ (k : Nat) crop, crops[k]? = some crop → bus (segPath directory k) = some (.bytes (ravel crop))

theorem writeCrops_other (crops : List (Image size size 3)) (bus : Bus K) (base : Nat) (before : k < base) :
    writeCrops directory bus base crops (segPath directory k) = bus (segPath directory k) := by
  induction crops generalizing bus base with
  | nil => rfl
  | cons crop crops ih =>
    rw [writeCrops,ih _ _ (Nat.lt_succ_of_lt before)]
    exact write_other _ _ fun same => absurd (segPath_inj same) (Nat.ne_of_lt before)

theorem writeCrops_at (directory : String) (crops : List (Image size size 3)) (bus : Bus K) (base k : Nat) (found : crops[k]? = some crop) :
    writeCrops directory bus base crops (segPath directory (base+k)) = some (.bytes (ravel crop)) := by
  induction crops generalizing bus base k with
  | nil => cases found
  | cons head crops ih =>
    cases k with
    | zero =>
      cases found
      rw [Nat.add_zero,writeCrops,writeCrops_other crops _ _ (Nat.lt_succ_self base)]
      exact write_same _ _ _
    | succ k =>
      have later := ih (bus.write (segPath directory base) (.bytes (ravel head))) (base+1) k found
      rwa [Nat.add_assoc,Nat.add_comm 1] at later

theorem writeCrops_ready (directory : String) (crops : List (Image size size 3)) (bus : Bus K) :
    Ready directory (writeCrops directory bus 0 crops) crops := by
  intro k crop found
  have written := writeCrops_at directory crops bus 0 k found
  rwa [Nat.zero_add] at written

end

section
variable {K : Type} [Field K] [LinearOrder K] [FloorRing K] {np : Numpy K} {numClasses : Nat}

omit [Field K] [LinearOrder K] [FloorRing K] in
theorem classes_eq {a b : Classes K} (width : a.width = b.width) (rows : a.rows = b.rows) : a = b := by
  cases a
  cases width
  cases rows
  rfl

omit [Field K] [LinearOrder K] [FloorRing K] in
theorem entry_eq {a b : TileEntry K} (boxes : a.boxes = b.boxes) (scores : a.scores = b.scores)
    (labels : a.labels = b.labels) (classes : a.classes = b.classes) : a = b := by
  cases a
  cases boxes
  cases scores
  cases labels
  cases classes
  rfl

def packedRow (one : Candidate K numClasses) : List K :=
  [one.box.x1,one.box.y1,one.box.x2,one.box.y2,one.score,(one.label : Int)] ++ one.classes.toList

omit [FloorRing K] in
theorem stackRows_found (found : List (Candidate K numClasses)) (small : ∀ one ∈ found, one.label ≤ 2^24) :
    stackRows np (found.map (·.box)) (found.map (·.score)) (found.map fun one => (one.label : Int))
      (found.map (·.classes.toList)) = found.map packedRow := by
  induction found with
  | nil => rfl
  | cons one found ih =>
    have first : np.float32 ((one.label : Int) : K) = (one.label : Int) :=
      np.float32_int one.label (by simpa using small one List.mem_cons_self)
    simp only [List.map_cons,stackRows,first,packedRow]
    rw [ih fun other member => small other (List.mem_cons_of_mem _ member)]

omit [FloorRing K] in
theorem packedRow_cast {one : Candidate K numClasses} (sound : Sound np one) (small : one.label ≤ 2^24) :
    (packedRow one).map np.float32 = packedRow one := by
  have label : np.float32 ((one.label : Int) : K) = (one.label : Int) :=
    np.float32_int one.label (by simpa using small)
  have classes : one.classes.toList.map np.float32 = one.classes.toList := by
    rw [← Vector.toList_map,sound.classes]
  have x1 : np.float32 one.box.x1 = one.box.x1 := congrArg Box.x1 sound.box
  have y1 : np.float32 one.box.y1 = one.box.y1 := congrArg Box.y1 sound.box
  have x2 : np.float32 one.box.x2 = one.box.x2 := congrArg Box.x2 sound.box
  have y2 : np.float32 one.box.y2 = one.box.y2 := congrArg Box.y2 sound.box
  simp only [packedRow,List.map_append,classes,List.map_cons,List.map_nil,x1,y1,x2,y2,label,sound.score.2]

theorem toInt64_int [IsStrictOrderedRing K] (n : Int) : toInt64 (n : K) = n := by
  unfold toInt64
  split
  · exact Int.floor_intCast n
  · exact Int.ceil_intCast n

theorem pack_unpack [IsStrictOrderedRing K] (found : List (Candidate K numClasses)) (sound : ∀ one ∈ found, Sound np one)
    (small : numClasses ≤ 2^24) :
    ∃ packed, pack np numClasses (entryOf found) = .ok packed ∧ unpack numClasses packed = .ok (entryOf found) := by
  have labels : ∀ one ∈ found, one.label ≤ 2^24 := fun one member =>
    Nat.le_trans (Nat.le_of_lt (sound one member).label) small
  obtain ⟨packed,made,width,rows⟩ : ∃ packed, pack np numClasses (entryOf found) = .ok packed ∧
      packed.width = 6+numClasses ∧ packed.rows = found.map packedRow := by
    unfold pack
    split
    · rename_i empty
      have none : found = [] := by simpa [entryOf] using empty
      subst none
      exact ⟨_,rfl,rfl,rfl⟩
    · refine ⟨_,rfl,rfl,?_⟩
      simp only [castRows,entryOf]
      rw [stackRows_found found labels,List.map_map]
      exact List.map_congr_left fun one member => packedRow_cast (sound one member) (labels one member)
  refine ⟨packed,made,?_⟩
  unfold unpack
  rw [if_neg (by omega)]
  congr 1
  apply entry_eq
  · simp [rows,entryOf,boxOf,packedRow]
  · simp [rows,entryOf,packedRow]
  · simp only [rows,entryOf,List.map_map]
    exact List.map_congr_left fun one _ => toInt64_int one.label
  · refine congrArg some (classes_eq ?_ ?_)
    · simp only [width]
      omega
    · simp only [rows,List.map_map]
      apply List.map_congr_left
      intro one _
      simp [packedRow]

def infer (np : Numpy K) (meta_ : Meta K) (predict : Predict K meta_.inputSize)
    (crop : Image meta_.inputSize meta_.inputSize 3) : Except Error (TileEntry K) :=
  predict crop >>= fun output =>
    decodeTile np output meta_.anchors meta_.numClasses meta_.objThresh meta_.nmsThresh

variable {meta_ : Meta K} {predict : Predict K meta_.inputSize} {directory : String} {bus last : Bus K}
  {crops : List (Image meta_.inputSize meta_.inputSize 3)}

omit [FloorRing K] in
theorem detect_eq (np : Numpy K) (predict : Predict K meta_.inputSize) (ready : Ready directory bus crops) (found : crops[k]? = some crop) :
    (detect np meta_ predict directory bus k).map (·.1) =
      (infer np meta_ predict crop >>= pack np meta_.numClasses).map fun packed =>
        bus.write (detPath directory k) (.npy packed) := by
  unfold detect predictTile infer
  rw [ready k crop found,ok_bind,unravel_ravel]
  dsimp only
  cases predict crop with
  | error raised => rfl
  | ok output =>
    rw [ok_bind,ok_bind]
    cases decodeTile np output meta_.anchors meta_.numClasses meta_.objThresh meta_.nmsThresh with
    | error raised => rfl
    | ok entry =>
      rw [ok_bind,ok_bind]
      cases pack np meta_.numClasses entry <;> rfl

def Done (np : Numpy K) (meta_ : Meta K) (predict : Predict K meta_.inputSize) (directory : String)
    (crops : List (Image meta_.inputSize meta_.inputSize 3)) (bus : Bus K) (k : Nat) : Prop :=
  ∃ crop packed, crops[k]? = some crop ∧ (infer np meta_ predict crop >>= pack np meta_.numClasses) = .ok packed ∧
    bus (detPath directory k) = some (.npy packed)

omit [FloorRing K] in
theorem detect_step (ready : Ready directory bus crops) (found : crops[k]? = some crop)
    (ran : (detect np meta_ predict directory bus k).map (·.1) = .ok last) :
    Ready directory last crops ∧ Done np meta_ predict directory crops last k ∧
      ∀ j, Done np meta_ predict directory crops bus j → Done np meta_ predict directory crops last j := by
  rw [detect_eq np predict ready found] at ran
  obtain ⟨packed,inferred,rfl⟩ := map_ok ran
  refine ⟨?_,⟨crop,packed,found,inferred,write_same _ _ _⟩,?_⟩
  · intro j other at_
    rw [write_other bus _ (seg_det directory j k)]
    exact ready j other at_
  · rintro j ⟨other,old,at_,before,there⟩
    by_cases same : j = k
    · subst same
      exact ⟨crop,packed,found,inferred,write_same _ _ _⟩
    · refine ⟨other,old,at_,before,?_⟩
      rw [write_other bus _ fun path => same (detPath_inj path)]
      exact there

omit [FloorRing K] in
theorem order_done (order : List Nat) (ready : Ready directory bus crops) (inside : ∀ k ∈ order, k < crops.length)
    (ran : order.foldlM (fun bus tile => (detect np meta_ predict directory bus tile).map (·.1)) bus = .ok last) :
    (∀ k ∈ order, Done np meta_ predict directory crops last k) ∧
      ∀ j, Done np meta_ predict directory crops bus j → Done np meta_ predict directory crops last j := by
  induction order generalizing bus with
  | nil =>
    cases ran
    exact ⟨by simp,fun _ done => done⟩
  | cons k order ih =>
    rw [List.foldlM_cons] at ran
    obtain ⟨next,first,ran⟩ := bind_ok ran
    obtain ⟨ready_,done,kept⟩ := detect_step ready (List.getElem?_eq_getElem (inside k List.mem_cons_self)) first
    obtain ⟨all,still⟩ := ih ready_ (fun j member => inside j (List.mem_cons_of_mem _ member)) ran
    refine ⟨?_,fun j before => still j (kept j before)⟩
    intro j member
    rcases List.mem_cons.mp member with rfl | later
    · exact still j done
    · exact all j later

omit [FloorRing K] in
theorem order_total (order : List Nat) (ready : Ready directory bus crops) (inside : ∀ k ∈ order, k < crops.length)
    (each : ∀ crop ∈ crops, ∃ packed, (infer np meta_ predict crop >>= pack np meta_.numClasses) = .ok packed) :
    ∃ last, order.foldlM (fun bus tile => (detect np meta_ predict directory bus tile).map (·.1)) bus = .ok last := by
  induction order generalizing bus with
  | nil => exact ⟨bus,rfl⟩
  | cons k order ih =>
    have found := List.getElem?_eq_getElem (inside k List.mem_cons_self)
    obtain ⟨packed,inferred⟩ := each _ (List.getElem_mem (inside k List.mem_cons_self))
    have first := detect_eq np predict ready found
    rw [inferred] at first
    obtain ⟨ready_,_⟩ := detect_step ready found first
    obtain ⟨last,ran⟩ := ih ready_ fun j member => inside j (List.mem_cons_of_mem _ member)
    exact ⟨last,by rw [List.foldlM_cons,first]; exact ran⟩

variable [IsStrictOrderedRing K]

omit [FloorRing K] in
theorem infer_sound (ran : infer np meta_ predict crop = .ok entry) :
    ∃ found : List (Candidate K meta_.numClasses), entry = entryOf found ∧ ∀ one ∈ found, Sound np one := by
  obtain ⟨output,_,ran⟩ := bind_ok ran
  exact decodeTile_sound ran

theorem read_done (small : meta_.numClasses ≤ 2^24) (done : Done np meta_ predict directory crops bus k) :
    ∃ crop entry, crops[k]? = some crop ∧ infer np meta_ predict crop = .ok entry ∧
      readDetections meta_.numClasses directory bus k = .ok entry := by
  obtain ⟨crop,packed,found,inferred,there⟩ := done
  obtain ⟨entry,first,packing⟩ := bind_ok inferred
  obtain ⟨tile,rfl,sound⟩ := infer_sound first
  obtain ⟨same,made,read⟩ := pack_unpack tile sound small
  cases packing.symm.trans made
  refine ⟨crop,_,found,first,?_⟩
  unfold readDetections
  rw [there]
  exact read

theorem infer_pack (small : meta_.numClasses ≤ 2^24) (ran : infer np meta_ predict crop = .ok entry) :
    ∃ packed, (infer np meta_ predict crop >>= pack np meta_.numClasses) = .ok packed := by
  obtain ⟨tile,rfl,sound⟩ := infer_sound ran
  obtain ⟨packed,made,_⟩ := pack_unpack tile sound small
  exact ⟨packed,by rw [ran,ok_bind,made]⟩

theorem read_all (small : meta_.numClasses ≤ 2^24)
    (done : ∀ k < crops.length, Done np meta_ predict directory crops bus k) :
    ∃ perTile, crops.mapM (infer np meta_ predict) = .ok perTile ∧
      (List.range crops.length).mapM (readDetections meta_.numClasses directory bus) = .ok perTile := by
  have each : ∀ crop ∈ crops, ∃ entry, infer np meta_ predict crop = .ok entry := by
    intro crop member
    obtain ⟨k,below,rfl⟩ := List.getElem_of_mem member
    obtain ⟨other,entry,found,ran,_⟩ := read_done small (done k below)
    rw [List.getElem?_eq_getElem below] at found
    cases found
    exact ⟨entry,ran⟩
  obtain ⟨perTile,whole⟩ := mapM_total each
  refine ⟨perTile,whole,mapM_ok.mpr ?_⟩
  have paired := mapM_ok.mp whole
  apply List.forall₂_iff_get.mpr
  refine ⟨by rw [List.length_range,paired.length_eq],?_⟩
  intro k left right
  have below : k < crops.length := by simpa using left
  obtain ⟨other,entry,found,ran,read⟩ := read_done small (done k below)
  rw [List.getElem?_eq_getElem below] at found
  cases found
  have inferred := paired.get below right
  simp only [List.get_eq_getElem] at inferred ⊢
  rw [inferred] at ran
  cases ran
  simpa using read

omit [FloorRing K] [IsStrictOrderedRing K] in
theorem mask_column {rows : List α} (f : α → β) (keep : α → Bool) :
    mask (rows.map f) (rows.map keep) = .ok ((rows.filter keep).map f) := by
  unfold mask
  rw [if_pos (by simp),take_column (mask_inside rows keep),pick_mask]

def resultOf (rows : List (Row K)) : FrameResult K :=
  ⟨rows.map (·.box),rows.map (·.score),rows.map (·.label),rows.map (·.truncated)⟩

omit [Field K] [FloorRing K] [IsStrictOrderedRing K] in
theorem gate_shown {merged : TileDetections K} (shown : Shown merged rows) (postThresh : K) :
    gate postThresh merged = .ok (resultOf (rows.filter fun row => postThresh ≤ row.score)) := by
  unfold gate
  rw [shown.boxes,shown.scores,shown.labels,shown.truncated,List.map_map]
  show (mask (rows.map (·.box)) (rows.map fun row => decide (postThresh ≤ row.score)) >>= _) = _
  simp only [Function.comp_def,mask_column,ok_bind,orRaise_some]
  rfl

theorem histogram_ok (names : List String) (labels : List Int) :
    (∃ hist, histogram names labels = .ok hist) ↔ ∀ label ∈ labels, (item names label).isSome := by
  have from_ : ∀ counts : List (String × Nat), (∃ hist, labels.foldlM (fun counts label =>
      (orRaise .indexError (item names label)).map (count counts)) counts = .ok hist) ↔
      ∀ label ∈ labels, (item names label).isSome := by
    induction labels with
    | nil => exact fun counts => ⟨fun _ => by simp,fun _ => ⟨counts,rfl⟩⟩
    | cons label labels ih =>
      intro counts
      rw [List.foldlM_cons,List.forall_mem_cons]
      cases named : item names label with
      | none =>
        constructor
        · intro given
          obtain ⟨hist,ran⟩ := given
          cases ran
        · exact fun both => absurd both.1 (by simp)
      | some name =>
        rw [orRaise_some]
        refine (ih (count counts name)).trans ?_
        simp
  exact from_ []

omit [LinearOrder K] [FloorRing K] [IsStrictOrderedRing K] in
theorem split_length {frame : Image h w 3} (ran : splitFrame frame tiles meta_.inputSize = .ok crops) :
    crops.length = tiles.length := by
  unfold splitFrame at ran
  split at ran
  · cases ran
  · exact (mapM_ok.mp ran).length_eq.symm

variable {tiles : List Tile} {frame : Image meta_.frameSize meta_.frameSize 3} {result : FrameResult K}

omit [FloorRing K] [IsStrictOrderedRing K] in
theorem inProcess_ok (built : makeTileLayout meta_.tileLayout meta_.frameSize meta_.inputSize = .ok tiles)
    (cut : splitFrame frame tiles meta_.inputSize = .ok crops) :
    (inProcess np meta_ predict frame maxBoxes >>= gate postThresh) = .ok result ↔
      ∃ perTile, crops.mapM (infer np meta_ predict) = .ok perTile ∧
        (mergeTileDetections perTile tiles meta_.frameSize {meta_.merge with maxBoxes} >>= gate postThresh) = .ok result := by
  unfold inProcess
  rw [built,ok_bind,cut,ok_bind]
  constructor
  · intro ran
    obtain ⟨merged,ran,last⟩ := bind_ok ran
    obtain ⟨outputs,first,ran⟩ := bind_ok ran
    obtain ⟨perTile,second,ran⟩ := bind_ok ran
    exact ⟨perTile,mapM_mapM.mp (by rw [first,ok_bind,second]),by rw [ran,ok_bind,last]⟩
  · intro given
    obtain ⟨perTile,whole,ran⟩ := given
    obtain ⟨outputs,first,second⟩ := bind_ok (mapM_mapM.mpr whole)
    rw [first,ok_bind,second,ok_bind]
    exact ran

omit [IsStrictOrderedRing K] in
theorem stitch_ok {request : StitchRequest K} (built : makeTileLayout meta_.tileLayout meta_.frameSize meta_.inputSize = .ok tiles)
    (read : (List.range tiles.length).mapM (readDetections meta_.numClasses directory bus) = .ok perTile) :
    (stitch meta_ directory bus request).map (·.result) = .ok result ↔
      (mergeTileDetections perTile tiles meta_.frameSize {meta_.merge with maxBoxes := request.cap meta_} >>=
        gate (request.thresh meta_)) = .ok result ∧ ∀ label ∈ result.labels, (item meta_.classNames label).isSome := by
  unfold stitch
  rw [built,ok_bind,read,ok_bind,← histogram_ok]
  constructor
  · intro ran
    obtain ⟨out,stitched,same⟩ := map_ok ran
    obtain ⟨merged,first,stitched⟩ := bind_ok stitched
    obtain ⟨gated,second,stitched⟩ := bind_ok stitched
    obtain ⟨hist,third,stitched⟩ := bind_ok stitched
    cases stitched
    cases same
    exact ⟨by rw [first,ok_bind,second],hist,third⟩
  · intro given
    obtain ⟨ran,hist,third⟩ := given
    obtain ⟨merged,first,second⟩ := bind_ok ran
    rw [first,ok_bind,second,ok_bind,third]
    rfl

omit [LinearOrder K] [FloorRing K] [IsStrictOrderedRing K] in
theorem segment_eq (directory : String) (bus : Bus K) (frame : Image meta_.frameSize meta_.frameSize 3) :
    segment meta_ directory (ravel frame) bus =
      (makeTileLayout meta_.tileLayout meta_.frameSize meta_.inputSize >>= fun tiles =>
        (splitFrame frame tiles meta_.inputSize).map fun crops =>
          (writeCrops directory bus 0 crops,⟨tiles.length,tiles.map (·.name)⟩)) := by
  unfold segment
  rw [unravel_ravel,orRaise_some]
  rfl

-- The three stages over files give what one process gives, whatever the order
-- of the inference tasks.
theorem distributed_ok (np : Numpy K) (predict : Predict K meta_.inputSize) (schedule : Nat → List Nat)
    (orders : ∀ n, (schedule n).Perm (List.range n)) (directory : String) (bus : Bus K)
    (frame : Image meta_.frameSize meta_.frameSize 3) (request : StitchRequest K) (small : meta_.numClasses ≤ 2^24) :
    (distributed np meta_ predict schedule directory bus (ravel frame) request).map (·.result) = .ok result ↔
      (inProcess np meta_ predict frame (request.cap meta_) >>= gate (request.thresh meta_)) = .ok result ∧
        ∀ label ∈ result.labels, (item meta_.classNames label).isSome := by
  unfold distributed
  rw [segment_eq]
  cases built : makeTileLayout meta_.tileLayout meta_.frameSize meta_.inputSize with
  | error raised => simp [inProcess,built,bind,Except.bind,Except.map]
  | ok tiles =>
    rw [ok_bind]
    cases cut : splitFrame frame tiles meta_.inputSize with
    | error raised => simp [inProcess,built,cut,bind,Except.bind,Except.map]
    | ok crops =>
      have sizes := split_length cut
      have ready := writeCrops_ready directory crops bus
      have order := orders tiles.length
      have inside : ∀ k ∈ schedule tiles.length, k < crops.length := by
        intro k member
        rw [sizes]
        exact List.mem_range.mp (order.mem_iff.mp member)
      -- Once the tasks have run, in whatever order, both read the same detections.
      have after : ∀ last, (schedule tiles.length).foldlM (fun bus tile =>
          (detect np meta_ predict directory bus tile).map (·.1)) (writeCrops directory bus 0 crops) = .ok last →
          ∃ perTile, crops.mapM (infer np meta_ predict) = .ok perTile ∧
            (List.range tiles.length).mapM (readDetections meta_.numClasses directory last) = .ok perTile := by
        intro last ran
        rw [← sizes]
        refine read_all small fun k below => (order_done _ ready inside ran).1 k ?_
        exact order.mem_iff.mpr (List.mem_range.mpr (sizes ▸ below))
      rw [inProcess_ok built cut,Except.map,ok_bind]
      dsimp only
      constructor
      · intro ran
        obtain ⟨out,ran,same⟩ := map_ok ran
        obtain ⟨last,tasks,stitched⟩ := bind_ok ran
        obtain ⟨perTile,inferred,read⟩ := after last tasks
        have whole : (stitch meta_ directory last request).map (·.result) = .ok result := by
          rw [stitched,← same]
          rfl
        have both := (stitch_ok built read).mp whole
        exact ⟨⟨perTile,inferred,both.1⟩,both.2⟩
      · intro given
        obtain ⟨⟨perTile,inferred,merged⟩,named⟩ := given
        have each : ∀ crop ∈ crops, ∃ packed, (infer np meta_ predict crop >>= pack np meta_.numClasses) = .ok packed := by
          intro crop member
          obtain ⟨i,below,rfl⟩ := List.getElem_of_mem member
          have paired := mapM_ok.mp inferred
          exact infer_pack small (paired.get below (paired.length_eq ▸ below))
        obtain ⟨last,tasks⟩ := order_total (schedule tiles.length) ready inside each
        obtain ⟨other,again,read⟩ := after last tasks
        cases inferred.symm.trans again
        have stitched := (stitch_ok built read).mpr ⟨merged,named⟩
        rw [tasks,ok_bind]
        exact stitched

omit [FloorRing K] in
theorem inProcess_score (ran : inProcess np meta_ predict frame maxBoxes = .ok merged) (shown : Shown merged rows)
    (positive : 0 ≤ meta_.merge.truncatedPenalty) : ∀ row ∈ rows, 0 ≤ row.score := by
  obtain ⟨tiles,_,ran⟩ := bind_ok ran
  obtain ⟨crops,_,ran⟩ := bind_ok ran
  obtain ⟨outputs,_,ran⟩ := bind_ok ran
  obtain ⟨perTile,decoded,ran⟩ := bind_ok ran
  intro row member
  obtain ⟨entry,inside,score,scored,truncated,same⟩ := merged_score ran shown member
  obtain ⟨output,_,tile⟩ := mapM_mem decoded inside
  obtain ⟨found,rfl,sound⟩ := decodeTile_sound tile
  obtain ⟨one,at_,rfl⟩ := List.mem_map.mp scored
  rw [same]
  unfold scaled
  refine mul_nonneg (sound one at_).score.1 ?_
  split
  · exact positive
  · exact zero_le_one

omit [FloorRing K] in
-- At 0 the gate keeps every row, unless the penalty turns scores negative.
theorem gate_zero (ran : inProcess np meta_ predict frame maxBoxes = .ok merged)
    (positive : 0 ≤ meta_.merge.truncatedPenalty) : ∃ truncated, merged.truncated = some truncated ∧
      gate 0 merged = .ok ⟨merged.boxes,merged.scores,merged.labels,truncated⟩ := by
  have whole := ran
  obtain ⟨_,_,ran⟩ := bind_ok ran
  obtain ⟨_,_,ran⟩ := bind_ok ran
  obtain ⟨_,_,ran⟩ := bind_ok ran
  obtain ⟨_,_,ran⟩ := bind_ok ran
  obtain ⟨rows,shown⟩ := merge_shown ran
  have scores := inProcess_score whole shown positive
  have all : rows.filter (fun row => decide (0 ≤ row.score)) = rows :=
    List.filter_eq_self.mpr fun row member => decide_eq_true (scores row member)
  refine ⟨_,shown.truncated,?_⟩
  rw [gate_shown shown,all,shown.boxes,shown.scores,shown.labels]
  rfl

-- The pipeline returns exactly what the composition of verify_reference
-- returns, when class_names names every label it keeps.
theorem distributed_reference (np : Numpy K) (predict : Predict K meta_.inputSize) (schedule : Nat → List Nat)
    (orders : ∀ n, (schedule n).Perm (List.range n)) (directory : String) (bus : Bus K)
    (frame : Image meta_.frameSize meta_.frameSize 3) (request : StitchRequest K) (small : meta_.numClasses < 2^24) :
    (∀ result, (distributed np meta_ predict schedule directory bus (ravel frame) request).map (·.result) = .ok result ↔
      (inProcess np meta_ predict frame (request.cap meta_) >>= gate (request.thresh meta_)) = .ok result ∧
        ∀ label ∈ result.labels, (item meta_.classNames label).isSome) ∧
    (0 ≤ meta_.merge.truncatedPenalty → ∀ merged, inProcess np meta_ predict frame (request.cap meta_) = .ok merged →
      ∃ truncated, merged.truncated = some truncated ∧
        gate 0 merged = .ok ⟨merged.boxes,merged.scores,merged.labels,truncated⟩) :=
  ⟨fun _ => distributed_ok np predict schedule orders directory bus frame request (Nat.le_of_lt small),
    fun positive _ ran => gate_zero ran positive⟩

end

-- A model that sees the same one object in every tile.
def constant : Predict ℚ inputSize := fun _ => .ok ⟨1,1,[0,0,0,0,0,0]⟩

-- The exponential at 0, the only place it is needed.
def unitExp : Numpy ℚ := .exact (fun x => if x = 0 then 1 else 2) (by intro x; split <;> decide)

def sidecar (tileLayout : String) (frameSize : Nat) (merge : MergeParams ℚ) (classNames : List String) : Meta ℚ where
  tileLayout := tileLayout
  frameSize := frameSize
  inputSize := 1
  anchors := [(1,1)]
  numClasses := 1
  objThresh := 1/4
  nmsThresh := 1/2
  maxBoxes := none
  postMergeThresh := 0
  merge := merge
  classNames := classNames

def black (n : Nat) : Image n n 3 := Vector.replicate n (Vector.replicate n (Vector.replicate 3 0))

def people : Meta ℚ := sidecar "quadrants_center" 2 {} ["person"]

def quadrants : Meta ℚ := sidecar "quadrants_center" 2 {fuseSeams := false} ["person"]

-- The object shows less where the tile is black.
def lit : Predict ℚ inputSize := fun tile => .ok ⟨1,1,[0,0,0,0,if ravel tile = [0,0,0] then 1 else 0,0]⟩

def corners : Image 2 2 3 := #v[#v[#v[255,255,255],#v[0,0,0]],#v[#v[0,0,0],#v[255,0,0]]]

def strongest : StitchRequest ℚ := ⟨some (some 3),some (3/20)⟩

-- Five tiles run last to first. The centre repeats the first, the cap drops one
-- black corner and post_thresh the other.
theorem distributed_reference_quadrants :
    ((distributed unitExp quadrants lit (fun n => (List.range n).reverse) "/shared/pipeline/frame" (fun _ => none)
      (ravel corners) strongest).map (·.result) =
        .ok ⟨[⟨0,0,1/2,1/2⟩,⟨1/2,1/2,1,1⟩],[1/5,1/5],[0,0],[true,true]⟩) ∧
    ∃ merged truncated, inProcess unitExp quadrants lit corners (strongest.cap quadrants) = .ok merged ∧
      merged.truncated = some truncated ∧
      gate 0 merged = .ok ⟨merged.boxes,merged.scores,merged.labels,truncated⟩ := by
  have both := @distributed_reference ℚ _ _ _ quadrants _ unitExp lit (fun n => (List.range n).reverse)
    (fun n => List.reverse_perm (List.range n)) "/shared/pipeline/frame" (fun _ => none) corners strongest (by decide)
  have reference : (inProcess unitExp quadrants lit corners (strongest.cap quadrants) >>=
      gate (strongest.thresh quadrants)).toOption =
        some ⟨[⟨0,0,1/2,1/2⟩,⟨1/2,1/2,1,1⟩],[1/5,1/5],[0,0],[true,true]⟩ := by decide +kernel
  have whole := toOption_ok reference
  obtain ⟨merged,ran,_⟩ := bind_ok whole
  obtain ⟨truncated,cut,kept⟩ := both.2 (by decide +kernel) merged ran
  refine ⟨(both.1 _).mpr ⟨whole,?_⟩,merged,truncated,ran,cut,kept⟩
  intro label member
  have zero : label = 0 := by simpa using member
  rw [zero]
  rfl

def nameless : Meta ℚ := sidecar "whole" 1 {} []

-- A sidecar without a name for a label it decodes: only the stitch stage looks
-- it up. And a negative penalty puts cut detections below 0.
theorem distributed_unnamed :
    (¬∀ (meta_ : Meta ℚ) (predict : Predict ℚ meta_.inputSize) (frame : Image meta_.frameSize meta_.frameSize 3)
        (request : StitchRequest ℚ) (result : FrameResult ℚ), meta_.numClasses < 2^24 →
      ((distributed unitExp meta_ predict List.range "/shared/pipeline/frame" (fun _ => none) (ravel frame) request).map
          (·.result) = .ok result ↔
        (inProcess unitExp meta_ predict frame (request.cap meta_) >>= gate (request.thresh meta_)) = .ok result)) ∧
    ¬∀ (meta_ : Meta ℚ) (predict : Predict ℚ meta_.inputSize) (frame : Image meta_.frameSize meta_.frameSize 3)
        (merged : TileDetections ℚ) (result : FrameResult ℚ), meta_.numClasses < 2^24 →
      inProcess unitExp meta_ predict frame none = .ok merged → gate 0 merged = .ok result →
        result.boxes = merged.boxes := by
  constructor
  · intro same
    have reference : (inProcess unitExp nameless constant (black nameless.frameSize) (StitchRequest.cap {} nameless) >>=
        gate (StitchRequest.thresh {} nameless)).toOption = some ⟨[⟨0,0,1,1⟩],[1/2],[0],[false]⟩ := by decide +kernel
    have stages : ((distributed unitExp nameless constant List.range "/shared/pipeline/frame"
        (fun _ => none) (ravel (black nameless.frameSize)) {}).map (·.result)).toOption = none := by decide +kernel
    have ran := (same nameless constant (black nameless.frameSize) {} _ (by decide)).mpr (toOption_ok reference)
    rw [ran] at stages
    cases stages
  · intro whole
    have reference : ((inProcess unitExp (sidecar "quadrants_center" 2 {fuseSeams := false,truncatedPenalty := -1} ["person"])
        constant (black 2) none).toOption.map fun merged => (merged.boxes.length,(gate 0 merged).toOption)) =
        some (4,some ⟨[],[],[],[]⟩) := by decide +kernel
    obtain ⟨merged,ran,both⟩ := Option.map_eq_some_iff.mp reference
    rw [Prod.mk.injEq] at both
    have kept := whole _ _ _ _ _ (by decide) (toOption_ok ran) (toOption_ok both.2)
    have size := both.1
    rw [← kept] at size
    cases size

end SymphonyAkida.Pipeline
