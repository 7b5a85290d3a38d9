import SymphonyAkida.ScoreDump
import SymphonyAkida.ScoreGate
import SymphonyAkida.DecodeMerge
import SymphonyAkida.ShardSystemRecords

namespace SymphonyAkida.ScoreDump
open Json JsonLines ShardWire DetectionMap EvalShardMap TiledShard Outcome

theorem merged_nonneg {perTile : List (TileEntry ℚ)} (decoded : ∀ entry ∈ perTile, ∀ label ∈ entry.labels, 0 ≤ label)
    (ran : mergeTileDetections perTile tiles frameSize params = .ok out) (shown : Shown out rows) : ∀ row ∈ rows, 0 ≤ row.label := by
  have labels : ∀ label ∈ out.labels, 0 ≤ label := by
    rcases merge_cases ran with ⟨_,width,rfl⟩ | ⟨_,_,fused,contained,kept,_,trace,_,last⟩
    · intro label member
      cases member
    · have each := stage_rows (fun row => 0 ≤ row.label) trace
        (by
          intro row member
          obtain ⟨tile,entry,id,j,paired,below,rfl⟩ := inputRows_mem member
          refine decoded entry (List.of_mem_zip paired).2 _ ?_
          have inside : j < entry.labels.length := by rw [entry.labelsParallel]; exact below
          simp [entryRow,inside])
        (by
          intro members cut row all _ made
          unfold fuseRow at made
          simp only [Option.bind_eq_bind,Option.bind_eq_some_iff] at made
          obtain ⟨bestAt,_,best,found,_,_,_,_,whole⟩ := made
          cases Option.some.inj whole
          exact all best (List.mem_of_getElem? found))
      intro label member
      rw [last.labels] at member
      obtain ⟨final,inside,rfl⟩ := List.mem_map.mp member
      obtain ⟨middle,picked,rfl⟩ := List.mem_map.mp inside
      obtain ⟨_,_,found⟩ := mem_pick.mp picked
      rw [finishRow_eq]
      exact each middle (List.mem_of_getElem? found)
  intro row member
  exact labels _ (by rw [shown.labels]; exact List.mem_map.mpr ⟨row,member,rfl⟩)

section
variable {np : Numpy ℚ} {meta_ : Pipeline.Meta ℚ} {predict : Pipeline.Predict ℚ meta_.inputSize}
  {frame : Image meta_.frameSize meta_.frameSize 3}

theorem inProcess_nonneg (ran : Pipeline.inProcess np meta_ predict frame maxBoxes = .ok merged) (shown : Shown merged rows) :
    ∀ row ∈ rows, 0 ≤ row.label := by
  obtain ⟨tiles,_,ran⟩ := bind_ok ran
  obtain ⟨crops,_,ran⟩ := bind_ok ran
  obtain ⟨outputs,_,ran⟩ := bind_ok ran
  obtain ⟨perTile,decoded,ran⟩ := bind_ok ran
  refine merged_nonneg (fun entry inside label member => ?_) ran shown
  obtain ⟨output,_,tile⟩ := mapM_mem decoded inside
  obtain ⟨found,rfl,_⟩ := decodeTile_sound tile
  obtain ⟨one,_,rfl⟩ := List.mem_map.mp member
  exact Int.natCast_nonneg _

end

structure Whole (result : Pipeline.FrameResult ℚ) : Prop where
  scores : result.scores.length = result.boxes.length
  labels : result.labels.length = result.boxes.length
  positions : ∀ label ∈ result.labels, 0 ≤ label

def shownOf (result : Pipeline.FrameResult ℚ) (whole : Whole result) : Detected ℚ :=
  ⟨result.boxes,result.scores,result.labels,whole.scores,whole.labels⟩

theorem detected_ext {a b : Detected ℚ} (boxes : a.boxes = b.boxes) (scores : a.scores = b.scores) (labels : a.labels = b.labels) : a = b := by
  cases a
  cases b
  simp only at boxes scores labels
  subst boxes scores labels
  rfl

theorem resultOf_whole {rows : List (Row ℚ)} (nonneg : ∀ row ∈ rows, 0 ≤ row.label) : Whole (Pipeline.resultOf rows) where
  scores := by simp [Pipeline.resultOf]
  labels := by simp [Pipeline.resultOf]
  positions := by
    intro label member
    obtain ⟨row,inside,rfl⟩ := List.mem_map.mp member
    exact nonneg row inside

theorem reference_whole {setup : ShardSystem.Setup} (ran : setup.reference i = .ok result) :
    Whole result ∧ ∃ frame merged, orRaise .numpyValueError (Arrays.unravel setup.meta_.frameSize setup.meta_.frameSize 3 (setup.frame i).2) = .ok frame ∧
      Pipeline.inProcess setup.np setup.meta_ setup.predict frame (setup.request.cap setup.meta_) = .ok merged ∧
      Pipeline.gate (setup.request.thresh setup.meta_) merged = .ok result := by
  obtain ⟨frame,shaped,ran⟩ := bind_ok ran
  obtain ⟨merged,inside,gated⟩ := bind_ok ran
  refine ⟨?_,frame,merged,shaped,inside,gated⟩
  have process := inside
  obtain ⟨_,_,last⟩ := bind_ok inside
  obtain ⟨_,_,last⟩ := bind_ok last
  obtain ⟨_,_,last⟩ := bind_ok last
  obtain ⟨_,_,last⟩ := bind_ok last
  obtain ⟨rows,shown⟩ := merge_shown last
  rw [Pipeline.gate_shown shown] at gated
  cases gated
  exact resultOf_whole fun row member => inProcess_nonneg process shown row (List.mem_filter.mp member).1

-- The reprs of a result's numbers read back as them.
structure Carries (floats : Floats) (result : Pipeline.FrameResult ℚ) : Prop where
  boxes : ∀ box ∈ result.boxes, ∀ x ∈ [box.x1,box.y1,box.x2,box.y2], floats.Faithful x
  scores : ∀ score ∈ result.scores, floats.Faithful score

theorem plain_arr {items : List Value} (each : ∀ item ∈ items, item.plain = true) : (Value.arr items).plain = true := by
  have all : plainItems items = true := by
    induction items with
    | nil => rfl
    | cons item items ih =>
      rw [plainItems,each item List.mem_cons_self,ih fun other member => each other (List.mem_cons_of_mem _ member)]
      rfl
  rw [Value.plain]
  exact all

section
variable {floats : Floats} {result : Pipeline.FrameResult ℚ}

theorem numbers_plain {xs : List ℚ} (faithful : ∀ x ∈ xs, floats.Faithful x) : (Value.arr (xs.map (number floats))).plain = true := by
  apply plain_arr
  intro item member
  obtain ⟨x,inside,rfl⟩ := List.mem_map.mp member
  rw [number,Value.plain]
  exact (faithful x inside).token

theorem record_plain (carries : Carries floats result) (sample : Nat) :
    (Value.obj (recordDict floats (ShardSystem.recordOf sample result))).plain = true := by
  have boxes : (Value.arr ((result.boxes.map fun box => [box.x1,box.y1,box.x2,box.y2]).map fun box => .arr (box.map (number floats)))).plain = true := by
    apply plain_arr
    intro item member
    obtain ⟨row,inside,rfl⟩ := List.mem_map.mp member
    obtain ⟨box,place,rfl⟩ := List.mem_map.mp inside
    exact numbers_plain (carries.boxes box place)
  have scores := numbers_plain carries.scores
  have labels : (Value.arr ((result.labels.map Int.toNat).map fun (label : Nat) => .int label)).plain = true := by
    apply plain_arr
    intro item member
    obtain ⟨label,_,rfl⟩ := List.mem_map.mp member
    rfl
  have truncated : (Value.arr (result.truncated.map .bool)).plain = true := by
    apply plain_arr
    intro item member
    obtain ⟨flag,_,rfl⟩ := List.mem_map.mp member
    rfl
  have keys : ((recordDict floats (ShardSystem.recordOf sample result)).map (·.1)).Nodup := by
    show ["sample","boxes","scores","labels","truncated"].Nodup
    decide
  have members : plainMembers (recordDict floats (ShardSystem.recordOf sample result)) = true := by
    simp only [recordDict,ShardSystem.recordOf,listValue,plainMembers,boxes,scores,labels,truncated]
    rfl
  rw [Value.plain,members,decide_eq_true keys]
  rfl

theorem numbers_back {xs : List ℚ} (faithful : ∀ x ∈ xs, floats.Faithful x) :
    (xs.map (number floats)).mapM (numberOf floats) = .ok xs := by
  induction xs with
  | nil => rfl
  | cons x xs ih =>
    have first : numberOf floats (number floats x) = .ok x := by
      rw [number,numberOf,(faithful x List.mem_cons_self).back]
    rw [List.map_cons,List.mapM_cons,first,ok_bind,ih fun y member => faithful y (List.mem_cons_of_mem _ member)]
    rfl

theorem boxes_back {boxes : List (Box ℚ)} (faithful : ∀ box ∈ boxes, ∀ x ∈ [box.x1,box.y1,box.x2,box.y2], floats.Faithful x) :
    ((boxes.map fun box => [box.x1,box.y1,box.x2,box.y2]).map fun box => Value.arr (box.map (number floats))).mapM (boxOf floats) = .ok boxes := by
  induction boxes with
  | nil => rfl
  | cons box boxes ih =>
    have row := numbers_back (faithful box List.mem_cons_self)
    have first : boxOf floats (.arr ([box.x1,box.y1,box.x2,box.y2].map (number floats))) = .ok box := by
      rw [boxOf,itemsOf,ok_bind,row,ok_bind]
    rw [List.map_cons,List.map_cons,List.mapM_cons,first,ok_bind,ih fun other member => faithful other (List.mem_cons_of_mem _ member)]
    rfl

theorem labels_back {labels : List Int} (positions : ∀ label ∈ labels, 0 ≤ label) :
    ((labels.map Int.toNat).map fun (label : Nat) => Value.int label).mapM labelOf = .ok labels := by
  induction labels with
  | nil => rfl
  | cons label labels ih =>
    have first : labelOf (.int (label.toNat : Int)) = .ok label := by
      rw [labelOf,Int.toNat_of_nonneg (positions label List.mem_cons_self)]
    rw [List.map_cons,List.map_cons,List.mapM_cons,first,ok_bind,ih fun other member => positions other (List.mem_cons_of_mem _ member)]
    rfl

theorem fromDump_record (carries : Carries floats result) (whole : Whole result) (sample : Nat) :
    fromDump floats (.obj (recordDict floats (ShardSystem.recordOf sample result))) = .ok (shownOf result whole) := by
  have boxes : subscript (.obj (recordDict floats (ShardSystem.recordOf sample result))) "boxes" =
      .ok (.arr ((result.boxes.map fun box => [box.x1,box.y1,box.x2,box.y2]).map fun box => .arr (box.map (number floats)))) := rfl
  have scores : subscript (.obj (recordDict floats (ShardSystem.recordOf sample result))) "scores" =
      .ok (.arr (result.scores.map (number floats))) := rfl
  have labels : subscript (.obj (recordDict floats (ShardSystem.recordOf sample result))) "labels" =
      .ok (.arr ((result.labels.map Int.toNat).map fun (label : Nat) => .int label)) := rfl
  unfold fromDump
  rw [boxes,ok_bind,scores,ok_bind,labels,ok_bind,itemsOf,ok_bind]
  split
  · rename_i none
    have empty : result.boxes = [] := by simpa using none
    have fewer : result.scores = [] := List.length_eq_zero_iff.mp (by rw [whole.scores,empty]; rfl)
    have none : result.labels = [] := List.length_eq_zero_iff.mp (by rw [whole.labels,empty]; rfl)
    exact congrArg Except.ok (detected_ext empty.symm fewer.symm none.symm)
  · rw [boxes_back carries.boxes,ok_bind,itemsOf,ok_bind,numbers_back carries.scores,ok_bind,itemsOf,ok_bind,
      labels_back whole.positions,ok_bind,dif_pos ⟨whole.scores,whole.labels⟩]
    rfl

end

section
variable (floats : Floats)

def lineOf (one : Nat × Pipeline.FrameResult ℚ) : Dict := recordDict floats (ShardSystem.recordOf one.1 one.2)

def recordsOf (shown : List (Nat × Pipeline.FrameResult ℚ)) : Records :=
  shown.foldl (fun records one => Assoc.alter (one.1 : Int) (fun _ => .obj (lineOf floats one)) records) []

def textOf (shown : List (Nat × Pipeline.FrameResult ℚ)) : List Char :=
  dumpText floats (shown.map fun one => ShardSystem.recordOf one.1 one.2)

end

section
variable {floats : Floats} {shown : List (Nat × Pipeline.FrameResult ℚ)} {rt : Runtime}

theorem textOf_written : textOf floats shown = written (shown.map (lineOf floats)) := by
  rw [textOf,dumpText,List.map_map]
  rfl

theorem addLine_record {one : Nat × Pipeline.FrameResult ℚ} (carries : Carries floats one.2) (records : Records) :
    addLine rt records (dumps (.obj (lineOf floats one))) = .ok (Assoc.alter (one.1 : Int) (fun _ => .obj (lineOf floats one)) records) := by
  have sample : subscript (.obj (lineOf floats one)) "sample" = .ok (.int one.1) := rfl
  have plain : (Value.obj (lineOf floats one)).plain = true := record_plain carries one.1
  unfold addLine
  rw [loads_dumps plain]
  dsimp only
  rw [sample,ok_bind,toInt,ok_bind]
  rfl

theorem addLines (carries : ∀ one ∈ shown, Carries floats one.2) (records : Records) :
    ((shown.map (lineOf floats)).map fun record => dumps (.obj record)).foldlM (addLine rt) records =
      .ok (shown.foldl (fun records one => Assoc.alter (one.1 : Int) (fun _ => .obj (lineOf floats one)) records) records) := by
  induction shown generalizing records with
  | nil => rfl
  | cons one shown ih =>
    rw [List.map_cons,List.map_cons,List.foldlM_cons,addLine_record (carries one List.mem_cons_self),ok_bind,
      ih fun other member => carries other (List.mem_cons_of_mem _ member)]
    rfl

theorem written_plain (carries : ∀ one ∈ shown, Carries floats one.2) :
    ∀ record ∈ shown.map (lineOf floats), (Value.obj record).plain = true := by
  intro record member
  obtain ⟨one,inside,rfl⟩ := List.mem_map.mp member
  exact record_plain (carries one inside) one.1

theorem readDump_text (carries : ∀ one ∈ shown, Carries floats one.2) :
    readDump rt (textOf floats shown) = .ok (recordsOf floats shown) := by
  unfold readDump
  rw [textOf_written,documents_written (written_plain carries),addLines carries]
  rfl

-- read_dump of a dump that stops anywhere raises, or returns what the first
-- lines say.
theorem readDump_cut (carries : ∀ one ∈ shown, Carries floats one.2) (cut : text ++ more = textOf floats shown)
    (read : readDump rt text = .ok records) : ∃ early, early <+: shown ∧ records = recordsOf floats early := by
  rw [textOf_written] at cut
  have plain := written_plain carries
  obtain ⟨done,rest,shape,found⟩ := documents_cut plain cut
  have front : done = (shown.take done.length).map (lineOf floats) := by
    rw [List.map_take,shape,List.take_left]
  have early : ∀ one ∈ shown.take done.length, Carries floats one.2 := fun one member => carries one (List.mem_of_mem_take member)
  unfold readDump at read
  rcases found with whole | ⟨record,later,part,missing,next,half,some_,whole⟩
  · refine ⟨shown.take done.length,List.take_prefix _ _,?_⟩
    rw [whole,front,addLines early] at read
    exact (Except.ok.inj read).symm
  · rw [whole,front,List.foldlM_append,addLines early] at read
    obtain ⟨before,_,read⟩ := bind_ok read
    obtain ⟨after,read,_⟩ := bind_ok read
    unfold addLine at read
    split at read
    · cases read
    · rename_i value loaded
      have inside : record ∈ shown.map (lineOf floats) := by
        rw [shape,next]
        exact List.mem_append_right _ List.mem_cons_self
      exact absurd loaded (loads_cut (plain record inside) half some_)

-- The records hold a line of each sample, and lines of nothing else.
theorem recordsOf_spec (floats : Floats) (shown : List (Nat × Pipeline.FrameResult ℚ)) :
    ((recordsOf floats shown).map (·.1)).Nodup ∧
      (∀ entry ∈ recordsOf floats shown, ∃ one ∈ shown, entry = ((one.1 : Int),.obj (lineOf floats one))) ∧
      ∀ one ∈ shown, (one.1 : Int) ∈ (recordsOf floats shown).map (·.1) := by
  induction shown using List.reverseRecOn with
  | nil => exact ⟨List.nodup_nil,fun _ member => absurd member List.not_mem_nil,fun _ member => absurd member List.not_mem_nil⟩
  | append_singleton shown last ih =>
    obtain ⟨distinct,each,all⟩ := ih
    have step : recordsOf floats (shown ++ [last]) =
        Assoc.alter (last.1 : Int) (fun _ => .obj (lineOf floats last)) (recordsOf floats shown) := by
      rw [recordsOf,List.foldl_append]
      rfl
    rw [step]
    refine ⟨Assoc.nodup_alter distinct _ _,fun entry member => ?_,fun one member => ?_⟩
    · rcases (Assoc.mem_alter distinct _ _ entry).mp member with ⟨old,_⟩ | rfl
      · obtain ⟨one,inside,rfl⟩ := each entry old
        exact ⟨one,List.mem_append_left _ inside,rfl⟩
      · exact ⟨last,List.mem_append_right _ List.mem_cons_self,rfl⟩
    · have kept : (one.1 : Int) ∈ (recordsOf floats shown).map (·.1) ∨ one.1 = last.1 := by
        rcases List.mem_append.mp member with old | new
        · exact .inl (all one old)
        · rw [List.mem_singleton.mp new]
          exact .inr rfl
      rw [Assoc.keys_alter]
      split
      · rename_i inside
        rcases kept with old | same
        · exact old
        · rw [same]
          exact inside
      · rcases kept with old | same
        · exact List.mem_append_left _ old
        · rw [same]
          exact List.mem_append_right _ List.mem_cons_self

theorem mem_samplesOf : sample ∈ samplesOf (recordsOf floats shown) ↔ ∃ one ∈ shown, one.1 = sample := by
  obtain ⟨_,each,all⟩ := recordsOf_spec floats shown
  rw [samplesOf,List.mem_insertionSort,List.mem_map]
  constructor
  · intro given
    obtain ⟨entry,member,rfl⟩ := given
    obtain ⟨one,inside,rfl⟩ := each entry member
    exact ⟨one,inside,rfl⟩
  · intro given
    obtain ⟨one,inside,rfl⟩ := given
    obtain ⟨entry,member,same⟩ := List.mem_map.mp (all one inside)
    exact ⟨entry,member,by rw [same]; rfl⟩

theorem detectedOf_sample (carries : ∀ one ∈ shown, Carries floats one.2) (whole : ∀ one ∈ shown, Whole one.2)
    (member : sample ∈ samplesOf (recordsOf floats shown)) :
    ∃ one, ∃ inside : one ∈ shown, one.1 = sample ∧
      detectedOf floats (recordsOf floats shown) sample = .ok (shownOf one.2 (whole one inside)) := by
  obtain ⟨one,inside,rfl⟩ := mem_samplesOf.mp member
  obtain ⟨distinct,each,all⟩ := recordsOf_spec floats shown
  obtain ⟨⟨key,record⟩,held,same⟩ := List.mem_map.mp (all one inside)
  have found : (recordsOf floats shown).lookup (one.1 : Int) = some record := by
    cases absent : (recordsOf floats shown).lookup (one.1 : Int) with
    | none => exact absurd same (Assoc.fresh_of_lookup absent _ held)
    | some other =>
      have twin := List.inj_on_of_nodup_map distinct held (Assoc.mem_of_lookup absent) same
      rw [(Prod.mk.inj twin).2]
  obtain ⟨own,place,equal⟩ := each _ held
  obtain ⟨first,second⟩ := Prod.mk.inj equal
  have key : own.1 = one.1 := Int.ofNat.inj (first.symm.trans same)
  refine ⟨own,place,key,?_⟩
  unfold detectedOf
  rw [found,second]
  exact fromDump_record (carries own place) (whole own place) own.1

end

-- The frames of collect, when nothing raises.
theorem collectFrom_ok {kit : TestKit} {samples : List Nat} {boxesOf : Nat → Except Raised (Detected ℚ)} {detected : Nat → Detected ℚ}
    (each : ∀ sample ∈ samples, boxesOf sample = .ok (detected sample)) (inside : ∀ sample ∈ samples, sample < kit.count)
    (truth : kit.hasGroundTruth = true) (maxBoxes : Int) :
    collectFrom kit samples boxesOf maxBoxes = .ok (collect kit.kit samples detected maxBoxes) := by
  unfold collectFrom collect
  rw [mapM_ok,List.forall₂_map_right_iff,List.forall₂_same]
  intro sample member
  have within := Nat.not_le.mpr (inside sample member)
  obtain ⟨ragged,held⟩ := Option.isSome_iff_exists.mp truth
  rw [each sample member,ok_bind,if_neg (fun both => within both.2),held]
  dsimp only
  rw [if_neg within]
  rfl

end SymphonyAkida.ScoreDump
