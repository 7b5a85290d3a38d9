import SymphonyAkida.ScoreDumpSpec
import SymphonyAkida.DetectionMapSpec
import SymphonyAkida.SampleSets
import SymphonyAkida.ShardWireSpec

namespace SymphonyAkida.ScoreDump
open Json JsonLines ShardWire DetectionMap EvalShardMap TiledShard Outcome

-- The kit's detections of a sample are what one process makes of its frame.
def Stores (setup : ShardSystem.Setup) (kit : TestKit) (row : Nat → List UInt8) : Prop :=
  ∀ sample < kit.count, ∀ frame merged,
    orRaise .numpyValueError (Arrays.unravel setup.meta_.frameSize setup.meta_.frameSize 3 (row sample)) = .ok frame →
    Pipeline.inProcess setup.np setup.meta_ setup.predict frame (setup.request.cap setup.meta_) = .ok merged →
    (kit.kit.reference sample).boxes = merged.boxes ∧ (kit.kit.reference sample).scores = merged.scores ∧
      (kit.kit.reference sample).labels = merged.labels

def Reads (setup : ShardSystem.Setup) (kit : TestKit) (row : Nat → List UInt8) : Prop :=
  ∀ i < setup.count, ∃ sample < kit.count, setup.frame i = (sample,row sample)

theorem fromKit_gated {kit : Kit ℚ} {merged : TileDetections ℚ} (shown : Shown merged rows)
    (boxes : (kit.reference sample).boxes = merged.boxes) (scores : (kit.reference sample).scores = merged.scores)
    (labels : (kit.reference sample).labels = merged.labels) (gated : Pipeline.gate postThresh merged = .ok result) (whole : Whole result) :
    fromKit kit postThresh sample = shownOf result whole := by
  rw [Pipeline.gate_shown shown] at gated
  cases gated
  have keep : (kit.reference sample).scores.map (fun score => decide (postThresh ≤ score)) =
      rows.map fun row => decide (postThresh ≤ row.score) := by
    rw [scores,shown.scores,List.map_map]
    rfl
  apply detected_ext
  · show pick (kit.reference sample).boxes _ = _
    rw [keep,boxes,shown.boxes,pick_map,pick_mask]
    rfl
  · show pick (kit.reference sample).scores _ = _
    rw [keep,scores,shown.scores,pick_map,pick_mask]
    rfl
  · show pick (kit.reference sample).labels _ = _
    rw [keep,labels,shown.labels,pick_map,pick_mask]
    rfl

theorem fromKit_reference {setup : ShardSystem.Setup} {kit : TestKit} {row : Nat → List UInt8} (stores : Stores setup kit row)
    (inside : sample < kit.count) (frame : setup.frame i = (sample,row sample)) (ran : setup.reference i = .ok result) (whole : Whole result) :
    fromKit kit.kit (setup.request.thresh setup.meta_) sample = shownOf result whole := by
  obtain ⟨_,image,merged,shaped,process,gated⟩ := reference_whole ran
  rw [frame] at shaped
  obtain ⟨boxes,scores,labels⟩ := stores sample inside image merged shaped process
  obtain ⟨_,_,last⟩ := bind_ok process
  obtain ⟨_,_,last⟩ := bind_ok last
  obtain ⟨_,_,last⟩ := bind_ok last
  obtain ⟨_,_,last⟩ := bind_ok last
  obtain ⟨rows,shown⟩ := merge_shown last
  exact fromKit_gated shown boxes scores labels gated whole

structure FromRun (setup : ShardSystem.Setup) (kit : TestKit) (row : Nat → List UInt8) (shown : List (Nat × Pipeline.FrameResult ℚ)) : Prop where
  each : ∀ one ∈ shown, ∃ i, one.1 < kit.count ∧ setup.frame i = (one.1,row one.1) ∧ setup.reference i = .ok one.2

section
variable {setup : ShardSystem.Setup} {kit : TestKit} {row : Nat → List UInt8} {floats : Floats} {shown : List (Nat × Pipeline.FrameResult ℚ)}

theorem frames_agree (stores : Stores setup kit row) (fromRun : FromRun setup kit row shown) (carries : ∀ one ∈ shown, Carries floats one.2)
    (truth : kit.hasGroundTruth = true) (maxBoxes : Int) :
    ∃ frames, collectFrom kit (samplesOf (recordsOf floats shown)) (detectedOf floats (recordsOf floats shown)) maxBoxes = .ok frames ∧
      collectFrom kit (samplesOf (recordsOf floats shown))
        (fun sample => .ok (fromKit kit.kit (setup.request.thresh setup.meta_) sample)) maxBoxes = .ok frames := by
  have whole : ∀ one ∈ shown, Whole one.2 := by
    intro one member
    obtain ⟨i,_,_,ran⟩ := fromRun.each one member
    exact (reference_whole ran).1
  have inside : ∀ sample ∈ samplesOf (recordsOf floats shown), sample < kit.count := by
    intro sample member
    obtain ⟨one,place,rfl⟩ := mem_samplesOf.mp member
    obtain ⟨i,below,_⟩ := fromRun.each one place
    exact below
  refine ⟨_,collectFrom_ok (fun sample member => ?_) inside truth maxBoxes,collectFrom_ok (fun sample member => rfl) inside truth maxBoxes⟩
  obtain ⟨one,place,rfl,found⟩ := detectedOf_sample carries whole member
  obtain ⟨i,below,frame,ran⟩ := fromRun.each one place
  rw [found,fromKit_reference stores below frame ran (whole one place)]

theorem rows_agree (stores : Stores setup kit row) (fromRun : FromRun setup kit row shown) (carries : ∀ one ∈ shown, Carries floats one.2)
    (truth : kit.hasGroundTruth = true) (held : kit.hasReference = true) (maxBoxes : Int) :
    ∃ frames, fleetRow floats kit (recordsOf floats shown) maxBoxes =
        .ok (summarise (evaluate frames kit.labels.length).1,(evaluate frames kit.labels.length).2) ∧
      referenceRow kit (recordsOf floats shown) maxBoxes (setup.request.thresh setup.meta_) =
        .ok (some (summarise (evaluate frames kit.labels.length).1)) := by
  obtain ⟨frames,fleet,reference⟩ := frames_agree stores fromRun carries truth maxBoxes
  refine ⟨frames,?_,?_⟩
  · rw [fleetRow,fleet,ok_bind]
    rfl
  · rw [referenceRow,if_pos held,reference,ok_bind]
    rfl

end

section
variable {setup : ShardSystem.Setup} {kit : TestKit} {row : Nat → List UInt8} {floats : Floats} {shown : List (Nat × Pipeline.FrameResult ℚ)}

theorem score_agrees (stores : Stores setup kit row) (fromRun : FromRun setup kit row shown) (carries : ∀ one ∈ shown, Carries floats one.2)
    (truth : kit.hasGroundTruth = true) (held : kit.hasReference = true) (maxBoxes : Int) :
    ∃ accuracy, score floats kit (recordsOf floats shown) maxBoxes (setup.request.thresh setup.meta_) = .ok accuracy ∧
      accuracy.reference = some accuracy.fleet ∧
      accuracy.targets = if (samplesOf (recordsOf floats shown)).length = kit.count ∧ setup.request.thresh setup.meta_ ≤ 0 then kit.targets
        else none := by
  obtain ⟨frames,fleet,reference⟩ := rows_agree stores fromRun carries truth held maxBoxes
  unfold score
  rw [fleet,ok_bind]
  dsimp only
  rw [reference,ok_bind]
  exact ⟨_,rfl,rfl,rfl⟩

end

theorem verdict_same {numClasses : Nat} (some_ : 0 < numClasses) (frames : List (Frame ℚ)) :
    verdict (summarise (evaluate frames numClasses).1) (summarise (evaluate frames numClasses).1) = true := by
  obtain ⟨first,sixth,_,_,_,made⟩ := summarise_evaluate frames numClasses
  have number : ∀ t, ∃ v, mapAt frames numClasses t = some v := by
    intro t
    have filled : averagePrecisions frames numClasses t (overlapsOf frames) ≠ [] := by
      unfold averagePrecisions
      rw [Ne,List.map_eq_nil_iff,List.range_eq_nil]
      exact Nat.ne_of_gt some_
    exact ⟨_,if_neg filled⟩
  choose value known using number
  have all : (iouThresholds.map (mapAt frames numClasses)).mapM id = some (iouThresholds.map value) := by
    rw [List.mapM_map]
    exact mapM_some fun t _ => known t
  have close_self : ∀ x : ℚ, close (some x) (some x) = true := by
    intro x
    simp [close]
  rw [made,all,known,known,Option.bind_some]
  show (close _ _ && close _ _ && close (mean (iouThresholds.map value)) _) = true
  rw [close_self,close_self]
  exact close_self _

section
variable {setup : ShardSystem.Setup} {kit : TestKit} {row : Nat → List UInt8} {floats : Floats} {shown : List (Nat × Pipeline.FrameResult ℚ)}
  {rt : Runtime}

theorem main_agrees (stores : Stores setup kit row) (fromRun : FromRun setup kit row shown) (carries : ∀ one ∈ shown, Carries floats one.2)
    (truth : kit.hasGroundTruth = true) (held : kit.hasReference = true) (named : 0 < kit.labels.length)
    (read : readDump rt text = .ok (recordsOf floats shown)) (some_ : recordsOf floats shown ≠ []) (path : String) (maxBoxes : Option Int) :
    ∃ report, main rt floats kit path text maxBoxes (setup.request.thresh setup.meta_) = .ok report ∧ report.identical = some true ∧
      report.frames = (samplesOf (recordsOf floats shown)).length := by
  have filled : readDumpFilled rt path text = .ok (recordsOf floats shown) := by
    unfold readDumpFilled
    rw [read,ok_bind,if_neg (by simpa using some_)]
    rfl
  have inside : ((samplesOf (recordsOf floats shown)).any fun sample => decide (kit.count ≤ sample)) = false := by
    rw [List.any_eq_false]
    intro sample member
    obtain ⟨one,place,rfl⟩ := mem_samplesOf.mp member
    obtain ⟨i,below,_⟩ := fromRun.each one place
    simpa using below
  obtain ⟨frames,fleet,reference⟩ := rows_agree stores fromRun carries truth held
    (if maxBoxes.getD 0 = 0 then kit.maxBoxes else maxBoxes.getD 0)
  unfold main
  rw [filled,ok_bind]
  dsimp only
  rw [truth,inside]
  simp only [Bool.not_true,Bool.false_eq_true,if_false,fleet,ok_bind,reference]
  exact ⟨_,rfl,congrArg some (verdict_same named frames),rfl⟩

end

section
variable {setup : ShardSystem.Setup} {sys : ShardSystem.Sys} {kit : TestKit} {row : Nat → List UInt8} {floats : Floats}

theorem dump_shown (small : setup.meta_.numClasses ≤ 2^24)
    (path : Runs.Reached (ShardSystem.step setup) (fun _ _ => True) (setup.start disk) sys) (reads : Reads setup kit row)
    (faithful : ∀ i < setup.count, ∀ result, setup.Yields i result → Carries floats result) :
    ∃ shown : List (Nat × Pipeline.FrameResult ℚ), dumpText floats sys.client.dump = textOf floats shown ∧
      FromRun setup kit row shown ∧ ∀ one ∈ shown, Carries floats one.2 := by
  have along : ShardSystem.Along false setup sys := ShardSystem.reached_along small (path.weaken fun _ _ _ given => by cases given)
  obtain ⟨results,_,each,dump⟩ := along.dumped
  refine ⟨results.map fun shown => ((setup.frame shown.1).1,shown.2),?_,⟨fun one member => ?_⟩,fun one member => ?_⟩
  · rw [dump,textOf,List.map_map]
    rfl
  · obtain ⟨⟨i,result⟩,inside,rfl⟩ := List.mem_map.mp member
    obtain ⟨below,yields⟩ := each _ inside
    obtain ⟨sample,within,frame⟩ := reads i below
    exact ⟨i,by rw [frame]; exact within,by rw [frame],yields.1⟩
  · obtain ⟨⟨i,result⟩,inside,rfl⟩ := List.mem_map.mp member
    obtain ⟨below,yields⟩ := each _ inside
    exact faithful i below result yields

theorem FromRun.early {shown : List (Nat × Pipeline.FrameResult ℚ)} (fromRun : FromRun setup kit row shown) (early : few <+: shown) :
    FromRun setup kit row few := ⟨fun one member => fromRun.each one (early.subset member)⟩

theorem stored_serves {frames : Strided.NdArray UInt8} {side : SampleSets.Sidecar} (axes : frames.shape = available :: rest) (filled : 0 < available)
    (described : SampleSets.Describes models side available rest.prod) (out : SampleSets.Samples) (set : String) (requested : Int)
    (ordered : Bool) (randbelow : Nat → Nat) (getrandbits : Nat → UInt8) :
    SampleSets.Serves frames available requested ordered
      (SampleSets.framePool (out.store set (SampleSets.written frames available) side) set side.perSampleBytes requested ordered
        randbelow getrandbits).read := by
  have pool : SampleSets.framePool (out.store set (SampleSets.written frames available) side) set side.perSampleBytes requested ordered
      randbelow getrandbits = SampleSets.prepared set side (SampleSets.written frames available) rest.prod requested ordered randbelow := by
    have held : (out.store set (SampleSets.written frames available) side).side set = some side := if_pos rfl
    have stored : (out.store set (SampleSets.written frames available) side).bin set = some (SampleSets.written frames available) := if_pos rfl
    unfold SampleSets.framePool
    rw [held,stored,← described.bytes]
    exact if_pos ⟨rfl,by rw [described.counted]; omega⟩
  rw [pool]
  exact SampleSets.prepared_serves axes filled set side described.counted requested ordered randbelow

theorem reads_prepared {npz : SampleSets.Npz} {set : String} (axes : npz.frames.shape = available :: rest) (filled : 0 < available)
    (accepted : SampleSets.convert npz model set models out = .ok out') (side : out'.side set = some sidecar)
    (requested : Int) (ordered : Bool) (randbelow : Nat → Nat) (getrandbits : Nat → UInt8)
    (frames : ∀ i, setup.frame i =
      ((SampleSets.framePool out' set sidecar.perSampleBytes requested ordered randbelow getrandbits).read i).getD (0,[]))
    (whole : kit.count = available) : Reads setup kit npz.frames.row ∧
      ∀ i j : Nat, (i : Int) < min (available : Int) requested → (j : Int) < min (available : Int) requested →
        (setup.frame i).1 = (setup.frame j).1 → i = j := by
  obtain ⟨other,rfl,described⟩ := SampleSets.convert_stores axes accepted
  have held : (out.store set (SampleSets.written npz.frames available) other).side set = some other := if_pos rfl
  cases side.symm.trans held
  have served := stored_serves axes filled described out set requested ordered randbelow getrandbits
  refine ⟨fun i _ => ?_,fun i j first second same => ?_⟩
  · obtain ⟨sample,inside,read⟩ := served.rows i
    exact ⟨sample,whole ▸ inside,by rw [frames,read]; rfl⟩
  · obtain ⟨s,_,readS⟩ := served.rows i
    obtain ⟨t,_,readT⟩ := served.rows j
    rw [frames,frames,readS,readT] at same
    apply served.distinct i j first second
    rw [readS,readT]
    exact congrArg some same

-- From the array to the verdict: whatever happened in the run and wherever the
-- dump stops, what can be read of it scores as the kit's own detections do.
theorem fleet_reference {npz : SampleSets.Npz} {set : String} (axes : npz.frames.shape = available :: rest) (filled : 0 < available)
    (accepted : SampleSets.convert npz model set models out = .ok out') (side : out'.side set = some sidecar)
    (requested : Int) (ordered : Bool) (randbelow : Nat → Nat) (getrandbits : Nat → UInt8)
    (frames : ∀ i, setup.frame i =
      ((SampleSets.framePool out' set sidecar.perSampleBytes requested ordered randbelow getrandbits).read i).getD (0,[]))
    (whole : kit.count = available) (truth : kit.hasGroundTruth = true) (held : kit.hasReference = true) (named : 0 < kit.labels.length)
    (stores : Stores setup kit npz.frames.row) (small : setup.meta_.numClasses ≤ 2^24)
    (faithful : ∀ i < setup.count, ∀ result, setup.Yields i result → Carries floats result)
    (path : Runs.Reached (ShardSystem.step setup) (fun _ _ => True) (setup.start disk) sys)
    (cut : text ++ more = dumpText floats sys.client.dump) (rt : Runtime) :
    (more = [] → ∃ records, readDump rt text = .ok records) ∧ ∀ records, readDump rt text = .ok records →
      (∃ accuracy, score floats kit records kit.maxBoxes (setup.request.thresh setup.meta_) = .ok accuracy ∧
        accuracy.reference = some accuracy.fleet) ∧
      (records ≠ [] → ∀ file maxBoxes, ∃ report, main rt floats kit file text maxBoxes (setup.request.thresh setup.meta_) = .ok report ∧
        report.identical = some true) := by
  obtain ⟨reads,_⟩ := reads_prepared axes filled accepted side requested ordered randbelow getrandbits frames whole
  obtain ⟨shown,dump,fromRun,carries⟩ := dump_shown small path reads faithful
  rw [dump] at cut
  refine ⟨fun complete => ?_,fun records read => ?_⟩
  · rw [complete,List.append_nil] at cut
    rw [cut]
    exact ⟨_,readDump_text carries⟩
  · obtain ⟨early,part,rfl⟩ := readDump_cut carries cut read
    have fewer : ∀ one ∈ early, Carries floats one.2 := fun one member => carries one (part.subset member)
    obtain ⟨accuracy,scored,same,_⟩ := score_agrees stores (fromRun.early part) fewer truth held kit.maxBoxes
    refine ⟨⟨accuracy,scored,same⟩,fun some_ file maxBoxes => ?_⟩
    obtain ⟨report,ran,identical,_⟩ := main_agrees stores (fromRun.early part) fewer truth held named read some_ file maxBoxes
    exact ⟨report,ran,identical⟩

theorem recordsOf_keys (floats : Floats) {shown : List (Nat × Pipeline.FrameResult ℚ)} (distinct : (shown.map (·.1)).Nodup) :
    (recordsOf floats shown).map (·.1) = shown.map fun one => (one.1 : Int) := by
  induction shown using List.reverseRecOn with
  | nil => rfl
  | append_singleton shown last ih =>
    rw [List.map_append,List.nodup_append] at distinct
    obtain ⟨before,_,apart⟩ := distinct
    have step : recordsOf floats (shown ++ [last]) =
        Assoc.alter (last.1 : Int) (fun _ => .obj (lineOf floats last)) (recordsOf floats shown) := by
      rw [recordsOf,List.foldl_append]
      rfl
    have fresh : (last.1 : Int) ∉ shown.map fun one => (one.1 : Int) := by
      intro member
      obtain ⟨one,inside,same⟩ := List.mem_map.mp member
      exact apart _ (List.mem_map_of_mem inside) _ List.mem_cons_self (Int.ofNat.inj same)
    rw [step,Assoc.keys_alter,ih before,if_neg fresh,List.map_append]
    rfl

theorem samplesOf_length (floats : Floats) {shown : List (Nat × Pipeline.FrameResult ℚ)} (distinct : (shown.map (·.1)).Nodup) :
    (samplesOf (recordsOf floats shown)).length = shown.length := by
  rw [samplesOf,List.length_insertionSort,List.length_map]
  simpa using congrArg List.length (recordsOf_keys floats distinct)

-- The published targets stand beside an undisturbed run of the whole set when
-- every frame had a result; the dashboard also asks that nothing was gated.
theorem targets_shown {npz : SampleSets.Npz} {set : String} (axes : npz.frames.shape = available :: rest) (filled : 0 < available)
    (accepted : SampleSets.convert npz model set models out = .ok out') (side : out'.side set = some sidecar)
    (ordered : Bool) (randbelow : Nat → Nat) (getrandbits : Nat → UInt8)
    (frames : ∀ i, setup.frame i =
      ((SampleSets.framePool out' set sidecar.perSampleBytes setup.count ordered randbelow getrandbits).read i).getD (0,[]))
    (whole : kit.count = available) (truth : kit.hasGroundTruth = true) (held : kit.hasReference = true) (named : 0 < kit.labels.length)
    (stores : Stores setup kit npz.frames.row) (small : setup.meta_.numClasses ≤ 2^24)
    (faithful : ∀ i < setup.count, ∀ result, setup.Yields i result → Carries floats result) (asked : setup.count ≤ available)
    (dumps : setup.dumps = true)
    (path : Runs.Reached (ShardSystem.step setup) (fun _ action => action.calm) (setup.start disk) sys)
    (ended : setup.count ≤ sys.client.totals.imgDone) (rt : Runtime) :
    ∃ records accuracy, readDump rt (dumpText floats sys.client.dump) = .ok records ∧
      score floats kit records kit.maxBoxes (setup.request.thresh setup.meta_) = .ok accuracy ∧
      accuracy.targets = (if (ShardClient.result sys.client).imagesDone = available ∧ setup.request.thresh setup.meta_ ≤ 0 then kit.targets
        else none) ∧
      (0 < (ShardClient.result sys.client).imagesDone → ∀ file maxBoxes, ∃ report,
        main rt floats kit file (dumpText floats sys.client.dump) maxBoxes (setup.request.thresh setup.meta_) = .ok report ∧
        report.frames = (ShardClient.result sys.client).imagesDone) := by
  obtain ⟨reads,distinct⟩ := reads_prepared axes filled accepted side setup.count ordered randbelow getrandbits frames whole
  have along : ShardSystem.Along true setup sys := ShardSystem.reached_along small (path.weaken fun _ _ calm _ => ShardSystem.calm_keeps calm)
  obtain ⟨results,once,each,done,_,_,_,dump⟩ := along.completed small (ShardSystem.reached_faults small path) ended
  have text : dumpText floats sys.client.dump = textOf floats (results.map fun shown => ((setup.frame shown.1).1,shown.2)) := by
    rw [dump dumps,textOf,List.map_map]
    rfl
  have fromRun : FromRun setup kit npz.frames.row (results.map fun shown => ((setup.frame shown.1).1,shown.2)) := by
    refine ⟨fun one member => ?_⟩
    obtain ⟨⟨i,result⟩,inside,rfl⟩ := List.mem_map.mp member
    obtain ⟨below,yields⟩ := (each i result).mp inside
    obtain ⟨sample,within,frame⟩ := reads i below
    exact ⟨i,by rw [frame]; exact within,by rw [frame],yields.1⟩
  have carries : ∀ one ∈ results.map fun shown => ((setup.frame shown.1).1,shown.2), Carries floats one.2 := by
    intro one member
    obtain ⟨⟨i,result⟩,inside,rfl⟩ := List.mem_map.mp member
    obtain ⟨below,yields⟩ := (each i result).mp inside
    exact faithful i below result yields
  have samples : ((results.map fun shown => ((setup.frame shown.1).1,shown.2)).map (·.1)).Nodup := by
    rw [List.map_map]
    refine List.Nodup.map_on (fun a first b second same => ?_) (List.Nodup.of_map _ once)
    have i := ((each a.1 a.2).mp first).1
    have j := ((each b.1 b.2).mp second).1
    exact List.inj_on_of_nodup_map once first second (distinct a.1 b.1 (by omega) (by omega) same)
  have size := samplesOf_length floats samples
  rw [List.length_map,← done] at size
  have read : readDump rt (dumpText floats sys.client.dump) = .ok (recordsOf floats (results.map fun shown => ((setup.frame shown.1).1,shown.2))) := by
    rw [text,readDump_text carries]
  obtain ⟨accuracy,scored,_,targets⟩ := score_agrees stores fromRun carries truth held kit.maxBoxes
  refine ⟨_,accuracy,read,scored,?_,fun positive file maxBoxes => ?_⟩
  · rw [targets,size,whole]
  · have some_ : recordsOf floats (results.map fun shown => ((setup.frame shown.1).1,shown.2)) ≠ [] := by
      intro nothing
      rw [nothing] at size
      rw [← size] at positive
      exact Nat.lt_irrefl 0 positive
    obtain ⟨report,ran,_,counted⟩ := main_agrees stores fromRun carries truth held named read some_ file maxBoxes
    exact ⟨report,ran,counted.trans size⟩

end

-- Two frames of five tiles with the ground truth of what is detected in them.
def blackNpz : SampleSets.Npz := ⟨Strided.fOrder [2,2,2,3] (List.replicate 24 0),true,false,"/data/black.npz"⟩

def blackModels : SampleSets.Models := ⟨"models",[("person",⟨some [2,2,3],some [1,1,3],none,none⟩)]⟩

def blackSide : SampleSets.Sidecar where
  set := "black"
  model := "person"
  count := 2
  perSampleBytes := 12
  inputShape := [2,2,3]
  numClasses := none
  classNames := none
  sourceNpz := "/data/black.npz"
  hasGroundTruth := true
  random := false

def blackSet : SampleSets.Samples :=
  SampleSets.Samples.store ⟨fun _ => none,fun _ => none⟩ "black" (SampleSets.written blackNpz.frames 2) blackSide

def blackSetup : ShardSystem.Setup :=
  {ShardSystem.twoSetup true with
    frame := fun i => ((SampleSets.framePool blackSet "black" 12 2 true (fun _ => 0) (fun _ => 0)).read i).getD (0,[])}

def blackKit : TestKit where
  path := "/data/black.npz"
  count := 2
  labels := ["person"]
  rawShapes := [(2,2),(2,2)]
  map50Target := 1
  map75Target := 1
  mapTarget := 1
  maxBoxes := 100
  groundTruth := some ⟨[0,1,2],[⟨0,0,2,2⟩,⟨0,0,1,2⟩],[0,0],rfl⟩
  stored := some ⟨⟨[0,1,2],[⟨0,0,1,1⟩,⟨0,0,1,1⟩],[0,0],rfl⟩,[1/2,1/2],rfl⟩

-- The reprs of the floats in its results.
def halves : Floats where
  repr x := if x = 0 then "0.0" else if x = 1 then "1.0" else "0.5"
  float text := if text = "0.0" then 0 else if text = "1.0" then 1 else 1/2

-- The first record of a dump, the newline not yet on disk.
def firstLine (text : List Char) : List Char := text.takeWhile (· != '\n')

theorem black_run : ∃ sys, Runs.Reached (ShardSystem.step blackSetup) (fun _ action => action.calm)
    (blackSetup.start ShardSystem.emptyDisk) sys ∧ 2 ≤ sys.client.totals.imgDone ∧ (ShardClient.result sys.client).imagesDone = 2 ∧
    (readDump bytewise (firstLine (dumpText halves sys.client.dump))).toOption.map (·.map (·.1)) = some [1] := by
  obtain ⟨sys,path,ended⟩ := Runs.run_witness (ShardSystem.step blackSetup) (fun _ action => action.calm)
    (blackSetup.start ShardSystem.emptyDisk) (fun _ action => action.calm)
    (fun sys => decide (2 ≤ sys.client.totals.imgDone) && decide ((ShardClient.result sys.client).imagesDone = 2) &&
      decide ((readDump bytewise (firstLine (dumpText halves sys.client.dump))).toOption.map (·.map (·.1)) = some [1]))
    ShardSystem.wholeRun (by decide +kernel) fun _ _ _ calm => calm
  simp only [Bool.and_eq_true,decide_eq_true_eq] at ended
  exact ⟨sys,path,ended.1.1,ended.1.2,ended.2⟩

theorem black_stores : Stores blackSetup blackKit blackNpz.frames.row := by
  intro sample inside frame merged shaped process
  have stored : sample = 0 ∨ sample = 1 := by
    have bound : sample < 2 := inside
    omega
  have whole : ((orRaise .numpyValueError (Arrays.unravel blackSetup.meta_.frameSize blackSetup.meta_.frameSize 3
      (blackNpz.frames.row sample)) >>= fun frame => Pipeline.inProcess blackSetup.np blackSetup.meta_ blackSetup.predict frame
        (blackSetup.request.cap blackSetup.meta_)).map fun merged => (merged.boxes,merged.scores,merged.labels)).toOption =
      some ([⟨0,0,1,1⟩],[1/2],[0]) := by rcases stored with rfl | rfl <;> decide +kernel
  have run := toOption_ok whole
  rw [shaped,ok_bind,process] at run
  obtain ⟨boxes,rest⟩ := Prod.mk.inj (Except.ok.inj run)
  obtain ⟨scores,labels⟩ := Prod.mk.inj rest
  rcases stored with rfl | rfl
  · exact ⟨boxes.symm,scores.symm,labels.symm⟩
  · exact ⟨boxes.symm,scores.symm,labels.symm⟩

theorem black_carries (i : Nat) (result : Pipeline.FrameResult ℚ) (below : i < 2) (yields : blackSetup.Yields i result) :
    Carries halves result := by
  have whole : ∀ i < 2, (blackSetup.reference i).toOption = some ⟨[⟨0,0,1,1⟩],[1/2],[0],[false]⟩ := by decide +kernel
  cases (toOption_ok (whole i below)).symm.trans yields.1
  have each : ∀ x : ℚ, x = 0 ∨ x = 1 ∨ x = 1/2 → halves.Faithful x := by
    intro x given
    rcases given with rfl | rfl | rfl
    · exact ⟨by decide +kernel,by decide +kernel⟩
    · exact ⟨by decide +kernel,by decide +kernel⟩
    · exact ⟨by decide +kernel,by decide +kernel⟩
  constructor
  · intro box member x inside
    rw [List.mem_singleton.mp member] at inside
    apply each
    simp only [List.mem_cons,List.not_mem_nil,or_false] at inside
    rcases inside with rfl | rfl | rfl | rfl <;> simp
  · intro score member
    rw [List.mem_singleton.mp member]
    exact each _ (.inr (.inr rfl))

theorem black_converted :
    SampleSets.convert blackNpz (some "person") "black" blackModels ⟨fun _ => none,fun _ => none⟩ = .ok blackSet := rfl

theorem fleet_reference_black : ∃ sys : ShardSystem.Sys, ∃ records,
    readDump bytewise (firstLine (dumpText halves sys.client.dump)) = .ok records ∧ records.map (·.1) = [1] ∧
    (∃ accuracy, score halves blackKit records 100 0 = .ok accuracy ∧ accuracy.reference = some accuracy.fleet) ∧
    ∃ report, main bytewise halves blackKit "dump.jsonl" (firstLine (dumpText halves sys.client.dump)) none 0 = .ok report ∧
      report.identical = some true := by
  obtain ⟨sys,path,_,_,cut⟩ := black_run
  obtain ⟨records,read,keys⟩ := Option.map_eq_some_iff.mp cut
  have read := toOption_ok read
  obtain ⟨_,scores⟩ := fleet_reference (show blackNpz.frames.shape = [2,2,2,3] from rfl) (by decide) black_converted
    (show blackSet.side "black" = some blackSide from rfl) 2 true (fun _ => 0) (fun _ => 0) (show ∀ i, blackSetup.frame i = _ from fun _ => rfl)
    (show blackKit.count = 2 from rfl) rfl rfl (by decide) black_stores (show blackSetup.meta_.numClasses ≤ 2^24 by decide)
    (fun i below result yields => black_carries i result below yields) (path.weaken fun _ _ _ => trivial)
    (List.takeWhile_append_dropWhile : firstLine (dumpText halves sys.client.dump) ++ _ = _) bytewise
  obtain ⟨accuracy,reports⟩ := scores records read
  have some_ : records ≠ [] := by
    intro nothing
    rw [nothing] at keys
    cases keys
  exact ⟨sys,records,read,keys,accuracy,reports some_ "dump.jsonl" none⟩

theorem targets_shown_black : ∃ sys : ShardSystem.Sys, (ShardClient.result sys.client).imagesDone = 2 ∧
    ∃ records accuracy, readDump bytewise (dumpText halves sys.client.dump) = .ok records ∧
      score halves blackKit records 100 0 = .ok accuracy ∧ accuracy.targets = blackKit.targets := by
  obtain ⟨sys,path,ended,frames,_⟩ := black_run
  obtain ⟨records,accuracy,read,scored,targets,_⟩ := targets_shown (show blackNpz.frames.shape = [2,2,2,3] from rfl) (by decide)
    black_converted (show blackSet.side "black" = some blackSide from rfl) true (fun _ => 0) (fun _ => 0)
    (show ∀ i, blackSetup.frame i = _ from fun _ => rfl) (show blackKit.count = 2 from rfl) rfl rfl (by decide) black_stores
    (show blackSetup.meta_.numClasses ≤ 2^24 by decide) (fun i below result yields => black_carries i result below yields)
    (show blackSetup.count ≤ 2 by decide) rfl path ended bytewise
  exact ⟨sys,frames,records,accuracy,read,scored,targets.trans (if_pos ⟨frames,le_refl _⟩)⟩

end SymphonyAkida.ScoreDump
