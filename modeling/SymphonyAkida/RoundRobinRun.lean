import SymphonyAkida.RoundRobinSpec
import SymphonyAkida.ScanData

namespace SymphonyAkida.RoundRobin
open Json Bytes ShardWire AkidaChip HttpServer Jobs Locks
open BatchWorker (Prediction Tensor)
open SampleSets (Samples readAt)
open BatchClient (counts countOf counts_texts counts_total sameText)

section
variable {services : String → Service} {same : Value → Value → Bool} {net : Net} {nodes : List String}

theorem healthBody_plain (service : Service) (stem : Option String) (onChip : Bool) (mapError : Option String) :
    (Value.obj (healthBody service stem onChip mapError)).plain = true := by
  unfold healthBody
  cases service.chipNode <;> cases stem <;> cases mapError <;> cases service.attached <;> simp [Value.plain,plainMembers]

theorem health_answered (service : Service) (exchange : Exchange) (fields : Fields) :
    ∃ value, receive ((handle service (healthRequest exchange)).program.alone fields).2 = .ok value := by
  have asked : (handle service (healthRequest exchange)).program = health service := rfl
  rw [asked]
  unfold health
  cases service.attached with
  | true => exact ⟨_,receive_ok (healthBody_plain ..)⟩
  | false => exact ⟨_,receive_ok (healthBody_plain ..)⟩

variable (services) in
theorem send_health (fleet : Fleet) (url : String) (exchange : Exchange) :
    (send services fleet url exchange (healthRequest exchange)).2.isOk = exchange.fault.isNone := by
  unfold send
  dsimp only
  cases exchange.fault with
  | none =>
    obtain ⟨value,answered⟩ := health_answered (services url) exchange (run (services url).node (fleet url) exchange.others)
    dsimp only
    rw [answered]
    rfl
  | some failed =>
    obtain ⟨text,served⟩ := failed
    cases served <;> rfl

-- The nodes whose health came back, in their order.
variable (services net) in
theorem liveClients_nodes (i : Nat) (fleet : Fleet) (nodes : List String) :
    (liveClients services net i fleet nodes).2 =
      ((nodes.zipIdx i).filter fun node => (net.health node.2).fault.isNone).map Prod.fst := by
  induction nodes generalizing i fleet with
  | nil => rfl
  | cons url rest ih =>
    unfold liveClients
    generalize sent : send services fleet url (net.health i) (healthRequest (net.health i)) = reply
    obtain ⟨after,answer⟩ := reply
    dsimp only
    rw [ih,List.zipIdx_cons]
    have alive : answer.isOk = (net.health i).fault.isNone := by
      rw [← send_health services fleet url,sent]
    rw [alive,List.filter_cons]
    cases (net.health i).fault.isNone <;> simp

-- live_clients()
def liveNodes (net : Net) (nodes : List String) : List String :=
  (nodes.zipIdx.filter fun node => (net.health node.2).fault.isNone).map Prod.fst

structure Parts (services : String → Service) (same : Value → Value → Bool) (net : Net) (nodes : List String)
    (side : SampleSets.Sidecar) (bin : List UInt8) (limit : Int) (fleet : Fleet) (run : Ran) (tally : Tally) : Prop where
  live : liveNodes net nodes ≠ []
  used : run.nodesUsed = (liveNodes net nodes).length
  model : run.model = side.model
  errors : run.loadErrors = (loadAll services net side.model 0 (liveClients services net 0 fleet nodes).1 (liveNodes net nodes)).2
  through : Through services same net side.perSampleBytes (bin.take (rowCount side limit*side.perSampleBytes)) (liveNodes net nodes)
    (loadAll services net side.model 0 (liveClients services net 0 fleet nodes).1 (liveNodes net nodes)).1 (rowCount side limit) tally
  rows : run.rows = tally.rows
  histogram : run.histogram = tally.hist

theorem runSamples_parts {samples : Samples} {set : String} {side : SampleSets.Sidecar} {limit : Int} {fleet : Fleet} {run : Ran}
    (held : samples.side set = some side) (named : side.set = set) (stored : samples.bin set = some bin)
    (ran : runSamples services same net nodes samples limit (set ++ ".samples.json") fleet = .ran run) :
    ∃ tally, Parts services same net nodes side bin limit fleet run tally := by
  unfold runSamples at ran
  rw [sideFile_set,held] at ran
  dsimp only at ran
  rw [setName_set named,stored] at ran
  dsimp only at ran
  have live := liveClients_nodes services net 0 fleet nodes
  rw [live] at ran
  by_cases none_ : liveNodes net nodes = []
  · rw [liveNodes] at none_
    rw [if_pos none_] at ran
    cases ran
  · obtain ⟨tally,whole,through⟩ := inferAll_through services same net side.perSampleBytes
      (bin.take (rowCount side limit*side.perSampleBytes)) none_
      (loadAll services net side.model 0 (liveClients services net 0 fleet nodes).1 (liveNodes net nodes)).1 (rowCount side limit)
    rw [liveNodes] at none_ whole
    rw [if_neg none_,whole] at ran
    cases ran
    exact ⟨tally,none_,rfl,rfl,rfl,through,rfl,rfl⟩

-- Unless no node is live, a prepared set is run: nothing in the loop raises.
variable (services same) in
theorem runSamples_runs {samples : Samples} {set : String} {side : SampleSets.Sidecar} (limit : Int) (fleet : Fleet)
    (held : samples.side set = some side) (named : side.set = set) (stored : samples.bin set = some bin)
    (live : liveNodes net nodes ≠ []) :
    ∃ run, runSamples services same net nodes samples limit (set ++ ".samples.json") fleet = .ran run := by
  unfold runSamples
  rw [sideFile_set,held]
  dsimp only
  rw [setName_set named,stored]
  dsimp only
  have found := liveClients_nodes services net 0 fleet nodes
  obtain ⟨tally,whole,_⟩ := inferAll_through services same net side.perSampleBytes
    (bin.take (rowCount side limit*side.perSampleBytes)) live
    (loadAll services net side.model 0 (liveClients services net 0 fleet nodes).1 (liveNodes net nodes)).1 (rowCount side limit)
  rw [liveNodes] at live whole
  rw [found,if_neg live,whole]
  exact ⟨_,rfl⟩

-- Two nodes and one model of two classes, over a set of three samples.
def yardModel : Model := ⟨[2],[2],fun data => .ok (data.map fun byte => byte.toNat)⟩

def yardWorld : World := {bench with
  isfile := fun path => path == "/models/pairs.fbz".toList
  jsonLoad := fun _ => .error ⟨"JSONDecodeError","Expecting value: line 1 column 1 (char 0)"⟩
  model := fun _ => .ok yardModel}

def yard (url : String) : Service := if url = "http://localhost:8791" then {benchService with chipNode := some "akida0"} else benchService

def yardNodes : List String := ["http://localhost:8790","http://localhost:8791"]

def yardExchange : Exchange := ⟨[],yardWorld,⟨.ok none,fun _ => .ok none,fun _ => .ok .null⟩,none⟩

def yardNet : Net := ⟨fun _ => yardExchange,fun _ => yardExchange,fun _ => yardExchange⟩

def yardNpz : SampleSets.Npz := ⟨Strided.fOrder [3,2] [1,9,5,2,4,6],false,false,"/data/swaps.npz"⟩

def yardSamples : Samples :=
  match SampleSets.convert yardNpz none "swaps" SampleSets.pairs ⟨fun _ => none,fun _ => none⟩ with
  | .ok samples => samples
  | .error _ => ⟨fun _ => none,fun _ => none⟩

theorem bench_asarray (vals : List UInt8) : bench.asarray (ints vals) = .ok vals := by
  show (vals.map fun byte => Value.int byte.toNat).mapM uint8 = .ok vals
  rw [Outcome.mapM_ok]
  induction vals with
  | nil => exact .nil
  | cons byte rest ih =>
    refine .cons ?_ ih
    have small := byte.toNat_lt
    rw [uint8,if_pos (by omega),Int.toNat_natCast,UInt8.ofNat_toNat]

theorem yard_accepted : SampleSets.convert yardNpz none "swaps" SampleSets.pairs ⟨fun _ => none,fun _ => none⟩ = .ok yardSamples := rfl

theorem yard_axes : yardNpz.frames.shape = [3,2] := rfl

theorem yard_node (url : String) : (yard url).node = shelfNode := by
  unfold yard
  split <;> rfl

theorem yard_classes (path : List Char) (n : Nat) : classes shelfNode yardWorld path n = .ok ((List.range n).map toString) := by
  have unread : ∀ file, yardWorld.sidecar file = .missing ∨ yardWorld.sidecar file = .unreadable := by
    intro file
    unfold World.sidecar
    split
    · exact .inr rfl
    · exact .inl rfl
  have skipped : ∀ suffixes, classesIn shelfNode n (yardWorld.sidecars path suffixes) = .ok ((List.range n).map toString) := by
    intro suffixes
    induction suffixes with
    | nil => rfl
    | cons suffix rest ih =>
      unfold World.sidecars at ih ⊢
      rw [List.map_cons]
      rcases unread (path.take (path.length-4) ++ suffix.toList) with same | same
      · rw [same]
        exact ih
      · rw [same]
        exact ih
  exact skipped classSuffixes

theorem yard_loads (p : Nat) (url : String) : Loads (yard url) (yardNet.load p) "pairs" := by
  have attached : (yard url).attached = true := by
    unfold yard
    split <;> rfl
  refine ⟨attached,rfl,by decide,"/models/pairs.fbz".toList,yardModel,"AllNps",["0","1"],?_,?_⟩
  · rw [yard_node]
    exact ⟨rfl,show yardWorld.isfile "/models/pairs.fbz".toList = true by decide,rfl,rfl,.inl rfl⟩
  · rw [yard_node]
    exact yard_classes _ _

theorem yard_run : ∃ run, runSamples yard sameText yardNet yardNodes yardSamples 200 ("swaps" ++ ".samples.json") (fun _ => .fresh) = .ran run ∧
    run.model = "pairs" ∧ run.rows.length = 3 ∧ run.loadErrors = [] := by
  obtain ⟨side,held,named⟩ := (ScanData.convert_named yard_accepted).2
  have stored : yardSamples.bin "swaps" = some [1,2,9,4,5,6] := by decide
  have live : liveNodes yardNet yardNodes = yardNodes := rfl
  obtain ⟨run,ran⟩ := runSamples_runs yard sameText 200 (fun _ => .fresh) held named stored
    (show liveNodes yardNet yardNodes ≠ [] by rw [live]; decide)
  obtain ⟨tally,parts⟩ := runSamples_parts held named stored ran
  have found : yardSamples.side "swaps" = some ⟨"swaps","pairs",3,2,[2],none,none,"/data/swaps.npz",false,false⟩ := by rfl
  cases found.symm.trans held
  refine ⟨run,ran,parts.model,?_,?_⟩
  · rw [parts.rows,parts.through.length]
    decide
  · rw [parts.errors]
    exact loadAll_fine (fun p url _ => yard_loads p url) _ _

section
variable {npz : SampleSets.Npz} {metas : SampleSets.Models} {samples out : Samples} {set : String} {limit : Int} {fleet : Fleet} {run : Ran}
  (axes : npz.frames.shape = count :: rest) (accepted : SampleSets.convert npz model set metas out = .ok samples)
include axes accepted

theorem prepared_parts (ran : runSamples services same net nodes samples limit (set ++ ".samples.json") fleet = .ran run) :
    ∃ side bin tally, Parts services same net nodes side bin limit fleet run tally ∧ side.perSampleBytes = rest.prod ∧
      rowCount side limit = (min (count : Int) limit).toNat ∧
      ∀ i, i < rowCount side limit → readAt (bin.take (rowCount side limit*side.perSampleBytes)) (i*side.perSampleBytes)
        side.perSampleBytes = npz.frames.row i := by
  obtain ⟨other,found,own⟩ := (ScanData.convert_named accepted).2
  obtain ⟨side,written,described⟩ := SampleSets.convert_stores axes accepted
  have held : samples.side set = some side := by rw [written]; exact if_pos rfl
  have stored : samples.bin set = some (SampleSets.written npz.frames count) := by rw [written]; exact if_pos rfl
  obtain rfl : side = other := Option.some.inj (held.symm.trans found)
  obtain ⟨tally,parts⟩ := runSamples_parts held own stored ran
  have counted : rowCount side limit = (min (count : Int) limit).toNat := by rw [rowCount,described.counted]
  refine ⟨side,_,tally,parts,described.bytes,counted,fun i below => ?_⟩
  rw [readAt_take _ _ _ _ below,described.bytes]
  exact SampleSets.readAt_row axes (by omega)

-- Row i is the answer of the live node i mod their number to frame i of the
-- array; where that node took the load, it is the class its model gives the
-- frame, on-chip exactly where the load mapped it.
theorem run_rows (numpy : ∀ i vals, (net.infer i).world.asarray (ints vals) = .ok vals)
    (quiet : ∀ i url, Quiet services url (net.infer i))
    (ran : runSamples services same net nodes samples limit (set ++ ".samples.json") fleet = .ran run) :
    run.nodesUsed = (liveNodes net nodes).length ∧ run.rows.length = (min (count : Int) limit).toNat ∧
    ∀ i, i < run.rows.length → ∃ url, (liveNodes net nodes)[i%run.nodesUsed]? = some url ∧
      (∀ text served, (net.infer i).fault = some (text,served) → run.rows[i]? = some (.failed i url text)) ∧
      ((net.infer i).fault = none → url ∉ run.loadErrors.map Prod.fst → ∃ p path m mode names,
        (liveNodes net nodes)[p]? = some url ∧ Opens (services url).node (net.load p).world (.str run.model) true path m mode ∧
        classes (services url).node (net.load p).world path m.outputShape.prod = .ok names ∧
        ∀ cls, rest.prod = m.inputShape.prod → (m.forward (npz.frames.row i) >>= fun logits => argmax logits) = .ok cls →
          run.rows[i]? = some (told i (services url).node ((net.load p).world.map m mode).isOk
            (prediction (services url).node path names cls (net.infer i).world.elapsedUs))) := by
  obtain ⟨side,bin,tally,parts,bytes,counted,reads⟩ := prepared_parts axes accepted ran
  have length : run.rows.length = rowCount side limit := by rw [parts.rows,parts.through.length]
  refine ⟨parts.used,length.trans counted,fun i below => ?_⟩
  rw [length] at below
  obtain ⟨url,seen,node,row,_,steady⟩ := parts.through.rows i below
  rw [reads i below,steady quiet,← parts.rows] at row
  refine ⟨url,parts.used ▸ node,?_,?_⟩
  · intro text served fault
    rw [row,rowAt,fault]
  · intro delivered fine
    have member := List.mem_of_getElem? node
    rw [parts.errors] at fine
    obtain ⟨p,place,attached,path,m,mode,names,together,mapped⟩ := (loadAll_loads net side.model 0 _ _).2 url member fine
    rw [Nat.zero_add] at together
    rw [parts.model]
    refine ⟨p,path,m,mode,names,place,together.opens,together.read,fun cls sized forward => ?_⟩
    have long : (npz.frames.row i).length = m.inputShape.prod := by rw [Strided.row_length,axes,List.tail_cons,sized]
    have inferred := infer_together together mapped (numpy i (npz.frames.row i)) long forward
    rw [row,rowAt,delivered,inferAnswer,attached,inferred,together_onChip together]
    rfl

omit axes accepted in
theorem run_rows_yard : ∃ run,
    runSamples yard sameText yardNet yardNodes yardSamples 200 ("swaps" ++ ".samples.json") (fun _ => .fresh) = .ran run ∧
    ∀ i, i < run.rows.length → ∃ url, (liveNodes yardNet yardNodes)[i%run.nodesUsed]? = some url ∧ ∃ p path m mode names,
      (liveNodes yardNet yardNodes)[p]? = some url ∧ Opens (yard url).node (yardNet.load p).world (.str run.model) true path m mode ∧
      ∀ cls, [2].prod = m.inputShape.prod → (m.forward (yardNpz.frames.row i) >>= fun logits => argmax logits) = .ok cls →
        run.rows[i]? = some (told i (yard url).node ((yardNet.load p).world.map m mode).isOk
          (prediction (yard url).node path names cls (yardNet.infer i).world.elapsedUs)) := by
  obtain ⟨run,ran,_,_,fine⟩ := yard_run
  refine ⟨run,ran,fun i below => ?_⟩
  obtain ⟨url,node,_,rows⟩ := (run_rows yard_axes yard_accepted (fun _ => bench_asarray) (by simp [Quiet,yardNet,yardExchange]) ran).2.2 i below
  obtain ⟨p,path,m,mode,names,place,opens,_,told_⟩ := rows rfl (by rw [fine]; simp)
  exact ⟨url,node,p,path,m,mode,names,place,opens,told_⟩

omit axes accepted in
theorem filterMap_range {rows : List Row} {f : Row → Option β} {g : Nat → β} (length : rows.length = n)
    (each : ∀ i, i < n → ∃ row, rows[i]? = some row ∧ f row = some (g i)) : rows.filterMap f = (List.range n).map g := by
  have mapped : rows.map f = (List.range n).map fun i => some (g i) := by
    refine List.ext_getElem? fun i => ?_
    rw [List.getElem?_map,List.getElem?_map]
    by_cases below : i < n
    · obtain ⟨row,found,value⟩ := each i below
      rw [found,List.getElem?_range below,Option.map_some,Option.map_some,value]
    · rw [List.getElem?_eq_none (by omega),List.getElem?_eq_none (by rw [List.length_range]; omega)]
      rfl
  calc rows.filterMap f = (rows.map f).filterMap id := by rw [List.filterMap_map]; rfl
    _ = (List.range n).filterMap (fun i => some (g i)) := by rw [mapped,List.filterMap_map]; rfl
    _ = (List.range n).map g := by rw [List.filterMap_eq_map']

-- The histogram counts, for each name, the frames that the one model gives it,
-- whichever nodes are live and however many.
theorem run_histogram (m : Model) (names : List String) (cls : Nat → Nat) (texts : ∀ a b : String, same (.str a) (.str b) = (a == b))
    (numpy : ∀ i vals, (net.infer i).world.asarray (ints vals) = .ok vals)
    (quiet : ∀ i url, Quiet services url (net.infer i))
    (ran : runSamples services same net nodes samples limit (set ++ ".samples.json") fleet = .ran run)
    (fine : run.loadErrors = []) (delivered : ∀ i, (net.infer i).fault = none)
    (shared : ∀ p url path m' mode, (liveNodes net nodes)[p]? = some url → Opens (services url).node (net.load p).world (.str run.model) true path m' mode →
      m' = m ∧ classes (services url).node (net.load p).world path m'.outputShape.prod = .ok names)
    (sized : rest.prod = m.inputShape.prod)
    (forward : ∀ i, i < run.rows.length → (m.forward (npz.frames.row i) >>= fun logits => argmax logits) = .ok (cls i)) (name : String) :
    let called := (List.range (min (count : Int) limit).toNat).map fun i => names.getD (cls i) (toString (cls i))
    countOf same run.histogram name = if name ∈ called then some (called.count name) else none := by
  obtain ⟨_,length,rows⟩ := run_rows axes accepted numpy quiet ran
  obtain ⟨side,bin,tally,parts,_⟩ := prepared_parts axes accepted ran
  have named : ∀ i, i < (min (count : Int) limit).toNat → ∃ row, run.rows[i]? = some row ∧
      row.counted = some (.str (names.getD (cls i) (toString (cls i)))) := by
    intro i below
    rw [← length] at below
    obtain ⟨url,_,_,placed⟩ := rows i below
    obtain ⟨p,path,m',mode,names',place,opens,listed,told_⟩ := placed (delivered i) (by rw [fine]; simp)
    obtain ⟨rfl,listed'⟩ := shared p url path m' mode place opens
    cases Except.ok.inj (listed.symm.trans listed')
    exact ⟨_,told_ (cls i) sized (forward i below),rfl⟩
  have counted : run.histogram = counts same (((List.range (min (count : Int) limit).toNat).map fun i =>
      names.getD (cls i) (toString (cls i))).map .str) := by
    rw [parts.histogram,parts.through.hist,← parts.rows,filterMap_range length named,List.map_map]
    rfl
  dsimp only
  rw [counted,counts_texts texts]

omit axes accepted in
theorem run_histogram_yard : ∃ run,
    runSamples yard sameText yardNet yardNodes yardSamples 200 ("swaps" ++ ".samples.json") (fun _ => .fresh) = .ran run ∧
    countOf sameText run.histogram "1" = some 2 ∧ countOf sameText run.histogram "0" = some 1 ∧
    countOf sameText run.histogram "2" = none := by
  obtain ⟨run,ran,model,length,fine⟩ := yard_run
  have counted := run_histogram yard_axes yard_accepted yardModel ["0","1"] (fun i => if i = 1 then 0 else 1)
    (fun _ _ => rfl) (fun _ => bench_asarray) (by simp [Quiet,yardNet,yardExchange]) ran fine (fun _ => rfl)
    (fun p url path m' mode _ opens => ?_) rfl (fun i below => ?_)
  · exact ⟨run,ran,counted "1",counted "0",counted "2"⟩
  · have same : yardModel = m' := Except.ok.inj opens.built
    subst same
    rw [yard_node]
    exact ⟨rfl,yard_classes _ _⟩
  · rw [length] at below
    interval_cases i <;> rfl

omit axes accepted in
theorem counted_failed (rows : List Row) :
    (rows.filterMap Row.counted).length+(rows.filter fun row => row.counted.isNone).length = rows.length := by
  induction rows with
  | nil => rfl
  | cons row rest ih =>
    cases counted : row.counted with
    | none =>
      rw [List.filterMap_cons_none counted,List.filter_cons_of_pos (by rw [counted]; rfl),List.length_cons,List.length_cons]
      omega
    | some name =>
      rw [List.filterMap_cons_some counted,List.filter_cons_of_neg (by rw [counted]; simp),List.length_cons,List.length_cons]
      omega

-- The first sample's answer does not come back, and the second node is reset
-- by another client before its turn.
def yardFaults : Net := {yardNet with infer := fun i =>
  if i = 0 then {yardExchange with fault := some ("TimeoutError: timed out",true)}
  else {yardExchange with others := [.unload]}}

end

end

end SymphonyAkida.RoundRobin
