import SymphonyAkida.RoundRobin
import SymphonyAkida.HttpServerRun
import SymphonyAkida.Counters

namespace SymphonyAkida.RoundRobin
open Json Bytes ShardWire AkidaChip HttpServer Jobs Locks
open BatchWorker (Prediction Tensor)
open SampleSets (Samples readAt)
open BatchClient (counts)

theorem ints_plain (bytes : List UInt8) : (ints bytes).plain = true := by
  unfold ints
  rw [Value.plain]
  induction bytes with
  | nil => rfl
  | cons byte rest ih => rw [List.map_cons,plainItems,ih]; rfl

theorem ints_within (bytes : List UInt8) (key : String) : (Value.obj [(key,ints bytes)]).within maxStrDigits = true := by
  have items : withinItems maxStrDigits (bytes.map fun b => .int b.toNat) = true := by
    induction bytes with
    | nil => rfl
    | cons b bytes ih =>
      have below : (b.toNat : Int).natAbs < 10^3 := by
        have := b.toNat_lt
        omega
      rw [List.map_cons,withinItems,within_int below (by decide) (by decide),ih]
      rfl
  rw [Value.within,withinMembers,ints,Value.within,items]
  rfl

theorem plain_single {value : Value} (plain : value.plain = true) (key : String) : (Value.obj [(key,value)]).plain = true := by
  simp [Value.plain,plainMembers,plain]

theorem inferred_plain (node : Node) (r : Prediction) (onChip : Bool) : (Value.obj (inferred node r onChip)).plain = true := by
  unfold inferred Prediction.dict
  cases r.model <;> cases onChip <;> simp [Value.plain,plainMembers]

theorem receive_ok {body : Dict} (plain : (Value.obj body).plain = true) : receive (.ok ⟨200,body⟩) = .ok (.obj body) := by
  simp only [receive,decode_encode,Option.bind_some,loads_dumps plain,Except.toOption]
  rfl

theorem receive_error (code : Nat) (failed : ¬code < 400) (text : String) :
    receive (.ok ⟨code,[("error",.str text)]⟩) = .error text := by
  have plain : (Value.obj [("error",.str text)]).plain = true := plain_single rfl _
  simp only [receive,decode_encode,Option.bind_some,loads_dumps plain,Except.toOption,if_neg failed]
  rfl

theorem call_infer {service : Service} (attached : service.attached = true) (vals : List UInt8) (exchange : Exchange) :
    call service (inferRequest vals exchange) = some (.infer exchange.world (.json (ints vals))) := by
  have read : readBody _ _ = .ok (.obj [("input",ints vals)]) := readBody_dumps (plain_single (ints_plain vals) _) (ints_within vals _)
  simp only [call,inferRequest,posted,read,attached]
  rfl

theorem call_load {service : Service} (attached : service.attached = true) (name : String) (exchange : Exchange) :
    call service (loadRequest name exchange) = if truthy (.str name) then some (.load exchange.world (.str name) true) else none := by
  have read : readBody _ _ = .ok (.obj [("name",.str name)]) := readBody_dumps (plain_single rfl _) rfl
  simp only [call,loadRequest,posted,read,attached]
  rfl

theorem handle_call {service : Service} {request : Request} {c : Call} (called : call service request = some c) (fields : Fields) :
    (handle service request).program.alone fields = ((serve service.node fields c).1,.ok (serve service.node fields c).2) := by
  have handled := handle_handled service request
  rw [called] at handled
  generalize handle service request = task at handled
  cases handled with
  | serves alone watched => exact alone fields

theorem infer_detached {service : Service} (detached : service.attached = false) (vals : List UInt8) (exchange : Exchange) (fields : Fields) :
    (handle service (inferRequest vals exchange)).program.alone fields =
      (fields,.ok ⟨503,errorBody "no akida device on this node"⟩) := by
  have read : readBody _ _ = .ok (.obj [("input",ints vals)]) := readBody_dumps (plain_single (ints_plain vals) _) (ints_within vals _)
  simp only [handle,inferRequest,posted,read,doPost,detached]
  rfl

def inferAnswer (service : Service) (world : World) (fields : Fields) (vals : List UInt8) : Except String Prediction :=
  if service.attached then
    match (infer service.node world fields (.json (ints vals))).2 with
    | .ok r => .ok r
    | .error raised => .error s!"{raised.kind}: {raised.text}"
  else .error "no akida device on this node"

def told (i : Nat) (node : Node) (onChip : Bool) (r : Prediction) : Row :=
  .ran i (.str r.host) (.int r.cls) (.str r.clsName) (.int r.inferenceUs) (some (if onChip then .str node.product else .null))
    (some (.str (if onChip then "on-chip" else "software"))) (some (.str r.device)) (some (.str r.product))

-- The row of a sample whose node nobody has changed since.
def rowAt (services : String → Service) (fleet : Fleet) (url : String) (exchange : Exchange) (vals : List UInt8) (i : Nat) : Row :=
  match exchange.fault,inferAnswer (services url) exchange.world (fleet url) vals with
  | some (text,_),_ => .failed i url text
  | none,.ok r => told i (services url).node (fleet url).onChip r
  | none,.error text => .failed i url text

def answerRow (i : Nat) (url : String) (service : Service) (world : World) (fields : Fields) (vals : List UInt8) : Row :=
  match inferAnswer service world fields vals with
  | .ok r => told i service.node fields.onChip r
  | .error text => .failed i url text

-- The others leave the chip's model where it is.
def Quiet (services : String → Service) (url : String) (exchange : Exchange) : Prop :=
  ∀ c ∈ exchange.others, ¬Replaces (services url).node c

theorem run_quiet {node : Node} {others : List Call} (quiet : ∀ c ∈ others, ¬Replaces node c) (fields : Fields) :
    run node fields others = fields := by
  induction others with
  | nil => rfl
  | cons c rest ih =>
    have first := replaces_not (quiet c List.mem_cons_self) fields
    unfold run
    rw [List.foldl_cons,first]
    exact ih fun other member => quiet other (List.mem_cons_of_mem _ member)

theorem infer_served (service : Service) (exchange : Exchange) (vals : List UInt8) (fields : Fields) :
    ((handle service (inferRequest vals exchange)).program.alone fields).1 = fields ∧
    receive ((handle service (inferRequest vals exchange)).program.alone fields).2 =
      (inferAnswer service exchange.world fields vals).map fun r => .obj (inferred service.node r fields.onChip) := by
  unfold inferAnswer
  cases attached : service.attached with
  | true =>
    rw [handle_call (call_infer attached vals exchange),serve_step]
    refine ⟨rfl,?_⟩
    dsimp only [serve]
    cases (infer service.node exchange.world fields (.json (ints vals))).2 with
    | ok r => exact receive_ok (inferred_plain _ r _)
    | error raised => exact receive_error 500 (by decide) _
  | false =>
    rw [infer_detached attached]
    exact ⟨rfl,receive_error 503 (by decide) _⟩

section
variable (services : String → Service) (fleet : Fleet) (url : String)

theorem send_infer (exchange : Exchange) (vals : List UInt8) (i : Nat) :
    let seen := Function.update fleet url (run (services url).node (fleet url) exchange.others)
    (send services fleet url exchange (inferRequest vals exchange)).1 = seen ∧
    rowOf i url (send services fleet url exchange (inferRequest vals exchange)).2 = .ok (rowAt services seen url exchange vals i) := by
  obtain ⟨kept,answered⟩ := infer_served (services url) exchange vals (run (services url).node (fleet url) exchange.others)
  unfold send rowAt
  dsimp only
  rw [Function.update_self]
  cases fault : exchange.fault with
  | none =>
    dsimp only
    rw [kept,answered]
    refine ⟨rfl,?_⟩
    cases inferAnswer (services url) exchange.world (run (services url).node (fleet url) exchange.others) vals <;> rfl
  | some failed =>
    obtain ⟨text,served⟩ := failed
    cases served with
    | true =>
      dsimp only
      rw [kept]
      exact ⟨rfl,rfl⟩
    | false => exact ⟨rfl,rfl⟩

end

def Lives (services : String → Service) (before after : Fleet) : Prop :=
  ∀ url, ∃ calls, after url = run (services url).node (before url) calls

theorem Lives.trans {services : String → Service} {first second third : Fleet} (before : Lives services first second)
    (after : Lives services second third) : Lives services first third := by
  intro url
  obtain ⟨calls,left⟩ := before url
  obtain ⟨later,right⟩ := after url
  refine ⟨calls ++ later,?_⟩
  rw [right,left]
  simp [run]

theorem lives_update {services : String → Service} {fleet : Fleet} (url : String) (calls : List Call) :
    Lives services fleet (Function.update fleet url (run (services url).node (fleet url) calls)) := by
  intro other
  by_cases here : other = url
  · subst here
    exact ⟨calls,Function.update_self ..⟩
  · exact ⟨[],Function.update_of_ne here _ _⟩

theorem handle_lives (service : Service) (request : Request) (fields : Fields) :
    ∃ calls, ((handle service request).program.alone fields).1 = run service.node fields calls := by
  have handled := handle_handled service request
  generalize call service request = called at handled
  generalize handle service request = task at handled
  cases handled with
  | @serves c program alone watched =>
    refine ⟨[c],?_⟩
    rw [Task.program,alone,serve_step]
    rfl
  | answers spares => exact ⟨[],(spares_steady spares id).alone fields⟩

theorem send_lives (services : String → Service) (fleet : Fleet) (url : String) (exchange : Exchange) (request : Request) :
    Lives services fleet (send services fleet url exchange request).1 := by
  obtain ⟨calls,served⟩ := handle_lives (services url) request (run (services url).node (fleet url) exchange.others)
  have whole : run (services url).node (run (services url).node (fleet url) exchange.others) calls =
      run (services url).node (fleet url) (exchange.others ++ calls) := by simp [run]
  unfold send
  dsimp only
  rw [served,whole]
  cases exchange.fault with
  | none => exact lives_update url _
  | some failed =>
    obtain ⟨text,served⟩ := failed
    cases served with
    | true => exact lives_update url _
    | false => exact lives_update url _

theorem liveClients_lives (services : String → Service) (net : Net) (i : Nat) (fleet : Fleet) (nodes : List String) :
    Lives services fleet (liveClients services net i fleet nodes).1 := by
  induction nodes generalizing i fleet with
  | nil => exact fun url => ⟨[],rfl⟩
  | cons url rest ih => exact (send_lives services fleet url _ _).trans (ih (i+1) _)

theorem loadAll_lives (services : String → Service) (net : Net) (model : String) (i : Nat) (fleet : Fleet) (nodes : List String) :
    Lives services fleet (loadAll services net model i fleet nodes).1 := by
  induction nodes generalizing i fleet with
  | nil => exact fun url => ⟨[],rfl⟩
  | cons url rest ih => exact (send_lives services fleet url _ _).trans (ih (i+1) _)

def Row.counted : Row → Option Value
  | .ran _ _ _ clsName _ _ _ _ _ => some clsName
  | .failed _ _ _ => none

theorem counts_snoc (same : Value → Value → Bool) (rows : List Row) (row : Row)
    (keyed : ∀ name, row.counted = some name → BatchClient.hashable name = true) :
    countClass same (counts same (rows.filterMap Row.counted)) row = .ok (counts same ((rows ++ [row]).filterMap Row.counted)) := by
  rw [List.filterMap_append]
  cases row with
  | failed i url text =>
    rw [List.filterMap_cons_none rfl,List.filterMap_nil,List.append_nil]
    rfl
  | ran i node cls clsName us hardware mode device product =>
    have fits := keyed clsName rfl
    simp [countClass,fits,counts,Row.counted]

theorem rowAt_counted (services : String → Service) (fleet : Fleet) (url : String) (exchange : Exchange) (vals : List UInt8) (i : Nat)
    (counted : (rowAt services fleet url exchange vals i).counted = some name) : BatchClient.hashable name = true := by
  unfold rowAt at counted
  split at counted
  · cases counted
  · cases counted
    rfl
  · cases counted

section
variable {services : String → Service} {same : Value → Value → Bool} {net : Net} {per : Nat} {blob : List UInt8} {nodes : List String}

structure Through (services : String → Service) (same : Value → Value → Bool) (net : Net) (per : Nat) (blob : List UInt8)
    (nodes : List String) (fleet : Fleet) (n : Nat) (tally : Tally) : Prop where
  length : tally.rows.length = n
  hist : tally.hist = counts same (tally.rows.filterMap Row.counted)
  rows : ∀ i, i < n → ∃ url seen, nodes[i%nodes.length]? = some url ∧
    tally.rows[i]? = some (rowAt services seen url (net.infer i) (readAt blob (i*per) per) i) ∧ Lives services fleet seen ∧
    ((∀ i url, Quiet services url (net.infer i)) → seen = fleet)
  lives : Lives services fleet tally.fleet
  kept : (∀ i url, Quiet services url (net.infer i)) → tally.fleet = fleet

theorem inferOne_through {fleet : Fleet} {tally : Tally} (some_ : nodes ≠ []) (through : Through services same net per blob nodes fleet n tally) :
    ∃ next, inferOne services same net per blob nodes tally n = .ok next ∧ Through services same net per blob nodes fleet (n+1) next := by
  have inside : n%nodes.length < nodes.length := Nat.mod_lt _ (List.length_pos_of_ne_nil some_)
  have found : nodes[n%nodes.length]? = some nodes[n%nodes.length] := List.getElem?_eq_getElem inside
  generalize nodes[n%nodes.length] = url at found
  obtain ⟨after,answered⟩ := send_infer services tally.fleet url (net.infer n) (readAt blob (n*per) per) n
  generalize settled : Function.update tally.fleet url (run (services url).node (tally.fleet url) (net.infer n).others) = seen at after answered
  have steady : (∀ i url, Quiet services url (net.infer i)) → seen = fleet := by
    intro quiet
    rw [← settled,run_quiet (quiet n url),Function.update_eq_self]
    exact through.kept quiet
  have lives : Lives services fleet seen := by
    rw [← settled]
    exact through.lives.trans (lives_update url _)
  generalize drawn : rowAt services seen url (net.infer n) (readAt blob (n*per) per) n = row at answered
  refine ⟨⟨seen,tally.rows ++ [row],counts same ((tally.rows ++ [row]).filterMap Row.counted)⟩,?_,?_,rfl,?_,lives,steady⟩
  · unfold inferOne
    rw [found]
    dsimp only
    rw [answered,Outcome.ok_bind,through.hist,counts_snoc same _ _ (by
      rw [← drawn]
      exact fun name => rowAt_counted _ _ _ _ _ _),after]
    rfl
  · rw [List.length_append,through.length]
    rfl
  · intro i below
    rcases Nat.lt_succ_iff_lt_or_eq.mp below with before | rfl
    · obtain ⟨url,then_,node,row,later,quiet⟩ := through.rows i before
      refine ⟨url,then_,node,?_,later,quiet⟩
      rw [List.getElem?_append_left (by rw [through.length]; exact before)]
      exact row
    · refine ⟨url,seen,found,?_,lives,steady⟩
      rw [List.getElem?_append_right (Nat.le_of_eq through.length),through.length,Nat.sub_self,drawn]
      rfl

variable (services same net per blob) in
theorem inferAll_through (some_ : nodes ≠ []) (fleet : Fleet) (n : Nat) :
    ∃ tally, inferAll services same net per blob nodes n fleet = .ok tally ∧ Through services same net per blob nodes fleet n tally := by
  unfold inferAll
  induction n with
  | zero => exact ⟨_,rfl,rfl,rfl,fun i below => absurd below (Nat.not_lt_zero i),fun url => ⟨[],rfl⟩,fun _ => rfl⟩
  | succ n ih =>
    obtain ⟨tally,ran,through⟩ := ih
    obtain ⟨next,one,onward⟩ := inferOne_through some_ through
    refine ⟨next,?_,onward⟩
    rw [List.range_succ,List.foldlM_append,ran,Outcome.ok_bind,List.foldlM_cons,one]
    rfl

end

-- The node's chip holds what one load of the model left.
def LoadedBy (service : Service) (fields : Fields) (world : World) (name : String) : Prop :=
  service.attached = true ∧
    ∃ path m mode names, Together service.node fields world (.str name) true path m mode names ∧ fields.model = some m

theorem load_together {node : Node} {world : World} {fields : Fields} {name : Value} {allow : Bool} {value : Value}
    (loaded : (load node world fields name allow).2 = .ok value) :
    ∃ path m mode names, Together node (load node world fields name allow).1 world name allow path m mode names ∧
      (load node world fields name allow).1.model = some m := by
  by_cases reaches : ∃ path m mode, Opens node world name allow path m mode
  · obtain ⟨path,m,mode,opens⟩ := reaches
    rw [load_opens opens] at loaded ⊢
    cases listed : classes node world path m.outputShape.prod with
    | error raised =>
      rw [listed] at loaded
      cases loaded
    | ok names => exact ⟨path,m,mode,names,together_opened opens listed,rfl⟩
  · obtain ⟨raised,stopped⟩ := load_stops reaches fields
    rw [stopped] at loaded
    cases loaded

theorem load_answered {service : Service} {name : String} {exchange : Exchange} {fields : Fields} {value : Value}
    (answered : receive ((handle service (loadRequest name exchange)).program.alone fields).2 = .ok value) :
    LoadedBy service ((handle service (loadRequest name exchange)).program.alone fields).1 exchange.world name := by
  have refused : ∀ code text, ¬code < 400 →
      (handle service (loadRequest name exchange)).program.alone fields = (fields,.ok ⟨code,errorBody text⟩) → False := by
    intro code text failed same
    rw [same,errorBody,receive_error code failed] at answered
    cases answered
  have read : readBody _ _ = .ok (.obj [("name",.str name)]) := readBody_dumps (plain_single rfl _) rfl
  have named_ : bodyGet (.obj [("name",.str name)]) "name" = .ok (.str name) := rfl
  cases named : truthy (.str name) with
  | false =>
    refine (refused 400 "no model name" (by decide) ?_).elim
    simp only [handle,loadRequest,posted,read,doPost,true_or,if_true,named_,named]
    rfl
  | true =>
    cases attached : service.attached with
    | false =>
      refine (refused 503 "no akida device on this node" (by decide) ?_).elim
      simp only [handle,loadRequest,posted,read,doPost,true_or,if_true,named_,named,attached]
      rfl
    | true =>
      have called := call_load attached name exchange
      rw [named,if_pos rfl] at called
      rw [handle_call called] at answered ⊢
      dsimp only [serve] at answered ⊢
      cases outcome : (load service.node exchange.world fields (.str name) true).2 with
      | ok info => exact ⟨attached,load_together outcome⟩
      | error raised =>
        rw [outcome] at answered
        exact absurd (answered.symm.trans (receive_error 500 (by decide) _)) (by simp)

section
variable {services : String → Service}

theorem send_load {fleet : Fleet} {url : String} {exchange : Exchange} {name : String} {value : Value}
    (answered : (send services fleet url exchange (loadRequest name exchange)).2 = .ok value) :
    LoadedBy (services url) ((send services fleet url exchange (loadRequest name exchange)).1 url) exchange.world name := by
  unfold send at answered ⊢
  dsimp only at answered ⊢
  cases fault : exchange.fault with
  | none =>
    rw [fault] at answered
    dsimp only at answered ⊢
    rw [Function.update_self]
    exact load_answered answered
  | some failed =>
    obtain ⟨text,served⟩ := failed
    rw [fault] at answered
    cases served <;> cases answered

theorem send_other (services : String → Service) (fleet : Fleet) {url : String} (exchange : Exchange) (request : Request) (differ : other ≠ url) :
    (send services fleet url exchange request).1 other = fleet other := by
  unfold send
  cases exchange.fault with
  | none => exact Function.update_of_ne differ _ _
  | some failed =>
    obtain ⟨text,served⟩ := failed
    cases served <;> exact Function.update_of_ne differ _ _

theorem loadAll_loads (net : Net) (name : String) (i : Nat) (fleet : Fleet) (nodes : List String) :
    (∀ url, url ∉ nodes → (loadAll services net name i fleet nodes).1 url = fleet url) ∧
    ∀ url ∈ nodes, url ∉ (loadAll services net name i fleet nodes).2.map Prod.fst →
      ∃ p, nodes[p]? = some url ∧ LoadedBy (services url) ((loadAll services net name i fleet nodes).1 url) (net.load (i+p)).world name := by
  induction nodes generalizing i fleet with
  | nil => exact ⟨fun _ _ => rfl,by simp⟩
  | cons first rest ih =>
    unfold loadAll
    generalize sent : send services fleet first (net.load i) (loadRequest name (net.load i)) = reply
    obtain ⟨after,answer⟩ := reply
    dsimp only
    obtain ⟨apart,loads⟩ := ih (i+1) after
    have untouched : ∀ url, url ≠ first → after url = fleet url := by
      intro url differ
      have kept := send_other services fleet (net.load i) (loadRequest name (net.load i)) differ
      rw [sent] at kept
      exact kept
    refine ⟨fun url outside => ?_,fun url member fine => ?_⟩
    · rw [List.mem_cons,not_or] at outside
      exact (apart url outside.2).trans (untouched url outside.1)
    · have rested : url ∉ (loadAll services net name (i+1) after rest).2.map Prod.fst := by
        cases answer with
        | ok value => exact fine
        | error text => exact fun listed => fine (List.mem_cons_of_mem _ listed)
      by_cases again : url ∈ rest
      · obtain ⟨p,place,loaded⟩ := loads url again rested
        rw [Nat.add_right_comm,Nat.add_assoc] at loaded
        exact ⟨p+1,place,loaded⟩
      · have here : url = first := (List.mem_cons.mp member).resolve_right again
        subst here
        cases answer with
        | error text => exact absurd List.mem_cons_self fine
        | ok value =>
          refine ⟨0,rfl,?_⟩
          rw [apart url again]
          have loaded : LoadedBy (services url) ((send services fleet url (net.load i) (loadRequest name (net.load i))).1 url)
              (net.load i).world name := send_load (congrArg Prod.snd sent)
          rw [sent] at loaded
          exact loaded

end

theorem plain_nats (ns : List Nat) : plainItems (ns.map fun (n : Nat) => .int n) = true := by
  induction ns with
  | nil => rfl
  | cons n rest ih => rw [List.map_cons,plainItems,ih]; rfl

theorem plain_texts (names : List String) : plainItems (names.map .str) = true := by
  induction names with
  | nil => rfl
  | cons name rest ih => rw [List.map_cons,plainItems,ih]; rfl

theorem loaded_plain (node : Node) (fields : Fields) (m : Model) (names : List String) :
    (Value.obj (loaded (info node fields m names))).plain = true := by
  unfold loaded info
  cases fields.stem <;> cases fields.mapError <;>
    simp [setMember,ShardWire.get,Value.plain,plainMembers,plain_nats,plain_texts]

-- The node's load of the model works, and its answer comes back.
def Loads (service : Service) (exchange : Exchange) (name : String) : Prop :=
  service.attached = true ∧ exchange.fault = none ∧ truthy (.str name) = true ∧
    ∃ path m mode names, Opens service.node exchange.world (.str name) true path m mode ∧
      classes service.node exchange.world path m.outputShape.prod = .ok names

theorem send_loads {services : String → Service} {exchange : Exchange} {url name : String}
    (loads : Loads (services url) exchange name) (fleet : Fleet) :
    ∃ value, (send services fleet url exchange (loadRequest name exchange)).2 = .ok value := by
  obtain ⟨attached,delivered,named,path,m,mode,names,opens,listed⟩ := loads
  have called := call_load attached name exchange
  rw [named,if_pos rfl] at called
  unfold send
  dsimp only
  rw [delivered]
  dsimp only
  rw [handle_call called]
  dsimp only [serve]
  rw [load_opens opens,listed]
  exact ⟨_,receive_ok (loaded_plain _ _ _ _)⟩

theorem loadAll_fine {services : String → Service} {net : Net} {name : String} {nodes : List String}
    (loads : ∀ p url, url ∈ nodes → Loads (services url) (net.load p) name) (i : Nat) (fleet : Fleet) :
    (loadAll services net name i fleet nodes).2 = [] := by
  induction nodes generalizing i fleet with
  | nil => rfl
  | cons url rest ih =>
    obtain ⟨value,answered⟩ := send_loads (loads i url List.mem_cons_self) fleet
    unfold loadAll
    generalize sent : send services fleet url (net.load i) (loadRequest name (net.load i)) = reply at answered
    obtain ⟨after,answer⟩ := reply
    cases answered
    exact ih (fun p other member => loads p other (List.mem_cons_of_mem _ member)) (i+1) after

def prediction (node : Node) (path : List Char) (names : List String) (cls : Nat) (us : Int) : Prediction :=
  ⟨cls,names.getD cls (toString cls),us,node.host,node.device,node.product,some (stemPath path)⟩

theorem infer_together {node : Node} {fields : Fields} {source : World} {name : Value} {allow : Bool}
    (together : Together node fields source name allow path m mode names) (held : fields.model = some m) {world : World}
    {vals : List UInt8} (numpy : world.asarray (ints vals) = .ok vals) (sized : vals.length = m.inputShape.prod)
    (ran : (m.forward vals >>= fun logits => argmax logits) = .ok cls) :
    (infer node world fields (.json (ints vals))).2 = .ok (prediction node path names cls world.elapsedUs) := by
  have given : asBytes world (.json (ints vals)) = .ok vals := numpy
  rw [infer_mapped held,given,Outcome.ok_bind,together.n,together.classes,together.stem,if_pos (congrArg some sized),ran]
  rfl

theorem together_onChip {node : Node} {fields : Fields} {source : World} {name : Value} {allow : Bool}
    (together : Together node fields source name allow path m mode names) : fields.onChip = (source.map m mode).isOk := by
  rw [Bool.eq_iff_iff,together.onChip]
  cases source.map m mode <;> simp [Except.isOk,Except.toBool]

section
variable {services : String → Service} {same : Value → Value → Bool} {net : Net} {nodes : List String}
  {frames : Strided.NdArray UInt8}

theorem fname_toList (set : String) : (set ++ ".samples.json").toList = set.toList ++ samplesSuffix := String.toList_append ..

theorem fname_stripped (set : String) : String.ofList ((set ++ ".samples.json").toList.take
    ((set ++ ".samples.json").toList.length-samplesSuffix.length)) = set := by
  rw [fname_toList,List.length_append,Nat.add_sub_cancel,List.take_left',String.ofList_toList]
  rfl

theorem sideFile_set (samples : Samples) (set : String) : sideFile samples (set ++ ".samples.json") = samples.side set := by
  unfold sideFile
  rw [if_pos (by rw [fname_toList]; exact List.suffix_append _ _),fname_stripped]

theorem setName_set {side : SampleSets.Sidecar} {set : String} (own : side.set = set) : setName side (set ++ ".samples.json") = set := by
  unfold setName
  rw [fname_stripped,own,ite_id]

theorem readAt_take (bin : List UInt8) (n per i : Nat) (below : i < n) : readAt (bin.take (n*per)) (i*per) per = readAt bin (i*per) per := by
  have fits : i*per+per ≤ n*per := by
    calc i*per+per = (i+1)*per := (Nat.succ_mul i per).symm
      _ ≤ n*per := Nat.mul_le_mul_right per below
  unfold readAt
  rw [List.drop_take,List.take_take]
  congr 1
  omega

end

end SymphonyAkida.RoundRobin
