import SymphonyAkida.HttpServerSpec
import SymphonyAkida.BatchClient
import SymphonyAkida.SampleSets

namespace SymphonyAkida.RoundRobin
open Json Bytes ShardWire AkidaChip HttpServer
open SampleSets (Samples readAt)

-- One exchange with a node: the calls it served for others since the last, the
-- files it meets, and, where no reply comes back, the text of the client's
-- exception and whether the node served the request all the same.
structure Exchange where
  others : List Call
  world : World
  shelf : Shelf
  fault : Option (String × Bool)

-- The chips behind the URLs, which others use too.
abbrev Fleet := String → Fields

-- AkidaServiceClient._send, from the reply on. An error is an AkidaServiceError.
def receive : Except Raised Reply → Except String Value
  | .error _ => .error "RemoteDisconnected: Remote end closed connection without response"
  | .ok reply =>
    let read := (decode (encode (dumps (.obj reply.body)))).bind fun text => (loads text).toOption
    if reply.code < 400 then
      match read with
      | some value => .ok value
      | none => .error "JSONDecodeError"
    else
      match read with
      | some (.obj err) => .error (strValue (fun _ => true) ((get err "error").getD (.obj err)))
      | _ => .error s!"HTTP {reply.code}"

section
variable (services : String → Service)

def send (fleet : Fleet) (url : String) (exchange : Exchange) (request : Request) : Fleet × Except String Value :=
  let fields := run (services url).node (fleet url) exchange.others
  let (served,reply) := (handle (services url) request).program.alone fields
  match exchange.fault with
  | none => (Function.update fleet url served,receive reply)
  | some (text,true) => (Function.update fleet url served,.error text)
  | some (text,false) => (Function.update fleet url fields,.error text)

def healthRequest (exchange : Exchange) : Request := .get "/health" exchange.shelf
def loadRequest (name : String) (exchange : Exchange) : Request := posted "/load" [("name",.str name)] exchange.world

def ints (bytes : List UInt8) : Value := .arr (bytes.map fun byte => .int byte.toNat)

def inferRequest (vals : List UInt8) (exchange : Exchange) : Request := posted "/infer" [("input",ints vals)] exchange.world

-- The exchanges of one run: with each node of NODES, with each live one, and one
-- a sample.
structure Net where
  health : Nat → Exchange
  load : Nat → Exchange
  infer : Nat → Exchange

def liveClients (net : Net) : Nat → Fleet → List String → Fleet × List String
  | _,fleet,[] => (fleet,[])
  | i,fleet,url :: rest =>
    let (fleet,answer) := send services fleet url (net.health i) (healthRequest (net.health i))
    let (fleet,out) := liveClients net (i+1) fleet rest
    (fleet,if answer.isOk then url :: out else out)

def loadAll (net : Net) (model : String) : Nat → Fleet → List String → Fleet × List (String × String)
  | _,fleet,[] => (fleet,[])
  | i,fleet,url :: rest =>
    let (fleet,answer) := send services fleet url (net.load i) (loadRequest model (net.load i))
    let (fleet,errors) := loadAll net model (i+1) fleet rest
    (fleet,match answer with
      | .ok _ => errors
      | .error text => (url,text) :: errors)

-- A row of the reply: what a node says of sample i, or the client's exception.
inductive Row where
  | ran (i : Nat) (node cls clsName us : Value) (hardware mode device product : Option Value)
  | failed (i : Nat) (node : String) (error : String)

def Row.index : Row → Nat
  | .ran i _ _ _ _ _ _ _ _ | .failed i _ _ => i

def subscript (r : Value) (key : String) : Except Raised Value :=
  match r with
  | .obj members =>
    match get members key with
    | some value => .ok value
    | none => .error ⟨"KeyError",s!"'{key}'"⟩
  | other => .error ⟨"TypeError",s!"'{typeName other}' object is not subscriptable"⟩

def member (r : Value) (key : String) : Option Value :=
  match r with
  | .obj members => get members key
  | _ => none

def ranRow (i : Nat) (r : Value) : Except Raised Row := do
  let host ← subscript r "host"
  let cls ← subscript r "cls"
  let clsName ← subscript r "cls_name"
  let us ← subscript r "inference_us"
  return .ran i host cls clsName us (member r "hardware") (member r "mode") (member r "device") (member r "product")

-- The try of the loop: an AkidaServiceError makes a row too.
def rowOf (i : Nat) (url : String) : Except String Value → Except Raised Row
  | .ok r => ranRow i r
  | .error text => .ok (.failed i url text)

structure Tally where
  fleet : Fleet
  rows : List Row
  hist : BatchClient.Counter

-- `same` is == on dict keys.
variable (same : Value → Value → Bool)

def countClass (hist : BatchClient.Counter) (row : Row) : Except Raised BatchClient.Counter :=
  match row with
  | .failed _ _ _ => .ok hist
  | .ran _ _ _ clsName _ _ _ _ _ =>
    if BatchClient.hashable clsName then .ok (hist.increment same clsName)
    else .error ⟨"TypeError",s!"unhashable type: '{typeName clsName}'"⟩

def inferOne (net : Net) (per : Nat) (blob : List UInt8) (nodes : List String) (tally : Tally) (i : Nat) : Except Raised Tally := do
  match nodes[i%nodes.length]? with
  | none => .error ⟨"ZeroDivisionError","integer modulo by zero"⟩
  | some url =>
    let (fleet,answer) := send services tally.fleet url (net.infer i) (inferRequest (readAt blob (i*per) per) (net.infer i))
    let row ← rowOf i url answer
    let hist ← countClass same tally.hist row
    return ⟨fleet,tally.rows ++ [row],hist⟩

def inferAll (net : Net) (per : Nat) (blob : List UInt8) (nodes : List String) (n : Nat) (fleet : Fleet) : Except Raised Tally :=
  (List.range n).foldlM (inferOne services same net per blob nodes) ⟨fleet,[],[]⟩

-- The JSON api_run_samples answers with, but for what it derives of the rows'
-- latencies and the clock.
structure Ran where
  model : String
  classNames : List String
  rows : List Row
  histogram : BatchClient.Counter
  nodesUsed : Nat
  loadErrors : List (String × String)

inductive Response where
  | refused (status : Nat) (error : String)
  | ran (run : Ran)
  | raised (raised : Raised)

def samplesSuffix : List Char := ".samples.json".toList

def sideFile (samples : Samples) (fname : String) : Option SampleSets.Sidecar :=
  if samplesSuffix <:+ fname.toList then
    samples.side (String.ofList (fname.toList.take (fname.toList.length-samplesSuffix.length)))
  else none

-- side.get("set") or os.path.basename(side_path)[:-len(".samples.json")]
def setName (side : SampleSets.Sidecar) (fname : String) : String :=
  if side.set = "" then String.ofList (fname.toList.take (fname.toList.length-samplesSuffix.length)) else side.set

-- min(total, LIMIT), as range takes it
def rowCount (side : SampleSets.Sidecar) (limit : Int) : Nat := (min (side.count : Int) limit).toNat

def runSamples (net : Net) (nodes : List String) (samples : Samples) (limit : Int) (fname : String) (fleet : Fleet) : Response :=
  match sideFile samples fname with
  | none => .refused 400 "unknown sample set"
  | some side =>
    match samples.bin (setName side fname) with
    | none => .refused 400 s!"no .bin for set {setName side fname} (run prepare_samples.py)"
    | some bin =>
      let n := rowCount side limit
      let blob := bin.take (n*side.perSampleBytes)
      let (fleet,live) := liveClients services net 0 fleet nodes
      if live = [] then .refused 503 "no live node"
      else
        let (fleet,errors) := loadAll services net side.model 0 fleet live
        match inferAll services same net side.perSampleBytes blob live n fleet with
        | .error raised => .raised raised
        | .ok tally => .ran ⟨side.model,side.classNames.getD [],tally.rows,tally.hist,live.length,errors⟩

end

end SymphonyAkida.RoundRobin
