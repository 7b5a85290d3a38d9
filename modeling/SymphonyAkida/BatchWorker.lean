import SymphonyAkida.ShardWire

namespace SymphonyAkida.BatchWorker
open Json Bytes Pipe ShardWire

-- What Chip.infer returns: an index, texts and a time, which json.dumps takes.
structure Prediction where
  cls : Int
  clsName : String
  inferenceUs : Int
  host : String
  device : String
  product : String
  model : Option String

def Prediction.dict (prediction : Prediction) : Dict :=
  [("cls",.int prediction.cls),
    ("cls_name",.str prediction.clsName),
    ("inference_us",.int prediction.inferenceUs),
    ("host",.str prediction.host),
    ("device",.str prediction.device),
    ("product",.str prediction.product),
    ("model",prediction.model.elim .null .str)]

-- The argument of infer: bytes, or the back-compat JSON array.
inductive Tensor where
  | bytes (data : List UInt8)
  | json (input : Value)

-- A Chip: the model it holds, and what load and infer do, raising included.
structure Chip (σ : Type) where
  stem : σ → Option String
  load : σ → Value → σ × Except Raised Value
  infer : σ → Tensor → σ × Except Raised Prediction

def basename (name : String) : String := String.ofList (name.toList.reverse.takeWhile (· != '/')).reverse

def stemOf : Value → Except Raised String
  | .str name =>
    let name := (basename name).toList
    .ok (String.ofList (if ['.','f','b','z'] <:+ name then name.take (name.length-4) else name))
  | other => .error ⟨"TypeError",s!"expected str, bytes or os.PathLike object, not {typeName other}"⟩

-- if model and _stem(model) != chip.stem: chip.load(model)
def remap (chip : Chip σ) (state : σ) (request : Dict) : σ × Except Raised Unit :=
  match get request "model" with
  | none => (state,.ok ())
  | some model =>
    if truthy model then
      match stemOf model with
      | .error raised => (state,.error raised)
      | .ok stem =>
        if some stem ≠ chip.stem state then
          let (state,loaded) := chip.load state model
          (state,loaded.map fun _ => ())
        else (state,.ok ())
    else (state,.ok ())

-- np.frombuffer(buffer, dtype=np.uint8, count=n)
def frombuffer (buffer : List UInt8) (n : Int) : Except Raised (List UInt8) :=
  if n < 0 then .ok buffer
  else if buffer.length < n then .error ⟨"ValueError","buffer is smaller than requested size"⟩
  else .ok (buffer.take n.toNat)

def inferOn (chip : Chip σ) (state : σ) (tensor : Except Raised Tensor) : σ × Except Raised Dict :=
  match tensor with
  | .error raised => (state,.error raised)
  | .ok tensor =>
    let (state,predicted) := chip.infer state tensor
    (state,predicted.map Prediction.dict)

def act (chip : Chip σ) (state : σ) (request : Dict) : σ × Except Raised Dict :=
  match get request "input" with
  | some input => inferOn chip state (.ok (.json input))
  | none =>
    if get request "action" matches some (.str "load") then
      match get request "name" with
      | none => (state,.error ⟨"KeyError","'name'"⟩)
      | some name =>
        let (state,loaded) := chip.load state name
        (state,loaded.map fun model => [("ok",.bool true),("model",model)])
    else (state,.ok [("error",.str "unknown request"),("got",.obj request)])

-- The try block of main after the header is read; none while _read_exact waits.
def attempt (rt : Runtime) (shm : Option (List UInt8)) (chip : Chip σ) (state : σ) (request : Dict)
    (stdin : List UInt8) : Option ((σ × Except Raised Dict) × List UInt8) :=
  match remap chip state request with
  | (state,.error raised) => some ((state,.error raised),stdin)
  | (state,.ok ()) =>
    match get request "n" with
    | none => some (act chip state request,stdin)
    | some value =>
      match toInt rt value with
      | .error raised => some ((state,.error raised),stdin)
      | .ok n =>
        match truthyAt request "inline",shm with
        | false,some buffer => some (inferOn chip state ((frombuffer buffer n).map .bytes),stdin)
        | _,_ => (readExact rt.short n.toNat n.toNat stdin).map fun (buffer,rest) =>
          (inferOn chip state ((frombuffer buffer n).map .bytes),rest)

def turn (rt : Runtime) (shm : Option (List UInt8)) (chip : Chip σ) (state : σ) (stdin : List UInt8) : Turn σ :=
  match readLine stdin with
  | none => .waits
  | some (header,rest) =>
    if strip header = [] then .goes state rest []
    else
      match parseRequest rt (strip header) with
      | .error raised => .goes state rest (line (errorReply raised))
      | .ok request =>
        if get request "action" matches some (.str "shutdown") then .stops rest
        else
          match attempt rt shm chip state request rest with
          | none => .waits
          | some ((state,response),rest) => .goes state rest (line (reply response))

-- {"model": in_msg.model or None, "n": n}
def taskHeader (model : String) (data : List UInt8) : Dict :=
  [("model",if model = "" then .null else .str model),("n",.int data.length)]

-- The header on_invoke writes, the buffer it leaves and what it writes after it.
def frame (shm : Option (List UInt8)) (model : String) (data : List UInt8) :
    Dict × Option (List UInt8) × List UInt8 :=
  let header := taskHeader model data
  match shm with
  | some buffer =>
    if data.length ≤ buffer.length then (header,some (data ++ buffer.drop data.length),[])
    else (setMember header "inline" (.bool true),some buffer,data)
  | none => (setMember header "inline" (.bool true),none,data)

def outputText (rt : Runtime) (line : List UInt8) : Result (List Char) :=
  match decode line with
  | none => .raised ⟨"UnicodeDecodeError",rt.decodeError line⟩
  | some text => .returned (stripNewlines text)

-- AkidaServiceContainer.on_invoke, for a task of a model name and its bytes.
def onInvoke (rt : Runtime) (chip : Chip σ) (link : Link σ) (model : String) (data : List UInt8) :
    Link σ × Result (List Char) :=
  let (header,shm,body) := frame link.shm model data
  if !link.alive then ({link with shm},.raised ⟨"BrokenPipeError","[Errno 32] Broken pipe"⟩)
  else
    match exchange (turn rt (view link.mapped shm) chip) (rt.arrive (put (line header) ++ put body)) link.toServer with
    | (server,some reply) => ({link with toServer := server,shm},outputText rt reply)
    | (server,none) => ({link with toServer := server,shm},
        if server.alive then .waits else .raised ⟨"RuntimeError",s!"worker died mid-invoke (rc={rt.returnCode})"⟩)

-- The tasks of a session, one at a time under the lock.
def invokes (rt : Runtime) (chip : Chip σ) (link : Link σ) : List (String × List UInt8) → Link σ × List (Result (List Char))
  | [] => (link,[])
  | (model,data) :: rest =>
    let (link,result) := onInvoke rt chip link model data
    let (link,results) := invokes rt chip link rest
    (link,result :: results)

end SymphonyAkida.BatchWorker
