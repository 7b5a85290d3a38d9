import SymphonyAkida.AkidaChip
import SymphonyAkida.Library.Locks

namespace SymphonyAkida.HttpServer
open Json Bytes ShardWire AkidaChip Jobs
open BatchWorker (Tensor Prediction basename)

def shownModels : List String := ["kws_keyword_spotting_sparse","vww_person_detect","surface_search_classifier"]

-- models._stem(name)
def stem (name : String) : String := stemPath name.toList

-- _visible(allowlist, models_dir), of the names in the directory
def visible (allowlist : List String) (listing : List String) : List String :=
  let present := (listing.filter fun f => dotFbz <:+ f.toList).map fun f => String.ofList (f.toList.take (f.toList.length-4))
  allowlist.filter present.contains

-- MODELS_DIR as _model_list meets it; no listing where it is no directory.
structure Shelf where
  listing : Except Raised (Option (List String))
  size : String → Except Raised (Option Nat)
  sidecar : String → Except Raised Value

-- The entry of one stem. The first meta.get raises where the sidecar is no object.
def modelInfo (shelf : Shelf) (stem : String) : Except Raised Value :=
  (shelf.size stem).map fun size =>
    let info : Dict := [("name",.str stem),("size_bytes",size.elim .null fun n => .int n)]
    match shelf.sidecar stem with
    | .ok (.obj members) =>
      let read := fun key => (key,(get members key).getD .null)
      .obj (info ++ [read "input_shape",read "num_classes",read "class_names"])
    | _ => .obj info

def modelList (shelf : Shelf) : Except Raised (List Value) :=
  shelf.listing >>= fun listing => (visible shownModels (listing.getD [])).mapM (modelInfo shelf)

-- A node's process after _init: `attached` is _chip is not None, and _hw_present.
structure Service where
  node : Node
  attached : Bool
  chipNode : Option String
  version : String

-- What _init leaves in the chip's fields. An exception of the default model's
-- load is only logged.
def init (node : Node) (world : World) (defaultModel : String) : Fields :=
  if defaultModel = "" then .fresh else (load node world .fresh (.str defaultModel) true).1

structure Reply where
  code : Nat
  body : Dict

-- A request, with what it meets outside the process. `length` is int(...) of
-- Content-Length, `bytes` what rfile.read gives.
inductive Request where
  | get (path : String) (shelf : Shelf)
  | post (path : String) (length : Except Raised Int) (bytes : List UInt8) (world : World)

def posted (path : String) (body : Dict) (world : World) : Request :=
  let data := encode (dumps (.obj body))
  .post path (.ok data.length) data world

def readBody (length : Except Raised Int) (bytes : List UInt8) : Except Raised Value :=
  length.map fun n =>
    if n = 0 then .obj []
    else ((decode bytes).bind fun text => (loadsWithin maxStrDigits text).toOption).getD (.obj [])

def bodyGet (body : Value) (key : String) : Except Raised Value :=
  match body with
  | .obj members => .ok ((get members key).getD .null)
  | other => .error ⟨"AttributeError",s!"'{typeName other}' object has no attribute 'get'"⟩

def assign (change : Fields → Fields) (rest : Program Fields Raised α) : Program Fields Raised α := .act change fun _ => rest

def look (next : Fields → Program Fields Raised α) : Program Fields Raised α := .act id next

def raiseIt (raised : Raised) : Program Fields Raised α := .done (.error raised)

def nameClasses (node : Node) (m : Model) : Except Raised (List String) → Program Fields Raised Value
  | .error raised => raiseIt raised
  | .ok names =>
    assign (fun fields => {fields with classes := some names}) <|
    look fun fields => .done (.ok (info node fields m names))

def place (node : Node) (world : World) (path : List Char) (m : Model) (mapped : Except Raised Unit) : Program Fields Raised Value :=
  assign (fun fields => {fields with onChip := mapped.isOk}) <|
  assign (fun fields => {fields with mapError := match mapped with
    | .ok () => none
    | .error raised => some raised.text}) <|
  assign (fun fields => {fields with model := some m}) <|
  assign (fun fields => {fields with stem := some (stemPath path)}) <|
  assign (fun fields => {fields with ishape := some m.inputShape}) <|
  assign (fun fields => {fields with n := some m.inputShape.prod}) <|
  nameClasses node m (classes node world path m.outputShape.prod)

-- Chip.load, one assignment after another.
def loadSection (node : Node) (world : World) (name : Value) (allowSoftware : Bool) : Program Fields Raised Value :=
  match modelPath node name with
  | .error raised => raiseIt raised
  | .ok path =>
    if !world.isfile path then raiseIt ⟨"FileNotFoundError","no such model: " ++ String.ofList path⟩
    else
      match world.model path with
      | .error raised => raiseIt raised
      | .ok m =>
        match getMode world (mapMode world path) with
        | .error raised => raiseIt raised
        | .ok mode =>
          match world.map m mode,allowSoftware with
          | .error raised,false => raiseIt raised
          | mapped,_ => place node world path m mapped

def unloadSection : Program Fields Raised Unit :=
  assign (fun fields => {fields with model := none}) <|
  assign (fun fields => {fields with stem := none}) <|
  assign (fun fields => {fields with onChip := false}) <|
  assign (fun fields => {fields with mapError := none}) <| .done (.ok ())

-- r = _chip.infer(vals); on_chip = _chip.on_chip, one look at the fields after
-- another.
def inferSection (node : Node) (world : World) (arr : Tensor) : Program Fields Raised (Prediction × Bool) :=
  look fun fields =>
    match fields.model with
    | none => raiseIt ⟨"RuntimeError","no model mapped"⟩
    | some _ =>
      match asBytes world arr with
      | .error raised => raiseIt raised
      | .ok arr =>
        look fun fields =>
          if some arr.length ≠ fields.n then
            raiseIt ⟨"ValueError",s!"input has {arr.length} values, model expects " ++
              s!"{fields.n.getD 0} {shapeText (fields.ishape.getD [])}"⟩
          else
            look fun fields =>
              match fields.model with
              | none => raiseIt ⟨"AttributeError","'NoneType' object has no attribute 'forward'"⟩
              | some m =>
                match m.forward arr >>= fun logits => argmax logits with
                | .error raised => raiseIt raised
                | .ok cls =>
                  look fun fields =>
                    match className fields.classes cls with
                    | .error raised => raiseIt raised
                    | .ok name =>
                      look fun fields =>
                        let r := ⟨cls,name,world.elapsedUs,node.host,node.device,node.product,fields.stem⟩
                        look fun fields => .done (.ok (r,fields.onChip))

-- dict(info, model=info["name"])
def loaded (info : Value) : Dict :=
  match info with
  | .obj members => setMember members "model" ((get members "name").getD .null)
  | _ => []

def inferred (node : Node) (r : Prediction) (onChip : Bool) : Dict :=
  r.dict ++ [("hardware",if onChip then .str node.product else .null),("mode",.str (if onChip then "on-chip" else "software"))]

def sent : Except Raised Dict → Reply
  | .ok body => ⟨200,body⟩
  | .error raised => ⟨500,errorReply raised⟩

def errorBody (text : String) : Dict := [("error",.str text)]

def replying (program : Program Fields Raised α) (body : α → Dict) : Program Fields Raised Reply :=
  match program with
  | .done result => .done (.ok (sent (result.map body)))
  | .act change next => .act change fun fields => replying (next fields) body

abbrev Task := Locks.Task Fields Raised Reply

def replies (code : Nat) (body : Dict) : Task := .bare (.done (.ok ⟨code,body⟩))

def notFound (path : String) : Task := replies 404 (errorBody ("not found: " ++ path))

def doPost (service : Service) (path : String) (body : Value) (world : World) : Task :=
  if path = "/load" ∨ path = "/reload" then
    match bodyGet body "name" with
    | .error raised => .bare (.done (.ok (sent (.error raised))))
    | .ok name =>
      if !truthy name then replies 400 (errorBody "no model name")
      else if !service.attached then replies 503 (errorBody "no akida device on this node")
      else .guarded (replying (loadSection service.node world name true) loaded)
  else if path = "/unload" then
    if service.attached then .guarded (replying unloadSection fun _ => [("ok",.bool true)])
    else replies 200 [("ok",.bool true)]
  else if path = "/infer" then
    if !service.attached then replies 503 (errorBody "no akida device on this node")
    else
      match bodyGet body "input" with
      | .error raised => .bare (.done (.ok (sent (.error raised))))
      | .ok .null => replies 400 (errorBody "no input")
      | .ok vals =>
        .guarded (replying (inferSection service.node world (.json vals)) fun (r,onChip) => inferred service.node r onChip)
  else notFound path

def healthBody (service : Service) (stem : Option String) (onChip : Bool) (mapError : Option String) : Dict :=
  let chip := fun (text : String) => if service.attached then Value.str text else .null
  [("host",.str service.node.host),
    ("chip_node",service.chipNode.elim .null .str),
    ("model",stem.elim .null .str),
    ("akida_mapped",.bool onChip),
    ("hardware_present",.bool service.attached),
    ("device",chip service.node.device),
    ("product",chip service.node.product),
    ("map_error",mapError.elim .null .str),
    ("akida_version",.str service.version)]

-- do_GET of /health looks at the chip three times.
def health (service : Service) : Program Fields Raised Reply :=
  if service.attached then
    look fun a => look fun b => look fun c => .done (.ok ⟨200,healthBody service a.stem b.onChip c.mapError⟩)
  else .done (.ok ⟨200,healthBody service none false none⟩)

def modelsReply (shelf : Shelf) (current : Value) : Except Raised Reply :=
  (modelList shelf).map fun listed => ⟨200,[("models",.arr listed),("current",current)]⟩

def models (service : Service) (shelf : Shelf) : Program Fields Raised Reply :=
  if service.attached then
    look fun a =>
      if a.stem.any (· ≠ "") then look fun b => .done (modelsReply shelf (.obj [("name",b.stem.elim .null .str)]))
      else .done (modelsReply shelf .null)
  else .done (modelsReply shelf .null)

def doGet (service : Service) (path : String) (shelf : Shelf) : Task :=
  if path = "/health" then .bare (health service)
  else if path = "/models" then .bare (models service shelf)
  else notFound path

-- What a thread of the server does with its request. An exception outside
-- do_POST's try ends it without a reply.
def handle (service : Service) : Request → Task
  | .get path shelf => doGet service path shelf
  | .post path length bytes world =>
    match readBody length bytes with
    | .error raised => .bare (.done (.error raised))
    | .ok body => doPost service path body world

end SymphonyAkida.HttpServer
