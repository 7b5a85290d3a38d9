import SymphonyAkida.Library.Pipe

namespace SymphonyAkida.ShardWire
open Json Bytes Pipe

abbrev Dict := List (String × Value)

def get (dict : Dict) (key : String) : Option Value := dict.lookup key

-- type(exc).__name__ and str(exc).
structure Raised where
  kind : String
  text : String

-- What the code leaves to the interpreter and the operating system: how many
-- bytes a read returns, the pieces in which what was sent arrives, and the texts
-- and conversions no request of the container asks for.
structure Runtime where
  short : List UInt8 → Nat → Nat
  arrive : List UInt8 → List (List UInt8)
  arrives : ∀ bytes, (arrive bytes).flatten = bytes
  decodeError : List UInt8 → String
  otherInt : Value → Except Raised Int
  returnCode : String

def typeName : Value → String
  | .null => "NoneType"
  | .bool _ => "bool"
  | .int _ => "int"
  | .float _ => "float"
  | .str _ => "str"
  | .arr _ => "list"
  | .obj _ => "dict"

def zeroText (c : Char) : Bool := c == '0' || c == '.' || c == '-'

def truthy : Value → Bool
  | .null => false
  | .bool value => value
  | .int value => value != 0
  | .float text => !(text.toList.takeWhile fun c => c != 'e' && c != 'E').all zeroText
  | .str text => text != ""
  | .arr items => !items.isEmpty
  | .obj members => !members.isEmpty

def truthyAt (dict : Dict) (key : String) : Bool := (get dict key).any truthy

def toInt (rt : Runtime) : Value → Except Raised Int
  | .int value => .ok value
  | .bool value => .ok (if value then 1 else 0)
  | other => rt.otherInt other

def slice (shm : List UInt8) (n : Int) : List UInt8 :=
  shm.take (if 0 ≤ n then n.toNat else (shm.length+n).toNat)

-- The digits int and str take in the worker's Python 3.12.
def maxStrDigits : Option Nat := some 4300

-- json.loads(line.decode("utf-8")), as far as request.get needs it.
def parseRequest (rt : Runtime) (line : List UInt8) : Except Raised Dict :=
  match decode line with
  | none => .error ⟨"UnicodeDecodeError",rt.decodeError line⟩
  | some text =>
    match loadsWithin maxStrDigits text with
    | .error fault => .error ⟨fault.kind,fault.text text⟩
    | .ok (.obj members) => .ok members
    | .ok other => .error ⟨"AttributeError",s!"'{typeName other}' object has no attribute 'get'"⟩

-- The payload of a request: `none` while _read_exact waits for its bytes.
def readPayload (rt : Runtime) (shm : Option (List UInt8)) (request : Dict) (stdin : List UInt8) :
    Option (Except Raised (Option (List UInt8)) × List UInt8) :=
  match get request "n" with
  | none => some (.ok none,stdin)
  | some value =>
    match toInt rt value with
    | .error raised => some (.error raised,stdin)
    | .ok n =>
      match truthyAt request "inline",shm with
      | false,some buffer => some (.ok (some (slice buffer n)),stdin)
      | _,_ => (readExact rt.short n.toNat n.toNat stdin).map fun (payload,rest) => (.ok (some payload),rest)

abbrev Handler (σ : Type) := σ → Dict → Option (List UInt8) → σ × Except Raised Dict

def errorReply (raised : Raised) : Dict := [("error",.str s!"{raised.kind}: {raised.text}")]

def reply : Except Raised Dict → Dict
  | .ok response => response
  | .error raised => errorReply raised

def line (dict : Dict) : List UInt8 := encode (dumps (.obj dict) ++ ['\n'])

-- A reply that cannot be dumped ends serve: json.dumps stands outside the try.
def respond (state : σ) (stdin : List UInt8) (response : Dict) : Turn σ :=
  if (Value.obj response).within maxStrDigits then .goes state stdin (line response) else .stops stdin

def serveRequest (rt : Runtime) (shm : Option (List UInt8)) (handler : Handler σ) (state : σ) (request : Dict)
    (stdin : List UInt8) : Turn σ :=
  match readPayload rt shm request stdin with
  | none => .waits
  | some (.error raised,rest) => .goes state rest (line (errorReply raised))
  | some (.ok payload,rest) =>
    let (state,response) := handler state request payload
    respond state rest (reply response)

def serveTurn (rt : Runtime) (shm : Option (List UInt8)) (handler : Handler σ) (state : σ) (stdin : List UInt8) :
    Turn σ :=
  match readLine stdin with
  | none => .waits
  | some (header,rest) =>
    if strip header = [] then .goes state rest []
    else
      match parseRequest rt (strip header) with
      | .error raised => .goes state rest (line (errorReply raised))
      | .ok request =>
        if get request "action" matches some (.str "shutdown") then .stops rest
        else serveRequest rt shm handler state request rest

-- The container's end of a worker: the buffer it allocated, and whether the
-- worker could map it too.
structure Link (σ : Type) extends Server σ where
  shm : Option (List UInt8)
  mapped : Bool

def view (mapped : Bool) (shm : Option (List UInt8)) : Option (List UInt8) := if mapped then shm else none

-- The framing request chooses: the header it sends, the buffer it leaves.
def frame (shm : Option (List UInt8)) (header : Dict) (payload : Option (List UInt8)) :
    Dict × Option (List UInt8) :=
  match payload with
  | none => (header,shm)
  | some bytes =>
    let header := setMember header "n" (.int bytes.length)
    match shm with
    | none => (setMember header "inline" (.bool true),none)
    | some buffer =>
      if buffer.length < bytes.length then (setMember header "inline" (.bool true),some buffer)
      else (header,some (bytes ++ buffer.drop bytes.length))

-- One write(2) takes at most so many bytes.
def writeMax : Nat := 0x7ffff000

-- stdin.write(data) of a Popen with bufsize=0: it returns how much was taken, and
-- nobody sends the rest.
def put (data : List UInt8) : List UInt8 := data.take writeMax

inductive Result (α : Type) where
  | returned (reply : α)
  | raised (exc : Raised)
  | waits

def stripNewlines (text : List Char) : List Char := (text.reverse.dropWhile (· == '\n')).reverse

def parseReply (rt : Runtime) (line : List UInt8) : Result Value :=
  match decode line with
  | none => .raised ⟨"UnicodeDecodeError",rt.decodeError line⟩
  | some text =>
    match loads (stripNewlines text) with
    | .error fault => .raised ⟨"JSONDecodeError",fault.text (stripNewlines text)⟩
    | .ok value => .returned value

-- Py312Worker.request; no write reaches a worker that has stopped.
def request (rt : Runtime) (handler : Handler σ) (link : Link σ) (header : Dict) (payload : Option (List UInt8)) :
    Link σ × Result Value :=
  let (header,shm) := frame link.shm header payload
  let written := put (line header) ++ (if truthyAt header "inline" then put (payload.getD []) else [])
  if !link.alive then ({link with shm},.raised ⟨"BrokenPipeError","[Errno 32] Broken pipe"⟩)
  else
    match exchange (serveTurn rt (view link.mapped shm) handler) (rt.arrive written) link.toServer with
    | (server,some reply) => ({link with toServer := server,shm},parseReply rt reply)
    | (server,none) => ({link with toServer := server,shm},
        if server.alive then .waits else .raised ⟨"RuntimeError",s!"worker died mid-invoke (rc={rt.returnCode})"⟩)

def session (rt : Runtime) (handler : Handler σ) (link : Link σ) :
    List (Dict × Option (List UInt8)) → Link σ × List (Result Value)
  | [] => (link,[])
  | (header,payload) :: rest =>
    let (link,result) := request rt handler link header payload
    let (link,results) := session rt handler link rest
    (link,result :: results)

end SymphonyAkida.ShardWire
