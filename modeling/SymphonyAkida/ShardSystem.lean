import SymphonyAkida.Library.Jobs
import SymphonyAkida.Pipeline
import SymphonyAkida.ShardClient
import Mathlib.Data.Rat.Floor

namespace SymphonyAkida.ShardSystem
open TiledShard Arrays Outcome Jobs ShardClient

-- _tile_count(meta); none is the KeyError.
def tileCount (layout : String) : Option Nat :=
  [("whole",1),("quadrants_center",5),("quadrants_global",5),("quadrants_center_global",6)].lookup layout

-- The files of the shared volume and the directories on it.
structure Disk where
  files : Pipeline.Bus ℚ
  dirs : String → Bool

-- os.makedirs(directory, exist_ok=True)
def Disk.makedirs (disk : Disk) (directory : String) : Disk :=
  {disk with dirs := fun other => decide (other = directory) || disk.dirs other}

-- open(path, "wb"): a file of the directory, empty until it is written.
def Disk.create (disk : Disk) (directory path : String) : Disk :=
  if disk.dirs directory then {disk with files := disk.files.write path (.bytes [])} else disk

-- The write through the handle. A file removed meanwhile stays away.
def Disk.fill (disk : Disk) (path : String) (file : Pipeline.File ℚ) : Disk :=
  if (disk.files path).isSome then {disk with files := disk.files.write path file} else disk

def under (directory path : String) : Bool := (directory.toList ++ ['/']).isPrefixOf path.toList

-- shutil.rmtree(directory, ignore_errors=True)
def Disk.rmtree (disk : Disk) (directory : String) : Disk where
  files path := if under directory path then none else disk.files path
  dirs other := if other = directory || under directory other then false else disk.dirs other

-- What main and the services are given: the model's sidecar and the chips'
-- network, the options, and the frames as FramePool.read(i) returns them.
structure Setup where
  np : Numpy ℚ
  meta_ : Pipeline.Meta ℚ
  predict : Pipeline.Predict ℚ meta_.inputSize
  pipeDir : String
  pid : Nat
  count : Nat
  inFlight : Nat
  nTiles : Nat
  counted : tileCount meta_.tileLayout = some nTiles
  frame : Nat → Nat × List UInt8
  request : Pipeline.StitchRequest ℚ
  dumps : Bool

structure Worker where
  host : String
  inferenceUs : Nat
  decodeUs : Nat
  device : String
  product : String
  model : String

inductive Task where
  | seg (i : Nat)
  | inf (i tile : Nat)
  | stitch (i : Nat)
deriving DecidableEq

def Task.frame : Task → Nat
  | .seg i | .inf i _ | .stitch i => i

abbrev Job := Program Disk Error Reply

section
variable (setup : Setup)

def Setup.config : Config where
  count := setup.count
  inFlight := setup.inFlight
  nTiles := setup.nTiles
  sample i := (setup.frame i).1
  dumps := setup.dumps

-- os.path.join(PIPE_DIR, image_id), where image_id is "<run_id>_<i>"
def Setup.imageId (i : Nat) : String := "r" ++ toString setup.pid ++ "_" ++ toString i

def Setup.directory (i : Nat) : String := Pipeline.join setup.pipeDir (setup.imageId i)

-- open(path, "wb"), the write, and what follows.
def save (directory path : String) (file : Pipeline.File ℚ) (next : Job) : Job :=
  .act (·.create directory path) fun disk =>
    if disk.dirs directory then .act (·.fill path file) fun _ => next
    else .done (.error (.fileNotFound path))

def Setup.cut (i : Nat) : Except Error (List (Image setup.meta_.inputSize setup.meta_.inputSize 3)) := do
  let tiles ← makeTileLayout setup.meta_.tileLayout setup.meta_.frameSize setup.meta_.inputSize
  let frame ← orRaise .numpyValueError (unravel setup.meta_.frameSize setup.meta_.frameSize 3 (setup.frame i).2)
  splitFrame frame tiles setup.meta_.inputSize

def saveCrops (directory : String) (next : Job) : Nat → List (Image size size 3) → Job
  | _,[] => next
  | index,crop :: rest =>
    save directory (Pipeline.segPath directory index) (.bytes (ravel crop)) (saveCrops directory next (index+1) rest)

def segmentJob (i : Nat) : Job :=
  match setup.cut i with
  | .error raised => .done (.error raised)
  | .ok crops => .act (·.makedirs (setup.directory i)) fun _ =>
    saveCrops (setup.directory i) (.done (.ok {imageId := some i,ok := true})) 0 crops

def readCrop (directory : String) (tile : Nat) (files : Pipeline.Bus ℚ) : Except Error (List UInt8) :=
  match files (Pipeline.segPath directory tile) with
  | none => .error (.fileNotFound (Pipeline.segPath directory tile))
  | some (.npy _) => .error .numpyValueError
  | some (.bytes crop) => .ok crop

def Setup.decoded (crop : List UInt8) : Except Error (Classes ℚ) := do
  let output ← Pipeline.predictTile setup.predict crop
  let entry ← decodeTile setup.np output setup.meta_.anchors setup.meta_.numClasses setup.meta_.objThresh setup.meta_.nmsThresh
  Pipeline.pack setup.np setup.meta_.numClasses entry

def tileReply (worker : Worker) (i : Nat) : Reply :=
  {imageId := some i,ok := true,host := some worker.host,inferenceUs := worker.inferenceUs,decodeUs := worker.decodeUs,
   device := some worker.device,product := some worker.product,model := some worker.model}

def detectJob (worker : Worker) (i tile : Nat) : Job :=
  .act id fun disk =>
    match readCrop (setup.directory i) tile disk.files >>= setup.decoded with
    | .error raised => .done (.error raised)
    | .ok packed => save (setup.directory i) (Pipeline.detPath (setup.directory i) tile) (.npy packed)
      (.done (.ok (tileReply worker i)))

-- The labels are positions in class_names, never negative.
def stitchReply (i : Nat) (stitched : Pipeline.Stitched ℚ) : Reply :=
  {imageId := some i,ok := true
   boxes := some (stitched.result.boxes.map fun box => [box.x1,box.y1,box.x2,box.y2])
   scores := some stitched.result.scores
   labels := some (stitched.result.labels.map Int.toNat)
   truncated := some stitched.result.truncated
   classHist := stitched.classHist}

def Setup.merged (tiles : List Tile) (perTile : List (TileEntry ℚ)) : Except Error (Pipeline.Stitched ℚ) := do
  let merged ← mergeTileDetections perTile tiles setup.meta_.frameSize {setup.meta_.merge with maxBoxes := setup.request.cap setup.meta_}
  let result ← Pipeline.gate (setup.request.thresh setup.meta_) merged
  let hist ← Pipeline.histogram setup.meta_.classNames result.labels
  return ⟨result,hist⟩

-- The loop of Stitcher over the tiles that are left.
def gather (i : Nat) (finish : List (TileEntry ℚ) → Except Error (Pipeline.Stitched ℚ)) :
    List Nat → List (TileEntry ℚ) → Job
  | [],perTile => .done ((finish perTile).map (stitchReply i))
  | index :: rest,perTile =>
    .act id fun disk =>
      match Pipeline.readDetections setup.meta_.numClasses (setup.directory i) disk.files index with
      | .error raised => .done (.error raised)
      | .ok entry => gather i finish rest (perTile ++ [entry])

def stitchJob (i : Nat) : Job :=
  match makeTileLayout setup.meta_.tileLayout setup.meta_.frameSize setup.meta_.inputSize with
  | .error raised => .done (.error raised)
  | .ok tiles => gather setup i (setup.merged tiles) (List.range tiles.length) []

def program (worker : Worker) : Task → Job
  | .seg i => segmentJob setup i
  | .inf i tile => detectJob setup worker i tile
  | .stitch i => stitchJob setup i

end

structure Sys where
  client : State
  disk : Disk
  pool : Pool Task Disk Error Reply

def Setup.start (setup : Setup) (disk : Disk) : Sys := ⟨ShardClient.start setup.config,disk,.empty⟩

def waiting (s : State) : Task → Bool
  | .seg i => s.segSess.pending.contains i
  | .inf i tile => s.infSess.pending.contains ⟨some i,tile⟩
  | .stitch i => s.stitchSess.pending.contains i

-- What the container makes of its worker's answer: the image id is put into
-- the reply either way.
def textOf (i : Nat) : Except Error Reply → Reply
  | .ok reply => reply
  | .error _ => {imageId := some i}

def outOf (i : Nat) (task : α) : Output Error Reply → Out α
  | .answered result => {task,isSuccessful := true,text := some (textOf i result)}
  | .lost => {task,isSuccessful := false,text := none}

def fetchOf (task : Task) (output : Output Error Reply) : ShardClient.Action :=
  match task with
  | .seg i => .segFetch (outOf i i output) false
  | .inf i tile => .infFetch (outOf i ⟨some i,tile⟩ output) false
  | .stitch i => .stitchFetch (outOf i i output) false

inductive Thread | segSubmit | segNext | infNext | stitchNext | watchdog

def Thread.action : Thread → ShardClient.Action
  | .segSubmit => .segSubmit
  | .segNext => .segNext
  | .infNext => .infNext
  | .stitchNext => .stitchNext
  | .watchdog => .watchdog

def Finish.removes : Finish → Option Nat
  | .remove imageId => imageId
  | _ => none

def removes (s : State) : Thread → Option Nat
  | .segNext => match s.seg with | .finish at_ => Finish.removes at_ | _ => none
  | .infNext => match s.inf with | .finish at_ => Finish.removes at_ | _ => none
  | .stitchNext => match s.stitch with | .finish at_ => Finish.removes at_ | _ => none
  | _ => none

inductive Action where
  | client (thread : Thread)
  | fetch (task : Task)
  | service (work : Work Task Worker Error)

-- One step of the system: of a thread of the client, of a service, or the
-- delivery of an output.
def step (setup : Setup) (sys : Sys) : Action → Option Sys
  | .client thread =>
    (ShardClient.step setup.config sys.client thread.action).map fun client =>
      {sys with client := client
                disk := (removes sys.client thread).elim sys.disk fun i => sys.disk.rmtree (setup.directory i)}
  | .fetch task =>
    (sys.pool.outs task).bind fun output =>
      (ShardClient.step setup.config sys.client (fetchOf task output)).map fun client =>
        {sys with client := client,pool := sys.pool.setOut task none}
  | .service work =>
    (sys.pool.step (program setup) (waiting sys.client) sys.disk work).map fun (pool,disk) => {sys with pool,disk}

-- What one process makes of a frame, as verify_reference composes it.
def Setup.reference (setup : Setup) (i : Nat) : Except Error (Pipeline.FrameResult ℚ) := do
  let frame ← orRaise .numpyValueError (unravel setup.meta_.frameSize setup.meta_.frameSize 3 (setup.frame i).2)
  let merged ← Pipeline.inProcess setup.np setup.meta_ setup.predict frame (setup.request.cap setup.meta_)
  Pipeline.gate (setup.request.thresh setup.meta_) merged

def recordOf (sample : Nat) (result : Pipeline.FrameResult ℚ) : Record where
  sample := some sample
  boxes := some (result.boxes.map fun box => [box.x1,box.y1,box.x2,box.y2])
  scores := some result.scores
  labels := some (result.labels.map Int.toNat)
  truncated := some result.truncated

end SymphonyAkida.ShardSystem
