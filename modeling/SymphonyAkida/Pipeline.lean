import Mathlib.Algebra.Order.Floor.Defs
import SymphonyAkida.Split
import SymphonyAkida.Decode

namespace SymphonyAkida.Pipeline
open TiledShard Arrays Outcome
variable {K : Type} [Field K] [LinearOrder K]

-- The fields of <model>_meta.json that the stages read; `inputSize` is
-- input_shape[0].
structure Meta (K : Type) [Field K] where
  tileLayout : String
  frameSize : Nat
  inputSize : Nat
  anchors : List (K × K)
  numClasses : Nat
  objThresh : K
  nmsThresh : K
  maxBoxes : Option Int
  postMergeThresh : K
  merge : MergeParams K
  classNames : List String

abbrev Predict (K : Type) (inputSize : Nat) := Image inputSize inputSize 3 → Except Error (Output K)

-- The files under the pipeline directory, by path.
inductive File (K : Type) where
  | bytes (data : List UInt8)
  | npy (packed : Classes K)

abbrev Bus (K : Type) := String → Option (File K)

def Bus.write (bus : Bus K) (path : String) (file : File K) : Bus K :=
  fun other => if other = path then some file else bus other

def join (directory name : String) : String :=
  if directory.toList.getLast?.all (· == '/') then directory ++ name else directory ++ "/" ++ name

def segPath (directory : String) (index : Nat) : String := join directory s!"seg{index}.bin"

def detPath (directory : String) (index : Nat) : String := join directory s!"det{index}.npy"

structure Segmented where
  nTiles : Nat
  tileNames : List String

def writeCrops (directory : String) (bus : Bus K) : Nat → List (Image size size 3) → Bus K
  | _,[] => bus
  | index,crop :: rest => writeCrops directory (bus.write (segPath directory index) (.bytes (ravel crop))) (index+1) rest

def segment (meta_ : Meta K) (directory : String) (payload : List UInt8) (bus : Bus K) :
    Except Error (Bus K × Segmented) := do
  let tiles ← makeTileLayout meta_.tileLayout meta_.frameSize meta_.inputSize
  let frame ← orRaise .numpyValueError (unravel meta_.frameSize meta_.frameSize 3 payload)
  let crops ← splitFrame frame tiles meta_.inputSize
  return (writeCrops directory bus 0 crops,⟨tiles.length,tiles.map (·.name)⟩)

def predictTile (predict : Predict K inputSize) (tile : List UInt8) : Except Error (Output K) :=
  match unravel inputSize inputSize 3 tile with
  | none => .error (.valueError s!"input has {tile.length} values, model expects {inputSize*inputSize*3} [{inputSize}, {inputSize}, 3]")
  | some image => predict image

-- np.column_stack([boxes, scores, labels.astype(np.float32), classes])
def stackRows (np : Numpy K) : List (Box K) → List K → List Int → List (List K) → List (List K)
  | box :: boxes,score :: scores,label :: labels,row :: rows =>
    ([box.x1,box.y1,box.x2,box.y2,score,np.float32 label] ++ row) :: stackRows np boxes scores labels rows
  | _,_,_,_ => []

theorem stackRows_width (np : Numpy K) (boxes : List (Box K)) (scores : List K) (labels : List Int)
    (classes : Classes K) : ∀ row ∈ stackRows np boxes scores labels classes.rows, row.length = 6+classes.width := by
  obtain ⟨width,rows,rect⟩ := classes
  dsimp only
  induction rows generalizing boxes scores labels with
  | nil => cases boxes <;> cases scores <;> cases labels <;> simp [stackRows]
  | cons row rows ih =>
    cases boxes <;> cases scores <;> cases labels <;> simp only [stackRows,List.not_mem_nil,false_implies,implies_true]
    intro stacked member
    rcases List.mem_cons.mp member with rfl | later
    · simp [rect row List.mem_cons_self]
      omega
    · exact ih _ _ _ (fun other inside => rect other (List.mem_cons_of_mem _ inside)) stacked later

def castRows (np : Numpy K) (array : Classes K) : Classes K where
  width := array.width
  rows := array.rows.map (·.map np.float32)
  rect := by
    intro row member
    obtain ⟨old,inside,rfl⟩ := List.mem_map.mp member
    rw [List.length_map]
    exact array.rect old inside

-- One float32 (N, 4+1+1+num_classes) array: xyxy, score, label, class scores.
def pack (np : Numpy K) (numClasses : Nat) (entry : TileEntry K) : Except Error (Classes K) :=
  if entry.boxes.length = 0 then .ok (castRows np ⟨6+numClasses,[],by simp⟩)
  else
    match entry.classes with
    | none => .error .numpyValueError
    | some classes => .ok (castRows np ⟨6+classes.width,stackRows np entry.boxes entry.scores entry.labels classes.rows,
        stackRows_width np entry.boxes entry.scores entry.labels classes⟩)

-- The reply of the inference stage, without timings and the chip's identity.
structure Detected where
  tile : Nat
  nBoxes : Nat

-- TileDetector.__call__; a file of the other kind does not parse.
def detect (np : Numpy K) (meta_ : Meta K) (predict : Predict K meta_.inputSize) (directory : String) (bus : Bus K)
    (tile : Nat) : Except Error (Bus K × Detected) := do
  let crop ← (match bus (segPath directory tile) with
    | none => .error (.fileNotFound (segPath directory tile))
    | some (.npy _) => .error .numpyValueError
    | some (.bytes crop) => .ok crop)
  let output ← predictTile predict crop
  let entry ← decodeTile np output meta_.anchors meta_.numClasses meta_.objThresh meta_.nmsThresh
  let packed ← pack np meta_.numClasses entry
  return (bus.write (detPath directory tile) (.npy packed),⟨tile,entry.boxes.length⟩)

-- array.astype(np.int64) truncates.
def toInt64 [FloorRing K] (x : K) : Int := if 0 ≤ x then ⌊x⌋ else ⌈x⌉

def boxOf (row : List K) : Box K := ⟨row.getD 0 0,row.getD 1 0,row.getD 2 0,row.getD 3 0⟩

def unpack [FloorRing K] (numClasses : Nat) (packed : Classes K) : Except Error (TileEntry K) :=
  if packed.width < 6 then .error .indexError
  else .ok {
    boxes := packed.rows.map boxOf
    scores := packed.rows.map (·.getD 4 0)
    labels := packed.rows.map fun row => toInt64 (row.getD 5 0)
    classes := some ⟨min numClasses (packed.width-6),packed.rows.map fun row => (row.drop 6).take numClasses,by
      intro row member
      obtain ⟨old,inside,rfl⟩ := List.mem_map.mp member
      rw [List.length_take,List.length_drop,packed.rect old inside]⟩
    scoresParallel := by simp
    labelsParallel := by simp
    classesParallel := by
      intro array same
      cases Option.some.inj same
      simp}

def readDetections [FloorRing K] (numClasses : Nat) (directory : String) (bus : Bus K) (index : Nat) :
    Except Error (TileEntry K) :=
  match bus (detPath directory index) with
  | none => .error (.fileNotFound (detPath directory index))
  | some (.bytes _) => .error .numpyValueError
  | some (.npy packed) => unpack numClasses packed

structure FrameResult (K : Type) where
  boxes : List (Box K)
  scores : List K
  labels : List Int
  truncated : List Bool
deriving DecidableEq

-- array[keep] for a boolean mask.
def mask (array : List α) (keep : List Bool) : Except Error (List α) :=
  if array.length = keep.length then take array (maskIndices keep) else .error .indexError

-- merged.scores >= post_thresh, and the four arrays it keeps.
def gate (postThresh : K) (merged : TileDetections K) : Except Error (FrameResult K) := do
  let keep := merged.scores.map fun score => decide (postThresh ≤ score)
  let boxes ← mask merged.boxes keep
  let scores ← mask merged.scores keep
  let labels ← mask merged.labels keep
  let truncated ← orRaise .typeError merged.truncated
  let truncated ← mask truncated keep
  return ⟨boxes,scores,labels,truncated⟩

-- names[label], from the end when the label is negative.
def item (names : List α) (label : Int) : Option α :=
  if 0 ≤ label then names[label.toNat]?
  else if 0 ≤ names.length+label then names[(names.length+label).toNat]? else none

-- histogram[name] = histogram.get(name, 0) + 1
def count : List (String × Nat) → String → List (String × Nat)
  | [],name => [(name,1)]
  | (key,n) :: rest,name => if key = name then (key,n+1) :: rest else (key,n) :: count rest name

def histogram (names : List String) (labels : List Int) : Except Error (List (String × Nat)) :=
  labels.foldlM (fun counts label => (orRaise .indexError (item names label)).map (count counts)) []

structure Stitched (K : Type) where
  result : FrameResult K
  classHist : List (String × Nat)

-- The overrides of a stitch request; max_boxes may be given as null.
structure StitchRequest (K : Type) where
  maxBoxes : Option (Option Int) := none
  postThresh : Option K := none

def StitchRequest.cap (request : StitchRequest K) (meta_ : Meta K) : Option Int := request.maxBoxes.getD meta_.maxBoxes

def StitchRequest.thresh (request : StitchRequest K) (meta_ : Meta K) : K := request.postThresh.getD meta_.postMergeThresh

-- Stitcher.__call__
def stitch [FloorRing K] (meta_ : Meta K) (directory : String) (bus : Bus K) (request : StitchRequest K) :
    Except Error (Stitched K) := do
  let tiles ← makeTileLayout meta_.tileLayout meta_.frameSize meta_.inputSize
  let perTile ← (List.range tiles.length).mapM (readDetections meta_.numClasses directory bus)
  let merged ← mergeTileDetections perTile tiles meta_.frameSize {meta_.merge with maxBoxes := request.cap meta_}
  let result ← gate (request.thresh meta_) merged
  let hist ← histogram meta_.classNames result.labels
  return ⟨result,hist⟩

-- A frame through the three stages. `schedule` is the order in which the
-- inference tasks of n tiles run.
def distributed [FloorRing K] (np : Numpy K) (meta_ : Meta K) (predict : Predict K meta_.inputSize)
    (schedule : Nat → List Nat) (directory : String) (bus : Bus K) (payload : List UInt8) (request : StitchRequest K) :
    Except Error (Stitched K) := do
  let (bus,segmented) ← segment meta_ directory payload bus
  let bus ← (schedule segmented.nTiles).foldlM (fun bus tile =>
    (detect np meta_ predict directory bus tile).map (·.1)) bus
  stitch meta_ directory bus request

-- The loop body of verify_reference's main, in one process.
def inProcess (np : Numpy K) (meta_ : Meta K) (predict : Predict K meta_.inputSize)
    (frame : Image meta_.frameSize meta_.frameSize 3) (maxBoxes : Option Int) : Except Error (TileDetections K) := do
  let tiles ← makeTileLayout meta_.tileLayout meta_.frameSize meta_.inputSize
  let crops ← splitFrame frame tiles meta_.inputSize
  let outputs ← crops.mapM predict
  let perTile ← outputs.mapM fun output =>
    decodeTile np output meta_.anchors meta_.numClasses meta_.objThresh meta_.nmsThresh
  mergeTileDetections perTile tiles meta_.frameSize {meta_.merge with maxBoxes}

end SymphonyAkida.Pipeline
