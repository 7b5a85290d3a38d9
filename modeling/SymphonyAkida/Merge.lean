import SymphonyAkida.Suppression
import SymphonyAkida.FusionSpec

namespace SymphonyAkida.TiledShard
variable {K : Type} [Field K] [LinearOrder K]

-- A proof with a name, for the numerals of the definitions.
theorem two_atLeastTwo : Nat.AtLeastTwo 2 := ⟨Nat.le_refl 2⟩

attribute [local instance] two_atLeastTwo

-- One (boxes, scores, labels, classes) entry of per_tile: parallel arrays.
structure TileEntry (K : Type) where
  boxes : List (Box K)
  scores : List K
  labels : List Int
  classes : Option (Classes K)
  scoresParallel : scores.length = boxes.length
  labelsParallel : labels.length = boxes.length
  classesParallel : ∀ array, classes = some array → array.rows.length = boxes.length

-- np.asarray(..., dtype=np.float32) of the boxes, the scores and the classes.
def TileEntry.cast (float32 : K → K) (entry : TileEntry K) : TileEntry K where
  boxes := entry.boxes.map (·.map float32)
  scores := entry.scores.map float32
  labels := entry.labels
  classes := entry.classes.map fun array => ⟨array.width,array.rows.map (·.map float32),by
    intro row member
    obtain ⟨old,held,rfl⟩ := List.mem_map.mp member
    rw [List.length_map,array.rect old held]⟩
  scoresParallel := by rw [List.length_map,List.length_map,entry.scoresParallel]
  labelsParallel := by rw [List.length_map,entry.labelsParallel]
  classesParallel := by
    intro array held
    obtain ⟨old,kept,rfl⟩ := Option.map_eq_some_iff.mp held
    rw [List.length_map,List.length_map,entry.classesParallel old kept]

structure MergeParams (K : Type) [Field K] where
  nmsIou : K := 1/2
  iosThresh : K := 7/10
  seamIou : K := 1/5
  edgeEps : K := 1/20
  fuseSeams : Bool := true
  preferComplete : Bool := true
  onlyTruncatedVictims : Bool := true
  clip : Bool := true
  maxBoxes : Option Int := none
  truncatedPenalty : K := 2/5

-- all_boxes, all_scores, and so on, concatenated as they grow. The class
-- arrays stay apart, since np.concatenate may refuse them.
structure Pool (K : Type) where
  numClasses : Option Nat := none
  boxes : List (Box K) := []
  scores : List K := []
  labels : List Int := []
  classes : List (Classes K) := []
  tileIds : List Nat := []
  seams : List Seams := []

-- `float32` rounds; arrays that hold float32 numbers already are left alone.
def gatherTile (frameSize : Int) (edgeEps : K) (pool : Pool K) (tileId : Nat) (tile : Tile)
    (entry : TileEntry K) (float32 : K → K := id) : Except Error (Pool K) :=
  let entry := entry.cast float32
  -- Read even from an empty tile.
  let pool := {pool with numClasses := (entry.classes.map (·.width)).or pool.numClasses}
  if entry.boxes.length = 0 then .ok pool
  else
    (tileBoxesToFrame entry.boxes tile frameSize).map fun framed => {pool with
      boxes := pool.boxes ++ framed
      scores := pool.scores ++ entry.scores
      labels := pool.labels ++ entry.labels
      classes := pool.classes ++ entry.classes.toList
      tileIds := pool.tileIds ++ List.replicate entry.boxes.length tileId
      seams := pool.seams ++ seamTruncations entry.boxes tile frameSize edgeEps}

-- for tile_id, (tile, entry) in enumerate(zip(tiles, per_tile))
def gather (frameSize : Int) (edgeEps : K) (tileId : Nat) (pairs : List (Tile × TileEntry K)) (pool : Pool K)
    (float32 : K → K := id) : Except Error (Pool K) :=
  match pairs with
  | [] => .ok pool
  | (tile,entry) :: rest =>
    gatherTile frameSize edgeEps pool tileId tile entry float32 >>= fun pool =>
      gather frameSize edgeEps (tileId+1) rest pool float32

def concatClasses : List (Classes K) → Except Error (Option (Classes K))
  | [] => .ok none
  | first :: rest =>
    if same : ∀ array ∈ rest, array.width = first.width then
      .ok (some ⟨first.width,first.rows ++ rest.flatMap (·.rows),by
        intro row member
        rcases List.mem_append.mp member with old | later
        · exact first.rect row old
        · obtain ⟨array,inside,held⟩ := List.mem_flatMap.mp later
          exact (array.rect row held).trans (same array inside)⟩)
    else .error .numpyValueError

def Pool.detections (pool : Pool K) : Except Error (TileDetections K) :=
  (concatClasses pool.classes).map fun classes => {
    boxes := pool.boxes
    scores := pool.scores
    labels := pool.labels
    classes
    tileIds := pool.tileIds
    truncated := some (pool.seams.map (!·.isEmpty))}

-- The stages up to and including NMS, in merge_tile_detections' order.
def nmsStage (params : MergeParams K) (pool : Pool K) : Except Error (TileDetections K) := do
  let detections ← pool.detections
  let detections ← (
    if params.fuseSeams then fuseSeamFragments detections pool.seams params.seamIou
    else .ok detections)
  let detections ← (
    if params.iosThresh ≤ 1 then
      suppressContained detections params.iosThresh params.preferComplete params.onlyTruncatedVictims
    else .ok detections)
  perClassNms detections params.nmsIou params.preferComplete

def hasArea (box : Box K) : Bool := 0 < box.x2-box.x1 && 0 < box.y2-box.y1

def clipStage (detections : TileDetections K) : Except Error (TileDetections K) :=
  let detections := {detections with boxes := detections.boxes.map Box.clip}
  indexMask detections (detections.boxes.map hasArea)

def scaled (truncatedPenalty : K) (score : K) (truncated : Bool) : K :=
  score*(if truncated then truncatedPenalty else 1)

def penalize (truncatedPenalty : K) (detections : TileDetections K) : TileDetections K :=
  match detections.truncated with
  | none => detections
  | some truncated =>
    if truncatedPenalty = 1 then detections
    else {detections with scores := List.zipWith (scaled truncatedPenalty) detections.scores truncated}

def sliceTo (order : List Nat) (stop : Int) : List Nat :=
  order.take (if 0 ≤ stop then stop.toNat else (order.length+stop).toNat)

def rankOrder (maxBoxes : Option Int) (detections : TileDetections K) : List Nat :=
  let order := Argsort.argsort (fun i => -detections.scores.getD i 0) detections.scores.length
  match maxBoxes with
  | none => order
  | some stop => sliceTo order stop

def rankStage (maxBoxes : Option Int) (detections : TileDetections K) : Except Error (TileDetections K) :=
  index detections (rankOrder maxBoxes detections)

def finishStages (params : MergeParams K) (detections : TileDetections K) :
    Except Error (TileDetections K) := do
  let detections ← (if params.clip then clipStage detections else .ok detections)
  rankStage params.maxBoxes (penalize params.truncatedPenalty detections)

def gatherAll (perTile : List (TileEntry K)) (tiles : List Tile) (frameSize : Int) (params : MergeParams K)
    (float32 : K → K := id) : Except Error (Pool K) :=
  if perTile.length ≠ tiles.length then
    .error (.valueError s!"Got {perTile.length} detection sets for {tiles.length} tiles.")
  else gather frameSize params.edgeEps 0 (tiles.zip perTile) {} float32

def mergeTileDetections (perTile : List (TileEntry K)) (tiles : List Tile) (frameSize : Int)
    (params : MergeParams K) (float32 : K → K := id) : Except Error (TileDetections K) := do
  let pool ← gatherAll perTile tiles frameSize params float32
  if pool.boxes = [] then .ok (emptyDetections pool.numClasses)
  else
    let detections ← nmsStage params pool
    finishStages params detections

omit [Field K] [LinearOrder K] in
@[simp]
theorem TileEntry.cast_id (entry : TileEntry K) : entry.cast id = entry := by
  obtain ⟨boxes,scores,labels,classes,_,_,_⟩ := entry
  have whole : ∀ box : Box K, box.map id = box := fun _ => rfl
  unfold TileEntry.cast
  simp only [whole,List.map_id,List.map_id',Option.map_id']

theorem gather_cast (float32 : K → K) (frameSize : Int) (edgeEps : K) (pairs : List (Tile × TileEntry K)) (tileId : Nat) (pool : Pool K) :
    gather frameSize edgeEps tileId pairs pool float32 =
      gather frameSize edgeEps tileId (pairs.map fun pair => (pair.1,pair.2.cast float32)) pool := by
  induction pairs generalizing tileId pool with
  | nil => rfl
  | cons pair rest ih =>
    obtain ⟨tile,entry⟩ := pair
    have here : gatherTile frameSize edgeEps pool tileId tile entry float32 =
        gatherTile frameSize edgeEps pool tileId tile (entry.cast float32) := by
      simp only [gatherTile,TileEntry.cast_id]
    rw [List.map_cons,gather,gather,here]
    simp only [ih]

theorem merge_cast (float32 : K → K) (perTile : List (TileEntry K)) (tiles : List Tile) (frameSize : Int) (params : MergeParams K) :
    mergeTileDetections perTile tiles frameSize params float32 =
      mergeTileDetections (perTile.map (·.cast float32)) tiles frameSize params := by
  have pairs : tiles.zip (perTile.map (·.cast float32)) = (tiles.zip perTile).map fun pair => (pair.1,pair.2.cast float32) :=
    List.zip_map_right ..
  unfold mergeTileDetections gatherAll
  rw [gather_cast,pairs,List.length_map]

end SymphonyAkida.TiledShard
