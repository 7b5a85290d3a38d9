import SymphonyAkida.Detections
import SymphonyAkida.Library.UnionFind
import SymphonyAkida.Library.Order

namespace SymphonyAkida.TiledShard
variable {K : Type} [Field K] [LinearOrder K]

def seamTol : K := 1/1000000

def projectionIou (a b : Box K) (axis : Axis) : K :=
  let low := max (a.low axis) (b.low axis)
  let high := min (a.high axis) (b.high axis)
  let overlap := max (high-low) 0
  let extentA := max (a.high axis-a.low axis) 0
  let extentB := max (b.high axis-b.low axis) 0
  let union := extentA+extentB-overlap
  if 0 < union then overlap/union else 0

def fragmentsJoin (boxLow boxHigh : Box K) (axis : Axis) (seamIou : K) : Bool :=
  if boxHigh.low axis+seamTol < boxLow.low axis then false
  else if boxHigh.high axis+seamTol < boxLow.high axis then false
  else if boxLow.high axis < boxHigh.low axis-seamTol then false
  else seamIou ≤ projectionIou boxLow boxHigh axis.other

abbrev Seams := List (Axis × Edge)

-- By name, for the tests of membership here and in the symmetries.
instance lawfulKeys : LawfulBEq (Axis × Edge) := inferInstance

-- The innermost test of fuse_seam_fragments, for low cut at its high edge
-- along axis and high at its low edge.
def halves (detections : TileDetections K) (seams : List Seams) (seamIou : K) (axis : Axis)
    (low high : Nat) : Bool :=
  (axis,.high) ∈ seams.getD low [] ∧ (axis,.low) ∈ seams.getD high [] ∧
    fragmentsJoin (detections.boxes.getD low default) (detections.boxes.getD high default) axis seamIou

-- The calls union(i, j) of the nested loops, in order. No test reads `parent`.
def unions (detections : TileDetections K) (seams : List Seams) (seamIou : K) : List (Nat × Nat) :=
  let num := detections.boxes.length
  (List.range num).flatMap fun i =>
    if seams.getD i [] = [] then []
    else ((List.range num).filter (i < ·)).flatMap fun j =>
      if seams.getD j [] = [] then []
      else if detections.labels.getD i 0 ≠ detections.labels.getD j 0 then []
      else if detections.tileIds.getD i 0 = detections.tileIds.getD j 0 then []
      else [Axis.x,Axis.y].flatMap fun axis =>
        [(i,j),(j,i)].flatMap fun (low,high) =>
          if halves detections seams seamIou axis low high then [(i,j)] else []

def addMember : List (Nat × List Nat) → Nat → Nat → List (Nat × List Nat)
  | [],root,i => [(root,[i])]
  | (key,members) :: rest,root,i =>
    if key = root then (key,members ++ [i]) :: rest else (key,members) :: addMember rest root i

def groupStep (state : List Nat × List (Nat × List Nat)) (i : Nat) :
    Option (List Nat × List (Nat × List Nat)) := do
  let (parent,groups) := state
  let (root,parent) ← UnionFind.find parent.length parent i
  return (parent,addMember groups root i)

def groupByRoot (num : Nat) (parent : List Nat) : Option (List (Nat × List Nat)) :=
  ((List.range num).foldlM groupStep (parent,[])).map (·.2)

-- groups[root] for root in sorted(groups)
def sortedGroups (groups : List (Nat × List Nat)) : List (List Nat) :=
  (groups.insertionSort (·.1 ≤ ·.1)).map (·.2)

-- One fused detection; its class row has the width of the class array.
structure Fused (K : Type) (width : Nat) where
  box : Box K
  score : K
  label : Int
  classes : Option {row : List K // row.length = width}
  tileId : Nat
  truncated : Bool

omit [Field K] in
theorem foldl_zipWith_length (rest : List (List K)) (row : List K) (size : row.length = width)
    (all : ∀ other ∈ rest, other.length = width) :
    (rest.foldl (List.zipWith max) row).length = width := by
  induction rest generalizing row with
  | nil => exact size
  | cons other rest ih =>
    refine ih _ ?_ fun later member => all later (List.mem_cons_of_mem _ member)
    simp [size,all other List.mem_cons_self]

-- classes[members].max(axis=0)
def maxRows (classes : Classes K) : Except Error {row : List K // row.length = classes.width} :=
  match shape : classes.rows with
  | [] => .error .numpyValueError
  | row :: rest => .ok ⟨rest.foldl (List.zipWith max) row,
      foldl_zipWith_length rest row (classes.rect row (by simp [shape])) fun other member =>
        classes.rect other (by simp [shape,member])⟩

-- np.concatenate([boxes[:, :2].min(axis=0), boxes[:, 2:].max(axis=0)])
def enclose (boxes : List (Box K)) : Option (Box K) := do
  let x1 ← Argmax.least (boxes.map (·.x1))
  let y1 ← Argmax.least (boxes.map (·.y1))
  let x2 ← Argmax.largest (boxes.map (·.x2))
  let y2 ← Argmax.largest (boxes.map (·.y2))
  return ⟨x1,y1,x2,y2⟩

def classWidth (detections : TileDetections K) : Nat := detections.classes.elim 0 (·.width)

def fuseClasses (classes : Option (Classes K)) (members : List Nat) :
    Except Error (Option {row : List K // row.length = classes.elim 0 (·.width)}) :=
  match classes with
  | none => .ok none
  | some classes =>
    match ran : classes.take members with
    | .error e => .error e
    | .ok picked => (maxRows picked).map fun row => some ⟨row.1,row.2.trans (Classes.take_ok ran).1⟩

def fuseGroup (detections : TileDetections K) (seams : List Seams) (members : List Nat) :
    Except Error (Fused K (classWidth detections)) := do
  let memberBoxes ← take detections.boxes members
  let memberScores ← take detections.scores members
  let bestAt ← orRaise .numpyValueError (Argmax.argmax memberScores)
  let best ← orRaise .indexError members[bestAt]?
  let box ← orRaise .numpyValueError (enclose memberBoxes)
  let score ← orRaise .numpyValueError (Argmax.largest memberScores)
  let label ← orRaise .indexError detections.labels[best]?
  let tileId ← orRaise .indexError detections.tileIds[best]?
  let classes ← fuseClasses detections.classes members
  let truncated := members.length == 1 && !(seams.getD (members.headD 0) []).isEmpty
  return ⟨box,score,label,classes,tileId,truncated⟩

def fuseAll (detections : TileDetections K) (seams : List Seams) :
    List (List Nat) → Except Error (List (Fused K (classWidth detections)))
  | [] => .ok []
  | members :: rest => do
    let fused ← fuseGroup detections seams members
    let later ← fuseAll detections seams rest
    return fused :: later

def fuseSeamFragments (detections : TileDetections K) (seams : List Seams) (seamIou : K) :
    Except Error (TileDetections K) :=
  let num := detections.boxes.length
  let detections := {detections with truncated := some (seams.map (!·.isEmpty))}
  if num < 2 then .ok detections
  else
    match (UnionFind.unionAll (List.range num) (unions detections seams seamIou)).bind (groupByRoot num) with
    | none => .error .endless
    | some groups =>
      if groups.length = num then .ok detections
      else (fuseAll detections seams (sortedGroups groups)).map fun fused => {
        boxes := fused.map (·.box)
        scores := fused.map (·.score)
        labels := fused.map (·.label)
        classes := detections.classes.map fun _ =>
          ⟨classWidth detections,fused.filterMap fun row => row.classes.map (·.1),by
            intro row member
            obtain ⟨_,_,found⟩ := List.mem_filterMap.mp member
            obtain ⟨given,_,rfl⟩ := Option.map_eq_some_iff.mp found
            exact given.2⟩
        tileIds := fused.map (·.tileId)
        truncated := some (fused.map (·.truncated))}

end SymphonyAkida.TiledShard
