import SymphonyAkida.Merge
import SymphonyAkida.Library.Arrays

namespace SymphonyAkida.TiledShard
open Outcome Arrays
variable {K : Type} [Field K] [LinearOrder K]

theorem hundred_atLeastTwo : Nat.AtLeastTwo 100 := ⟨by decide⟩

attribute [local instance] two_atLeastTwo hundred_atLeastTwo

-- What decode_tile leaves to numpy: the exponential, the rounding to float32
-- and the order of argsort, where only equal keys leave it a choice.
structure Numpy (K : Type) [Field K] [LinearOrder K] where
  exp : K → K
  exp_nonneg : ∀ x, 0 ≤ exp x
  float32 : K → K
  float32_idem : ∀ x, float32 (float32 x) = float32 x
  float32_nonneg : ∀ x, 0 ≤ x → 0 ≤ float32 x
  float32_int : ∀ n : Int, n.natAbs ≤ 2^24 → float32 n = n
  argsort : List K → List Nat
  argsort_perm : ∀ keys, (argsort keys).Perm (List.range keys.length)
  argsort_sorted : ∀ keys, ((argsort keys).map (keys.getD · 0)).Pairwise (· ≤ ·)

-- Exact arithmetic, and argsort's stable order.
def Numpy.exact (exp : K → K) (nonneg : ∀ x, 0 ≤ exp x) : Numpy K where
  exp := exp
  exp_nonneg := nonneg
  float32 := id
  float32_idem _ := rfl
  float32_nonneg _ positive := positive
  float32_int _ _ := rfl
  argsort keys := Argsort.argsort (keys.getD · 0) keys.length
  argsort_perm keys := Argsort.argsort_perm _ _
  argsort_sorted keys := by
    refine List.pairwise_map.mpr ((Argsort.argsort_sorted _ _).imp ?_)
    rintro i j (less | ⟨same,_⟩)
    · exact le_of_lt less
    · exact le_of_eq same

structure Output (K : Type) where
  gridH : Nat
  gridW : Nat
  values : List K

variable {numClasses : Nat}

def sigmoid (np : Numpy K) (x : K) : K := 1/(1+np.exp (-x))

def softmax (np : Numpy K) (x : Vector (Vector K numClasses) n) : Except Error (Vector (Vector K numClasses) n) := do
  let top ← orRaise .numpyValueError (Argmax.largest x.flatten.toList)
  let x := x.map (·.map (· - top))
  let low ← orRaise .numpyValueError (Argmax.least x.flatten.toList)
  let x := if low < -100 then x.map (·.map fun e => e/low*(-100)) else x
  let e := x.map (·.map np.exp)
  return e.map fun row => row.map (· / row.toList.sum)

structure Candidate (K : Type) (numClasses : Nat) where
  box : Box K
  score : K
  label : Nat
  classes : Vector K numClasses

-- One cell of the grid before the casts: its box, confidence and class scores.
def decodeCell (np : Numpy K) (gridH gridW : Nat) (anchor : K × K) (row col : Nat) (objThreshold : K)
    (cell : Vector K (5+numClasses)) (soft : Vector K numClasses) : Box K × K × Vector K numClasses :=
  let confidence := sigmoid np cell[4]
  let classes := soft.map fun p => if objThreshold < confidence*p then confidence*p else 0
  let x := (col+sigmoid np cell[0])/gridW
  let y := (row+sigmoid np cell[1])/gridH
  let w := anchor.1*np.exp cell[2]/gridW
  let h := anchor.2*np.exp cell[3]/gridH
  (⟨max (x-w/2) 0,max (y-h/2) 0,min (x+w/2) gridW,min (y+h/2) gridH⟩,confidence,classes)

-- The casts to float32, and np.argmax(classes, axis=1).
def castCell (np : Numpy K) : Box K × K × Vector K numClasses → Except Error (Candidate K numClasses)
  | (box,confidence,classes) => do
    let classes := classes.map np.float32
    let label ← orRaise .numpyValueError (Argmax.argmax classes.toList)
    return ⟨box.map np.float32,np.float32 confidence,label,classes⟩

-- The cells that np.where(keep) finds, in C order: anchors, then columns, then rows.
def candidates (np : Numpy K) (output : Output K) (anchors : List (K × K)) (numClasses : Nat) (objThreshold : K) :
    Except Error (List (Candidate K numClasses)) :=
  let cells := output.gridH*output.gridW*anchors.length
  let values := (output.values.map np.float32).toArray
  if size : values.size = cells*(5+numClasses) then do
    let grid := reshape cells (5+numClasses) ⟨values,size⟩
    let soft ← softmax np (grid.map fun cell => Vector.ofFn fun c : Fin numClasses => cell[5+c.val])
    let decoded := (List.finRange cells).map fun (i : Fin cells) =>
      let anchor := anchors.getD (i.val%anchors.length) (0,0)
      decodeCell np output.gridH output.gridW (np.float32 anchor.1,np.float32 anchor.2)
        (i.val/anchors.length/output.gridW) (i.val/anchors.length%output.gridW) objThreshold grid[i] soft[i]
    (decoded.filter fun (_,_,classes) => 0 < classes.toList.sum).mapM (castCell np)
  else .error .numpyValueError

def strike (nmsThreshold : K) (found : List (Candidate K numClasses)) (c i : Nat) (scores : List K) (j : Nat) :
    List K :=
  match found[i]?,found[j]? with
  | some a,some b =>
    if scores.getD j 0 = 0 then scores
    else if nmsThreshold ≤ iou a.box b.box ∧ a.label = c ∧ b.label = c then scores.set j 0
    else scores
  | _,_ => scores

def classScore (found : List (Candidate K numClasses)) (c i : Nat) : K :=
  (found[i]?).elim 0 (·.classes.toList.getD c 0)

def nmsWalk (nmsThreshold : K) (found : List (Candidate K numClasses)) (c : Nat) : List Nat → List K → List K
  | [],scores => scores
  | i :: rest,scores =>
    nmsWalk nmsThreshold found c rest (
      if scores.getD i 0 = 0 ∨ classScore found c i = 0 then scores
      else rest.foldl (strike nmsThreshold found c i) scores)

def nmsScores (np : Numpy K) (nmsThreshold : K) (found : List (Candidate K numClasses)) : List K :=
  (List.range numClasses).foldl (fun scores c =>
    nmsWalk nmsThreshold found c (np.argsort (found.map (·.classes.toList.getD c 0))).reverse scores)
    (found.map (·.score))

omit [Field K] [LinearOrder K] in
theorem classRows_width (found : List (Candidate K numClasses)) : ∀ row ∈ found.map (·.classes.toList), row.length = numClasses := by
  simp

def entryOf (found : List (Candidate K numClasses)) : TileEntry K where
  boxes := found.map (·.box)
  scores := found.map (·.score)
  labels := found.map fun one => (one.label : Int)
  classes := some ⟨numClasses,found.map (·.classes.toList),classRows_width found⟩
  scoresParallel := by simp
  labelsParallel := by simp
  classesParallel := by
    intro array same
    cases Option.some.inj same
    simp

def rescored (found : List (Candidate K numClasses)) (scores : List K) : List (Candidate K numClasses) :=
  List.zipWith (fun one score => {one with score}) found scores

def decodeTile (np : Numpy K) (output : Output K) (anchors : List (K × K)) (numClasses : Nat)
    (objThreshold nmsThreshold : K) : Except Error (TileEntry K) := do
  let found ← candidates np output anchors numClasses objThreshold
  let scored := rescored found (nmsScores np nmsThreshold found)
  return entryOf (scored.filter (objThreshold < ·.score))

end SymphonyAkida.TiledShard
