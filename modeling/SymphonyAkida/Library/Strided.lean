import Mathlib.Algebra.BigOperators.Group.List.Basic
import Mathlib.Algebra.GroupWithZero.Nat
import Mathlib.Data.List.Basic

-- Arrays as a buffer read through strides, whatever the memory order.
namespace Strided

structure NdArray (α : Type) where
  shape : List Nat
  strides : List Nat
  offset : Nat
  buffer : List α
  ranked : strides.length = shape.length

def place (strides index : List Nat) : Nat := (List.zipWith (· * ·) index strides).sum

def NdArray.item [Inhabited α] (a : NdArray α) (index : List Nat) : α := a.buffer.getD (a.offset+place a.strides index) default

def indices : List Nat → List (List Nat)
  | [] => [[]]
  | d :: ds => (List.range d).flatMap fun i => (indices ds).map (i :: ·)

def cStrides : List Nat → List Nat
  | [] => []
  | _ :: ds => ds.prod :: cStrides ds

-- The first axis is the fastest.
def fStrides (step : Nat) : List Nat → List Nat
  | [] => []
  | d :: ds => step :: fStrides (step*d) ds

theorem cStrides_length (shape : List Nat) : (cStrides shape).length = shape.length := by
  induction shape with
  | nil => rfl
  | cons d ds ih => rw [cStrides,List.length_cons,List.length_cons,ih]

theorem fStrides_length (step : Nat) (shape : List Nat) : (fStrides step shape).length = shape.length := by
  induction shape generalizing step with
  | nil => rfl
  | cons d ds ih => rw [fStrides,List.length_cons,List.length_cons,ih]

def cOrder (shape : List Nat) (buffer : List α) : NdArray α := ⟨shape,cStrides shape,0,buffer,cStrides_length shape⟩

def fOrder (shape : List Nat) (buffer : List α) : NdArray α := ⟨shape,fStrides 1 shape,0,buffer,fStrides_length 1 shape⟩

theorem range_mul (n m : Nat) : (List.range n).flatMap (fun i => (List.range m).map (i*m+·)) = List.range (n*m) := by
  induction n with
  | zero => rw [Nat.zero_mul]; rfl
  | succ n ih => rw [List.range_succ,List.flatMap_append,ih,Nat.succ_mul,List.range_add,List.flatMap_singleton]

theorem indices_length (shape : List Nat) : (indices shape).length = shape.prod := by
  induction shape with
  | nil => rfl
  | cons d ds ih => simp [indices,List.length_flatMap,ih]

theorem indices_place (shape : List Nat) : (indices shape).map (place (cStrides shape)) = List.range shape.prod := by
  induction shape with
  | nil => rfl
  | cons d ds ih =>
    rw [indices,List.map_flatMap,List.prod_cons,← range_mul]
    congr 1
    funext i
    rw [← ih,List.map_map,List.map_map]
    rfl

section
variable [Inhabited α]

-- The elements in C order, as a.tobytes(order="C") gives them.
def NdArray.tobytes (a : NdArray α) : List α := (indices a.shape).map a.item

def NdArray.ascontiguousarray (a : NdArray α) : NdArray α := cOrder a.shape a.tobytes

def NdArray.row (a : NdArray α) (i : Nat) : List α := (indices a.shape.tail).map fun index => a.item (i :: index)

-- a[start:stop], for 0 <= start.
def NdArray.slice (a : NdArray α) (start stop : Nat) : NdArray α :=
  {a with
    shape := a.shape.modifyHead fun n => min stop n-start
    offset := a.offset+start*a.strides.headD 0
    ranked := by rw [a.ranked,List.length_modifyHead]}

theorem tobytes_length (a : NdArray α) : a.tobytes.length = a.shape.prod := by
  rw [NdArray.tobytes,List.length_map,indices_length]

theorem row_length (a : NdArray α) (i : Nat) : (a.row i).length = a.shape.tail.prod := by
  rw [NdArray.row,List.length_map,indices_length]

theorem cOrder_tobytes {shape : List Nat} {buffer : List α} (size : buffer.length = shape.prod) :
    (cOrder shape buffer).tobytes = buffer := by
  have read : (cOrder shape buffer).tobytes = (List.range shape.prod).map fun i => buffer.getD i default := by
    rw [← indices_place,List.map_map]
    refine List.map_congr_left fun index _ => ?_
    simp [NdArray.item,cOrder]
  rw [read,← size]
  apply List.ext_getElem
  · simp
  · intro i left right
    simp [right]

theorem ascontiguousarray_tobytes (a : NdArray α) : a.ascontiguousarray.tobytes = a.tobytes :=
  cOrder_tobytes (tobytes_length a)

theorem slice_item (a : NdArray α) (axes : a.shape = n :: rest) (start stop r : Nat) (index : List Nat) :
    (a.slice start stop).item (r :: index) = a.item ((start+r) :: index) := by
  have ranked : a.strides.length = rest.length+1 := by
    rw [a.ranked,axes,List.length_cons]
  obtain ⟨s,ss,held⟩ := List.exists_cons_of_length_eq_add_one ranked
  have moved : (a.slice start stop).offset = a.offset+start*s := by
    change a.offset+start*a.strides.headD 0 = _
    rw [held,List.headD_cons]
  have kept : (a.slice start stop).strides = s :: ss := held
  have same : (a.slice start stop).buffer = a.buffer := rfl
  rw [NdArray.item,NdArray.item,moved,kept,same,held]
  simp only [place,List.zipWith_cons_cons,List.sum_cons,Nat.add_mul,Nat.add_assoc]

theorem slice_tobytes (a : NdArray α) (axes : a.shape = n :: rest) (start stop : Nat) :
    (a.slice start stop).tobytes = (List.range (min stop n-start)).flatMap fun r => a.row (start+r) := by
  have cut : (a.slice start stop).shape = (min stop n-start) :: rest := by
    change a.shape.modifyHead _ = _
    rw [axes]
    rfl
  rw [NdArray.tobytes,cut,indices,List.map_flatMap]
  congr 1
  funext r
  rw [List.map_map,NdArray.row,axes]
  exact List.map_congr_left fun index _ => slice_item a axes start stop r index

end

theorem range_chunks (c count n : Nat) :
    (List.range n).flatMap (fun k => (List.range (min (k*c+c) count-k*c)).map (k*c+·)) = List.range (min (n*c) count) := by
  induction n with
  | zero => simp
  | succ n ih =>
    rw [List.range_succ,List.flatMap_append,ih,List.flatMap_singleton,Nat.succ_mul]
    rcases Nat.le_total count (n*c) with past | short
    · have none : min (n*c+c) count-n*c = 0 := by omega
      rw [none,Nat.min_eq_right past,Nat.min_eq_right (by omega)]
      simp
    · rw [Nat.min_eq_left short,← List.range_add]
      congr 1
      omega

theorem piece_at {pieces : List (List α)} (same : ∀ piece ∈ pieces, piece.length = size) (found : pieces[i]? = some piece) :
    (pieces.flatten.drop (i*size)).take size = piece := by
  induction pieces generalizing i with
  | nil => cases found
  | cons first rest ih =>
    have length := same first List.mem_cons_self
    rw [List.flatten_cons]
    cases i with
    | zero =>
      cases Option.some.inj found
      rw [Nat.zero_mul,List.drop_zero,← length,List.take_left]
    | succ i =>
      rw [Nat.succ_mul,Nat.add_comm,← length,List.drop_append,List.drop_of_length_le (Nat.le_add_right _ _),List.nil_append,
        Nat.add_sub_cancel_left,length]
      exact ih (fun other member => same other (List.mem_cons_of_mem _ member)) found

end Strided
