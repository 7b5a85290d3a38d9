import SymphonyAkida.AkidaChip
import SymphonyAkida.Library.Outcome
import SymphonyAkida.Library.Strided
import Mathlib.Data.List.Sort

namespace SymphonyAkida.SampleSets
open Strided

def chunk : Nat := 64

def metaSuffix : String := "_meta.json"

structure Metadata where
  sampleInputShape : Option (List Nat)
  inputShape : Option (List Nat)
  numClasses : Option Nat
  classNames : Option (List String)

-- models_dir and its files of that name, by model.
structure Models where
  dir : String
  metas : List (String × Metadata)

-- What _open_frames makes of an .npz; frames is a uint8 array.
structure Npz where
  frames : NdArray UInt8
  hasGroundTruth : Bool
  random : Bool
  abspath : String

structure Sidecar where
  set : String
  model : String
  count : Nat
  perSampleBytes : Nat
  inputShape : List Nat
  numClasses : Option Nat
  classNames : Option (List String)
  sourceNpz : String
  hasGroundTruth : Bool
  random : Bool

-- A directory of sample sets: <set>.bin and <set>.samples.json.
structure Samples where
  bin : String → Option (List UInt8)
  side : String → Option Sidecar

def orElse (shape other : Option (List Nat)) : Option (List Nat) :=
  match shape with
  | some (d :: ds) => some (d :: ds)
  | _ => other

def sampleShape (metadata : Metadata) : Except ShardWire.Raised (List Nat) :=
  match orElse metadata.sampleInputShape metadata.inputShape with
  | some shape => .ok shape
  | none => .error ⟨"KeyError","'input_shape'"⟩

def readMeta (models : Models) (model : String) : Except ShardWire.Raised Metadata :=
  match models.metas.lookup model with
  | some metadata => .ok metadata
  | none =>
    let path := AkidaChip.join models.dir.toList (model ++ metaSuffix).toList
    .error ⟨"PrepareError",s!"no metadata for {model} (expected {String.ofList path})"⟩

-- sorted(os.listdir(models_dir)), the names ending in META_SUFFIX.
def Models.listing (models : Models) : List String :=
  (models.metas.map (·.1)).insertionSort fun a b => a ++ metaSuffix ≤ b ++ metaSuffix

def resolveModel (models : Models) (perSample : Nat) : Except ShardWire.Raised String := do
  let sizes ← models.listing.mapM fun model =>
    (readMeta models model >>= sampleShape).map fun shape => (model,shape.prod)
  match (sizes.filter (·.2 == perSample)).map (·.1) with
  | [model] => .ok model
  | [] => .error ⟨"PrepareError",s!"no model in {models.dir} takes {perSample} values per sample"⟩
  | names =>
    let fits := " and ".intercalate names
    .error ⟨"PrepareError",s!"{perSample} values per sample fits {fits}; pass --model"⟩

-- model or resolve_model(models_dir, per_sample)
def pickModel (models : Models) (model : Option String) (perSample : Nat) : Except ShardWire.Raised String :=
  match model.filter (· ≠ "") with
  | some model => .ok model
  | none => resolveModel models perSample

-- range(0, count, CHUNK)
def starts (count : Nat) : List Nat := (List.range ((count+chunk-1)/chunk)).map (·*chunk)

def written (frames : NdArray UInt8) (count : Nat) : List UInt8 :=
  (starts count).flatMap fun start => (frames.slice start (start+chunk)).ascontiguousarray.tobytes

def Samples.store (samples : Samples) (set : String) (bin : List UInt8) (side : Sidecar) : Samples where
  bin name := if name = set then some bin else samples.bin name
  side name := if name = set then some side else samples.side name

def convert (npz : Npz) (model : Option String) (set : String) (models : Models) (out : Samples) : Except ShardWire.Raised Samples := do
  let perSample := npz.frames.shape.tail.prod
  let model ← pickModel models model perSample
  let metadata ← readMeta models model
  let shape ← sampleShape metadata
  if perSample ≠ shape.prod then
    let text := AkidaChip.shapeText shape
    throw ⟨"PrepareError",s!"sample has {perSample} values, model {model} expects {shape.prod} {text}"⟩
  match npz.frames.shape.head? with
  | none => throw ⟨"IndexError","tuple index out of range"⟩
  | some count =>
    return out.store set (written npz.frames count) {
      set := set
      model := model
      count := count
      perSampleBytes := perSample
      inputShape := shape
      numClasses := metadata.numClasses
      classNames := metadata.classNames
      sourceNpz := npz.abspath
      hasGroundTruth := npz.hasGroundTruth
      random := npz.random}

-- frame_bytes(meta): no shape raises TypeError.
def frameBytes (metadata : Metadata) : Option (Nat × List Nat) :=
  (orElse metadata.sampleInputShape metadata.inputShape).map fun shape => (shape.prod,shape)

-- for i in reversed(range(1, n + 1)): j = randbelow(i + 1); x[i], x[j] = x[j], x[i]
def shuffleFrom (randbelow : Nat → Nat) : Nat → Array α → Array α
  | 0,x => x
  | i+1,x => shuffleFrom randbelow i (x.swapIfInBounds (i+1) (randbelow (i+2)%(i+2)))

-- random.shuffle(x), of the numbers drawn.
def shuffle (randbelow : Nat → Nat) (x : List α) : List α := (shuffleFrom randbelow (x.length-1) x.toArray).toList

def upTo (x : List α) (count : Int) : List α := x.take (if 0 ≤ count then count else x.length+count).toNat

-- n bytes of rng.getrandbits(8), size times.
def noise (getrandbits : Nat → UInt8) (n size : Nat) : List (List UInt8) :=
  (List.range size).map fun k => (List.range n).map fun b => getrandbits (k*n+b)

structure FramePool where
  random : Option (List (List UInt8))
  available : Nat
  source : Option String
  indices : List Nat
  perFrame : Nat
  handle : Option (List UInt8)
  description : String

def arranged (available : Nat) (ordered : Bool) (randbelow : Nat → Nat) : List Nat :=
  if ordered then List.range available else shuffle randbelow (List.range available)

def chosen (available : Nat) (count : Int) (ordered : Bool) (randbelow : Nat → Nat) : List Nat :=
  if upTo (arranged available ordered randbelow) count = [] then [0] else upTo (arranged available ordered randbelow) count

def prepared (name : String) (side : Sidecar) (bin : List UInt8) (perFrame : Nat) (count : Int) (ordered : Bool)
    (randbelow : Nat → Nat) : FramePool :=
  let indices := chosen side.count count ordered randbelow
  let mode := if ordered then "" else ", shuffled"
  {random := none
   available := side.count
   source := some (if side.sourceNpz = "" then name else side.sourceNpz)
   indices := indices
   perFrame := perFrame
   handle := some bin
   description := s!"{name} ({indices.length} of {side.count}{mode})"}

def unprepared (perFrame : Nat) (count : Int) (getrandbits : Nat → UInt8) : FramePool :=
  let poolSize := (max 1 (min count 64)).toNat
  {random := some (noise getrandbits perFrame poolSize)
   available := 0
   source := none
   indices := (List.range count.toNat).map (·%poolSize)
   perFrame := perFrame
   handle := none
   description := "random uint8 (no objects to detect)"}

def framePool (samples : Samples) (name : String) (perFrame : Nat) (count : Int) (ordered : Bool) (randbelow : Nat → Nat)
    (getrandbits : Nat → UInt8) : FramePool :=
  match samples.side name,samples.bin name with
  | some side,some bin =>
    if side.perSampleBytes = perFrame ∧ side.count ≠ 0 then prepared name side bin perFrame count ordered randbelow
    else unprepared perFrame count getrandbits
  | _,_ => unprepared perFrame count getrandbits

-- handle.seek(start); handle.read(n)
def readAt (bin : List UInt8) (start n : Nat) : List UInt8 := (bin.drop start).take n

-- FramePool.read(i): an empty pool raises ZeroDivisionError.
def FramePool.read (pool : FramePool) (i : Nat) : Option (Nat × List UInt8) :=
  pool.indices[i%pool.indices.length]?.bind fun index =>
    match pool.random with
    | some random => random[index]?.map (index,·)
    | none => pool.handle.map fun bin => (index,readAt bin (index*pool.perFrame) pool.perFrame)

-- found is resolve_set's choice for the model.
def buildPool (samples : Samples) (found : Option (String × Sidecar)) (n : Nat) (count : Int) (randbelow : Nat → Nat)
    (getrandbits : Nat → UInt8) : List (List UInt8) × String :=
  let unfit := (noise getrandbits n (max 1 (min count 256)).toNat,"random")
  match found with
  | none => unfit
  | some (set,side) =>
    match samples.bin set with
    | none => unfit
    | some bin =>
      if side.perSampleBytes = n ∧ 0 < side.count then
        let k := (max 1 (min (side.count : Int) count)).toNat
        let indices := (shuffle randbelow (List.range side.count)).take k
        let kind := if side.random then "random noise" else "real"
        (indices.map fun i => readAt bin (i*side.perSampleBytes) side.perSampleBytes,
          s!"{set} {kind} ({k} of {side.count})")
      else unfit

theorem starts_cover (count : Nat) :
    (starts count).flatMap (fun start => (List.range (min (start+chunk) count-start)).map (start+·)) = List.range count := by
  have whole : count ≤ (count+chunk-1)/chunk*chunk := by
    unfold chunk
    omega
  rw [starts,List.flatMap_map,range_chunks,Nat.min_eq_right whole]

theorem written_rows {frames : NdArray UInt8} (axes : frames.shape = count :: rest) :
    written frames count = (List.range count).flatMap frames.row := by
  rw [← starts_cover count,List.flatMap_assoc,written]
  congr 1
  funext start
  rw [ascontiguousarray_tobytes,slice_tobytes frames axes,List.flatMap_map]

theorem written_length {frames : NdArray UInt8} (axes : frames.shape = count :: rest) :
    (written frames count).length = count*rest.prod := by
  have same : (List.range count).map (fun i => (frames.row i).length) = List.replicate count rest.prod := by
    rw [← List.length_range (n := count),← List.map_const',List.length_range]
    refine List.map_congr_left fun i _ => ?_
    rw [row_length,axes,List.tail_cons]
  rw [written_rows axes,List.length_flatMap,same,List.sum_replicate]
  rfl

theorem readAt_row {frames : NdArray UInt8} (axes : frames.shape = count :: rest) (inside : s < count) :
    readAt (written frames count) (s*rest.prod) rest.prod = frames.row s := by
  have same : ∀ piece ∈ (List.range count).map frames.row, piece.length = rest.prod := by
    intro piece member
    obtain ⟨i,_,rfl⟩ := List.mem_map.mp member
    rw [row_length,axes,List.tail_cons]
  have found : ((List.range count).map frames.row)[s]? = some (frames.row s) := by
    rw [List.getElem?_map,List.getElem?_range inside,Option.map_some]
  rw [readAt,written_rows axes,List.flatMap_def]
  exact piece_at same found

theorem shuffleFrom_perm (randbelow : Nat → Nat) (n : Nat) (x : Array α) : (shuffleFrom randbelow n x).Perm x := by
  induction n generalizing x with
  | zero => exact Array.Perm.refl x
  | succ n ih =>
    have swapped : (x.swapIfInBounds (n+1) (randbelow (n+2)%(n+2))).Perm x := by
      unfold Array.swapIfInBounds
      split
      · split
        · exact Array.swap_perm _ _
        · exact Array.Perm.refl x
      · exact Array.Perm.refl x
    exact (ih _).trans swapped

theorem shuffle_perm (randbelow : Nat → Nat) (x : List α) : (shuffle randbelow x).Perm x :=
  Array.perm_iff_toList_perm.mp (shuffleFrom_perm randbelow _ x.toArray)

theorem upTo_getElem? {x : List α} {i : Nat} (early : (i : Int) < count) : (upTo x count)[i]? = x[i]? := by
  rw [upTo,if_pos (by omega)]
  exact List.getElem?_take_of_lt (by omega)

section
variable (available : Nat) (count : Int) (ordered : Bool) (randbelow : Nat → Nat)

theorem arranged_perm : (arranged available ordered randbelow).Perm (List.range available) := by
  unfold arranged
  split
  · exact List.Perm.refl _
  · exact shuffle_perm randbelow _

theorem chosen_nodup : (chosen available count ordered randbelow).Nodup := by
  unfold chosen
  split
  · exact List.nodup_singleton 0
  · have source := (arranged_perm available ordered randbelow).nodup_iff.mpr List.nodup_range
    exact source.sublist (List.take_sublist _ _)

theorem chosen_lt (filled : 0 < available) : ∀ s ∈ chosen available count ordered randbelow, s < available := by
  intro s member
  unfold chosen at member
  split at member
  · rw [List.mem_singleton.mp member]
    exact filled
  · have source := (arranged_perm available ordered randbelow).mem_iff.mp (List.mem_of_mem_take member)
    exact List.mem_range.mp source

theorem chosen_filled : 0 < (chosen available count ordered randbelow).length := by
  unfold chosen
  split
  · exact Nat.one_pos
  · rename_i some
    exact List.length_pos_of_ne_nil some

theorem chosen_early {i : Nat} (early : (i : Int) < min (available : Int) count) :
    (chosen available count ordered randbelow)[i]? = (arranged available ordered randbelow)[i]? := by
  have taken : (upTo (arranged available ordered randbelow) count)[i]? = (arranged available ordered randbelow)[i]? :=
    upTo_getElem? (by omega)
  unfold chosen
  split
  · rename_i none
    have length : (arranged available ordered randbelow).length = available :=
      (arranged_perm available ordered randbelow).length_eq.trans List.length_range
    rw [none,List.getElem?_nil,eq_comm,List.getElem?_eq_none_iff] at taken
    omega
  · exact taken

theorem chosen_reaches {i : Nat} (early : (i : Int) < min (available : Int) count) :
    i < (chosen available count ordered randbelow).length := by
  have length := (arranged_perm available ordered randbelow).length_eq.trans List.length_range
  by_contra beyond
  have none := chosen_early available count ordered randbelow early
  rw [List.getElem?_eq_none (Nat.le_of_not_lt beyond),eq_comm,List.getElem?_eq_none_iff] at none
  omega

end

-- What the sidecar of an accepted array says of it.
structure Describes (models : Models) (side : Sidecar) (count per : Nat) : Prop where
  counted : side.count = count
  bytes : side.perSampleBytes = per
  sized : ∃ metadata, models.metas.lookup side.model = some metadata ∧ frameBytes metadata = some (per,side.inputShape)

theorem convert_stores {set : String} (axes : npz.frames.shape = count :: rest) (accepted : convert npz model set models out = .ok out') :
    ∃ side, out' = out.store set (written npz.frames count) side ∧ Describes models side count rest.prod := by
  unfold convert at accepted
  obtain ⟨name,_,accepted⟩ := Outcome.bind_ok accepted
  obtain ⟨metadata,found,accepted⟩ := Outcome.bind_ok accepted
  obtain ⟨shape,shaped,accepted⟩ := Outcome.bind_ok accepted
  rw [axes,List.tail_cons,List.head?_cons] at accepted
  have listed : models.metas.lookup name = some metadata := by
    unfold readMeta at found
    split at found
    · rename_i held
      rw [held,Except.ok.inj found]
    · cases found
  have given : orElse metadata.sampleInputShape metadata.inputShape = some shape := by
    unfold sampleShape at shaped
    split at shaped
    · rename_i held
      rw [held,Except.ok.inj shaped]
    · cases shaped
  by_cases wrong : rest.prod ≠ shape.prod
  · rw [if_pos wrong] at accepted
    cases accepted
  · rw [if_neg wrong] at accepted
    rw [not_not] at wrong
    cases accepted
    refine ⟨_,rfl,rfl,rfl,metadata,listed,?_⟩
    rw [frameBytes,given,wrong]
    rfl

-- Reads that serve the samples of an array with count of them.
structure Serves (frames : NdArray UInt8) (count : Nat) (requested : Int) (ordered : Bool) (read : Nat → Option (Nat × List UInt8)) :
    Prop where
  rows : ∀ i, ∃ s, s < count ∧ read i = some (s,frames.row s)
  inOrder : ordered = true → ∀ i : Nat, (i : Int) < min (count : Int) requested → read i = some (i,frames.row i)
  distinct : ∀ i j : Nat, (i : Int) < min (count : Int) requested → (j : Int) < min (count : Int) requested →
    (read i).map Prod.fst = (read j).map Prod.fst → i = j

section
variable {frames : NdArray UInt8} (axes : frames.shape = count :: rest) (filled : 0 < count) (name : String) (side : Sidecar)
  (counted : side.count = count) (requested : Int) (ordered : Bool) (randbelow : Nat → Nat)

include axes counted

theorem prepared_read (found : (chosen count requested ordered randbelow)[i%(chosen count requested ordered randbelow).length]? = some s)
    (inside : s < count) :
    (prepared name side (written frames count) rest.prod requested ordered randbelow).read i = some (s,frames.row s) := by
  unfold FramePool.read prepared
  rw [counted]
  dsimp only
  rw [found,Option.bind_some,Option.map_some,readAt_row axes inside]

include filled in
theorem prepared_serves :
    Serves frames count requested ordered (prepared name side (written frames count) rest.prod requested ordered randbelow).read := by
  have nodup := chosen_nodup count requested ordered randbelow
  have early : ∀ i : Nat, (i : Int) < min (count : Int) requested → ∃ s, s < count ∧
      (chosen count requested ordered randbelow)[i]? = some s ∧
      (prepared name side (written frames count) rest.prod requested ordered randbelow).read i = some (s,frames.row s) := by
    intro i small
    have reached := chosen_reaches count requested ordered randbelow small
    have found := List.getElem?_eq_getElem reached
    have inside := chosen_lt count requested ordered randbelow filled _ (List.getElem_mem reached)
    refine ⟨_,inside,found,prepared_read axes name side counted requested ordered randbelow ?_ inside⟩
    rw [Nat.mod_eq_of_lt reached,found]
  refine ⟨?_,?_,?_⟩
  · intro i
    have turned := Nat.mod_lt i (chosen_filled count requested ordered randbelow)
    have inside := chosen_lt count requested ordered randbelow filled _ (List.getElem_mem turned)
    exact ⟨_,inside,prepared_read axes name side counted requested ordered randbelow (List.getElem?_eq_getElem turned) inside⟩
  · intro order i small
    obtain ⟨s,inside,found,read⟩ := early i small
    rw [chosen_early count requested ordered randbelow small,arranged,if_pos order,List.getElem?_range (by omega)] at found
    rw [read,← Option.some.inj found]
  · intro i j first second same
    obtain ⟨s,_,found,read⟩ := early i first
    obtain ⟨t,_,found',read'⟩ := early j second
    rw [read,read',Option.map_some,Option.map_some] at same
    have equal : s = t := Option.some.inj same
    subst equal
    have reached := chosen_reaches count requested ordered randbelow first
    exact (List.getElem?_inj reached nodup).mp (found.trans found'.symm)

end

theorem samples_round_trip {set : String} (axes : npz.frames.shape = count :: rest) (filled : 0 < count)
    (accepted : convert npz model set models out = .ok out') :
    ∃ bin side, out'.bin set = some bin ∧ out'.side set = some side ∧ Describes models side count rest.prod ∧
      bin.length = count*side.perSampleBytes ∧
      (∀ (requested : Int) ordered randbelow getrandbits, Serves npz.frames count requested ordered
        (framePool out' set side.perSampleBytes requested ordered randbelow getrandbits).read) ∧
      ∀ (requested : Int) randbelow getrandbits, ∃ indices, indices <+: shuffle randbelow (List.range count) ∧
        (indices.length : Int) = max 1 (min (count : Int) requested) ∧
        (buildPool out' (some (set,side)) side.perSampleBytes requested randbelow getrandbits).1 = indices.map npz.frames.row := by
  obtain ⟨side,rfl,described⟩ := convert_stores axes accepted
  have stored : (out.store set (written npz.frames count) side).bin set = some (written npz.frames count) := if_pos rfl
  have held : (out.store set (written npz.frames count) side).side set = some side := if_pos rfl
  refine ⟨_,side,stored,held,described,?_,?_,?_⟩
  · rw [written_length axes,described.bytes]
  · intro requested ordered randbelow getrandbits
    have pool : framePool (out.store set (written npz.frames count) side) set side.perSampleBytes requested ordered randbelow getrandbits =
        prepared set side (written npz.frames count) rest.prod requested ordered randbelow := by
      unfold framePool
      rw [held,stored,← described.bytes]
      exact if_pos ⟨rfl,by rw [described.counted]; omega⟩
    rw [pool]
    exact prepared_serves axes filled set side described.counted requested ordered randbelow
  · intro requested randbelow getrandbits
    refine ⟨_,List.take_prefix (max 1 (min (count : Int) requested)).toNat _,?_,?_⟩
    · rw [List.length_take,(shuffle_perm randbelow _).length_eq,List.length_range]
      omega
    · unfold buildPool
      dsimp only
      rw [stored]
      dsimp only
      rw [if_pos ⟨rfl,by rw [described.counted]; exact filled⟩,described.counted,described.bytes]
      refine List.map_congr_left fun i member => ?_
      have inside := (shuffle_perm randbelow _).mem_iff.mp (List.mem_of_mem_take member)
      exact readAt_row axes (List.mem_range.mp inside)

-- Three samples in Fortran order.
def columns : Npz := ⟨fOrder [3,2] [1,3,5,2,4,6],false,false,"/data/columns.npz"⟩

def pairs : Models := ⟨"models",[("pairs",⟨none,some [2],none,none⟩)]⟩

theorem samples_round_trip_columns :
    ∃ out' bin, convert columns none "columns" pairs ⟨fun _ => none,fun _ => none⟩ = .ok out' ∧
      out'.bin "columns" = some bin ∧ bin.length = 3*2 := by
  have accepted : ∃ out', convert columns none "columns" pairs ⟨fun _ => none,fun _ => none⟩ = .ok out' := ⟨_,rfl⟩
  obtain ⟨out',accepted⟩ := accepted
  have tripped := samples_round_trip (show columns.frames.shape = [3,2] from rfl) (by decide) accepted
  obtain ⟨bin,side,stored,_,described,length,_⟩ := tripped
  rw [described.bytes] at length
  exact ⟨out',bin,accepted,stored,length⟩

example : written columns.frames 3 = [1,2,3,4,5,6] := by decide

end SymphonyAkida.SampleSets
