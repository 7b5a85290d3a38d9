import SymphonyAkida.Library.Runs
import SymphonyAkida.BatchWorkerSpec
import Mathlib.Data.List.Infix
import Mathlib.Tactic.Ring

namespace SymphonyAkida.BatchClient
open Json ShardWire
open BatchWorker (Prediction)

-- The ranges main gives its submit threads, from w on; lo >= hi ends the loop.
def sendersFrom (count step w : Nat) : Nat → List (Nat × Nat)
  | 0 => []
  | left+1 =>
    let lo := w*step
    let hi := min count ((w+1)*step)
    if hi ≤ lo then [] else (lo,hi) :: sendersFrom count step (w+1) left

def senders (count : Nat) (workers : Int) : List (Nat × Nat) :=
  let workers := (max 1 workers).toNat
  let step := (count+workers-1)/workers
  sendersFrom count step 0 workers

def tasks (part : Nat × Nat) : List Nat := (List.range (part.2-part.1)).map (part.1+·)

-- TensorInputMessage(args.model, pool[i % len(pool)])
def taskInput (model : String) (pool : List (List UInt8)) (i : Nat) : Option (String × List UInt8) :=
  pool[i%pool.length]?.map (model,·)

def submit (model : String) (pool : List (List UInt8)) (part : Nat × Nat) : List (Option (String × List UInt8)) :=
  (tasks part).map (taskInput model pool)

inductive Output where
  | failed
  | successful (text : List Char)

structure Identity where
  device : Option Value
  product : Option Value
  model : Option Value

abbrev Counter := List (Value × Nat)

-- What the fetch loop keeps. perHostUs is what is added to the float of each host.
structure Tally where
  done : Nat := 0
  errors : Nat := 0
  perHost : Counter := []
  perHostUs : List (Value × Value) := []
  perHostId : List (Value × Identity) := []
  classes : Counter := []

def hashable : Value → Bool
  | .arr _ | .obj _ => false
  | _ => true

def numeric : Value → Bool
  | .bool _ | .int _ | .float _ => true
  | _ => false

def Counter.total (counter : Counter) : Nat := (counter.map (·.2)).sum

section
-- `same` is == on dict keys.
variable (same : Value → Value → Bool)

def Counter.increment (counter : Counter) (key : Value) : Counter :=
  match counter with
  | [] => [(key,1)]
  | (k,n) :: rest => if same k key then (k,n+1) :: rest else (k,n) :: Counter.increment rest key

def setdefault (dict : List (Value × Identity)) (key : Value) (value : Identity) : List (Value × Identity) :=
  if dict.any fun member => same member.1 key then dict else dict ++ [(key,value)]

def countReply (tally : Tally) (r : Dict) : Except Raised Tally :=
  if (get r "error").isSome then .ok {tally with errors := tally.errors+1}
  else
    match get r "host" with
    | none => .error ⟨"KeyError","'host'"⟩
    | some host =>
      let us := (get r "inference_us").getD (.int 0)
      let name := (get r "cls_name").getD (.str "?")
      if !hashable host then .error ⟨"TypeError",s!"unhashable type: '{typeName host}'"⟩
      else if !numeric us then
        .error ⟨"TypeError",s!"unsupported operand type(s) for +=: 'float' and '{typeName us}'"⟩
      else if !hashable name then .error ⟨"TypeError",s!"unhashable type: '{typeName name}'"⟩
      else .ok {tally with
        perHost := tally.perHost.increment same host
        perHostUs := tally.perHostUs ++ [(host,us)]
        perHostId := setdefault same tally.perHostId host ⟨get r "device",get r "product",get r "model"⟩
        classes := tally.classes.increment same name}

-- "error" in r holds of a str with that part and of a list with that item.
def countText (tally : Tally) (text : List Char) : Except Raised Tally :=
  match loads text with
  | .error fault => .error ⟨"JSONDecodeError",fault.text text⟩
  | .ok (.obj r) => countReply same tally r
  | .ok (.str reply) =>
    if "error".toList <:+: reply.toList then .ok {tally with errors := tally.errors+1}
    else .error ⟨"TypeError","string indices must be integers"⟩
  | .ok (.arr items) =>
    if items.any (· matches .str "error") then .ok {tally with errors := tally.errors+1}
    else .error ⟨"TypeError","list indices must be integers or slices, not str"⟩
  | .ok other => .error ⟨"TypeError",s!"argument of type '{typeName other}' is not iterable"⟩

def countOutput (tally : Tally) (out : Output) : Except Raised Tally :=
  let tally := {tally with done := tally.done+1}
  match out with
  | .failed => .ok {tally with errors := tally.errors+1}
  | .successful text => countText same tally text

-- while done < args.count, over what fetch_task_output returns call by call;
-- none while it waits for outputs that do not come.
def fetchLoop (count : Nat) (tally : Tally) : List (List Output) → Except Raised (Option Tally)
  | [] => .ok (if tally.done < count then none else some tally)
  | batch :: rest =>
    if tally.done < count then do
      let tally ← batch.foldlM (countOutput same) tally
      fetchLoop count tally rest
    else .ok (some tally)

end

-- What the service promises of an output: it failed, or its text is an object
-- with an error or with the host it ran on.
structure Names (r : Dict) : Prop where
  host : ∃ host, get r "host" = some (.str host)
  us : ∀ us, get r "inference_us" = some us → numeric us = true
  name : ∀ name, get r "cls_name" = some name → hashable name = true

inductive Served : Output → Prop where
  | failed : Served .failed
  | error (read : loads text = .ok (.obj r)) (error : (get r "error").isSome = true) : Served (.successful text)
  | names (read : loads text = .ok (.obj r)) (names : Names r) : Served (.successful text)

theorem prediction_served (prediction : Prediction) : Served (.successful (dumps (.obj prediction.dict))) :=
  .names (loads_dumps (BatchWorker.prediction_plain prediction)) ⟨⟨prediction.host,rfl⟩,
    fun us found => by cases Option.some.inj found; rfl,fun name found => by cases Option.some.inj found; rfl⟩

theorem raised_served (raised : Raised) : Served (.successful (dumps (.obj (errorReply raised)))) :=
  .error (loads_dumps (by simp [errorReply,Value.plain,plainMembers])) rfl

theorem answer_served (chip : BatchWorker.Chip σ) (state : σ) (model : String) (data : List UInt8) :
    Served (.successful (dumps (.obj (reply (BatchWorker.answer chip state model data).2)))) := by
  by_cases refused : BatchWorker.Refused chip state model
  · obtain ⟨raised,refused⟩ := refused
    rw [BatchWorker.answer_refused refused]
    exact raised_served raised
  · rw [BatchWorker.answer_mapped (BatchWorker.not_refused refused)]
    unfold BatchWorker.inferOn
    dsimp only
    cases (chip.infer (BatchWorker.remapped chip state model).1 (.bytes data)).2 with
    | error raised => exact raised_served raised
    | ok prediction => exact prediction_served prediction

structure Balanced (tally : Tally) : Prop where
  outputs : tally.errors+tally.perHost.total = tally.done
  classes : tally.classes.total = tally.perHost.total

section
variable (same : Value → Value → Bool)

theorem Counter.total_increment (counter : Counter) (key : Value) : (counter.increment same key).total = counter.total+1 := by
  induction counter with
  | nil => rfl
  | cons first rest ih =>
    obtain ⟨k,n⟩ := first
    unfold Counter.increment
    split
    · simp only [Counter.total,List.map_cons,List.sum_cons]
      omega
    · simp only [Counter.total,List.map_cons,List.sum_cons] at ih ⊢
      omega

theorem countOutput_balanced {tally : Tally} (balanced : Balanced tally) (served : Served out) :
    ∃ next, countOutput same tally out = .ok next ∧ Balanced next ∧ next.done = tally.done+1 := by
  obtain ⟨outputs,classes⟩ := balanced
  have failed : Balanced {tally with done := tally.done+1,errors := tally.errors+1} :=
    ⟨by rw [← outputs]; exact Nat.add_right_comm _ _ _,classes⟩
  cases served with
  | failed => exact ⟨_,rfl,failed,rfl⟩
  | error read error =>
    refine ⟨_,?_,failed,rfl⟩
    simp only [countOutput,countText,read,countReply,error,if_true]
  | @names text r read names =>
    obtain ⟨⟨host,found⟩,us,name⟩ := names
    by_cases error : (get r "error").isSome = true
    · refine ⟨_,?_,failed,rfl⟩
      simp only [countOutput,countText,read,countReply,error,if_true]
    · have numbers : numeric ((get r "inference_us").getD (.int 0)) = true := by
        cases held : get r "inference_us" with
        | none => rfl
        | some value => exact us value held
      have keyed : hashable ((get r "cls_name").getD (.str "?")) = true := by
        cases held : get r "cls_name" with
        | none => rfl
        | some value => exact name value held
      have text : hashable (.str host) = true := rfl
      simp only [countOutput,countText,read,countReply,error,found,numbers,keyed,text,Bool.not_true,Bool.false_eq_true,if_false]
      refine ⟨_,rfl,⟨?_,?_⟩,rfl⟩
      · dsimp only
        rw [Counter.total_increment,← outputs]
        exact (Nat.add_assoc _ _ _).symm
      · dsimp only
        rw [Counter.total_increment,Counter.total_increment,classes]

theorem batch_balanced {tally : Tally} {batch : List Output} (balanced : Balanced tally) (served : ∀ out ∈ batch, Served out) :
    ∃ next, batch.foldlM (countOutput same) tally = .ok next ∧ Balanced next ∧ next.done = tally.done+batch.length := by
  induction batch generalizing tally with
  | nil => exact ⟨tally,rfl,balanced,rfl⟩
  | cons out rest ih =>
    obtain ⟨middle,first,kept,counted⟩ := countOutput_balanced same balanced (served out List.mem_cons_self)
    obtain ⟨next,later,done,total⟩ := ih kept fun other member => served other (List.mem_cons_of_mem _ member)
    refine ⟨next,?_,done,?_⟩
    · rw [List.foldlM_cons,first]
      exact later
    · rw [total,counted,List.length_cons]
      omega

theorem fetchLoop_balanced {count : Nat} {tally : Tally} {batches : List (List Output)} (balanced : Balanced tally)
    (served : ∀ out ∈ batches.flatten, Served out) (all : tally.done+batches.flatten.length = count) :
    ∃ last, fetchLoop same count tally batches = .ok (some last) ∧ Balanced last ∧ last.done = count := by
  induction batches generalizing tally with
  | nil =>
    have whole : tally.done = count := by simpa using all
    refine ⟨tally,?_,balanced,whole⟩
    rw [fetchLoop,if_neg (by omega)]
  | cons batch rest ih =>
    rw [List.flatten_cons,List.length_append] at all
    rw [fetchLoop]
    split
    · obtain ⟨next,first,kept,counted⟩ := batch_balanced same balanced fun out member =>
        served out (by rw [List.flatten_cons]; exact List.mem_append_left _ member)
      obtain ⟨last,later,done⟩ := ih kept (fun out member => served out (by
        rw [List.flatten_cons]; exact List.mem_append_right _ member)) (by omega)
      exact ⟨last,by rw [first]; exact later,done⟩
    · exact ⟨tally,rfl,balanced,by omega⟩

end

theorem mem_tasks : i ∈ tasks part ↔ part.1 ≤ i ∧ i < part.2 := by
  unfold tasks
  rw [List.mem_map]
  constructor
  · intro found
    obtain ⟨k,member,rfl⟩ := found
    have below := List.mem_range.mp member
    omega
  · intro inside
    exact ⟨i-part.1,List.mem_range.mpr (by omega),by omega⟩

theorem tasks_nodup (part : Nat × Nat) : (tasks part).Nodup :=
  (List.nodup_map_iff fun _ _ same => Nat.add_left_cancel same).mpr List.nodup_range

-- The break only leaves out threads that would have nothing to send.
theorem sendersFrom_cover (count step : Nat) (w left i : Nat) :
    (∃ part ∈ sendersFrom count step w left, part.1 ≤ i ∧ i < part.2) ↔
      w*step ≤ i ∧ i < min count ((w+left)*step) := by
  induction left generalizing w with
  | zero =>
    rw [Nat.add_zero]
    constructor
    · intro found
      obtain ⟨part,member,_⟩ := found
      cases member
    · intro inside
      omega
  | succ left ih =>
    have next : (w+1)*step = w*step+step := Nat.succ_mul w step
    have last : (w+(left+1))*step = w*step+step+left*step := by ring
    have after : (w+1+left)*step = w*step+step+left*step := by ring
    have none : step = 0 → left*step = 0 := fun zero => by rw [zero,Nat.mul_zero]
    unfold sendersFrom
    dsimp only
    split
    · constructor
      · intro found
        obtain ⟨part,member,_⟩ := found
        cases member
      · intro inside
        rcases Nat.eq_zero_or_pos step with zero | positive
        · have empty := none zero
          omega
        · omega
    · simp only [List.mem_cons,exists_eq_or_imp,ih]
      omega

theorem sendersFrom_ordered (count step w left : Nat) :
    (∀ part ∈ sendersFrom count step w left, w*step ≤ part.1) ∧
      (sendersFrom count step w left).Pairwise fun first second => first.2 ≤ second.1 := by
  induction left generalizing w with
  | zero => exact ⟨by simp [sendersFrom],.nil⟩
  | succ left ih =>
    obtain ⟨from_,ordered⟩ := ih (w+1)
    have next : (w+1)*step = w*step+step := Nat.succ_mul w step
    unfold sendersFrom
    dsimp only
    split
    · exact ⟨by simp,.nil⟩
    · refine ⟨?_,List.pairwise_cons.mpr ⟨?_,ordered⟩⟩
      · intro part member
        rcases List.mem_cons.mp member with rfl | later
        · exact Nat.le_refl _
        · have low := from_ part later
          omega
      · intro part later
        exact Nat.le_trans (Nat.min_le_right _ _) (from_ part later)

-- Rounding the step up leaves no task behind the last thread.
theorem senders_cover (count : Nat) (workers : Int) (i : Nat) :
    (∃ part ∈ senders count workers, part.1 ≤ i ∧ i < part.2) ↔ i < count := by
  unfold senders
  have some_ : 0 < (max 1 workers).toNat := by omega
  generalize (max 1 workers).toNat = n at some_
  have reaches : count ≤ n*((count+n-1)/n) := by
    have split := Nat.div_add_mod (count+n-1) n
    have rest := Nat.mod_lt (count+n-1) some_
    omega
  rw [sendersFrom_cover,Nat.zero_mul,Nat.zero_add]
  omega

theorem senders_perm (count : Nat) (workers : Int) : ((senders count workers).flatMap tasks).Perm (List.range count) := by
  refine (List.perm_ext_iff_of_nodup (List.nodup_flatMap.mpr ⟨fun part _ => tasks_nodup part,?_⟩) List.nodup_range).mpr ?_
  · refine (sendersFrom_ordered _ _ _ _).2.imp fun {first second} order => ?_
    intro i left right
    rw [mem_tasks] at left right
    omega
  · intro i
    rw [List.mem_flatMap,List.mem_range,← senders_cover count workers]
    simp only [mem_tasks]

-- The threads' ranges are disjoint and leave nothing out, so whatever the order
-- the threads run in each task is sent once; whatever the batches, the books add up.
theorem batch_client (count : Nat) (workers : Int) :
    (senders count workers).Pairwise (fun first second => ∀ i, ¬((first.1 ≤ i ∧ i < first.2) ∧ second.1 ≤ i ∧ i < second.2)) ∧
      (∀ i, (∃ part ∈ senders count workers, part.1 ≤ i ∧ i < part.2) ↔ i < count) ∧
      (∀ model pool order, Runs.Interleaved ((senders count workers).map (submit model pool)) order →
        order.Perm ((List.range count).map (taskInput model pool))) ∧
      ∀ (same : Value → Value → Bool) (batches : List (List Output)), batches.flatten.length = count →
        (∀ out ∈ batches.flatten, Served out) →
        ∃ tally, fetchLoop same count {} batches = .ok (some tally) ∧ tally.done = count ∧
          tally.errors+tally.perHost.total = count ∧ tally.classes.total = tally.perHost.total := by
  refine ⟨?_,senders_cover count workers,?_,?_⟩
  · refine (sendersFrom_ordered _ _ _ _).2.imp fun {first second} order i both => ?_
    omega
  · intro model pool order run
    refine run.perm.trans ?_
    have sent : ((senders count workers).map (submit model pool)).flatten =
        ((senders count workers).flatMap tasks).map (taskInput model pool) := by
      rw [List.map_flatMap]
      rfl
    rw [sent]
    exact (senders_perm count workers).map _
  · intro same batches all served
    obtain ⟨tally,ran,balanced,done⟩ := fetchLoop_balanced same (show Balanced {} from ⟨rfl,rfl⟩) served (by simpa using all)
    exact ⟨tally,ran,done,done ▸ balanced.outputs,balanced.classes⟩

-- == of strings, the only keys here.
def sameText : Value → Value → Bool
  | .str a,.str b => a == b
  | _,_ => false

def digitsPool : List (List UInt8) := [[1,2,3],[4]]

def answered (model : String) (data : List UInt8) : Output :=
  .successful (dumps (.obj (reply (BatchWorker.answer BatchWorker.digits () model data).2)))

def threeBatches : List (List Output) := [[.failed],[],[answered "gone" [4],answered "digits" [1,2,3]]]

-- Two threads, the second one first; of the outputs one failed, one is an error
-- and one names its host.
theorem batch_client_three :
    [some ("digits",[1,2,3]),some ("digits",[1,2,3]),some ("digits",[4])].Perm
      ((List.range 3).map (taskInput "digits" digitsPool)) ∧
    ∃ tally, fetchLoop sameText 3 {} threeBatches = .ok (some tally) ∧ tally.done = 3 ∧ tally.errors = 2 ∧
      tally.errors+tally.perHost.total = 3 ∧ tally.classes.total = tally.perHost.total := by
  obtain ⟨_,_,sent,fetched⟩ := batch_client 3 2
  have order : Runs.Interleaved ((senders 3 2).map (submit "digits" digitsPool))
      [some ("digits",[1,2,3]),some ("digits",[1,2,3]),some ("digits",[4])] :=
    .next [[some ("digits",[1,2,3]),some ("digits",[4])]] [] <| .next [] [[]] <| .next [] [[]] <| .done (by simp)
  have service : ∀ out ∈ threeBatches.flatten, Served out := by
    intro out member
    have one : out = .failed ∨ out = answered "gone" [4] ∨ out = answered "digits" [1,2,3] := by
      simpa [threeBatches] using member
    rcases one with rfl | rfl | rfl
    · exact .failed
    · exact answer_served _ _ _ _
    · exact answer_served _ _ _ _
  obtain ⟨tally,ran,done,total,classes⟩ := fetched sameText threeBatches rfl service
  have errors : (fetchLoop sameText 3 {} threeBatches).toOption.map (·.map (·.errors)) = some (some 2) := by decide +kernel
  rw [ran] at errors
  exact ⟨sent _ _ _ order,tally,ran,done,Option.some.inj (Option.some.inj errors),total,classes⟩

end SymphonyAkida.BatchClient
