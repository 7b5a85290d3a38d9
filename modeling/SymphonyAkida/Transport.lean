import SymphonyAkida.BatchWorkerSpec

namespace SymphonyAkida.Transport
open Json Bytes Pipe ShardWire
variable {σ τ : Type} {handler : Handler σ} {chip : BatchWorker.Chip τ} {header : Dict}

-- Whatever follows on the pipe, serve takes the payload from where
-- Py312Worker.request put it, and leaves what follows.
def Taken (rt : Runtime) (shm : Option (List UInt8)) (mapped : Bool) (header : Dict) (payload : Option (List UInt8)) : Prop :=
  ∀ rest, readPayload rt (view mapped (frame shm header payload).2) (frame shm header payload).1
    ((if truthyAt (frame shm header payload).1 "inline" then put (payload.getD []) else []) ++ rest) = some (.ok payload,rest)

-- The same of a task: akida_worker answers it and leaves what follows.
def TaskTaken (rt : Runtime) (chip : BatchWorker.Chip τ) (shm : Option (List UInt8)) (mapped : Bool) (state : τ)
    (model : String) (data : List UInt8) : Prop :=
  ∀ rest, BatchWorker.attempt rt (view mapped (BatchWorker.frame shm model data).2.1) chip state
    (BatchWorker.frame shm model data).1 (put (BatchWorker.frame shm model data).2.2 ++ rest) =
      some (BatchWorker.answer chip state model data,rest)

-- Every call gets the handler's answer to its own request, and between calls
-- nothing is on the pipes.
def InStep (rt : Runtime) (handler : Handler σ) (link : Link σ) (requests : List (Dict × Option (List UInt8))) : Prop :=
  (session rt handler link requests).2 = (answers handler (link.shm.map (·.length)) link.state requests).2 ∧
  ∀ done, done <+: requests → Quiet (session rt handler link done).1.toServer

-- A payload in a buffer the worker has not, or cut short by the write.
theorem reaches_or (mapped : Bool) (capacity : Option Nat) (payload : Option (List UInt8)) :
    Reaches mapped capacity payload ∨ ∃ bytes, payload = some bytes ∧ Starves mapped capacity bytes := by
  by_cases agreed : Agreed mapped capacity payload
  · by_cases whole : (body capacity payload).length ≤ writeMax
    · exact .inl ⟨agreed,whole⟩
    · cases payload with
      | none => exact absurd (Nat.zero_le _) whole
      | some bytes =>
        cases fits : capacity.any (bytes.length ≤ ·) with
        | true =>
          simp only [body,fits,if_true] at whole
          exact absurd (Nat.zero_le _) whole
        | false =>
          refine .inr ⟨bytes,rfl,.inl fits,?_⟩
          simp only [body,fits,Bool.false_eq_true,if_false] at whole ⊢
          rw [put_length]
          omega
  · unfold Agreed at agreed
    push Not at agreed
    obtain ⟨bytes,same,some_,shared,unmapped⟩ := agreed
    have fits : capacity.any (bytes.length ≤ ·) = true := by simpa using shared
    refine .inr ⟨bytes,same,.inr (by simpa using unmapped),?_⟩
    simp only [body,fits,if_true]
    exact List.length_pos_iff.mpr some_

theorem starves_not (starves : Starves mapped capacity bytes) : ¬Reaches mapped capacity (some bytes) := by
  intro reaches
  obtain ⟨piped,fewer⟩ := starves
  rw [put_whole reaches.whole] at fewer
  rcases reaches.agreed bytes rfl with rfl | larger | rfl
  · exact Nat.not_lt_zero _ fewer
  · simp only [body,larger,Bool.false_eq_true,if_false] at fewer
    exact Nat.lt_irrefl _ fewer
  · simp only [body,piped.resolve_right (by decide),Bool.false_eq_true,if_false] at fewer
    exact Nat.lt_irrefl _ fewer

theorem taken_iff (rt : Runtime) (held : Header header) (shm : Option (List UInt8)) (mapped : Bool)
    (payload : Option (List UInt8)) : Taken rt shm mapped header payload ↔ Reaches mapped (shm.map (·.length)) payload := by
  unfold Taken
  simp only [frame_eq held,body_eq held]
  constructor
  · intro taken
    rcases reaches_or mapped (shm.map (·.length)) payload with reaches | ⟨bytes,rfl,starves⟩
    · exact reaches
    · have empty := taken []
      rw [List.append_nil,starves.read rt held,readExact_waits rt.short _ _ _ starves.fewer] at empty
      cases empty
  · intro reaches rest
    rw [view_read rt held reaches.agreed,put_whole reaches.whole]
    exact payload_read rt held shm payload rest

-- One request out of step is enough, wherever it stands.
theorem session_reaches (rt : Runtime) (serialisable : Serialisable handler) {link : Link σ}
    {requests : List (Dict × Option (List UInt8))} (held : ∀ one ∈ requests, Header one.1) (quiet : Quiet link.toServer)
    (spoken : ∀ one ∈ requests, Spoken (link.shm.map (·.length)) one.1 one.2)
    (same : (session rt handler link requests).2 = (answers handler (link.shm.map (·.length)) link.state requests).2) :
    ∀ one ∈ requests, Reaches link.mapped (link.shm.map (·.length)) one.2 := by
  induction requests generalizing link with
  | nil => exact fun one member => absurd member List.not_mem_nil
  | cons one rest ih =>
    obtain ⟨header,payload⟩ := one
    have here := held (header,payload) List.mem_cons_self
    have line_ := spoken (header,payload) List.mem_cons_self
    simp only [session,answers,List.cons.injEq] at same
    rcases reaches_or link.mapped (link.shm.map (·.length)) payload with reaches | ⟨bytes,rfl,starves⟩
    · have first := request_spec rt quiet here payload line_ reaches serialisable
      rw [first] at same
      have later := @ih {link with
          state := (handler link.state (wireHeader (link.shm.map (·.length)) header payload) payload).1
          shm := buffered link.shm payload}
        (fun other member => held other (List.mem_cons_of_mem _ member)) ⟨quiet.stdin,quiet.stdout,quiet.alive⟩
        (by simpa only [buffered_length] using fun other member => spoken other (List.mem_cons_of_mem _ member))
        (by simpa only [buffered_length] using same.2)
      simp only [buffered_length] at later
      exact List.forall_mem_cons.mpr ⟨reaches,later⟩
    · rw [request_waits rt quiet here line_ starves] at same
      cases same.1

theorem in_step_iff (rt : Runtime) (serialisable : Serialisable handler) {link : Link σ}
    {requests : List (Dict × Option (List UInt8))} (held : ∀ one ∈ requests, Header one.1) (quiet : Quiet link.toServer)
    (spoken : ∀ one ∈ requests, Spoken (link.shm.map (·.length)) one.1 one.2) :
    InStep rt handler link requests ↔ ∀ one ∈ requests, Reaches link.mapped (link.shm.map (·.length)) one.2 := by
  constructor
  · intro step
    exact session_reaches rt serialisable held quiet spoken step.1
  · intro reaches
    refine ⟨(session_answers rt serialisable requests held quiet spoken reaches).2.2,?_⟩
    intro done early
    exact (session_answers rt serialisable done (fun one member => held one (early.subset member)) quiet
      (fun one member => spoken one (early.subset member)) fun one member => reaches one (early.subset member)).1

theorem task_taken_iff (rt : Runtime) (shm : Option (List UInt8)) (mapped : Bool) (state : τ) (model : String)
    (data : List UInt8) : TaskTaken rt chip shm mapped state model data ↔
      BatchWorker.Meets chip mapped (shm.map (·.length)) state model data := by
  unfold TaskTaken
  simp only [BatchWorker.frame_eq,BatchWorker.attempt_in_sync]
  exact forall_const _

-- The condition for each pair: a payload that is sent at all goes over the pipe
-- in one write or through a buffer the worker mapped; and for akida_worker, which
-- loads the task's model first, the pipe only carries payloads of models that load.
theorem transports_agree (rt : Runtime) (serialisable : Serialisable handler) (chip : BatchWorker.Chip τ) :
    (∀ shm mapped header payload, Header header →
      (Taken rt shm mapped header payload ↔ Reaches mapped (shm.map (·.length)) payload)) ∧
    (∀ (link : Link σ) requests, Quiet link.toServer → (∀ one ∈ requests, Header one.1) →
      (∀ one ∈ requests, Spoken (link.shm.map (·.length)) one.1 one.2) →
      (InStep rt handler link requests ↔ ∀ one ∈ requests, Reaches link.mapped (link.shm.map (·.length)) one.2)) ∧
    (∀ shm mapped state model data, TaskTaken rt chip shm mapped state model data ↔
      BatchWorker.Meets chip mapped (shm.map (·.length)) state model data) ∧
    ∀ (link : Link τ) tasks, Quiet link.toServer →
      BatchWorker.Met chip link.mapped (link.shm.map (·.length)) link.state tasks → BatchWorker.InSync rt chip link tasks := by
  refine ⟨fun shm mapped header payload held => taken_iff rt held shm mapped payload,
    fun link requests quiet held spoken => in_step_iff rt serialisable held quiet spoken,
    fun shm mapped state model data => task_taken_iff rt shm mapped state model data,?_⟩
  intro link tasks quiet met
  refine ⟨(BatchWorker.invokes_answers rt tasks quiet met).2,?_⟩
  intro done early
  exact (BatchWorker.invokes_answers rt done quiet (BatchWorker.met_before met early)).1

theorem nothing_header : Header [] := by constructor <;> simp [Plain,Value.plain,plainMembers]

-- A buffer of four bytes: one payload in it and one too long for it.
theorem transports_agree_tally :
    Taken bytewise (some [0,0,0,0]) true [] (some [1,2,3]) ∧
    InStep bytewise tally (tallied (some [0,0,0,0]) false) [([],some [1,2,3,4,5]),([],none),([],some [])] ∧
    TaskTaken bytewise BatchWorker.digits (some [0,0,0,0]) true () "gone" [1,2,3] ∧
    BatchWorker.InSync bytewise BatchWorker.digits ⟨{state := ()},some [0,0,0,0],true⟩ [("gone",[1,2,3]),("digits",[4])] := by
  obtain ⟨taken,step,task,sync⟩ := transports_agree bytewise tally_serialisable BatchWorker.digits
  have small : Spoken (some 4) (BatchWorker.named "gone") (some [1,2,3]) ∧ Spoken (some 4) (BatchWorker.named "digits") (some [4]) :=
    ⟨⟨by decide +kernel,by decide +kernel⟩,by decide +kernel,by decide +kernel⟩
  refine ⟨(taken _ _ _ _ nothing_header).mpr ⟨?_,by decide⟩,
    (step _ _ (tallied_quiet (some [0,0,0,0]) false) ?_ ?_).mpr ?_,(task _ _ _ _ _).mpr ?_,sync _ _ ⟨rfl,rfl,rfl⟩ ?_⟩
  · exact fun bytes _ => .inr (.inr rfl)
  · simp [nothing_header]
  · intro one member
    simp only [List.mem_cons,List.not_mem_nil,or_false] at member
    rcases member with rfl | rfl | rfl <;> exact ⟨by decide +kernel,by decide +kernel⟩
  · intro one member
    simp only [List.mem_cons,List.not_mem_nil,or_false] at member
    rcases member with rfl | rfl | rfl <;> exact ⟨by simp [Agreed,tallied],by decide⟩
  · exact .inr (.inr ⟨by simp [BatchWorker.Inline],.inl rfl⟩)
  · exact ⟨⟨small.1,.inr (.inr ⟨by simp [BatchWorker.Inline],.inl rfl⟩)⟩,
      ⟨small.2,.inr (.inr ⟨by simp [BatchWorker.Inline],.inl rfl⟩)⟩,trivial⟩

-- With the buffer allocated and not mapped, the first payload that fits stops both.
theorem unmapped_waits :
    ¬InStep bytewise tally (tallied (some [0,0,0,0]) false) [([],some [1,2,3])] ∧
    ¬TaskTaken BatchWorker.whole BatchWorker.digits (some [0,0,0,0]) false () "digits" [1,2,3] := by
  have starves : Starves false (some 4) [1,2,3] := ⟨.inr rfl,by decide⟩
  constructor
  · intro step
    have reaches := (in_step_iff bytewise tally_serialisable (by simp [nothing_header]) (tallied_quiet (some [0,0,0,0]) false) (by
      intro one member
      rw [List.mem_singleton.mp member]
      exact ⟨by decide +kernel,by decide +kernel⟩)).mp step
    exact starves_not starves (reaches ([],some [1,2,3]) List.mem_cons_self)
  · rw [task_taken_iff]
    intro given
    rcases given with none | ⟨larger,_⟩ | ⟨_,mapped | ⟨raised,refused⟩⟩
    · cases none
    · cases larger
    · cases mapped
    · rw [BatchWorker.digits_kept] at refused
      cases refused

end SymphonyAkida.Transport
