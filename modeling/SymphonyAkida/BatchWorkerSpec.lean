import SymphonyAkida.BatchWorker
import SymphonyAkida.ShardWireSpec

namespace SymphonyAkida.BatchWorker
open Json Bytes Pipe ShardWire

def named (model : String) : Dict := [("model",if model = "" then .null else .str model)]

theorem named_header (model : String) : Header (named model) := by
  constructor <;> try simp [named]
  simp only [Plain,Value.plain,plainMembers]
  split <;> simp [Value.plain]

-- on_invoke frames a task the way Py312Worker.request frames a payload.
theorem frame_eq (shm : Option (List UInt8)) (model : String) (data : List UInt8) :
    frame shm model data = (wireHeader (shm.map (·.length)) (named model) (some data),buffered shm (some data),
      body (shm.map (·.length)) (some data)) := by
  have set : setMember (taskHeader model data) "inline" (.bool true) =
      named model ++ [("n",.int data.length),("inline",.bool true)] := rfl
  cases shm with
  | none => simp only [frame,set]; rfl
  | some buffer =>
    simp only [frame,set]
    by_cases fits : data.length ≤ buffer.length
    · simp [wireHeader,buffered,body,fits]
      rfl
    · simp [wireHeader,buffered,body,fits]

-- What the task's model makes of the chip before its payload is read.
def remapped (chip : Chip σ) (state : σ) (model : String) : σ × Except Raised Unit := remap chip state (named model)

def Refused (chip : Chip σ) (state : σ) (model : String) : Prop :=
  ∃ raised, (remapped chip state model).2 = .error raised

def answer (chip : Chip σ) (state : σ) (model : String) (data : List UInt8) : σ × Except Raised Dict :=
  match remapped chip state model with
  | (state,.error raised) => (state,.error raised)
  | (state,.ok ()) => inferOn chip state (.ok (.bytes data))

def Inline (capacity : Option Nat) (data : List UInt8) : Prop := capacity.any (data.length ≤ ·) = false

-- The pipe holds a payload only when it is read, and one is read only when the
-- pipe holds it, whole.
def Meets (chip : Chip σ) (mapped : Bool) (capacity : Option Nat) (state : σ) (model : String) (data : List UInt8) :
    Prop :=
  data = [] ∨ (Inline capacity data ∧ data.length ≤ writeMax ∧ ¬Refused chip state model) ∨
    (¬Inline capacity data ∧ (mapped = true ∨ Refused chip state model))

section
variable {σ : Type} {chip : Chip σ} {state : σ} {model : String} {data : List UInt8}

theorem remap_wire (capacity : Option Nat) :
    remap chip state (wireHeader capacity (named model) (some data)) = remapped chip state model := by
  have same : get (wireHeader capacity (named model) (some data)) "model" = get (named model) "model" := rfl
  unfold remapped remap
  rw [same]

theorem answer_refused (refused : (remapped chip state model).2 = .error raised) :
    answer chip state model data = ((remapped chip state model).1,.error raised) := by
  unfold answer
  split
  · rename_i next other found
    rw [found] at refused ⊢
    cases refused
    rfl
  · rename_i next found
    rw [found] at refused
    cases refused

theorem answer_mapped (accepted : (remapped chip state model).2 = .ok ()) :
    answer chip state model data = inferOn chip (remapped chip state model).1 (.ok (.bytes data)) := by
  unfold answer
  split
  · rename_i next raised found
    rw [found] at accepted
    cases accepted
  · rename_i next found
    rw [found]

theorem frombuffer_all (data more : List UInt8) : frombuffer (data ++ more) data.length = .ok data := by
  unfold frombuffer
  rw [if_neg (by omega),if_neg (by simp)]
  simp

theorem attempt_refused (rt : Runtime) (shm : Option (List UInt8)) (capacity : Option Nat) (stdin : List UInt8)
    (refused : Refused chip state model) :
    attempt rt shm chip state (wireHeader capacity (named model) (some data)) stdin =
      some (answer chip state model data,stdin) := by
  obtain ⟨raised,refused⟩ := refused
  rw [answer_refused refused]
  unfold attempt
  rw [remap_wire]
  generalize remapped chip state model = outcome at refused
  obtain ⟨next,result⟩ := outcome
  cases refused
  rfl

theorem not_refused (accepted : ¬Refused chip state model) : (remapped chip state model).2 = .ok () := by
  cases outcome : (remapped chip state model).2 with
  | error raised => exact absurd ⟨raised,outcome⟩ accepted
  | ok _ => rfl

theorem attempt_shared (rt : Runtime) (buffer stdin : List UInt8) (capacity : Option Nat)
    (accepted : ¬Refused chip state model) (shared : ¬Inline capacity data) :
    attempt rt (some (data ++ buffer)) chip state (wireHeader capacity (named model) (some data)) stdin =
      some (answer chip state model data,stdin) := by
  obtain ⟨_,n,inline_⟩ := wire_keys (named_header model) capacity (some data)
  have fits : capacity.any (data.length ≤ ·) = true := by simpa [Inline] using shared
  have ok := not_refused accepted
  rw [answer_mapped ok]
  unfold attempt
  rw [remap_wire,n,inline_]
  generalize remapped chip state model = outcome at ok
  obtain ⟨next,result⟩ := outcome
  cases ok
  simp only [Option.map_some,toInt,Option.any_some,fits,Bool.not_true,frombuffer_all]
  rfl

theorem attempt_piped (rt : Runtime) (shm : Option (List UInt8)) (capacity : Option Nat) (stdin : List UInt8)
    (accepted : ¬Refused chip state model) (piped : Inline capacity data ∨ shm = none) :
    attempt rt shm chip state (wireHeader capacity (named model) (some data)) stdin =
      (readExact rt.short data.length data.length stdin).map fun (buffer,rest) =>
        (inferOn chip (remapped chip state model).1 ((frombuffer buffer data.length).map .bytes),rest) := by
  obtain ⟨_,n,inline_⟩ := wire_keys (named_header model) capacity (some data)
  have ok := not_refused accepted
  unfold attempt
  rw [remap_wire,n,inline_]
  generalize remapped chip state model = outcome at ok
  obtain ⟨next,result⟩ := outcome
  cases ok
  simp only [Option.map_some,toInt,Option.any_some,Int.toNat_natCast]
  rcases piped with larger | unmapped
  · have none : capacity.any (data.length ≤ ·) = false := larger
    simp only [none,Bool.not_false]
  · subst unmapped
    split
    · rename_i absent
      cases absent
    · rfl

theorem body_inline {capacity : Option Nat} (larger : Inline capacity data) : body capacity (some data) = data := by
  have none : capacity.any (data.length ≤ ·) = false := larger
  simp [body,none]

theorem body_shared {capacity : Option Nat} (shared : ¬Inline capacity data) : body capacity (some data) = [] := by
  have fits : capacity.any (data.length ≤ ·) = true := by simpa [Inline] using shared
  simp [body,fits]

theorem buffered_shared {shm : Option (List UInt8)} (shared : ¬Inline (shm.map (·.length)) data) :
    ∃ more, buffered shm (some data) = some (data ++ more) := by
  cases shm with
  | none => exact absurd rfl shared
  | some buffer =>
    have room : data.length ≤ buffer.length := by simpa [Inline] using shared
    exact ⟨buffer.drop data.length,by simp [buffered,room]⟩

-- With fewer bytes sent than promised it waits, or takes some that were sent for
-- a later task.
theorem starved_read (rt : Runtime) {sent rest : List UInt8} {owed : α} {f : List UInt8 × List UInt8 → α × List UInt8}
    (leaves : ∀ read, (f read).2 = read.2) (fewer : sent.length < data.length) :
    (readExact rt.short data.length data.length (sent ++ rest)).map f ≠ some (owed,rest) := by
  rcases Nat.lt_or_ge (sent ++ rest).length data.length with short | enough
  · rw [readExact_waits rt.short _ _ _ short]
    simp
  · rw [readExact_all rt.short _ _ _ (Nat.le_refl _) enough]
    intro same
    have left := (leaves _).symm.trans (congrArg Prod.snd (Option.some.inj same))
    have size := congrArg List.length left
    simp only [List.length_drop,List.length_append] at size enough
    omega

-- The try block takes the task's own bytes off the pipe, and no more, exactly
-- when it meets the condition.
theorem attempt_in_sync (rt : Runtime) (mapped : Bool) (shm : Option (List UInt8)) (rest : List UInt8) :
    attempt rt (view mapped (buffered shm (some data))) chip state
      (wireHeader (shm.map (·.length)) (named model) (some data)) (put (body (shm.map (·.length)) (some data)) ++ rest) =
      some (answer chip state model data,rest) ↔ Meets chip mapped (shm.map (·.length)) state model data := by
  by_cases refused : Refused chip state model
  · rw [attempt_refused rt _ _ _ refused]
    by_cases larger : Inline (shm.map (·.length)) data
    · rw [body_inline larger]
      have none : put data = [] ↔ data = [] := by simp [put,writeMax]
      simp [Meets,refused,larger,none]
    · rw [body_shared larger]
      simp [Meets,refused,larger,put]
  · by_cases larger : Inline (shm.map (·.length)) data
    · rw [attempt_piped rt _ _ _ refused (.inl larger),body_inline larger]
      by_cases fits : data.length ≤ writeMax
      · rw [put_whole fits,readExact_all rt.short data.length data.length (data ++ rest) (Nat.le_refl _) (by simp)]
        have all := frombuffer_all data []
        rw [List.append_nil] at all
        rw [answer_mapped (not_refused refused)]
        simp [Meets,refused,larger,fits,all,Except.map]
      -- The rest of the payload was dropped.
      · have some_ : data ≠ [] := by
          rintro rfl
          exact fits (Nat.zero_le _)
        have fails : ¬Meets chip mapped (shm.map (·.length)) state model data := by simp [Meets,refused,larger,fits,some_]
        have cut : (put data).length < data.length := by
          rw [put_length]
          omega
        exact iff_of_false (starved_read rt (fun _ => rfl) cut) fails
    · rw [body_shared larger]
      cases mapped with
      | true =>
        obtain ⟨more,same⟩ := buffered_shared larger
        unfold view
        rw [if_pos rfl,same,attempt_shared rt more _ _ refused larger]
        simp [Meets,larger,put]
      | false =>
        unfold view
        rw [if_neg (by decide),attempt_piped rt none _ _ refused (.inr rfl)]
        cases data with
        | nil =>
          rw [answer_mapped (not_refused refused)]
          simp [Meets,readExact,frombuffer,Except.map,put]
        | cons b data =>
          have fails : ¬Meets chip false (shm.map (·.length)) state model (b :: data) := by simp [Meets,refused,larger]
          have cut : (put ([] : List UInt8)).length < (b :: data).length := Nat.succ_pos _
          exact iff_of_false (starved_read rt (fun _ => rfl) cut) fails

theorem turn_request (rt : Runtime) (shm : Option (List UInt8)) (chip : Chip σ) (state : σ) (plain : Plain dict)
    (digits : (Value.obj dict).within maxStrDigits = true) (action : get dict "action" = none) (rest : List UInt8) :
    turn rt shm chip state (line dict ++ rest) =
      match attempt rt shm chip state dict rest with
      | none => .waits
      | some ((next,response),rest) => .goes next rest (line (reply response)) := by
  unfold turn
  rw [read_header plain]
  simp only [if_neg (header_nonempty _),parse_header rt plain digits,action]
  rfl

theorem turn_header (rt : Runtime) (shm : Option (List UInt8)) (chip : Chip σ) (state : σ) (capacity : Option Nat)
    (digits : (Value.obj (wireHeader capacity (named model) (some data))).within maxStrDigits = true) (rest : List UInt8) :
    turn rt shm chip state (line (wireHeader capacity (named model) (some data)) ++ rest) =
      match attempt rt shm chip state (wireHeader capacity (named model) (some data)) rest with
      | none => .waits
      | some ((next,response),rest) => .goes next rest (line (reply response)) :=
  turn_request rt shm chip state (wire_plain (named_header model) capacity (some data)) digits
    (wire_keys (named_header model) capacity (some data)).1 rest

theorem turn_serves (rt : Runtime) (mapped : Bool) (shm : Option (List UInt8))
    (spoken : Spoken (shm.map (·.length)) (named model) (some data))
    (met : Meets chip mapped (shm.map (·.length)) state model data) :
    turn rt (view mapped (buffered shm (some data))) chip state
      (line (wireHeader (shm.map (·.length)) (named model) (some data)) ++ put (body (shm.map (·.length)) (some data))) =
      .goes (answer chip state model data).1 [] (line (reply (answer chip state model data).2)) := by
  have taken := (attempt_in_sync rt mapped shm []).mpr met
  rw [List.append_nil] at taken
  rw [turn_header rt _ chip state _ spoken.digits,taken]

theorem turn_waits (rt : Runtime) (mapped : Bool) (shm : Option (List UInt8))
    (spoken : Spoken (shm.map (·.length)) (named model) (some data))
    (met : Meets chip mapped (shm.map (·.length)) state model data) (part more : List UInt8)
    (split : part ++ more = line (wireHeader (shm.map (·.length)) (named model) (some data)) ++
      put (body (shm.map (·.length)) (some data))) (some_ : more ≠ []) :
    turn rt (view mapped (buffered shm (some data))) chip state part = .waits := by
  have plain := wire_plain (named_header model) (shm.map (·.length)) (some data)
  rw [line_eq] at split
  rcases readLine_before (header_newline plain) split with early | ⟨rest,rfl,left⟩
  · unfold turn
    rw [early]
  · rw [← line_eq,turn_header rt _ chip state _ spoken.digits]
    by_cases larger : Inline (shm.map (·.length)) data
    · rw [body_inline larger] at left
      have short : rest.length < data.length := by
        have size := congrArg List.length left
        have positive := List.length_pos_iff.mpr some_
        rw [List.length_append,put_length] at size
        omega
      have accepted : ¬Refused chip state model := by
        rcases met with empty | ⟨_,_,accepted⟩ | ⟨shared,_⟩
        · rw [empty] at short
          exact absurd short (Nat.not_lt_zero _)
        · exact accepted
        · exact absurd larger shared
      rw [attempt_piped rt _ _ rest accepted (.inl larger),readExact_waits rt.short _ _ rest short]
      rfl
    · rw [body_shared larger] at left
      exact absurd (List.append_eq_nil_iff.mp left).2 some_

theorem prediction_plain (prediction : Prediction) : Plain prediction.dict := by
  simp only [Plain,Prediction.dict,Value.plain,plainMembers]
  cases prediction.model <;> simp [Value.plain]

theorem answer_plain (chip : Chip σ) (state : σ) (model : String) (data : List UInt8) :
    Plain (reply (answer chip state model data).2) := by
  have error : ∀ raised, Plain (reply (.error raised)) := by
    intro raised
    simp [reply,errorReply,Plain,Value.plain,plainMembers]
  by_cases refused : Refused chip state model
  · obtain ⟨raised,refused⟩ := refused
    rw [answer_refused refused]
    exact error raised
  · rw [answer_mapped (not_refused refused)]
    unfold inferOn
    dsimp only
    cases (chip.infer (remapped chip state model).1 (.bytes data)).2 with
    | error raised => exact error raised
    | ok prediction => exact prediction_plain prediction

def answerText (response : Except Raised Dict) : Result (List Char) := .returned (dumps (.obj (reply response)))

theorem output_text (rt : Runtime) (dict : Dict) : outputText rt (line dict) = .returned (dumps (.obj dict)) := by
  unfold outputText line
  rw [decode_encode]
  dsimp only
  rw [strip_newlines]

theorem invoke_spec (rt : Runtime) {link : Link σ} (quiet : Quiet link.toServer)
    (spoken : Spoken (link.shm.map (·.length)) (named model) (some data))
    (met : Meets chip link.mapped (link.shm.map (·.length)) link.state model data) :
    onInvoke rt chip link model data = ({link with
      state := (answer chip link.state model data).1
      shm := buffered link.shm (some data)},
      answerText (answer chip link.state model data).2) := by
  have arrived := rt.arrives (line (wireHeader (link.shm.map (·.length)) (named model) (some data)) ++
    put (body (link.shm.map (·.length)) (some data)))
  have served := turn_serves rt link.mapped link.shm spoken met
  have waits := turn_waits rt link.mapped link.shm spoken met
  have plain := answer_plain chip link.state model data
  rw [line_eq (reply _)] at served
  rw [← arrived] at served waits
  have answered := exchange_quiet _ quiet (fun _ => rfl) waits served (header_newline plain)
    (by rw [arrived,line_eq]; simp)
  have running : (!link.alive) = false := by rw [quiet.alive]; rfl
  unfold onInvoke
  simp only [frame_eq,running,put_whole spoken.whole,answered,← line_eq]
  simp only [Bool.false_eq_true,if_false,output_text]
  rfl

def answers (chip : Chip σ) : σ → List (String × List UInt8) → σ × List (Result (List Char))
  | state,[] => (state,[])
  | state,(model,data) :: rest =>
    let (state,response) := answer chip state model data
    let (state,results) := answers chip state rest
    (state,answerText response :: results)

-- The line of every task reaches the worker, and every task meets the condition
-- on the chip the tasks before it leave.
def Met (chip : Chip σ) (mapped : Bool) (capacity : Option Nat) : σ → List (String × List UInt8) → Prop
  | _,[] => True
  | state,(model,data) :: rest =>
    (Spoken capacity (named model) (some data) ∧ Meets chip mapped capacity state model data) ∧
      Met chip mapped capacity (answer chip state model data).1 rest

theorem invokes_answers (rt : Runtime) {link : Link σ} (tasks : List (String × List UInt8)) (quiet : Quiet link.toServer)
    (met : Met chip link.mapped (link.shm.map (·.length)) link.state tasks) :
    Quiet (invokes rt chip link tasks).1.toServer ∧
    (invokes rt chip link tasks).2 = (answers chip link.state tasks).2 := by
  induction tasks generalizing link with
  | nil => exact ⟨quiet,rfl⟩
  | cons task tasks ih =>
    obtain ⟨model,data⟩ := task
    have first := invoke_spec rt quiet met.1.1 met.1.2
    have still : Quiet (onInvoke rt chip link model data).1.toServer := by
      rw [first]
      exact ⟨quiet.stdin,quiet.stdout,quiet.alive⟩
    have next : Met chip (onInvoke rt chip link model data).1.mapped
        ((onInvoke rt chip link model data).1.shm.map (·.length)) (onInvoke rt chip link model data).1.state tasks := by
      rw [first]
      dsimp only
      rw [buffered_length]
      exact met.2
    obtain ⟨after,results⟩ := ih still next
    simp only [invokes,answers]
    refine ⟨after,?_⟩
    rw [results,first]

theorem met_before {mapped : Bool} {capacity : Option Nat} {tasks : List (String × List UInt8)}
    (met : Met chip mapped capacity state tasks) (early : done <+: tasks) : Met chip mapped capacity state done := by
  induction done generalizing state tasks with
  | nil => trivial
  | cons task done ih =>
    obtain ⟨more,rfl⟩ := early
    exact ⟨met.1,ih met.2 (List.prefix_append done more)⟩

-- Each task gets the reply to its own request, and between tasks both pipes are
-- empty: the worker stands at the start of the next header.
def InSync (rt : Runtime) (chip : Chip σ) (link : Link σ) (tasks : List (String × List UInt8)) : Prop :=
  (invokes rt chip link tasks).2 = (answers chip link.state tasks).2 ∧
  ∀ done, done <+: tasks → Quiet (invokes rt chip link done).1.toServer

theorem stays_in_sync (rt : Runtime) {link : Link σ} (tasks : List (String × List UInt8)) (quiet : Quiet link.toServer)
    (met : Met chip link.mapped (link.shm.map (·.length)) link.state tasks) : InSync rt chip link tasks := by
  refine ⟨(invokes_answers rt tasks quiet met).2,?_⟩
  intro done early
  exact (invokes_answers rt done quiet (met_before met early)).1

-- The bytes of a refused inline payload are read as the next header: a payload
-- that is a request line is served, and its reply is left for the next task.
theorem refused_payload_served (rt : Runtime) {link : Link σ} (at_once : ∀ bytes, rt.arrive bytes = [bytes])
    (quiet : Quiet link.toServer) (alone : link.shm = none)
    (refused : (remapped chip link.state model).2 = .error raised) (spoken : Spoken none (named model) (some (line dict)))
    (plain : Plain dict) (digits : (Value.obj dict).within maxStrDigits = true) (short : (line dict).length ≤ writeMax)
    (action : get dict "action" = none)
    (served : attempt rt none chip (remapped chip link.state model).1 dict [] = some ((last,response),[])) :
    onInvoke rt chip link model (line dict) = ({link with
      state := last
      stdout := line (reply response)},answerText (.error raised)) := by
  obtain ⟨⟨state,stdin,stdout,alive⟩,shm,mapped⟩ := link
  obtain ⟨rfl,rfl,rfl⟩ := quiet
  cases alone
  have hidden : view mapped none = none := by cases mapped <;> rfl
  have first := turn_header rt none chip state none spoken.digits (line dict)
  rw [attempt_refused rt none none (line dict) ⟨raised,refused⟩,answer_refused refused] at first
  have second := turn_request rt none chip (remapped chip state model).1 plain digits action []
  rw [served,List.append_nil] at second
  have error : Plain (reply (.error raised)) := by simp [reply,errorReply,Plain,Value.plain,plainMembers]
  have larger : Inline none (line dict) := rfl
  have two : 2 ≤ (line (wireHeader none (named model) (some (line dict))) ++ line dict).length := by
    simp only [line_eq,List.length_append,List.length_singleton]
    omega
  obtain ⟨n,size⟩ := Nat.exists_eq_add_of_le' two
  have line_ := read_header error (line (reply response))
  unfold onInvoke exchange
  simp only [frame_eq,Option.map_none,body_inline larger,put_whole spoken.whole,put_whole short,buffered,hidden,at_once,List.foldl_cons,List.foldl_nil,deliver,
    List.nil_append,Bool.not_true,Bool.false_eq_true,if_false,if_true,size,run,first,second]
  rw [show turn rt none chip last [] = .waits from rfl]
  simp only [line_,output_text]
  rfl

theorem leftover_answers (rt : Runtime) {link : Link σ} (alive : link.alive = true) (plain : Plain dict)
    (left : line dict <+: link.stdout) : (onInvoke rt chip link model data).2 = .returned (dumps (.obj dict)) := by
  have running : (!link.alive) = false := by rw [alive]; rfl
  have text := line_eq dict
  rw [text] at left
  unfold onInvoke
  simp only [frame_eq,running]
  have answered := exchange_leftover (turn rt (view link.mapped (buffered link.shm (some data))) chip)
    (rt.arrive (put (line (wireHeader (link.shm.map (·.length)) (named model) (some data))) ++
      put (body (link.shm.map (·.length)) (some data)))) (header_newline plain) left
  generalize exchange _ _ link.toServer = outcome at answered
  obtain ⟨server,found⟩ := outcome
  cases answered
  rw [← text]
  exact output_text rt dict

end

-- Reads and writes that come whole.
def whole : Runtime where
  short _ n := n
  arrive bytes := [bytes]
  arrives _ := List.append_nil _
  decodeError _ := "'utf-8' codec can't decode"
  otherInt _ := .error ⟨"TypeError","int() argument must be a string, a bytes-like object or a real number"⟩
  returnCode := "None"

def seven : Prediction := ⟨7,"seven",120,"akida1","NSoC_v2","AKD1000",some "digits"⟩

-- A chip with one model on it, and no other to be found.
def digits : Chip Unit where
  stem _ := some "digits"
  load _ _ := ((),.error ⟨"FileNotFoundError","no such model: /shared/models/gone.fbz"⟩)
  infer _ _ := ((),.ok seven)

theorem digits_kept : remapped digits () "digits" = ((),.ok ()) := rfl

theorem digits_refuses : remapped digits () "gone" =
    ((),.error ⟨"FileNotFoundError","no such model: /shared/models/gone.fbz"⟩) := rfl

theorem stays_in_sync_digits : InSync whole digits ⟨{state := ()},some [0,0,0,0],true⟩
    [("digits",[1,2,3]),("gone",[4]),("digits",[1,2,3,4,5]),("",[])] := by
  have kept : ¬Refused digits () "digits" := by
    intro given
    obtain ⟨raised,refused⟩ := given
    rw [digits_kept] at refused
    cases refused
  have spoken : ∀ task ∈ [("digits",[1,2,3]),("gone",[4]),("digits",[1,2,3,4,5]),("",([] : List UInt8))],
      Spoken (some 4) (named task.1) (some task.2) := by
    intro task member
    simp only [List.mem_cons,List.not_mem_nil,or_false] at member
    rcases member with rfl | rfl | rfl | rfl <;> exact ⟨by decide +kernel,by decide +kernel⟩
  have met : Met digits true (some 4) () [("digits",[1,2,3]),("gone",[4]),("digits",[1,2,3,4,5]),("",[])] :=
    ⟨⟨spoken ("digits",[1,2,3]) (by simp),.inr (.inr ⟨by simp [Inline],.inl rfl⟩)⟩,
      ⟨spoken ("gone",[4]) (by simp),.inr (.inr ⟨by simp [Inline],.inl rfl⟩)⟩,
      ⟨spoken ("digits",[1,2,3,4,5]) (by simp),.inr (.inl ⟨by simp [Inline],by decide,kept⟩)⟩,
      ⟨spoken ("",[]) (by simp),.inl rfl⟩,trivial⟩
  exact stays_in_sync whole _ ⟨rfl,rfl,rfl⟩ met

-- Without a shared buffer, a task that names a missing model leaves its payload
-- to be read as a header, and the next task gets that reply.
theorem refused_load_desyncs :
    ¬InSync whole digits ⟨{state := ()},none,false⟩ [("gone",line []),("digits",[5])] := by
  intro given
  obtain ⟨results,_⟩ := given
  have empty : Plain [] := rfl
  have plain : Plain [("error",.str "unknown request"),("got",.obj [])] := by simp [Plain,Value.plain,plainMembers]
  have first : onInvoke whole digits ⟨{state := ()},none,false⟩ "gone" (line []) = _ :=
    refused_payload_served whole (fun _ => rfl) ⟨rfl,rfl,rfl⟩ rfl (congrArg Prod.snd digits_refuses)
      ⟨by decide +kernel,by decide +kernel⟩ empty rfl (by decide +kernel) rfl rfl
  have second : (onInvoke whole digits ⟨{state := (),stdout := line [("error",.str "unknown request"),("got",.obj [])]},
      none,false⟩ "digits" [5]).2 = .returned (dumps (.obj [("error",.str "unknown request"),("got",.obj [])])) :=
    leftover_answers whole rfl plain (List.prefix_refl _)
  have owed : answer digits () "digits" [5] = _ := answer_mapped (congrArg Prod.snd digits_kept)
  simp only [invokes,answers,first] at results
  have last := (List.cons.inj (List.cons.inj results).2).1
  have same : _ = answerText (answer digits () "digits" [5]).2 := second.symm.trans last
  rw [owed] at same
  -- The texts are of different dicts.
  have texts : dumps (.obj [("error",.str "unknown request"),("got",.obj [])]) = dumps (.obj seven.dict) :=
    Result.returned.inj same
  have read := loads_dumps plain
  rw [texts,loads_dumps (prediction_plain seven)] at read
  simp [Prediction.dict] at read

end SymphonyAkida.BatchWorker
