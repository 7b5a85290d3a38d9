import SymphonyAkida.ShardWire

namespace SymphonyAkida.ShardWire
open Json Bytes Pipe

theorem get_none {dict : Dict} (fresh : key ∉ dict.map (·.1)) : get dict key = none := by
  apply List.lookup_eq_none_iff.mpr
  intro member inside
  have differ : key ≠ member.1 := fun same => fresh (List.mem_map.mpr ⟨member,inside,same.symm⟩)
  simpa using differ

def Plain (dict : Dict) : Prop := (Value.obj dict).plain = true

theorem plain_append (plain : Plain dict) (fresh : key ∉ dict.map (·.1)) (value : Value) (whole : value.plain = true) :
    Plain (dict ++ [(key,value)]) := by
  have members : ∀ ms : Dict, plainMembers ms = true → plainMembers (ms ++ [(key,value)]) = true := by
    intro ms held
    induction ms with
    | nil => simp [plainMembers,whole]
    | cons member ms ih =>
      simp only [plainMembers,Bool.and_eq_true,List.cons_append] at held ⊢
      exact ⟨held.1,ih held.2⟩
  simp only [Plain,Value.plain,Bool.and_eq_true,decide_eq_true_eq] at plain ⊢
  refine ⟨?_,members dict plain.2⟩
  rw [List.map_append]
  refine List.nodup_append.mpr ⟨plain.1,List.nodup_singleton key,?_⟩
  intro other inside last single
  rw [List.mem_singleton.mp single]
  rintro rfl
  exact fresh inside

theorem dumps_braces (dict : Dict) : ∃ inner, dumps (.obj dict) = '\x7b' :: (inner ++ ['\x7d']) := by
  have members : ∀ ms : Dict, ∃ inner, dumpMembers ms = inner ++ ['\x7d'] := by
    intro ms
    induction ms with
    | nil => exact ⟨[],rfl⟩
    | cons member ms ih =>
      obtain ⟨inner,same⟩ := ih
      exact ⟨_,by rw [dumpMembers,same,← List.append_assoc]⟩
  cases dict with
  | nil => exact ⟨[],rfl⟩
  | cons member dict =>
    obtain ⟨inner,same⟩ := members dict
    exact ⟨_,by rw [dumps,same,← List.append_assoc]⟩

theorem line_eq (dict : Dict) : line dict = encode (dumps (.obj dict)) ++ [newline] := by
  unfold line
  rw [encode_append]
  congr 1

theorem strip_header (dict : Dict) : strip (line dict) = encode (dumps (.obj dict)) := by
  obtain ⟨inner,shape⟩ := dumps_braces dict
  have bytes : encode (dumps (.obj dict)) = 123 :: (encode inner ++ [125]) := by
    rw [shape,encode_cons,encode_append]
    rfl
  rw [line_eq,bytes]
  have whole : 123 :: (encode inner ++ [125]) ++ [newline] = 123 :: (encode inner ++ [125,newline]) := by simp
  rw [whole]
  exact strip_line 123 125 (encode inner) rfl rfl

theorem header_newline (plain : Plain dict) : newline ∉ encode (dumps (.obj dict)) :=
  encode_line (dumps_printable _ plain)

theorem read_header (plain : Plain dict) (rest : List UInt8) : readLine (line dict ++ rest) = some (line dict,rest) := by
  rw [line_eq,List.append_assoc,List.singleton_append]
  exact readLine_line _ rest (header_newline plain)

theorem header_nonempty (dict : Dict) : strip (line dict) ≠ [] := by
  obtain ⟨inner,shape⟩ := dumps_braces dict
  rw [strip_header,shape,encode_cons]
  simp

theorem parse_header (rt : Runtime) (plain : Plain dict) (digits : (Value.obj dict).within maxStrDigits = true) :
    parseRequest rt (strip (line dict)) = .ok dict := by
  rw [strip_header]
  unfold parseRequest
  rw [decode_encode]
  dsimp only
  rw [loadsWithin_dumps plain digits]

theorem strip_newlines (dict : Dict) : stripNewlines (dumps (.obj dict) ++ ['\n']) = dumps (.obj dict) := by
  obtain ⟨inner,shape⟩ := dumps_braces dict
  rw [shape]
  simp [stripNewlines]

theorem parse_reply (rt : Runtime) (plain : Plain dict) : parseReply rt (line dict) = .returned (.obj dict) := by
  unfold parseReply line
  rw [decode_encode]
  dsimp only
  rw [strip_newlines,loads_dumps plain]

structure Header (dict : Dict) : Prop where
  plain : Plain dict
  action : "action" ∉ dict.map (·.1)
  n : "n" ∉ dict.map (·.1)
  inline_ : "inline" ∉ dict.map (·.1)

-- What the handler sees of a header: the length, and how the payload came.
def wireHeader (capacity : Option Nat) (header : Dict) (payload : Option (List UInt8)) : Dict :=
  match payload with
  | none => header
  | some bytes => header ++ ("n",.int bytes.length) ::
      (if capacity.any (bytes.length ≤ ·) then [] else [("inline",.bool true)])

def body (capacity : Option Nat) (payload : Option (List UInt8)) : List UInt8 :=
  match payload with
  | none => []
  | some bytes => if capacity.any (bytes.length ≤ ·) then [] else bytes

-- The buffer after a payload: a longer one before it leaves its tail.
def buffered (shm : Option (List UInt8)) (payload : Option (List UInt8)) : Option (List UInt8) :=
  shm.map fun buffer =>
    match payload with
    | none => buffer
    | some bytes => if bytes.length ≤ buffer.length then bytes ++ buffer.drop bytes.length else buffer

theorem buffered_length (shm : Option (List UInt8)) (payload : Option (List UInt8)) :
    (buffered shm payload).map (·.length) = shm.map (·.length) := by
  cases shm with
  | none => rfl
  | some buffer =>
    cases payload with
    | none => rfl
    | some bytes =>
      simp only [buffered,Option.map_some]
      split
      · rw [List.length_append,List.length_drop]
        congr 1
        omega
      · rfl

variable {header : Dict}

theorem set_fresh (held : Header header) (bytes : List UInt8) :
    setMember header "n" (.int bytes.length) = header ++ [("n",.int bytes.length)] ∧
    setMember (header ++ [("n",.int bytes.length)]) "inline" (.bool true) =
      header ++ [("n",.int bytes.length),("inline",.bool true)] := by
  refine ⟨setMember_fresh header held.n _,?_⟩
  rw [setMember_fresh]
  · simp
  · simpa using held.inline_

theorem frame_eq (held : Header header) (shm : Option (List UInt8)) (payload : Option (List UInt8)) :
    frame shm header payload = (wireHeader (shm.map (·.length)) header payload,buffered shm payload) := by
  cases payload with
  | none => cases shm <;> rfl
  | some bytes =>
    obtain ⟨first,second⟩ := set_fresh held bytes
    cases shm with
    | none => simp only [frame,first,second]; rfl
    | some buffer =>
      simp only [frame,first,second]
      by_cases fits : bytes.length ≤ buffer.length
      · have room : ¬buffer.length < bytes.length := Nat.not_lt.mpr fits
        simp [wireHeader,buffered,fits,if_neg room]
      · have larger : buffer.length < bytes.length := Nat.lt_of_not_le fits
        simp [wireHeader,buffered,fits,if_pos larger]

theorem wire_plain (held : Header header) (capacity : Option Nat) (payload : Option (List UInt8)) :
    Plain (wireHeader capacity header payload) := by
  cases payload with
  | none => exact held.plain
  | some bytes =>
    have first := plain_append held.plain held.n (.int bytes.length) rfl
    unfold wireHeader
    dsimp only
    split
    · exact first
    · have fresh : "inline" ∉ (header ++ [("n",Value.int bytes.length)]).map (·.1) := by
        simpa using held.inline_
      have second := plain_append first fresh (.bool true) rfl
      rwa [List.append_assoc] at second

theorem get_append_fresh (dict : Dict) (fresh : key ∉ dict.map (·.1)) (more : Dict) :
    get (dict ++ more) key = get more key := by
  have absent := get_none fresh
  unfold get at absent ⊢
  rw [List.lookup_append,absent]
  rfl

theorem wire_keys (held : Header header) (capacity : Option Nat) (payload : Option (List UInt8)) :
    get (wireHeader capacity header payload) "action" = none ∧
    get (wireHeader capacity header payload) "n" = payload.map (fun bytes => .int bytes.length) ∧
    truthyAt (wireHeader capacity header payload) "inline" =
      payload.any fun bytes => !capacity.any (bytes.length ≤ ·) := by
  cases payload with
  | none =>
    refine ⟨get_none held.action,get_none held.n,?_⟩
    simp only [wireHeader,truthyAt,get_none held.inline_]
    rfl
  | some bytes =>
    simp only [wireHeader,truthyAt,get_append_fresh header held.action,get_append_fresh header held.n,
      get_append_fresh header held.inline_]
    split
    · rename_i fits
      simp [get,List.lookup_cons,fits]
    · rename_i larger
      simp [get,List.lookup_cons,larger,truthy]

theorem body_eq (held : Header header) (capacity : Option Nat) (payload : Option (List UInt8)) :
    (if truthyAt (wireHeader capacity header payload) "inline" then put (payload.getD []) else []) =
      put (body capacity payload) := by
  rw [(wire_keys held capacity payload).2.2]
  cases payload with
  | none => rfl
  | some bytes =>
    cases fits : capacity.any (bytes.length ≤ ·) <;> simp [body,fits,put]

theorem put_whole (fits : data.length ≤ writeMax) : put data = data := List.take_of_length_le fits

theorem put_length (data : List UInt8) : (put data).length = min writeMax data.length := List.length_take

-- The worker gets exactly the payload, by either way and whatever the buffer
-- held before.
theorem payload_read (rt : Runtime) (held : Header header) (shm : Option (List UInt8)) (payload : Option (List UInt8))
    (rest : List UInt8) :
    readPayload rt (buffered shm payload) (wireHeader (shm.map (·.length)) header payload)
      (body (shm.map (·.length)) payload ++ rest) = some (.ok payload,rest) := by
  obtain ⟨_,n,inline_⟩ := wire_keys held (shm.map (·.length)) payload
  unfold readPayload
  rw [n,inline_]
  cases payload with
  | none => rfl
  | some bytes =>
    simp only [Option.map_some,toInt,Option.any_some]
    cases fits : (shm.map (·.length)).any (bytes.length ≤ ·) with
    | true =>
      obtain ⟨buffer,rfl⟩ : ∃ buffer, shm = some buffer := by
        cases shm with
        | none => cases fits
        | some buffer => exact ⟨buffer,rfl⟩
      have room : bytes.length ≤ buffer.length := by simpa using fits
      simp only [Bool.not_true,buffered,Option.map_some,if_pos room,body]
      simp [slice,room]
    | false =>
      have all := readExact_all rt.short bytes.length bytes.length (bytes ++ rest) (Nat.le_refl _) (by simp)
      simp only [body,fits,Bool.not_false,Int.toNat_natCast,Bool.false_eq_true,if_false,all]
      simp

-- The line of a request reaches the worker: one write takes it, and it can be
-- parsed, its "n" included.
structure Spoken (capacity : Option Nat) (header : Dict) (payload : Option (List UInt8)) : Prop where
  whole : (line (wireHeader capacity header payload)).length ≤ writeMax
  digits : (Value.obj (wireHeader capacity header payload)).within maxStrDigits = true

-- Nothing to send, or inline, or the worker has the buffer too.
def Agreed (mapped : Bool) (capacity : Option Nat) (payload : Option (List UInt8)) : Prop :=
  ∀ bytes, payload = some bytes → bytes = [] ∨ capacity.any (bytes.length ≤ ·) = false ∨ mapped = true

-- Besides, one write takes a payload that goes inline.
structure Reaches (mapped : Bool) (capacity : Option Nat) (payload : Option (List UInt8)) : Prop where
  agreed : Agreed mapped capacity payload
  whole : (body capacity payload).length ≤ writeMax

theorem agreed_mapped {shm : Option (List UInt8)} (same : mapped = shm.isSome) (payload : Option (List UInt8)) :
    Agreed mapped (shm.map (·.length)) payload := by
  intro bytes _
  cases shm with
  | none => exact .inr (.inl rfl)
  | some buffer => exact .inr (.inr same)

theorem view_read (rt : Runtime) (held : Header header) {shm : Option (List UInt8)} {payload : Option (List UInt8)}
    (agreed : Agreed mapped (shm.map (·.length)) payload) (stdin : List UInt8) :
    readPayload rt (view mapped (buffered shm payload)) (wireHeader (shm.map (·.length)) header payload) stdin =
      readPayload rt (buffered shm payload) (wireHeader (shm.map (·.length)) header payload) stdin := by
  obtain ⟨_,n,inline_⟩ := wire_keys held (shm.map (·.length)) payload
  unfold readPayload
  rw [n,inline_]
  cases payload with
  | none => rfl
  | some bytes =>
    simp only [Option.map_some,toInt,Option.any_some]
    rcases agreed bytes rfl with rfl | larger | rfl
    · cases mapped with
      | true => rfl
      | false =>
        cases shm with
        | none => rfl
        | some buffer => simp [view,buffered,slice,readExact]
    · rw [larger]
      rfl
    · rfl

-- Without the buffer, or inline, it is the pipe the worker reads.
theorem piped_read (rt : Runtime) (held : Header header) (shown : Option (List UInt8))
    (piped : capacity.any (bytes.length ≤ ·) = false ∨ shown = none) (stdin : List UInt8) :
    readPayload rt shown (wireHeader capacity header (some bytes)) stdin =
      (readExact rt.short bytes.length bytes.length stdin).map fun (payload,rest) => (.ok (some payload),rest) := by
  obtain ⟨_,n,inline_⟩ := wire_keys held capacity (some bytes)
  unfold readPayload
  rw [n,inline_]
  simp only [Option.map_some,toInt,Option.any_some,Int.toNat_natCast]
  rcases piped with larger | rfl
  · rw [larger]
    rfl
  · cases capacity.any (bytes.length ≤ ·) <;> rfl

theorem payload_waits (rt : Runtime) (held : Header header) (shm : Option (List UInt8)) (payload : Option (List UInt8))
    (split : part ++ more = body (shm.map (·.length)) payload) (some_ : more ≠ []) :
    readPayload rt (buffered shm payload) (wireHeader (shm.map (·.length)) header payload) part = none := by
  obtain ⟨_,n,inline_⟩ := wire_keys held (shm.map (·.length)) payload
  unfold readPayload
  rw [n,inline_]
  cases payload with
  | none => exact absurd (List.append_eq_nil_iff.mp split).2 some_
  | some bytes =>
    simp only [Option.map_some,toInt,Option.any_some]
    unfold body at split
    dsimp only at split
    cases fits : (shm.map (·.length)).any (bytes.length ≤ ·) with
    | true =>
      rw [fits,if_pos rfl] at split
      exact absurd (List.append_eq_nil_iff.mp split).2 some_
    | false =>
      rw [fits,if_neg (by decide)] at split
      have missing : part.length < bytes.length := by
        have size := congrArg List.length split
        have positive := List.length_pos_iff.mpr some_
        rw [List.length_append] at size
        omega
      simp only [Bool.not_false,Int.toNat_natCast,readExact_waits rt.short _ _ part missing]
      rfl

section
variable {σ : Type} {handler : Handler σ} {link : Link σ}

def wire (capacity : Option Nat) (header : Dict) (payload : Option (List UInt8)) : List UInt8 :=
  line (wireHeader capacity header payload) ++ body capacity payload

theorem wire_nonempty (capacity : Option Nat) (header : Dict) (payload : Option (List UInt8)) :
    wire capacity header payload ≠ [] := by
  intro empty
  have none := (List.append_eq_nil_iff.mp empty).1
  rw [line_eq] at none
  simp at none

theorem turn_header (rt : Runtime) (shown : Option (List UInt8)) (handler : Handler σ) (state : σ) (held : Header header)
    {capacity : Option Nat} {payload : Option (List UInt8)}
    (digits : (Value.obj (wireHeader capacity header payload)).within maxStrDigits = true) (rest : List UInt8) :
    serveTurn rt shown handler state (line (wireHeader capacity header payload) ++ rest) =
      serveRequest rt shown handler state (wireHeader capacity header payload) rest := by
  have plain := wire_plain held capacity payload
  unfold serveTurn
  rw [read_header plain]
  simp only [if_neg (header_nonempty _),parse_header rt plain digits,(wire_keys held capacity payload).1]
  rfl

def Serialisable (handler : Handler σ) : Prop :=
  ∀ state request payload response, (handler state request payload).2 = .ok response →
    Plain response ∧ (Value.obj response).within maxStrDigits = true

theorem reply_dumps (serialisable : Serialisable handler) (state : σ) (request : Dict) (payload : Option (List UInt8)) :
    Plain (reply (handler state request payload).2) ∧
      (Value.obj (reply (handler state request payload).2)).within maxStrDigits = true := by
  cases response : (handler state request payload).2 with
  | ok dict => exact serialisable state request payload dict response
  | error raised => simp [reply,errorReply,Plain,Value.plain,plainMembers,Value.within,withinMembers]

theorem turn_serves (rt : Runtime) (serialisable : Serialisable handler) (state : σ) (held : Header header)
    {shm : Option (List UInt8)} {payload : Option (List UInt8)} (spoken : Spoken (shm.map (·.length)) header payload)
    (agreed : Agreed mapped (shm.map (·.length)) payload) :
    serveTurn rt (view mapped (buffered shm payload)) handler state (wire (shm.map (·.length)) header payload) =
      .goes (handler state (wireHeader (shm.map (·.length)) header payload) payload).1 []
        (line (reply (handler state (wireHeader (shm.map (·.length)) header payload) payload).2)) := by
  have whole := payload_read rt held shm payload []
  rw [List.append_nil] at whole
  rw [wire,turn_header rt _ handler state held spoken.digits]
  simp only [serveRequest,view_read rt held agreed,whole,respond]
  exact if_pos (reply_dumps serialisable _ _ _).2

-- On any proper part of a request the worker waits.
theorem turn_waits (rt : Runtime) (handler : Handler σ) (state : σ) (held : Header header)
    {shm : Option (List UInt8)} {payload : Option (List UInt8)} (spoken : Spoken (shm.map (·.length)) header payload)
    (agreed : Agreed mapped (shm.map (·.length)) payload) (part more : List UInt8)
    (split : part ++ more = wire (shm.map (·.length)) header payload) (some_ : more ≠ []) :
    serveTurn rt (view mapped (buffered shm payload)) handler state part = .waits := by
  have plain := wire_plain held (shm.map (·.length)) payload
  unfold wire at split
  rw [line_eq] at split
  rcases readLine_before (header_newline plain) split with early | ⟨rest,rfl,left⟩
  · unfold serveTurn
    rw [early]
  -- With the whole line there, it is the payload that is short.
  · rw [← line_eq,turn_header rt _ handler state held spoken.digits]
    simp only [serveRequest,view_read rt held agreed,payload_waits rt held shm payload left some_]

theorem turn_idle (rt : Runtime) (shm : Option (List UInt8)) (state : σ) : serveTurn rt shm handler state [] = .waits :=
  rfl

theorem request_spec (rt : Runtime) (quiet : Quiet link.toServer) (held : Header header) (payload : Option (List UInt8))
    (spoken : Spoken (link.shm.map (·.length)) header payload)
    (reaches : Reaches link.mapped (link.shm.map (·.length)) payload) (serialisable : Serialisable handler) :
    request rt handler link header payload = ({link with
      state := (handler link.state (wireHeader (link.shm.map (·.length)) header payload) payload).1
      shm := buffered link.shm payload},
      .returned (.obj (reply (handler link.state (wireHeader (link.shm.map (·.length)) header payload) payload).2))) := by
  have plain := (reply_dumps serialisable link.state (wireHeader (link.shm.map (·.length)) header payload) payload).1
  have arrived := rt.arrives (wire (link.shm.map (·.length)) header payload)
  have served := turn_serves rt serialisable link.state held spoken reaches.agreed
  have waits := turn_waits rt handler link.state held spoken reaches.agreed
  rw [line_eq] at served
  rw [← arrived] at served waits
  have answered := exchange_quiet _ quiet (turn_idle rt _) waits served (header_newline plain)
    (by rw [arrived]; exact wire_nonempty _ _ _)
  have running : (!link.alive) = false := by rw [quiet.alive]; rfl
  unfold request
  simp only [frame_eq held,body_eq held,running,put_whole spoken.whole,put_whole reaches.whole]
  rw [← wire,answered,← line_eq]
  simp only [Bool.false_eq_true,if_false,parse_reply rt plain]

-- A payload that the worker looks for on the pipe, where not all of it is put.
structure Starves (mapped : Bool) (capacity : Option Nat) (bytes : List UInt8) : Prop where
  piped : capacity.any (bytes.length ≤ ·) = false ∨ mapped = false
  fewer : (put (body capacity (some bytes))).length < bytes.length

theorem Starves.read (starves : Starves mapped capacity bytes) (rt : Runtime) (held : Header header)
    (shm : Option (List UInt8)) (stdin : List UInt8) :
    readPayload rt (view mapped shm) (wireHeader capacity header (some bytes)) stdin =
      (readExact rt.short bytes.length bytes.length stdin).map fun (payload,rest) => (.ok (some payload),rest) := by
  refine piped_read rt held _ ?_ stdin
  rcases starves.piped with larger | rfl
  · exact .inl larger
  · exact .inr rfl

theorem request_waits (rt : Runtime) (quiet : Quiet link.toServer) (held : Header header)
    (spoken : Spoken (link.shm.map (·.length)) header (some bytes))
    (starves : Starves link.mapped (link.shm.map (·.length)) bytes) :
    (request rt handler link header (some bytes)).2 = .waits := by
  have arrived := rt.arrives (line (wireHeader (link.shm.map (·.length)) header (some bytes)) ++
    put (body (link.shm.map (·.length)) (some bytes)))
  have waits : ∀ part more, part ++ more = line (wireHeader (link.shm.map (·.length)) header (some bytes)) ++
      put (body (link.shm.map (·.length)) (some bytes)) →
      serveTurn rt (view link.mapped (buffered link.shm (some bytes))) handler link.state part = .waits := by
    intro part more split
    have plain := wire_plain held (link.shm.map (·.length)) (some bytes)
    rw [line_eq] at split
    rcases readLine_before (header_newline plain) split with early | ⟨rest,rfl,left⟩
    · unfold serveTurn
      rw [early]
    · have short : rest.length < bytes.length := by
        have size := congrArg List.length left
        have fewer := starves.fewer
        rw [List.length_append] at size
        omega
      rw [← line_eq,turn_header rt _ handler link.state held spoken.digits]
      simp only [serveRequest,starves.read rt held,readExact_waits rt.short _ _ rest short]
      rfl
  rw [← arrived] at waits
  have stuck := exchange_waits _ quiet waits
  have running : (!link.alive) = false := by rw [quiet.alive]; rfl
  unfold request
  simp only [frame_eq held,body_eq held,running,put_whole spoken.whole,stuck]
  simp only [Bool.false_eq_true,if_false,quiet.alive,if_true]

-- What the calls of a session come to: the handler run on each request in
-- turn, and the state it is left in.
def answers (handler : Handler σ) (capacity : Option Nat) : σ → List (Dict × Option (List UInt8)) → σ × List (Result Value)
  | state,[] => (state,[])
  | state,(header,payload) :: rest =>
    let (state,response) := handler state (wireHeader capacity header payload) payload
    let (state,results) := answers handler capacity state rest
    (state,.returned (.obj (reply response)) :: results)

theorem session_answers (rt : Runtime) (serialisable : Serialisable handler) (requests : List (Dict × Option (List UInt8)))
    (held : ∀ one ∈ requests, Header one.1) (quiet : Quiet link.toServer)
    (spoken : ∀ one ∈ requests, Spoken (link.shm.map (·.length)) one.1 one.2)
    (reaches : ∀ one ∈ requests, Reaches link.mapped (link.shm.map (·.length)) one.2) :
    Quiet (session rt handler link requests).1.toServer ∧
    (session rt handler link requests).1.state = (answers handler (link.shm.map (·.length)) link.state requests).1 ∧
    (session rt handler link requests).2 = (answers handler (link.shm.map (·.length)) link.state requests).2 := by
  induction requests generalizing link with
  | nil => exact ⟨quiet,rfl,rfl⟩
  | cons one rest ih =>
    obtain ⟨header,payload⟩ := one
    have first := request_spec rt quiet (held (header,payload) List.mem_cons_self) payload
      (spoken (header,payload) List.mem_cons_self) (reaches (header,payload) List.mem_cons_self) serialisable
    have still : Quiet (request rt handler link header payload).1.toServer := by
      rw [first]
      exact ⟨quiet.stdin,quiet.stdout,quiet.alive⟩
    have capacity : (request rt handler link header payload).1.shm.map (·.length) = link.shm.map (·.length) := by
      rw [first]
      exact buffered_length link.shm payload
    have mapped : (request rt handler link header payload).1.mapped = link.mapped := by rw [first]
    obtain ⟨after,state,results⟩ := ih (fun other member => held other (List.mem_cons_of_mem _ member)) still
      (by rw [capacity]; exact fun other member => spoken other (List.mem_cons_of_mem _ member))
      (by rw [mapped,capacity]; exact fun other member => reaches other (List.mem_cons_of_mem _ member))
    rw [capacity] at state results
    simp only [session,answers]
    refine ⟨after,?_,?_⟩
    · rw [state,first]
    · rw [results,first]

-- A pipe that gives a byte at a time.
def bytewise : Runtime where
  short _ _ := 1
  arrive bytes := bytes.map ([·])
  arrives bytes := by induction bytes <;> simp_all
  decodeError _ := "'utf-8' codec can't decode"
  otherInt _ := .error ⟨"TypeError","int() argument must be a string, a bytes-like object or a real number"⟩
  returnCode := "None"

-- A handler that counts its calls and adds up the payload.
def tally : Handler UInt8 := fun calls _ payload =>
  match payload with
  | none => (calls+1,.error ⟨"ValueError","no payload"⟩)
  | some bytes => (calls+1,.ok [("call",.int calls.toNat),("sum",.int (bytes.foldl (· + ·) 0).toNat)])

theorem tally_serialisable : Serialisable tally := by
  intro calls request payload response returned
  cases payload with
  | none => cases returned
  | some bytes =>
    cases returned
    have small : ∀ byte : UInt8, (Value.int byte.toNat).within maxStrDigits = true := fun byte =>
      within_int (k := 3) (Nat.lt_of_lt_of_le byte.toNat_lt (by decide)) (by decide) rfl
    refine ⟨by simp [Plain,Value.plain,plainMembers],?_⟩
    show ((Value.int calls.toNat).within maxStrDigits && ((Value.int (bytes.foldl (· + ·) 0).toNat).within maxStrDigits && true)) = true
    rw [small,small]
    rfl

def tallied (shm : Option (List UInt8)) (mapped : Bool) : Link UInt8 := ⟨{state := 0},shm,mapped⟩

theorem tallied_quiet (shm : Option (List UInt8)) (mapped : Bool) : Quiet (tallied shm mapped).toServer := ⟨rfl,rfl,rfl⟩

end

end SymphonyAkida.ShardWire
