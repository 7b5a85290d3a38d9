import SymphonyAkida.HttpServerSpec

namespace SymphonyAkida.HttpServer
open Json Bytes ShardWire AkidaChip Jobs Locks
open BatchWorker (Tensor Prediction)

section
variable {Thread : Type} (service : Service) (request : Thread → Request)

-- The threads of the server: requests come at any time, their threads act in
-- any order.
def work (thread : Thread) : Task := handle service (request thread)

def calls (threads : List Thread) : List Call := threads.filterMap fun thread => call service (request thread)

def Reached [DecidableEq Thread] : Locks.State Thread Fields Raised Reply → Locks.State Thread Fields Raised Reply → Prop :=
  Runs.Reached (State.step (work service request)) fun _ _ => True

variable {service request}

theorem work_spares (thread : Thread) (program : Program Fields Raised Reply) (bare : work service request thread = .bare program) :
    program.Spares Eq := by
  have handled := handle_handled service (request thread)
  unfold work at bare
  rw [bare] at handled
  generalize call service (request thread) = called at handled
  cases handled with
  | answers spares => exact spares

theorem work_locks {thread : Thread} (locks : (work service request thread).locks = true) :
    ∃ c, call service (request thread) = some c ∧ Watched (work service request thread).program ∧
      ∀ fields, (work service request thread).program.alone fields =
        ((serve service.node fields c).1,.ok (serve service.node fields c).2) := by
  have handled := handle_handled service (request thread)
  unfold work at locks ⊢
  generalize handle service (request thread) = task at handled locks
  generalize call service (request thread) = called at handled
  cases handled with
  | @serves c program alone watched => exact ⟨c,rfl,watched,alone⟩
  | answers spares => cases locks

theorem locks_of_call {thread : Thread} (called : call service (request thread) = some c) :
    (work service request thread).locks = true := by
  have handled := handle_handled service (request thread)
  rw [called] at handled
  unfold work
  generalize handle service (request thread) = task at handled
  cases handled with
  | serves alone watched => rfl

theorem serial_calls (start : Fields) {threads : List Thread} (locks : ∀ thread ∈ threads, (work service request thread).locks = true) :
    serial (work service request) start threads = run service.node start (calls service request threads) := by
  induction threads using List.reverseRecOn with
  | nil => rfl
  | append_singleton threads thread ih =>
    obtain ⟨c,called,_,alone⟩ := work_locks (locks thread (by simp))
    have before := ih fun other member => locks other (by simp [member])
    have last : calls service request (threads ++ [thread]) = calls service request threads ++ [c] := by
      unfold calls
      rw [List.filterMap_append]
      simp [called]
    rw [last,run_snoc,← before,← serve_step]
    unfold serial
    rw [List.foldl_append]
    exact congrArg Prod.fst (alone _)

variable [DecidableEq Thread] {start : Fields} {s next : Locks.State Thread Fields Raised Reply}

theorem reached_serves (path : Reached service request (State.start start) s) : Serial (work service request) start s :=
  reached_serial work_spares path

omit [DecidableEq Thread] in
theorem served_locks (serves : Serial (work service request) start s) (threads : List Thread) (prior : threads <+: s.served) :
    ∀ thread ∈ threads, (work service request thread).locks = true := by
  obtain ⟨later,split⟩ := prior
  intro thread member
  obtain ⟨before,after,inner⟩ := List.append_of_mem member
  exact (serves.results before thread (after ++ later) (by rw [← split,inner]; simp)).1

-- A model of two classes on the first chip, and requests to load it, to run it
-- and to ask for the node's health.
def uint8 : Value → Except Raised UInt8
  | .int n =>
    if 0 ≤ n ∧ n < 256 then .ok (UInt8.ofNat n.toNat) else .error ⟨"OverflowError",s!"Python integer {n} out of bounds for uint8"⟩
  | other => .error ⟨"TypeError",
    s!"int() argument must be a string, a bytes-like object or a real number, not '{typeName other}'"⟩

def bench : World := {shelf with
  model := fun _ => .ok ⟨[4],[2],fun data => .ok [0,data.length]⟩
  asarray := fun value => match value with
    | .arr items => items.mapM uint8
    | other => (uint8 other).map fun byte => [byte]}

def benchService : Service := ⟨shelfNode,true,some "akd1500_0","2.11.0"⟩

def benchInput : Value := .arr [.int 7,.int 0,.int 255,.int 1]

def benchRequest : Nat → Request
  | 0 => posted "/load" [("name",.str "gate")] bench
  | 1 => posted "/infer" [("input",benchInput)] bench
  | _ => .get "/health" ⟨.ok none,fun _ => .ok none,fun _ => .error ⟨"FileNotFoundError","no sidecar"⟩⟩

theorem bench_infer : call benchService (benchRequest 1) = some (.infer bench (.json benchInput)) := by
  have read : readBody _ _ = .ok (.obj [("input",benchInput)]) := readBody_dumps (by decide) (by decide +kernel)
  simp only [call,benchRequest,posted,read]
  rfl

-- The health request looks at the chip before, amid and after the load.
def benchSchedule : List (Event Nat) :=
  [.arrive 0,.arrive 1,.arrive 2,.act 2,.acquire 0] ++ List.replicate 3 (.act 0) ++ [.act 2] ++ List.replicate 5 (.act 0) ++
    [.finish 0,.acquire 1] ++ List.replicate 3 (.act 1) ++ [.act 2,.finish 2] ++ List.replicate 3 (.act 1) ++ [.finish 1]

def codeOf : Stage Fields Raised Reply → Option Nat
  | .ended (.ok reply) => some reply.code
  | _ => none

theorem codeOf_some {stage : Stage Fields Raised Reply} (found : codeOf stage = some code) :
    ∃ body, stage = .ended (.ok ⟨code,body⟩) := by
  unfold codeOf at found
  split at found
  · cases found
    exact ⟨_,rfl⟩
  · cases found

theorem bench_run : ∃ s, Reached benchService benchRequest (State.start (init shelfNode bench "")) s ∧
    s.served = [0,1] ∧ (∃ body, s.stage 1 = .ended (.ok ⟨200,body⟩)) ∧ ∃ body, s.stage 2 = .ended (.ok ⟨200,body⟩) := by
  obtain ⟨s,path,holds⟩ := Runs.run_witness (State.step (work benchService benchRequest)) (fun _ _ => True)
    (State.start (init shelfNode bench "")) (fun _ _ => true)
    (fun s => s.served == [0,1] && codeOf (s.stage 1) == some 200 && codeOf (s.stage 2) == some 200)
    benchSchedule (by decide +kernel) fun _ _ _ _ => trivial
  simp only [Bool.and_eq_true,beq_iff_eq] at holds
  exact ⟨s,path,holds.1.1,codeOf_some holds.1.2,codeOf_some holds.2⟩

-- Whatever the order of the threads' steps, the requests that take the lock are
-- answered as by whole calls of the chip, one after another in the order their
-- sections ended; a request that had its answer before another came is before
-- it, and no request waits where no step is left.
theorem server_serial (path : Reached service request (State.start start) s) :
    s.served.Nodup ∧
    (∀ before thread after, s.served = before ++ thread :: after → ∃ c, call service (request thread) = some c ∧
      s.stage thread = .ended (.ok (serve service.node (run service.node start (calls service request before)) c).2)) ∧
    (∀ thread c result, call service (request thread) = some c → s.stage thread = .ended result → thread ∈ s.served) ∧
    (s.holder = none → s.store = run service.node start (calls service request s.served)) ∧
    (∀ later, Reached service request s later → s.served <+: later.served) ∧
    ∀ thread, (s.stage thread = .waits ∨ ∃ rest, s.stage thread = .acts rest) →
      ∃ event next, s.step (work service request) event = some next ∧ ∀ other, event ≠ .arrive other := by
  have serves := reached_serves path
  refine ⟨serves.nodup,?_,?_,?_,fun later onward => served_grows onward,?_⟩
  · intro before thread after split
    obtain ⟨locks,ended⟩ := serves.results before thread after split
    obtain ⟨c,called,_,alone⟩ := work_locks locks
    refine ⟨c,called,ended.trans ?_⟩
    rw [alone,serial_calls start (served_locks serves before ⟨_,split.symm⟩)]
  · intro thread c result called ended
    exact serves.left thread result (locks_of_call called) ended
  · intro free
    rw [serves.free free,serial_calls start (served_locks serves _ (List.prefix_refl _))]
  · exact fun thread pending => some_step_left serves thread pending.symm

theorem server_serial_bench : ∃ s, Reached benchService benchRequest (State.start (init shelfNode bench "")) s ∧ s.served = [0,1] ∧
    ∀ before thread after, s.served = before ++ thread :: after → ∃ c, call benchService (benchRequest thread) = some c ∧
      s.stage thread = .ended (.ok (serve shelfNode (run shelfNode (init shelfNode bench "")
        (calls benchService benchRequest before)) c).2) := by
  obtain ⟨s,path,order,_⟩ := bench_run
  exact ⟨s,path,order,(server_serial path).2.1⟩

end

section
variable {node : Node} {fields : Fields} {calls : List Call}

def Replaces (node : Node) : Call → Prop
  | .load world name allow => ∃ path m mode, Opens node world name allow path m mode
  | .unload => True
  | .infer _ _ => False

-- The load the chip's model comes from: no later call replaced it, and the
-- fields that tell of it are its own.
structure Placed (node : Node) (fields : Fields) (calls : List Call) (m : Model) (world : World) (path : List Char)
    (mode : String) : Prop where
  source : ∃ before name allow after, calls = before ++ .load world name allow :: after ∧
    Opens node world name allow path m mode ∧ ∀ call ∈ after, ¬Replaces node call
  stem : fields.stem = some (stemPath path)
  n : fields.n = some m.inputShape.prod
  onChip : fields.onChip = (world.map m mode).isOk
  classes : ∀ names, classes node world path m.outputShape.prod = .ok names → fields.classes = some names

theorem replaces_not {call : Call} (keeps : ¬Replaces node call) (fields : Fields) : (call.step node fields).1 = fields := by
  cases call with
  | load world name allow =>
    obtain ⟨raised,stopped⟩ := load_stops keeps fields
    simp only [Call.step,stopped]
  | unload => exact absurd trivial keeps
  | infer world arr => rfl

theorem Placed.kept {call : Call} (placed : Placed node fields calls m world path mode) (keeps : ¬Replaces node call) :
    Placed node fields (calls ++ [call]) m world path mode := by
  obtain ⟨before,name,allow,after,rfl,opens,quiet⟩ := placed.source
  refine ⟨⟨before,name,allow,after ++ [call],by simp,opens,?_⟩,placed.stem,placed.n,placed.onChip,placed.classes⟩
  intro other member
  rcases List.mem_append.mp member with prior | last
  · exact quiet other prior
  · rw [List.mem_singleton.mp last]
    exact keeps

theorem placed_opened (opens : Opens node world name allow path m mode) (fields : Fields) (calls : List Call) :
    Placed node (load node world fields name allow).1 (calls ++ [.load world name allow]) m world path mode := by
  have source : ∃ before name' allow' after, calls ++ [.load world name allow] = before ++ .load world name' allow' :: after ∧
      Opens node world name' allow' path m mode ∧ ∀ call ∈ after, ¬Replaces node call :=
    ⟨calls,name,allow,[],rfl,opens,by simp⟩
  rw [load_opens opens]
  cases listed : classes node world path m.outputShape.prod with
  | error raised => exact ⟨source,rfl,rfl,rfl,by simp [listed]⟩
  | ok names =>
    refine ⟨source,rfl,rfl,rfl,fun others same => ?_⟩
    rw [Except.ok.inj (listed.symm.trans same)]
    rfl

theorem run_placed (node : Node) (calls : List Call) (mapped : (run node .fresh calls).model = some m) :
    ∃ world path mode, Placed node (run node .fresh calls) calls m world path mode := by
  induction calls using List.reverseRecOn generalizing m with
  | nil => cases mapped
  | append_singleton calls call ih =>
    by_cases keeps : Replaces node call
    · rw [run_snoc] at mapped ⊢
      cases call with
      | load world name allow =>
        obtain ⟨path,m',mode,opens⟩ := keeps
        have placed := placed_opened opens (run node .fresh calls) calls
        have same : m' = m := by
          have held : (load node world (run node .fresh calls) name allow).1.model = some m' := by
            rw [load_opens opens]
            cases classes node world path m'.outputShape.prod <;> rfl
          exact Option.some.inj (held.symm.trans mapped)
        subst same
        exact ⟨world,path,mode,placed⟩
      | unload => cases mapped
      | infer world arr => exact keeps.elim
    · rw [run_snoc,replaces_not keeps] at mapped ⊢
      obtain ⟨world,path,mode,placed⟩ := ih mapped
      exact ⟨world,path,mode,placed.kept keeps⟩

def inits (world : World) (defaultModel : String) : List Call :=
  if defaultModel = "" then [] else [.load world (.str defaultModel) true]

theorem init_run (node : Node) (world : World) (defaultModel : String) :
    init node world defaultModel = run node .fresh (inits world defaultModel) := by
  unfold init inits
  split <;> rfl

-- What a reply of /infer says, if it is one of a model that a load placed.
structure Honest (service : Service) (source : World) (path : List Char) (m : Model) (mode : String) (world : World)
    (arr : Tensor) (body : Dict) : Prop where
  model : get body "model" = some (.str (stemPath path))
  hardware : get body "hardware" = some (if (source.map m mode).isOk then .str service.node.product else .null)
  mode : get body "mode" = some (.str (if (source.map m mode).isOk then "on-chip" else "software"))
  cls : ∃ pixels logits cls, asBytes world arr = .ok pixels ∧ pixels.length = m.inputShape.prod ∧ m.forward pixels = .ok logits ∧
    argmax logits = .ok cls ∧ get body "cls" = some (.int cls) ∧
    ∀ names, classes service.node source path m.outputShape.prod = .ok names →
      get body "cls_name" = some (.str (names.getD cls (toString cls)))

theorem infer_honest {service : Service} (placed : Placed service.node fields calls m source path mode)
    (held : fields.model = some m) (world : World) (arr : Tensor)
    (predicted : (infer service.node world fields arr).2 = .ok r) :
    Honest service source path m mode world arr (inferred service.node r fields.onChip) := by
  rw [infer_mapped held] at predicted
  obtain ⟨pixels,given,predicted⟩ := Outcome.bind_ok predicted
  rw [placed.n] at predicted
  by_cases sized : some pixels.length = some m.inputShape.prod
  · rw [if_pos sized] at predicted
    obtain ⟨cls,ran,predicted⟩ := Outcome.bind_ok predicted
    obtain ⟨logits,forward,top⟩ := Outcome.bind_ok ran
    obtain ⟨name,called,rfl⟩ := Outcome.map_ok predicted
    rw [placed.onChip,placed.stem]
    refine ⟨rfl,rfl,rfl,pixels,logits,cls,given,Option.some.inj sized,forward,top,rfl,fun names listed => ?_⟩
    rw [placed.classes names listed] at called
    cases called
    rfl
  · rw [if_neg sized] at predicted
    cases predicted

end

section
variable {Thread : Type} [DecidableEq Thread] {service : Service} {request : Thread → Request}

theorem sent_ok {outcome : Except Raised Dict} (answered : sent outcome = ⟨200,body⟩) : outcome = .ok body := by
  cases outcome with
  | error raised => simp [sent] at answered
  | ok other =>
    cases answered
    rfl

-- Whatever requests race, each class that /infer answers with is the one of the
-- model the reply names, which the last load or unload before it placed; it says
-- on-chip exactly where that load mapped the model onto the hardware.
theorem infer_labels (first : World) (defaultModel : String)
    (path : Reached service request (State.start (init service.node first defaultModel)) s)
    (asked : call service (request thread) = some (.infer world arr)) (answered : s.stage thread = .ended (.ok ⟨200,body⟩)) :
    ∃ before after, s.served = before ++ thread :: after ∧ ∃ m source file mode,
      Placed service.node (run service.node .fresh (inits first defaultModel ++ calls service request before))
        (inits first defaultModel ++ calls service request before) m source file mode ∧
      Honest service source file m mode world arr body := by
  obtain ⟨_,results,left,_⟩ := server_serial path
  obtain ⟨before,after,split⟩ := List.append_of_mem (left thread _ _ asked answered)
  obtain ⟨c,called,ended⟩ := results before thread after split
  cases asked.symm.trans called
  refine ⟨before,after,split,?_⟩
  have start : run service.node (init service.node first defaultModel) (calls service request before) =
      run service.node .fresh (inits first defaultModel ++ calls service request before) := by
    rw [init_run]
    unfold run
    rw [List.foldl_append]
  rw [start] at ended
  generalize inits first defaultModel ++ calls service request before = served at ended ⊢
  have replied := Except.ok.inj (Stage.ended.inj (answered.symm.trans ended))
  obtain ⟨r,predicted,rfl⟩ := Outcome.map_ok (sent_ok replied.symm)
  cases mapped : (run service.node .fresh served).model with
  | none => simp [infer,mapped] at predicted
  | some m =>
    obtain ⟨source,file,mode,placed⟩ := run_placed service.node served mapped
    exact ⟨m,source,file,mode,placed,infer_honest placed mapped world arr predicted⟩

theorem infer_labels_bench : ∃ s body, Reached benchService benchRequest (State.start (init shelfNode bench "")) s ∧
    s.stage 1 = .ended (.ok ⟨200,body⟩) ∧ ∃ before after, s.served = before ++ 1 :: after ∧ ∃ m source file mode,
      Placed shelfNode (run shelfNode .fresh (inits bench "" ++ calls benchService benchRequest before))
        (inits bench "" ++ calls benchService benchRequest before) m source file mode ∧
      Honest benchService source file m mode bench (.json benchInput) body := by
  obtain ⟨s,path,_,⟨body,answered⟩,_⟩ := bench_run
  exact ⟨s,body,path,answered,infer_labels bench "" path bench_infer answered⟩

omit [DecidableEq Thread] in
theorem watched_once {Value : Type} {view : Fields → Value}
    (pick : ∀ program : Program Fields Raised Reply, Watched program → Once view program) (thread : Thread)
    (locks : (work service request thread).locks = true) : Once view (work service request thread).program := by
  obtain ⟨_,_,watched,_⟩ := work_locks locks
  exact pick _ watched

-- A field that /health reads, between the calls before it came and those begun
-- when it is answered.
theorem field_between {Value : Type} {view : Fields → Value} {start : Fields} {s middle next : Locks.State Thread Fields Raised Reply}
    (pick : ∀ program : Program Fields Raised Reply, Watched program → Once view program)
    (prior : Reached service request (State.start start) s) (before : Reached service request s middle)
    (after : Reached service request middle next) :
    ∃ threads, s.served <+: threads ∧ threads <+: next.begun ∧
      view middle.store = view (run service.node start (calls service request threads)) := by
  have serves := reached_serves (Runs.Reached.trans prior before)
  obtain ⟨threads,grown,kept,same⟩ := view_met (watched_once pick) serves before after
  refine ⟨threads,grown,kept,same.trans ?_⟩
  have whole := reached_serves (Runs.Reached.trans (Runs.Reached.trans prior before) after)
  rw [serial_calls start fun other member => ?_]
  rcases List.mem_append.mp (kept.subset member) with left | holds
  · exact served_locks whole _ (List.prefix_refl _) other left
  · exact (whole.held other (Option.mem_toList.mp holds)).1

-- What /health says while calls race: each field of the chip as it was after
-- some calls, none that had ended before the request came missing, none that had
-- not begun by its answer; and the chip as it is where no call overlaps.
theorem health_between {start : Fields} {s next : Locks.State Thread Fields Raised Reply} {files : Shelf} (attached : service.attached = true)
    (prior : Reached service request (State.start start) s) (path : Reached service request s next)
    (asked : request thread = .get "/health" files) (unseen : s.stage thread = .absent)
    (answered : next.stage thread = .ended result) :
    (∃ a b c, (∀ threads ∈ [a,b,c], s.served <+: threads ∧ threads <+: next.begun) ∧
      result = .ok ⟨200,healthBody service (run service.node start (calls service request a)).stem
        (run service.node start (calls service request b)).onChip (run service.node start (calls service request c)).mapError⟩) ∧
    (next.begun = s.served →
      let fields := run service.node start (calls service request s.served)
      result = .ok ⟨200,healthBody service fields.stem fields.onChip fields.mapError⟩) := by
  have bare : work service request thread = .bare (health service) := by
    unfold work
    rw [asked]
    rfl
  rcases reads_met path unseen bare with absent | ⟨times,visits,acts | ⟨value,ended,left⟩⟩
  · cases answered.symm.trans absent
  · cases answered.symm.trans acts
  · cases answered.symm.trans ended
    simp only [health,attached,if_true,look] at left
    match times with
    | [] | [_] | [_,_] => cases left
    | first :: second :: third :: rest =>
      cases left
      obtain ⟨one,two,three,later⟩ := visits
      have last : Reached service request third next := Visits.path later
      constructor
      · obtain ⟨a,lowA,highA,stem⟩ := field_between (fun _ => Watched.stem) prior one
          (two.trans (three.trans last))
        obtain ⟨b,lowB,highB,onChip⟩ := field_between (fun _ => Watched.onChip) prior (one.trans two) (three.trans last)
        obtain ⟨c,lowC,highC,mapError⟩ := field_between (fun _ => Watched.mapError) prior ((one.trans two).trans three) last
        refine ⟨a,b,c,?_,?_⟩
        · simpa using ⟨⟨lowA,highA⟩,⟨lowB,highB⟩,lowC,highC⟩
        · rw [← stem,← onChip,← mapError]
      · intro quiet
        have still : ∀ middle, Reached service request s middle → Reached service request middle next →
            middle.store = run service.node start (calls service request s.served) := by
          intro middle before after
          rw [store_quiet (reached_serves (Runs.Reached.trans prior before)) before after quiet,
            serial_calls start (served_locks (reached_serves prior) _ (List.prefix_refl _))]
        dsimp only
        rw [still first one (two.trans (three.trans last)),still second (one.trans two) (three.trans last),
          still third ((one.trans two).trans three) last]

theorem health_between_bench : ∃ s body, Reached benchService benchRequest (State.start (init shelfNode bench "")) s ∧
    s.stage 2 = .ended (.ok ⟨200,body⟩) ∧
    ∃ a b c, body = healthBody benchService (run shelfNode (init shelfNode bench "") (calls benchService benchRequest a)).stem
      (run shelfNode (init shelfNode bench "") (calls benchService benchRequest b)).onChip
      (run shelfNode (init shelfNode bench "") (calls benchService benchRequest c)).mapError := by
  obtain ⟨s,path,_,_,body,answered⟩ := bench_run
  obtain ⟨a,b,c,_,same⟩ := (health_between rfl .refl path rfl rfl answered).1
  cases same
  exact ⟨s,_,path,answered,a,b,c,rfl⟩

end

end SymphonyAkida.HttpServer
