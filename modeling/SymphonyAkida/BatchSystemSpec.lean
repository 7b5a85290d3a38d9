import SymphonyAkida.HttpServerRun
import SymphonyAkida.BatchSystem

namespace SymphonyAkida.BatchSystem
open Json ShardWire AkidaChip Pipe
open BatchWorker (onInvoke basename stemOf named remap remapped Refused answer answer_refused answer_mapped not_refused inferOn Prediction)
open BatchClient (Output taskInput)
open HttpServer (stem Replaces)

theorem basename_toList (name : String) : (basename name).toList = (name.toList.reverse.takeWhile (· != '/')).reverse := by
  simp [basename]

theorem takeWhile_slash (l r : List Char) (starts : r = [] ∨ ∃ rest, r = '/' :: rest) :
    (l ++ r).takeWhile (· != '/') = l.takeWhile (· != '/') := by
  induction l with
  | nil =>
    rcases starts with rfl | ⟨rest,rfl⟩
    · rfl
    · rfl
  | cons c l ih =>
    rw [List.cons_append,List.takeWhile_cons,List.takeWhile_cons,ih]

theorem joined_ends (dir name : List Char) : ∃ r, (join dir name).reverse = name.reverse ++ r ∧ (r = [] ∨ ∃ rest, r = '/' :: rest) := by
  unfold join
  split
  · rename_i closed
    rcases closed with rfl | ⟨front,rfl⟩
    · exact ⟨[],by simp,.inl rfl⟩
    · exact ⟨'/' :: front.reverse,by simp,.inr ⟨_,rfl⟩⟩
  · exact ⟨'/' :: dir.reverse,by simp,.inr ⟨_,rfl⟩⟩

theorem dotFbz_takeWhile (l : List Char) : dotFbz <:+ (l.takeWhile (· != '/')).reverse ↔ dotFbz <:+ l.reverse := by
  rw [← List.reverse_prefix,← List.reverse_prefix,List.reverse_reverse,List.reverse_reverse]
  constructor
  · exact fun early => early.trans (List.takeWhile_prefix _)
  · intro early
    obtain ⟨rest,rfl⟩ := early
    exact ⟨rest.takeWhile (· != '/'),rfl⟩

theorem stemPath_dotFbz (path : List Char) (bare : ¬dotFbz <:+ path) : stemPath (path ++ dotFbz) = stemPath path := by
  have name := basename_toList (String.ofList path)
  have longer := basename_toList (String.ofList (path ++ dotFbz))
  have split : ((path ++ dotFbz).reverse.takeWhile (· != '/')).reverse = (path.reverse.takeWhile (· != '/')).reverse ++ dotFbz := by
    rw [List.reverse_append]
    show (dotFbz.reverse ++ path.reverse.takeWhile (· != '/')).reverse = _
    rw [List.reverse_append,List.reverse_reverse]
  rw [String.toList_ofList] at name longer
  have bare' : ¬dotFbz <:+ (path.reverse.takeWhile (· != '/')).reverse := by
    rw [dotFbz_takeWhile,List.reverse_reverse]
    exact bare
  unfold stemPath
  dsimp only
  rw [name,longer,split,if_pos (List.suffix_append _ _),if_neg bare']
  refine congrArg String.ofList ?_
  rw [List.take_append_of_le_length (by simp [dotFbz])]
  simp [dotFbz]

theorem stem_of_path {node : Node} {name : String} {path : List Char} (named : modelPath node (.str name) = .ok path) :
    stemPath path = stem name := by
  have ends : ∃ r, (if ['/'] <+: name.toList then name.toList else join node.modelsDir name.toList).reverse = name.toList.reverse ++ r ∧
      (r = [] ∨ ∃ rest, r = '/' :: rest) := by
    split
    · exact ⟨[],by simp,.inl rfl⟩
    · exact joined_ends _ _
  simp only [modelPath,Except.ok.injEq] at named
  generalize (if ['/'] <+: name.toList then name.toList else join node.modelsDir name.toList) = bare at named ends
  have same : stemPath bare = stem name := by
    obtain ⟨r,reversed,starts⟩ := ends
    unfold stem stemPath
    dsimp only
    rw [basename_toList,basename_toList,String.toList_ofList,String.toList_ofList,reversed,takeWhile_slash _ _ starts]
  split at named
  · rw [← named]
    exact same
  · rename_i other
    rw [← named,stemPath_dotFbz _ other,same]

theorem stemOf_stem (name : String) : stemOf (.str name) = .ok (stem name) := by
  unfold stemOf stem stemPath
  rw [String.ofList_toList]
  rfl

inductive Asks (site : Site) (model : String) (k : Nat) : Call → Prop where
  | ready (first : k = 0) : Asks site model k (.load (site.worlds k) (.str site.defaultModel) false)
  | remap (asked : model ≠ "") : Asks site model k (.load (site.worlds k) (.str model) false)
  | infer (data : List UInt8) : Asks site model k (.infer (site.worlds k) (.bytes data))

structure Had (site : Site) (model : String) (process : Process) (calls : List Call) : Prop where
  count : calls.length = process.calls
  fields : process.fields = run site.node .fresh calls
  asks : ∀ k call, calls[k]? = some call → Asks site model k call

def Lived (site : Site) (model : String) (process : Process) : Prop := ∃ calls, Had site model process calls

theorem lived_fresh (site : Site) (model : String) : Lived site model ⟨.fresh,0⟩ := ⟨[],rfl,rfl,by simp⟩

theorem Had.snoc {site : Site} {model : String} {process : Process} {call : Call} (had : Had site model process calls)
    (asks : Asks site model process.calls call) :
    Had site model ⟨(call.step site.node process.fields).1,process.calls+1⟩ (calls ++ [call]) := by
  refine ⟨?_,?_,?_⟩
  · rw [List.length_append,had.count]
    rfl
  · rw [run_snoc,← had.fields]
  · intro k other found
    rcases Nat.lt_trichotomy k calls.length with early | rfl | late
    · rw [List.getElem?_append_left early] at found
      exact had.asks k other found
    · rw [List.getElem?_concat_length] at found
      cases found
      rw [had.count]
      exact asks
    · rw [List.getElem?_eq_none (by rw [List.length_append]; exact late)] at found
      cases found

section
variable {Id : Type} {site : Site} {process : Process} {model : String} {data : List UInt8}

theorem had_infer (had : Had site model process calls) (data : List UInt8) :
    Had site model (site.chip.infer process (.bytes data)).1 (calls ++ [.infer (site.worlds calls.length) (.bytes data)]) := by
  rw [had.count]
  exact had.snoc (.infer data)

theorem lived_ready (ready : site.ready = some process) : Lived site model process := by
  unfold Site.ready at ready
  split at ready
  · cases ready
  · split at ready
    · cases ready
      exact lived_fresh site model
    · split at ready
      · rename_i loaded
        cases ready
        obtain ⟨calls,had⟩ := lived_fresh site model
        have lived : Lived site model (site.chip.load ⟨.fresh,0⟩ (.str site.defaultModel)).1 := ⟨_,had.snoc (.ready rfl)⟩
        rw [loaded] at lived
        exact lived
      · cases ready

theorem remapped_kept (kept : model = "" ∨ process.fields.stem = some (stem model)) :
    remapped site.chip process model = (process,.ok ()) := by
  by_cases empty : model = ""
  · subst empty
    rfl
  · have present : get (named model) "model" = some (.str model) := by
      unfold named
      rw [if_neg empty]
      rfl
    have asked : truthy (.str model) = true := by simp [truthy,empty]
    have same : ¬some (stem model) ≠ site.chip.stem process := by
      rw [not_not]
      exact (kept.resolve_left empty).symm
    simp only [remapped,remap,present,asked,stemOf_stem,if_true,if_neg same]

theorem remapped_loads (asked : model ≠ "") (other : process.fields.stem ≠ some (stem model)) :
    remapped site.chip process model =
      ((site.chip.load process (.str model)).1,(site.chip.load process (.str model)).2.map fun _ => ()) := by
  have present : get (named model) "model" = some (.str model) := by
    unfold named
    rw [if_neg asked]
    rfl
  have given : truthy (.str model) = true := by simp [truthy,asked]
  have differ : some (stem model) ≠ site.chip.stem process := fun same => other same.symm
  simp only [remapped,remap,present,given,stemOf_stem,if_true,if_pos differ]

theorem lived_remapped (lived : Lived site model process) : Lived site model (remapped site.chip process model).1 := by
  by_cases kept : model = "" ∨ process.fields.stem = some (stem model)
  · rw [remapped_kept kept]
    exact lived
  · rw [not_or] at kept
    rw [remapped_loads kept.1 kept.2]
    obtain ⟨calls,had⟩ := lived
    exact ⟨_,had.snoc (.remap kept.1)⟩

def Loads (site : Site) (model : String) : Prop :=
  ∀ k, ∃ path m mode names, Opens site.node (site.worlds k) (.str model) false path m mode ∧
    classes site.node (site.worlds k) path m.outputShape.prod = .ok names

theorem not_refused_of_loads (loads : model = "" ∨ Loads site model) : ¬Refused site.chip process model := by
  intro refused
  obtain ⟨raised,refused⟩ := refused
  by_cases kept : model = "" ∨ process.fields.stem = some (stem model)
  · rw [remapped_kept kept] at refused
    cases refused
  · rw [not_or] at kept
    obtain ⟨path,m,mode,names,opens,listed⟩ := loads.resolve_left kept.1 process.calls
    have loaded := load_opens opens process.fields
    rw [listed] at loaded
    rw [remapped_loads kept.1 kept.2] at refused
    simp [Site.chip,loaded,Except.map] at refused

theorem remapped_stem (asked : model ≠ "") (taken : (remapped site.chip process model).2 = .ok ()) :
    (remapped site.chip process model).1.fields.stem = some (stem model) := by
  by_cases kept : process.fields.stem = some (stem model)
  · rw [remapped_kept (.inr kept)]
    exact kept
  · rw [remapped_loads asked kept] at taken ⊢
    by_cases reaches : ∃ path m mode, Opens site.node (site.worlds process.calls) (.str model) false path m mode
    · obtain ⟨path,m,mode,opens⟩ := reaches
      have named := stem_of_path opens.named
      have loaded := load_opens opens process.fields
      simp only [Site.chip,loaded]
      cases listed : classes site.node (site.worlds process.calls) path m.outputShape.prod with
      | error raised => exact congrArg some named
      | ok names => exact congrArg some named
    · obtain ⟨raised,stops⟩ := load_stops reaches process.fields
      simp [Site.chip,stops,Except.map] at taken

-- The k-th call mapped a model on the chip, and no later one has replaced it.
structure Mapped (site : Site) (calls : List Call) (k : Nat) (name : Value) (path : List Char) (m : Model) (mode : String) : Prop where
  made : calls[k]? = some (.load (site.worlds k) name false)
  last : ∀ call ∈ calls.drop (k+1), ¬Replaces site.node call
  opens : Opens site.node (site.worlds k) name false path m mode
  mapped : (site.worlds k).map m mode = .ok ()

theorem had_placed (had : Had site model process calls) (held : process.fields.model = some m) :
    ∃ k name path mode, Mapped site calls k name path m mode ∧
      process.fields.stem = some (stemPath path) ∧ process.fields.n = some m.inputShape.prod ∧
      ∀ names, classes site.node (site.worlds k) path m.outputShape.prod = .ok names → process.fields.classes = some names := by
  have same := had.fields
  rw [same] at held ⊢
  obtain ⟨world,path,mode,placed⟩ := HttpServer.run_placed site.node calls held
  obtain ⟨before,name,allow,after,split,opens,last⟩ := placed.source
  have found : calls[before.length]? = some (.load world name allow) := by rw [split]; simp
  have later : calls.drop (before.length+1) = after := by rw [split]; simp
  -- The worker's loads are strict.
  have strict : world = site.worlds before.length ∧ allow = false := by
    generalize called : Call.load world name allow = call at found
    cases had.asks _ _ found with
    | ready _ | remap _ =>
      cases called
      exact ⟨rfl,rfl⟩
    | infer data => cases called
  obtain ⟨rfl,rfl⟩ := strict
  rw [← later] at last
  exact ⟨before.length,name,path,mode,⟨found,last,opens,opens.maps.resolve_right (by decide)⟩,placed.stem,placed.n,placed.classes⟩

-- A prediction that a worker made of the task's bytes in its last call, with the
-- model that the k-th had mapped on the chip.
structure OnChip (site : Site) (model : String) (data : List UInt8) (prediction : Prediction) (calls : List Call) (k : Nat) (name : Value)
    (path : List Char) (m : Model) (mode : String) (cls : Nat) : Prop where
  inferred : calls.getLast? = some (.infer (site.worlds (calls.length-1)) (.bytes data))
  placed : Mapped site calls k name path m mode
  sized : data.length = m.inputShape.prod
  forward : (m.forward data >>= fun logits => argmax logits) = .ok cls
  told : prediction.cls = cls
  clsName : ∀ names, classes site.node (site.worlds k) path m.outputShape.prod = .ok names →
    prediction.clsName = names.getD cls (toString cls)
  host : prediction.host = site.node.host
  device : prediction.device = site.node.device
  product : prediction.product = site.node.product
  stem : prediction.model = some (stemPath path)
  asked : model ≠ "" → stemPath path = HttpServer.stem model

theorem infer_onChip (had : Had site model process calls) (stemmed : model ≠ "" → process.fields.stem = some (stem model))
    (inferred : (site.chip.infer process (.bytes data)).2 = .ok prediction) :
    ∃ k name path m mode cls, OnChip site model data prediction (calls ++ [.infer (site.worlds calls.length) (.bytes data)])
      k name path m mode cls := by
  have given : (infer site.node (site.worlds process.calls) process.fields (.bytes data)).2 = .ok prediction := inferred
  cases mapped : process.fields.model with
  | none =>
    unfold infer at given
    rw [mapped] at given
    cases given
  | some m =>
    obtain ⟨k,name,path,mode,placed,own,size,named⟩ := had_placed had mapped
    have below := (List.getElem?_eq_some_iff.mp placed.made).1
    -- A prediction replaces no model.
    have still : Mapped site (calls ++ [.infer (site.worlds calls.length) (.bytes data)]) k name path m mode := by
      refine ⟨?_,?_,placed.opens,placed.mapped⟩
      · rw [List.getElem?_append_left below]
        exact placed.made
      · rw [List.drop_append_of_le_length below]
        intro call member
        rcases List.mem_append.mp member with early | last
        · exact placed.last call early
        · rw [List.mem_singleton.mp last]
          exact id
    rw [HttpServer.infer_mapped mapped] at given
    simp only [asBytes,Outcome.ok_bind] at given
    split at given
    · rename_i sized
      obtain ⟨cls,forward,last⟩ := Outcome.bind_ok given
      cases read : className process.fields.classes cls with
      | error raised =>
        rw [read] at last
        cases last
      | ok text =>
        rw [read] at last
        cases last
        refine ⟨k,name,path,m,mode,cls,⟨by simp,still,?_,forward,rfl,?_,rfl,rfl,rfl,own,?_⟩⟩
        · rw [size] at sized
          exact Option.some.inj sized
        · intro names listed
          rw [named names listed] at read
          exact (Except.ok.inj read).symm
        · intro asked
          exact Option.some.inj (own.symm.trans (stemmed asked))
    · cases given

-- What the output of a task tells, with the worker as the task leaves it.
inductive Tells (site : Site) (model : String) (data : List UInt8) (later : Process) : Output → Prop where
  | failed : Tells site model data later .failed
  | raised (raised : Raised) : Tells site model data later (.successful (dumps (.obj (errorReply raised))))
  | predicted (had : Had site model later calls) (on : OnChip site model data prediction calls k name path m mode cls) :
      Tells site model data later (.successful (dumps (.obj prediction.dict)))

theorem answer_tells (lived : Lived site model process) :
    Tells site model data (answer site.chip process model data).1
      (.successful (dumps (.obj (reply (answer site.chip process model data).2)))) := by
  by_cases refused : Refused site.chip process model
  · obtain ⟨raised,refused⟩ := refused
    rw [answer_refused refused]
    exact .raised raised
  · have taken := not_refused refused
    rw [answer_mapped taken]
    unfold inferOn
    dsimp only
    cases inferred : (site.chip.infer (remapped site.chip process model).1 (.bytes data)).2 with
    | error raised => exact .raised raised
    | ok prediction =>
      obtain ⟨calls,had⟩ := lived_remapped lived
      obtain ⟨k,name,path,m,mode,cls,on⟩ := infer_onChip had (fun asked => remapped_stem asked taken) inferred
      exact .predicted (had_infer had data) on

theorem lived_answer (lived : Lived site model process) : Lived site model (answer site.chip process model data).1 := by
  by_cases refused : Refused site.chip process model
  · obtain ⟨raised,refused⟩ := refused
    rw [answer_refused refused]
    exact lived_remapped lived
  · rw [answer_mapped (not_refused refused)]
    unfold inferOn
    obtain ⟨calls,had⟩ := lived_remapped lived
    exact ⟨_,had_infer had data⟩

end

-- How a task's bytes go to the worker: in the buffer it has mapped, or in one
-- write, with a model whose load does not raise before they are read.
inductive Route (site : Site) (model : String) (data : List UInt8) : Prop where
  | empty (none : data = [])
  | shared (fits : ¬BatchWorker.Inline site.shm data) (mapped : site.mapped = true)
  | piped (larger : BatchWorker.Inline site.shm data) (whole : data.length ≤ writeMax) (loads : model = "" ∨ Loads site model)

structure Carried (site : Site) (model : String) (data : List UInt8) : Prop where
  spoken : Spoken site.shm (named model) (some data)
  route : Route site model data

structure Held (site : Site) (model : String) (link : Link Process) : Prop where
  quiet : link.alive = true → Quiet link.toServer
  shm : link.shm.map (·.length) = site.shm
  mapped : link.mapped = site.mapped
  lived : Lived site model link.state

section
variable {Id : Type} {setup : Setup Id} {who : Id} {site : Site} {link : Link Process} {i : Nat} {model : String} {data : List UInt8}

theorem route_meets (route : Route site model data) (process : Process) :
    BatchWorker.Meets site.chip site.mapped site.shm process model data := by
  cases route with
  | empty none => exact .inl none
  | shared fits mapped => exact .inr (.inr ⟨fits,.inl mapped⟩)
  | piped larger whole loads => exact .inr (.inl ⟨larger,whole,not_refused_of_loads loads⟩)

theorem held_create (created : site.create = some link) : Held site model link := by
  obtain ⟨process,ready,rfl⟩ := Option.map_eq_some_iff.mp created
  refine ⟨fun _ => ⟨rfl,rfl,rfl⟩,?_,rfl,lived_ready ready⟩
  cases site.shm <;> simp

theorem held_dies (held : Held site model link) : Held site model {link with alive := false} :=
  ⟨by simp,held.shm,held.mapped,held.lived⟩

theorem invoke_alive (held : Held (setup.site who) model link) (alive : link.alive = true)
    (input : taskInput setup.model setup.pool i = some (model,data)) (carried : Carried (setup.site who) model data) :
    ∃ later, setup.invoke who link i = some (later,
      .successful (dumps (.obj (reply (answer (setup.site who).chip link.state model data).2)))) ∧ Held (setup.site who) model later ∧
      later.alive = true ∧ later.state = (answer (setup.site who).chip link.state model data).1 := by
  have quiet := held.quiet alive
  have spoken := carried.spoken
  have met := route_meets carried.route link.state
  rw [← held.shm] at spoken met
  rw [← held.mapped] at met
  have invoked := BatchWorker.invoke_spec (setup.site who).rt quiet spoken met
  refine ⟨{link with
    state := (answer (setup.site who).chip link.state model data).1
    shm := buffered link.shm (some data)},?_,?_,alive,rfl⟩
  · simp only [Setup.invoke,input,Option.bind_some,invoked,BatchWorker.answerText]
  · refine ⟨fun _ => ⟨quiet.stdin,quiet.stdout,quiet.alive⟩,?_,held.mapped,lived_answer held.lived⟩
    rw [← held.shm]
    exact buffered_length link.shm (some data)

theorem invoke_dead (held : Held (setup.site who) model link) (dead : link.alive = false)
    (input : taskInput setup.model setup.pool i = some (model,data)) :
    ∃ later, setup.invoke who link i = some (later,.failed) ∧ Held (setup.site who) model later := by
  have stops : (!link.alive) = true := by rw [dead]; rfl
  refine ⟨{link with shm := (BatchWorker.frame link.shm model data).2.1},?_,?_⟩
  · simp only [Setup.invoke,input,Option.bind_some,onInvoke,stops,if_true]
  · refine ⟨fun alive => absurd (dead.symm.trans alive) (by decide),?_,held.mapped,held.lived⟩
    rw [← held.shm,BatchWorker.frame_eq]
    exact buffered_length link.shm (some data)

end

end SymphonyAkida.BatchSystem
