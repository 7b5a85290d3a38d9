import Mathlib.Data.List.Induction
import SymphonyAkida.AkidaChip

namespace SymphonyAkida.AkidaChip
open Json Bytes Pipe ShardWire BatchWorker

-- Every sidecar that is read before one names the classes holds an object.
def ObjectsFirst (node : Node) (n : Nat) (sidecars : List Sidecar) : Prop :=
  ∀ before value after, sidecars = before ++ .holds value :: after →
    (∀ members, Sidecar.holds (.obj members) ∈ before → namedIn node n members = none) →
    ∃ members, value = .obj members

theorem objectsFirst_next {node : Node} {n : Nat} {side : Sidecar} {rest : List Sidecar}
    (first : ObjectsFirst node n (side :: rest))
    (unnamed : ∀ members, side = .holds (.obj members) → namedIn node n members = none) : ObjectsFirst node n rest := by
  intro before value after split earlier
  apply first (side :: before) value after (by rw [split,List.cons_append])
  intro members member
  rcases List.mem_cons.mp member with same | member
  · exact unnamed members same.symm
  · exact earlier members member

theorem objectsFirst_cons {node : Node} {n : Nat} {side : Sidecar} {rest : List Sidecar}
    (object : ∀ value, side = .holds value → ∃ members, value = .obj members)
    (later : (∀ members, side = .holds (.obj members) → namedIn node n members = none) → ObjectsFirst node n rest) :
    ObjectsFirst node n (side :: rest) := by
  intro before value after split earlier
  cases before with
  | nil => exact object value (List.cons.inj split).1
  | cons other before =>
    obtain ⟨rfl,behind⟩ := List.cons.inj split
    refine later (fun members same => earlier members (by simp [same])) before value after behind ?_
    exact fun members member => earlier members (List.mem_cons_of_mem _ member)

-- _classes returns exactly on such sidecars.
theorem classesIn_returns {node : Node} {n : Nat} {sidecars : List Sidecar} :
    (∃ names, classesIn node n sidecars = .ok names) ↔ ObjectsFirst node n sidecars := by
  induction sidecars with
  | nil =>
    constructor
    · intro _ before value after split _
      simp at split
    · exact fun _ => ⟨_,rfl⟩
  | cons side rest ih =>
    cases side with
    | missing =>
      constructor
      · exact fun returned => objectsFirst_cons (by simp) fun _ => ih.mp returned
      · exact fun first => ih.mpr (objectsFirst_next first (by simp))
    | unreadable =>
      constructor
      · exact fun returned => objectsFirst_cons (by simp) fun _ => ih.mp returned
      · exact fun first => ih.mpr (objectsFirst_next first (by simp))
    | holds value =>
      cases value with
      | obj members =>
        cases found : namedIn node n members with
        | some names =>
          constructor
          · intro _
            apply objectsFirst_cons (by simp)
            intro unnamed
            simp [unnamed members rfl] at found
          · exact fun _ => ⟨names,by simp [classesIn,found]⟩
        | none =>
          have skips : classesIn node n (.holds (.obj members) :: rest) = classesIn node n rest := by
            simp [classesIn,found]
          rw [skips]
          constructor
          · exact fun returned => objectsFirst_cons (by simp) fun _ => ih.mp returned
          · intro first
            apply ih.mpr (objectsFirst_next first ?_)
            intro others same
            cases same
            exact found
      | _ =>
        constructor
        · intro given
          obtain ⟨names,returned⟩ := given
          cases returned
        · intro first
          obtain ⟨members,same⟩ := first [] _ rest rfl (by simp)
          cases same

theorem namedIn_length {node : Node} {n : Nat} {members : Dict} (found : namedIn node n members = some names) :
    names.length = n := by
  obtain ⟨key,_,found⟩ := List.exists_of_findSome?_eq_some found
  split at found
  · rename_i items _
    split at found
    · rename_i same
      cases found
      rw [List.length_map,same]
    · cases found
  · cases found

theorem classesIn_length {node : Node} {n : Nat} {sidecars : List Sidecar}
    (returned : classesIn node n sidecars = .ok names) : names.length = n := by
  induction sidecars with
  | nil => cases returned; simp
  | cons side rest ih =>
    cases side with
    | missing => exact ih returned
    | unreadable => exact ih returned
    | holds value =>
      cases value with
      | obj members =>
        unfold classesIn at returned
        split at returned
        · rename_i found
          cases returned
          exact namedIn_length found
        · exact ih returned
      | _ => cases returned

structure Opens (node : Node) (world : World) (name : Value) (allowSoftware : Bool) (path : List Char) (m : Model)
    (mode : String) : Prop where
  named : modelPath node name = .ok path
  present : world.isfile path = true
  built : world.model path = .ok m
  chosen : getMode world (mapMode world path) = .ok mode
  maps : world.map m mode = .ok () ∨ allowSoftware = true

-- The fields load assigns before _classes, and the last one after it.
def Fields.opened (fields : Fields) (path : List Char) (m : Model) (mapped : Except Raised Unit) : Fields :=
  {fields with
    model := some m
    stem := some (stemPath path)
    ishape := some m.inputShape
    n := some m.inputShape.prod
    onChip := mapped.isOk
    mapError := match mapped with
      | .ok () => none
      | .error raised => some raised.text}

def Fields.named (fields : Fields) (names : List String) : Fields := {fields with classes := some names}

theorem Opens.unique (one : Opens node world name allow path m mode) (two : Opens node world name allow path' m' mode') :
    path = path' ∧ m = m' ∧ mode = mode' := by
  have paths : path = path' := Except.ok.inj (one.named.symm.trans two.named)
  subst paths
  exact ⟨rfl,Except.ok.inj (one.built.symm.trans two.built),Except.ok.inj (one.chosen.symm.trans two.chosen)⟩

theorem load_opens (opens : Opens node world name allow path m mode) (fields : Fields) :
    load node world fields name allow =
      match classes node world path m.outputShape.prod with
      | .error raised => (fields.opened path m (world.map m mode),.error raised)
      | .ok names =>
        let fields := (fields.opened path m (world.map m mode)).named names
        (fields,.ok (info node fields m names)) := by
  obtain ⟨named,present,built,chosen,maps⟩ := opens
  simp only [load,named,present,built,chosen,Bool.not_true,Bool.false_eq_true,if_false]
  cases mapped : world.map m mode with
  | ok _ => rfl
  | error failed =>
    cases allow with
    | false => rcases maps with maps | maps <;> simp_all
    | true => rfl

-- Every check before it stops the load with the fields as they were.
theorem load_stops (stops : ¬∃ path m mode, Opens node world name allow path m mode) (fields : Fields) :
    ∃ raised, load node world fields name allow = (fields,.error raised) := by
  cases named : modelPath node name with
  | error raised => exact ⟨raised,by simp [load,named]⟩
  | ok path =>
    cases present : world.isfile path with
    | false => exact ⟨_,by simp only [load,named,present]; rfl⟩
    | true =>
      cases built : world.model path with
      | error raised => exact ⟨raised,by simp [load,named,present,built]⟩
      | ok m =>
        cases chosen : getMode world (mapMode world path) with
        | error raised => exact ⟨raised,by simp [load,named,present,built,chosen]⟩
        | ok mode =>
          cases mapped : world.map m mode with
          | ok _ => exact absurd ⟨path,m,mode,named,present,built,chosen,.inl mapped⟩ stops
          | error failed =>
            cases allow with
            | false => exact ⟨failed,by simp [load,named,present,built,chosen,mapped]⟩
            | true => exact absurd ⟨path,m,mode,named,present,built,chosen,.inr rfl⟩ stops

-- The load meets no sidecar of the classes that is not an object.
def Clean (node : Node) : Call → Prop
  | .load world name allow => ∀ path m mode, Opens node world name allow path m mode →
      ObjectsFirst node m.outputShape.prod (world.sidecars path classSuffixes)
  | _ => True

theorem load_clean {node : Node} {world : World} {name : Value} {allow : Bool}
    (clean : Clean node (.load world name allow)) (fields : Fields) :
    (∃ raised, load node world fields name allow = (fields,.error raised)) ∨
    ∃ path m mode names value, Opens node world name allow path m mode ∧
      classes node world path m.outputShape.prod = .ok names ∧
      load node world fields name allow = ((fields.opened path m (world.map m mode)).named names,.ok value) := by
  by_cases reaches : ∃ path m mode, Opens node world name allow path m mode
  · obtain ⟨path,m,mode,opens⟩ := reaches
    obtain ⟨names,returned⟩ := classesIn_returns.mpr (clean path m mode opens)
    have listed : classes node world path m.outputShape.prod = .ok names := returned
    exact .inr ⟨path,m,mode,names,_,opens,listed,by rw [load_opens opens,listed]⟩
  · exact .inl (load_stops reaches fields)

theorem load_torn {node : Node} {world : World} {name : Value} {allow : Bool}
    (torn : ¬Clean node (.load world name allow)) (fields : Fields) :
    ∃ path m mode raised, Opens node world name allow path m mode ∧
      load node world fields name allow = (fields.opened path m (world.map m mode),.error raised) := by
  simp only [Clean,not_forall] at torn
  obtain ⟨path,m,mode,opens,broken⟩ := torn
  refine ⟨path,m,mode,?_⟩
  cases listed : classes node world path m.outputShape.prod with
  | ok names => exact absurd (classesIn_returns.mp ⟨names,listed⟩) broken
  | error raised => exact ⟨raised,opens,by rw [load_opens opens,listed]⟩

def Keeps (node : Node) (fields : Fields) : Call → Prop
  | .load world name allow => ∃ raised, (load node world fields name allow).2 = .error raised
  | .unload => False
  | .infer _ _ => True

-- The fields are those of one load: of its path, of the model it built, of the
-- classes it read and of the outcome of its map.
structure Together (node : Node) (fields : Fields) (world : World) (name : Value) (allow : Bool) (path : List Char)
    (m : Model) (mode : String) (names : List String) : Prop where
  opens : Opens node world name allow path m mode
  read : classes node world path m.outputShape.prod = .ok names
  stem : fields.stem = some (stemPath path)
  ishape : fields.ishape = some m.inputShape
  n : fields.n = some m.inputShape.prod
  classes : fields.classes = some names
  perOutput : names.length = m.outputShape.prod
  onChip : fields.onChip = true ↔ world.map m mode = .ok ()

-- The load a mapped model comes from; since then no load returned and nothing unloaded it.
def Belongs (node : Node) (calls : List Call) (m : Model) : Prop :=
  ∃ before world name allow after, calls = before ++ .load world name allow :: after ∧
    (∃ path mode names, Together node (run node .fresh calls) world name allow path m mode names) ∧
    ∀ early call late, after = early ++ call :: late →
      Keeps node (run node .fresh (before ++ .load world name allow :: early)) call

def Atomic (node : Node) (fields : Fields) (call : Call) : Prop :=
  ∀ world name allow raised, call = .load world name allow → (call.step node fields).2 = .error raised →
    (call.step node fields).1 = fields

theorem run_snoc (node : Node) (fields : Fields) (calls : List Call) (call : Call) :
    run node fields (calls ++ [call]) = (call.step node (run node fields calls)).1 := by simp [run]

theorem together_opened {fields : Fields} (opens : Opens node world name allow path m mode)
    (listed : classes node world path m.outputShape.prod = .ok names) :
    Together node ((fields.opened path m (world.map m mode)).named names) world name allow path m mode names where
  opens := opens
  read := listed
  stem := rfl
  ishape := rfl
  n := rfl
  classes := rfl
  perOutput := classesIn_length listed
  onChip := by
    cases mapped : world.map m mode with
    | ok _ => simp [Fields.named,Fields.opened,Except.isOk,Except.toBool]
    | error failed => simp [Fields.named,Fields.opened,Except.isOk,Except.toBool]

theorem belongs_kept {node : Node} {calls : List Call} {call : Call} (belongs : Belongs node calls m)
    (same : (call.step node (run node .fresh calls)).1 = run node .fresh calls)
    (keeps : Keeps node (run node .fresh calls) call) : Belongs node (calls ++ [call]) m := by
  obtain ⟨before,world,name,allow,after,split,together,quiet⟩ := belongs
  refine ⟨before,world,name,allow,after ++ [call],by simp [split],?_,?_⟩
  · rw [run_snoc,same]
    exact together
  · intro early other late place
    rcases List.eq_nil_or_concat late with rfl | ⟨middle,final,rfl⟩
    · obtain ⟨rfl,ended⟩ := List.append_inj' place rfl
      cases ended
      rw [← split]
      exact keeps
    · have place : after ++ [call] = (early ++ other :: middle) ++ [final] := by simpa using place
      exact quiet early other middle (List.append_inj' place rfl).1

theorem keeps_model {node : Node} {fields : Fields} {call : Call} (clean : Clean node call)
    (keeps : Keeps node fields call) : (call.step node fields).1 = fields := by
  cases call with
  | load world name allow =>
    obtain ⟨raised,failed⟩ := keeps
    rcases load_clean clean fields with ⟨_,stopped⟩ | ⟨path,m,mode,names,value,_,_,loaded⟩
    · simp [Call.step,stopped]
    · rw [loaded] at failed
      cases failed
  | unload => exact keeps.elim
  | infer world arr => rfl

theorem load_atomic_of_clean {node : Node} {call : Call} (clean : Clean node call) (fields : Fields) :
    Atomic node fields call := by
  rintro world name allow raised rfl failed
  apply keeps_model clean
  cases loaded : (load node world fields name allow).2 with
  | error other => exact ⟨other,loaded⟩
  | ok value => simp [Call.step,loaded,Except.map] at failed

theorem belongs_step {node : Node} {calls : List Call} {call : Call} (clean : Clean node call)
    (prior : ∀ m, (run node .fresh calls).model = some m → Belongs node calls m) :
    ∀ m, (run node .fresh (calls ++ [call])).model = some m → Belongs node (calls ++ [call]) m := by
  intro m mapped
  by_cases keeps : Keeps node (run node .fresh calls) call
  · have same := keeps_model clean keeps
    rw [run_snoc,same] at mapped
    exact belongs_kept (prior m mapped) same keeps
  · rw [run_snoc] at mapped
    cases call with
    | load world name allow =>
      rcases load_clean clean (run node .fresh calls) with ⟨raised,stopped⟩ | ⟨path,m',mode,names,value,opens,listed,loaded⟩
      · exact absurd ⟨raised,by rw [stopped]⟩ keeps
      · have same : m' = m := by simpa [Call.step,loaded,Fields.named,Fields.opened] using mapped
        subst same
        refine ⟨calls,world,name,allow,[],rfl,⟨path,mode,names,?_⟩,by simp⟩
        rw [run_snoc]
        simp only [Call.step,loaded]
        exact together_opened opens listed
    | unload => simp [Call.step,unload] at mapped
    | infer world arr => exact absurd trivial keeps

theorem run_belongs {node : Node} {calls : List Call} (clean : ∀ call ∈ calls, Clean node call) :
    ∀ m, (run node .fresh calls).model = some m → Belongs node calls m := by
  induction calls using List.reverseRecOn with
  | nil => simp [run,Fields.fresh]
  | append_singleton calls call ih =>
    exact belongs_step (clean call (by simp)) (ih fun other member => clean other (by simp [member]))

-- In a run of clean loads every load that raises leaves the chip as it was, and
-- the fields of a mapped model are those of the load it comes from.
theorem chip_consistent (node : Node) (calls : List Call) (clean : ∀ call ∈ calls, Clean node call) :
    (∀ before call after, calls = before ++ call :: after → Atomic node (run node .fresh before) call) ∧
    ∀ before after, calls = before ++ after →
      ∀ m, (run node .fresh before).model = some m → Belongs node before m := by
  constructor
  · rintro before call after rfl
    exact load_atomic_of_clean (clean call (by simp)) _
  · rintro before after rfl
    exact run_belongs fun call member => clean call (List.mem_append_left _ member)

-- A directory of two models; the class names of the second are a JSON list.
def shelf : World where
  isfile := fun path => ["/models/gate.fbz","/models/digits.fbz","/models/digits.classes.json"].any fun file => file.toList = path
  jsonLoad := fun _ => .ok (.arr [.str "one",.str "two",.str "three"])
  model := fun path => .ok ⟨[4],[if path = "/models/gate.fbz".toList then 2 else 3],fun _ => .ok [0,0,0]⟩
  hasMode := fun name => name == "AllNps"
  map := fun _ _ => .ok ()
  asarray := fun _ => .ok []
  elapsedUs := 1

def shelfNode : Node := ⟨"/models".toList,"node1","NSoC_v2","AKD1500",fun _ => true⟩

theorem chip_torn :
    ¬Atomic shelfNode (run shelfNode .fresh [.load shelf (.str "gate") false]) (.load shelf (.str "digits") false) ∧
    let fields := run shelfNode .fresh [.load shelf (.str "gate") false,.load shelf (.str "digits") false]
    fields.stem = some "digits" ∧ fields.model.map (fun m => m.outputShape) = some [3] ∧
      fields.classes = some ["0","1"] := by
  have stem : (run shelfNode .fresh [.load shelf (.str "gate") false,.load shelf (.str "digits") false]).stem =
      some "digits" := by decide
  refine ⟨?_,stem,rfl,rfl⟩
  intro atomic
  have same := congrArg Fields.stem (atomic shelf (.str "digits") false _ rfl rfl)
  have before : (run shelfNode .fresh [.load shelf (.str "gate") false]).stem = some "gate" := by decide
  rw [before] at same
  exact absurd (stem.symm.trans same) (by decide)

-- A directory of three models: the class names of the second are in an object,
-- and the third is too wide for the chip.
def kit : World := {shelf with
  isfile := fun path => ["/models/gate.fbz","/models/digits.fbz","/models/digits.classes.json","/models/wide.fbz"].any fun file =>
    file.toList = path
  jsonLoad := fun _ => .ok (.obj [("classes",.arr [.str "one",.str "two",.str "three"])])
  model := fun path => .ok ⟨[4],[if path = "/models/gate.fbz".toList then 2 else if path = "/models/digits.fbz".toList then 3 else 9],
    fun _ => .ok [0,0,0]⟩
  map := fun m _ => if m.outputShape = [9] then .error ⟨"RuntimeError","not enough nodes"⟩ else .ok ()}

theorem clean_of_reads {world : World} {name : Value} {path : List Char} {m : Model} {names : List String}
    (named : modelPath shelfNode name = .ok path) (built : world.model path = .ok m)
    (read : classes shelfNode world path m.outputShape.prod = .ok names) : Clean shelfNode (.load world name false) := by
  intro other model mode opens
  cases named.symm.trans opens.named
  cases built.symm.trans opens.built
  exact classesIn_returns.mp ⟨names,read⟩

def kitCalls : List Call :=
  [.load kit (.str "gate") false,.infer kit (.bytes [0,0,0,0]),.load kit (.str "digits") false,.load kit (.str "wide") false,
    .infer kit (.bytes [7,0,255,1])]

theorem kit_clean : ∀ call ∈ kitCalls, Clean shelfNode call := by
  have gate : Clean shelfNode (.load kit (.str "gate") false) := clean_of_reads rfl rfl rfl
  have digits : Clean shelfNode (.load kit (.str "digits") false) := clean_of_reads rfl rfl rfl
  have wide : Clean shelfNode (.load kit (.str "wide") false) := clean_of_reads rfl rfl rfl
  simp only [kitCalls,List.forall_mem_cons]
  exact ⟨gate,trivial,digits,wide,trivial,by simp⟩

theorem chip_consistent_kit :
    (∀ call ∈ kitCalls, Clean shelfNode call) ∧
    (let call := Call.load kit (.str "wide") false
      let fields := run shelfNode .fresh (kitCalls.take 3)
      (call.step shelfNode fields).2 = .error ⟨"RuntimeError","not enough nodes"⟩ ∧ (call.step shelfNode fields).1 = fields) ∧
    (∀ m, (run shelfNode .fresh kitCalls).model = some m → Belongs shelfNode kitCalls m) ∧
    (run shelfNode .fresh kitCalls).stem = some "digits" ∧
    (run shelfNode .fresh kitCalls).classes = some ["one","two","three"] := by
  have consistent := chip_consistent shelfNode kitCalls kit_clean
  have atomic := consistent.1 (kitCalls.take 3) (.load kit (.str "wide") false) (kitCalls.drop 4) rfl
  have raises : ((Call.load kit (.str "wide") false).step shelfNode (run shelfNode .fresh (kitCalls.take 3))).2 =
      .error ⟨"RuntimeError","not enough nodes"⟩ := rfl
  exact ⟨kit_clean,⟨raises,atomic kit (.str "wide") false _ rfl raises⟩,consistent.2 kitCalls [] (List.append_nil _).symm,
    by decide,rfl⟩

end SymphonyAkida.AkidaChip
