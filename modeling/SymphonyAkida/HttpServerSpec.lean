import SymphonyAkida.HttpServer
import SymphonyAkida.AkidaChipSpec

namespace SymphonyAkida.HttpServer
open Json Bytes ShardWire AkidaChip Jobs Locks
open BatchWorker (Tensor Prediction)

theorem readBody_dumps {body : Value} (plain : body.plain = true) (digits : body.within maxStrDigits = true) :
    readBody (.ok (encode (dumps body)).length) (encode (dumps body)) = .ok body := by
  have back := loadsWithin_dumps plain digits
  have some_ : ¬((encode (dumps body)).length : Int) = 0 := by
    intro empty
    have gone : encode (dumps body) = [] := List.length_eq_zero_iff.mp (Int.ofNat_eq_zero.mp empty)
    have same : dumps body = [] := by
      have decoded := decode_encode (dumps body)
      rw [gone] at decoded
      exact (Option.some.inj decoded).symm
    rw [same] at back
    cases back
  simp only [readBody,Except.map,if_neg some_,decode_encode,Option.bind_some,back,Except.toOption,Option.getD_some]

def call (service : Service) : Request → Option Call
  | .get _ _ => none
  | .post path length bytes world =>
    match service.attached,readBody length bytes with
    | true,.ok body =>
      if path = "/load" ∨ path = "/reload" then
        match bodyGet body "name" with
        | .ok name => if truthy name then some (.load world name true) else none
        | .error _ => none
      else if path = "/unload" then some .unload
      else if path = "/infer" then
        match bodyGet body "input" with
        | .error _ | .ok .null => none
        | .ok vals => some (.infer world (.json vals))
      else none
    | _,_ => none

def serve (node : Node) (fields : Fields) : Call → Fields × Reply
  | .load world name allow =>
    let (fields,info) := AkidaChip.load node world fields name allow
    (fields,sent (info.map loaded))
  | .unload => (AkidaChip.unload fields,⟨200,[("ok",.bool true)]⟩)
  | .infer world arr => (fields,sent ((AkidaChip.infer node world fields arr).2.map fun r => inferred node r fields.onChip))

theorem serve_step (node : Node) (fields : Fields) (call : Call) : (serve node fields call).1 = (call.step node fields).1 := by
  cases call <;> rfl

theorem loadSection_cases (node : Node) (world : World) (name : Value) (allow : Bool) :
    (∃ raised, loadSection node world name allow = raiseIt raised ∧ ∀ fields, load node world fields name allow = (fields,.error raised)) ∨
    ∃ path m mode, Opens node world name allow path m mode ∧
      loadSection node world name allow = place node world path m (world.map m mode) := by
  unfold loadSection
  cases named : modelPath node name with
  | error raised => exact .inl ⟨raised,rfl,fun fields => by simp [load,named]⟩
  | ok path =>
    dsimp only
    cases present : world.isfile path with
    | false => exact .inl ⟨_,rfl,fun fields => by simp only [load,named,present]; rfl⟩
    | true =>
      simp only [Bool.not_true,Bool.false_eq_true,if_false]
      cases built : world.model path with
      | error raised => exact .inl ⟨raised,rfl,fun fields => by simp [load,named,present,built]⟩
      | ok m =>
        dsimp only
        cases chosen : getMode world (mapMode world path) with
        | error raised => exact .inl ⟨raised,rfl,fun fields => by simp [load,named,present,built,chosen]⟩
        | ok mode =>
          dsimp only
          cases mapped : world.map m mode with
          | ok _ => exact .inr ⟨path,m,mode,⟨named,present,built,chosen,.inl mapped⟩,by rw [mapped]⟩
          | error failed =>
            cases allow with
            | false => exact .inl ⟨failed,rfl,fun fields => by simp [load,named,present,built,chosen,mapped]⟩
            | true => exact .inr ⟨path,m,mode,⟨named,present,built,chosen,.inr rfl⟩,by rw [mapped]⟩

theorem loadSection_alone (node : Node) (world : World) (name : Value) (allow : Bool) (fields : Fields) :
    (loadSection node world name allow).alone fields = load node world fields name allow := by
  rcases loadSection_cases node world name allow with ⟨raised,stops,same⟩ | ⟨path,m,mode,opens,goes⟩
  · rw [stops,same]
    rfl
  · rw [goes,load_opens opens]
    dsimp only [place,assign,Program.alone]
    cases classes node world path m.outputShape.prod <;> rfl

theorem unloadSection_alone (fields : Fields) : unloadSection.alone fields = (unload fields,.ok ()) := rfl

theorem infer_mapped {fields : Fields} (mapped : fields.model = some m) (node : Node) (world : World) (arr : Tensor) :
    (infer node world fields arr).2 = asBytes world arr >>= fun pixels =>
      if some pixels.length = fields.n then
        (m.forward pixels >>= fun logits => argmax logits) >>= fun cls => (className fields.classes cls).map fun name =>
          ⟨cls,name,world.elapsedUs,node.host,node.device,node.product,fields.stem⟩
      else
        .error ⟨"ValueError",s!"input has {pixels.length} values, model expects " ++
          s!"{fields.n.getD 0} {shapeText (fields.ishape.getD [])}"⟩ := by
  unfold infer
  simp only [mapped]
  cases asBytes world arr with
  | error raised => rfl
  | ok pixels =>
    dsimp only [Outcome.ok_bind]
    by_cases sized : some pixels.length = fields.n
    · rw [if_pos sized,if_neg (not_not.mpr sized)]
      cases m.forward pixels with
      | error raised => rfl
      | ok logits =>
        dsimp only [Outcome.ok_bind]
        cases argmax logits with
        | error raised => rfl
        | ok cls =>
          dsimp only [Outcome.ok_bind]
          cases className fields.classes cls <;> rfl
    · rw [if_neg sized,if_pos sized]
      rfl

theorem inferSection_alone (node : Node) (world : World) (arr : Tensor) (fields : Fields) :
    (inferSection node world arr).alone fields =
      (fields,(infer node world fields arr).2.map fun r => (r,fields.onChip)) := by
  cases mapped : fields.model with
  | none =>
    unfold inferSection infer
    dsimp only [look,Program.alone,id]
    rw [mapped]
    rfl
  | some m =>
    rw [infer_mapped mapped]
    unfold inferSection
    dsimp only [look,Program.alone,id]
    rw [mapped]
    dsimp only
    cases asBytes world arr with
    | error raised => rfl
    | ok pixels =>
      dsimp only [Outcome.ok_bind,Program.alone,id]
      by_cases sized : some pixels.length = fields.n
      · rw [if_pos sized,if_neg (not_not.mpr sized)]
        dsimp only [Program.alone,id]
        rw [mapped]
        dsimp only
        cases m.forward pixels >>= fun logits => argmax logits with
        | error raised => rfl
        | ok cls =>
          dsimp only [Outcome.ok_bind,Program.alone,id]
          cases className fields.classes cls <;> rfl
      · rw [if_neg sized,if_pos sized]
        rfl

theorem replying_alone (program : Program Fields Raised α) (body : α → Dict) (fields : Fields) :
    (replying program body).alone fields = ((program.alone fields).1,.ok (sent ((program.alone fields).2.map body))) := by
  induction program generalizing fields with
  | done result => rfl
  | act change next ih => exact ih fields (change fields)

-- A program that moves each field of /health once at most.
structure Watched (program : Program Fields Raised α) : Prop where
  stem : Once Fields.stem program
  onChip : Once Fields.onChip program
  mapError : Once Fields.mapError program

theorem once_keeps {view : Fields → View} {change : Fields → Fields} {rest : Program Fields Raised α}
    (keeps : ∀ fields, view (change fields) = view fields) (later : Once view rest) : Once view (assign change rest) :=
  fun fields => .inl ⟨keeps fields,later⟩

theorem once_moves {view : Fields → View} {change : Fields → Fields} {rest : Program Fields Raised α}
    (later : Steady view rest) : Once view (assign change rest) := fun _ => .inr later

theorem steady_keeps {view : Fields → View} {change : Fields → Fields} {rest : Program Fields Raised α}
    (keeps : ∀ fields, view (change fields) = view fields) (later : Steady view rest) : Steady view (assign change rest) :=
  fun fields => ⟨(keeps fields).symm,later⟩

theorem steady_classes {view : Fields → View} (keeps : ∀ (fields : Fields) names, view {fields with classes := names} = view fields)
    (node : Node) (m : Model) (named : Except Raised (List String)) : Steady view (nameClasses node m named) := by
  cases named with
  | error raised => trivial
  | ok names => exact steady_keeps (fun fields => keeps fields _) fun _ => ⟨rfl,trivial⟩

theorem place_watched (node : Node) (world : World) (path : List Char) (m : Model) (mapped : Except Raised Unit) :
    Watched (place node world path m mapped) where
  stem := by
    refine once_keeps (fun _ => rfl) (once_keeps (fun _ => rfl) (once_keeps (fun _ => rfl) (once_moves ?_)))
    exact steady_keeps (fun _ => rfl) (steady_keeps (fun _ => rfl) (steady_classes (fun _ _ => rfl) _ _ _))
  onChip := by
    refine once_moves (steady_keeps (fun _ => rfl) (steady_keeps (fun _ => rfl) (steady_keeps (fun _ => rfl) ?_)))
    exact steady_keeps (fun _ => rfl) (steady_keeps (fun _ => rfl) (steady_classes (fun _ _ => rfl) _ _ _))
  mapError := by
    refine once_keeps (fun _ => rfl) (once_moves (steady_keeps (fun _ => rfl) (steady_keeps (fun _ => rfl) ?_)))
    exact steady_keeps (fun _ => rfl) (steady_keeps (fun _ => rfl) (steady_classes (fun _ _ => rfl) _ _ _))

theorem loadSection_watched (node : Node) (world : World) (name : Value) (allow : Bool) : Watched (loadSection node world name allow) := by
  rcases loadSection_cases node world name allow with ⟨raised,stops,_⟩ | ⟨path,m,mode,_,goes⟩
  · rw [stops]
    exact ⟨trivial,trivial,trivial⟩
  · rw [goes]
    exact place_watched node world path m _

theorem unloadSection_watched : Watched unloadSection where
  stem := once_keeps (fun _ => rfl) (once_moves (steady_keeps (fun _ => rfl) (steady_keeps (fun _ => rfl) trivial)))
  onChip := once_keeps (fun _ => rfl) (once_keeps (fun _ => rfl) (once_moves (steady_keeps (fun _ => rfl) trivial)))
  mapError := once_keeps (fun _ => rfl) (once_keeps (fun _ => rfl) (once_keeps (fun _ => rfl) (once_moves trivial)))

theorem look_spares {next : Fields → Program Fields Raised α} (later : ∀ fields, (next fields).Spares Eq) : (look next).Spares Eq :=
  fun fields => ⟨rfl,later fields⟩

theorem inferSection_spares (node : Node) (world : World) (arr : Tensor) : (inferSection node world arr).Spares Eq := by
  refine look_spares fun first => ?_
  cases first.model with
  | none => trivial
  | some _ =>
    dsimp only
    cases asBytes world arr with
    | error raised => trivial
    | ok pixels =>
      refine look_spares fun second => ?_
      by_cases sized : some pixels.length = second.n
      · rw [if_neg (not_not.mpr sized)]
        refine look_spares fun third => ?_
        cases third.model with
        | none => trivial
        | some m =>
          dsimp only
          cases m.forward pixels >>= fun logits => argmax logits with
          | error raised => trivial
          | ok cls =>
            refine look_spares fun fourth => ?_
            cases className fourth.classes cls with
            | error raised => trivial
            | ok name => exact look_spares fun _ => look_spares fun _ => trivial
      · rw [if_pos sized]
        trivial

theorem spares_steady {program : Program Fields Raised α} (spares : program.Spares Eq) (view : Fields → View) : Steady view program := by
  induction program with
  | done result => trivial
  | act change next ih => exact fun fields => ⟨congrArg view (spares fields).1,ih fields (spares fields).2⟩

theorem steady_once {view : Fields → View} {program : Program Fields Raised α} (steady : Steady view program) : Once view program := by
  cases program with
  | done result => trivial
  | act change next => exact fun fields => .inr (steady fields).2

theorem spares_watched {program : Program Fields Raised α} (spares : program.Spares Eq) : Watched program :=
  ⟨steady_once (spares_steady spares _),steady_once (spares_steady spares _),steady_once (spares_steady spares _)⟩

theorem replying_steady {view : Fields → View} {program : Program Fields Raised α} (steady : Steady view program) (body : α → Dict) :
    Steady view (replying program body) := by
  induction program with
  | done result => trivial
  | act change next ih => exact fun fields => ⟨(steady fields).1,ih fields (steady fields).2⟩

theorem replying_once {view : Fields → View} {program : Program Fields Raised α} (once : Once view program) (body : α → Dict) :
    Once view (replying program body) := by
  induction program with
  | done result => trivial
  | act change next ih =>
    intro fields
    rcases once fields with ⟨same,later⟩ | steady
    · exact .inl ⟨same,ih fields later⟩
    · exact .inr (replying_steady steady body)

theorem Watched.replying {program : Program Fields Raised α} (watched : Watched program) (body : α → Dict) :
    Watched (replying program body) :=
  ⟨replying_once watched.stem body,replying_once watched.onChip body,replying_once watched.mapError body⟩

-- What a request comes to: a call of the chip under the lock, or no change at all.
inductive Handled (service : Service) : Option Call → Task → Prop where
  | serves (alone : ∀ fields, program.alone fields = ((serve service.node fields c).1,.ok (serve service.node fields c).2))
      (watched : Watched program) : Handled service (some c) (.guarded program)
  | answers (spares : program.Spares Eq) : Handled service none (.bare program)

theorem health_spares (service : Service) : (health service).Spares Eq := by
  unfold health
  split
  · exact look_spares fun _ => look_spares fun _ => look_spares fun _ => trivial
  · trivial

theorem models_spares (service : Service) (shelf : Shelf) : (models service shelf).Spares Eq := by
  unfold models
  split
  · apply look_spares
    intro fields
    split
    · exact look_spares fun _ => trivial
    · trivial
  · trivial

theorem doGet_handled (service : Service) (path : String) (shelf : Shelf) : Handled service none (doGet service path shelf) := by
  unfold doGet
  split
  · exact .answers (health_spares service)
  · split
    · exact .answers (models_spares service shelf)
    · exact .answers trivial

theorem doPost_detached {service : Service} (detached : service.attached = false) (path : String) (body : Value) (world : World) :
    Handled service none (doPost service path body world) := by
  unfold doPost
  rw [detached]
  split
  · cases bodyGet body "name" with
    | error raised => exact .answers trivial
    | ok name =>
      dsimp only
      split
      · exact .answers trivial
      · exact .answers trivial
  · split
    · exact .answers trivial
    · split
      · exact .answers trivial
      · exact .answers trivial

theorem load_handled (service : Service) (world : World) (name : Value) :
    Handled service (some (.load world name true)) (.guarded (replying (loadSection service.node world name true) loaded)) := by
  refine .serves (fun fields => ?_) ((loadSection_watched _ _ _ _).replying _)
  rw [replying_alone,loadSection_alone]
  rfl

theorem unload_handled (service : Service) :
    Handled service (some .unload) (.guarded (replying unloadSection fun _ => [("ok",.bool true)])) := by
  refine .serves (fun fields => ?_) (unloadSection_watched.replying _)
  rw [replying_alone,unloadSection_alone]
  rfl

theorem infer_handled (service : Service) (world : World) (arr : Tensor) :
    Handled service (some (.infer world arr)) (.guarded (replying (inferSection service.node world arr) fun (r,onChip) =>
      inferred service.node r onChip)) := by
  refine .serves (fun fields => ?_) ((spares_watched (inferSection_spares _ _ _)).replying _)
  rw [replying_alone,inferSection_alone]
  dsimp only [serve]
  cases (infer service.node world fields arr).2 <;> rfl

theorem handle_handled (service : Service) (request : Request) : Handled service (call service request) (handle service request) := by
  cases request with
  | get path shelf => exact doGet_handled service path shelf
  | post path length bytes world =>
    simp only [call,handle]
    cases attached : service.attached with
    | false =>
      cases readBody length bytes with
      | error raised => exact .answers trivial
      | ok body => exact doPost_detached attached path body world
    | true =>
      cases readBody length bytes with
      | error raised => exact .answers trivial
      | ok body =>
        dsimp only [doPost]
        rw [attached]
        split
        · cases bodyGet body "name" with
          | error raised => exact .answers trivial
          | ok name =>
            dsimp only
            cases truthy name with
            | false => exact .answers trivial
            | true => exact load_handled service world name
        · split
          · exact unload_handled service
          · split
            · cases bodyGet body "input" with
              | error raised => exact .answers trivial
              | ok vals =>
                cases vals with
                | null => exact .answers trivial
                | _ => exact infer_handled service world _
            · exact .answers trivial

end SymphonyAkida.HttpServer
