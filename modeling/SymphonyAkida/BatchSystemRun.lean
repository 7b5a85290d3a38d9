import SymphonyAkida.BatchSystemSpec
import SymphonyAkida.Counters
import SymphonyAkida.RoundRobinRun

namespace SymphonyAkida.BatchSystem
open Json ShardWire AkidaChip
open BatchWorker (Prediction prediction_plain answer answer_mapped inferOn remapped)
open BatchClient (Output Tally taskInput senders tasks countOutput countText countReply counts countOf fetchLoop sameText)

section
variable {Id : Type} {setup : Setup Id}

def Known (setup : Setup Id) (i : Nat) : Prop := ∃ data ∈ setup.pool, setup.pool[i%setup.pool.length]? = some data

theorem known_of_filled (filled : setup.pool ≠ []) (i : Nat) : Known setup i := by
  have below : i%setup.pool.length < setup.pool.length := Nat.mod_lt _ (List.length_pos_iff.mpr filled)
  exact ⟨_,List.getElem_mem below,List.getElem?_eq_getElem below⟩

theorem input_of {data : List UInt8} (found : setup.pool[i%setup.pool.length]? = some data) :
    taskInput setup.model setup.pool i = some (setup.model,data) := by
  unfold taskInput
  rw [found]
  rfl

theorem threads_perm (filled : setup.pool ≠ []) : setup.threads.flatten.Perm (List.range setup.count) := by
  have whole : setup.sends = tasks := by
    funext part
    refine List.takeWhile_eq_self_iff.mpr fun i member => ?_
    obtain ⟨data,_,found⟩ := known_of_filled filled i
    rw [input_of found]
    rfl
  unfold Setup.threads
  rw [whole]
  exact BatchClient.senders_perm setup.count setup.workers

def Sound (setup : Setup Id) : Prop := ∀ who, ∀ data ∈ setup.pool, Carried (setup.site who) setup.model data

def Told (setup : Setup Id) (who : Id) (later : Link Process) (i : Nat) (out : Output) : Prop :=
  ∃ data, setup.pool[i%setup.pool.length]? = some data ∧ Tells (setup.site who) setup.model data later.state out

theorem told_served {who : Id} {later : Link Process} (told : Told setup who later i out) : BatchClient.Served out := by
  obtain ⟨data,_,tells⟩ := told
  cases tells with
  | failed => exact .failed
  | raised raised => exact BatchClient.raised_served raised
  | predicted had on => exact BatchClient.prediction_served _

theorem invoke_told (sound : Sound setup) {link : Link Process} {who : Id} (held : Held (setup.site who) setup.model link)
    (known : Known setup i) : ∃ later out, setup.invoke who link i = some (later,out) ∧ Held (setup.site who) setup.model later ∧
      Told setup who later i out := by
  obtain ⟨data,member,found⟩ := known
  cases alive : link.alive with
  | true =>
    obtain ⟨later,invoked,kept,_,left⟩ := invoke_alive held alive (input_of found) (sound who data member)
    refine ⟨later,_,invoked,kept,data,found,?_⟩
    rw [left]
    exact answer_tells held.lived
  | false =>
    obtain ⟨later,invoked,kept⟩ := invoke_dead held alive (input_of found)
    exact ⟨later,_,invoked,kept,data,found,.failed⟩

theorem told_serves (sound : Sound setup) (who : Id) (link : Link Process) (i : Nat) (held : Held (setup.site who) setup.model link)
    (known : Known setup i) : (setup.invoke who link i).isSome = true := by
  obtain ⟨later,out,invoked,_⟩ := invoke_told sound held known
  exact Option.isSome_iff_exists.mpr ⟨_,invoked⟩

variable [DecidableEq Id]

theorem served_promise (sound : Sound setup) (admits : Farm.Action Id → Prop) :
    Farm.Promise setup.service admits (Known setup) (fun who link => Held (setup.site who) setup.model link)
      (fun _ out => BatchClient.Served out) where
  start who link created := held_create created
  serve who link i later out held known served := by
    obtain ⟨other,said,invoked,kept,told⟩ := invoke_told sound held known
    cases (served.symm.trans invoked)
    exact ⟨kept,told_served told⟩
  harm who link _ held := held_dies held
  giveUp _ _ _ _ := .failed
  die _ _ _ _ := .failed

def Reached (setup : Setup Id) (admits : Farm.Action Id → Prop) : Sys Id → Sys Id → Prop := Farm.Reached setup.service admits

omit [DecidableEq Id] in
theorem known_threads (filled : setup.pool ≠ []) : ∀ i ∈ setup.threads.flatten, Known setup i := fun i _ => known_of_filled filled i

theorem fetched_served (filled : setup.pool ≠ []) (sound : Sound setup) {s : Sys Id} (path : Reached setup (fun _ => True) setup.start s) :
    ∀ out ∈ s.fetched.map Prod.snd, BatchClient.Served out := by
  have kept := Farm.reached_kept (served_promise sound fun _ => True) path (known_threads filled)
  intro out member
  obtain ⟨one,inside,rfl⟩ := List.mem_map.mp member
  exact kept.fetched one inside

theorem fetched_range (filled : setup.pool ≠ []) {admits : Farm.Action Id → Prop} {s : Sys Id} (path : Reached setup admits setup.start s)
    (finished : s.left = 0) : (s.fetched.map Prod.fst).Perm (List.range setup.count) ∧ s.fetched.length = setup.count := by
  have whole := (Farm.fetched_all path finished).trans (threads_perm filled)
  have sizes := whole.length_eq
  rw [List.length_map,List.length_range] at sizes
  exact ⟨whole,sizes⟩

end

section
variable {Id : Type} {setup : Setup Id} {site : Site} {process : Process} {model : String} {data : List UInt8}

-- A model has a stem and its classes, as long as nothing is unloaded.
theorem lived_stemmed (lived : Lived site model process) (stemmed : process.fields.stem = some name) :
    ∃ m, process.fields.model = some m := by
  obtain ⟨calls,had⟩ := lived
  have same := had.fields
  have strict : ∀ call ∈ calls, ∃ k, Asks site model k call := by
    intro call member
    obtain ⟨k,found⟩ := List.getElem?_of_mem member
    exact ⟨k,had.asks k call found⟩
  rw [same] at stemmed ⊢
  clear same had
  induction calls using List.reverseRecOn generalizing name with
  | nil => cases stemmed
  | append_singleton calls call ih =>
    rw [run_snoc] at stemmed ⊢
    have before := fun name (held : (run site.node .fresh calls).stem = some name) =>
      ih held fun other member => strict other (List.mem_append_left _ member)
    have loads : ∀ k name', call = .load (site.worlds k) name' false → ∃ m, (call.step site.node (run site.node .fresh calls)).1.model = some m := by
      rintro k name' rfl
      by_cases reaches : ∃ path m mode, Opens site.node (site.worlds k) name' false path m mode
      · obtain ⟨path,m,mode,opens⟩ := reaches
        have loaded := load_opens opens (run site.node .fresh calls)
        simp only [Call.step,loaded]
        cases classes site.node (site.worlds k) path m.outputShape.prod with
        | error raised => exact ⟨m,rfl⟩
        | ok names => exact ⟨m,rfl⟩
      · obtain ⟨raised,stops⟩ := load_stops reaches (run site.node .fresh calls)
        simp only [Call.step,stops] at stemmed ⊢
        exact before name stemmed
    obtain ⟨k,asks⟩ := strict call (by simp)
    cases asks with
    | ready _ | remap _ => exact loads k _ rfl
    | infer data => exact before name stemmed

-- Every model of that stem a load of the site can open is one model.
def Shares (site : Site) (model : String) (m : Model) (names : List String) : Prop :=
  ∀ k name path m' mode, Opens site.node (site.worlds k) name false path m' mode → stemPath path = HttpServer.stem model →
    m' = m ∧ classes site.node (site.worlds k) path m'.outputShape.prod = .ok names

theorem infer_shared (lived : Lived site model process) (stemmed : process.fields.stem = some (HttpServer.stem model))
    (shares : Shares site model m names) (sized : data.length = m.inputShape.prod)
    (forward : (m.forward data >>= fun logits => argmax logits) = .ok cls) :
    ∃ prediction, (site.chip.infer process (.bytes data)).2 = .ok prediction ∧ prediction.clsName = names.getD cls (toString cls) := by
  obtain ⟨m',mapped⟩ := lived_stemmed lived stemmed
  obtain ⟨calls,had⟩ := lived
  obtain ⟨k,name,path,mode,placed,own,size,named⟩ := had_placed had mapped
  obtain ⟨rfl,listed⟩ := shares k name path m' mode placed.opens (Option.some.inj (own.symm.trans stemmed))
  have inferred : (infer site.node (site.worlds process.calls) process.fields (.bytes data)).2 = _ := HttpServer.infer_mapped mapped ..
  refine ⟨⟨cls,names.getD cls (toString cls),(site.worlds process.calls).elapsedUs,site.node.host,site.node.device,
    site.node.product,process.fields.stem⟩,?_,rfl⟩
  show (infer site.node (site.worlds process.calls) process.fields (.bytes data)).2 = _
  rw [inferred]
  simp only [asBytes,Outcome.ok_bind]
  rw [if_pos (by rw [size,sized]),forward,named names listed]
  rfl

theorem answer_shared (asked : model ≠ "") (loads : Loads site model) (lived : Lived site model process) (shares : Shares site model m names)
    (sized : data.length = m.inputShape.prod) (forward : (m.forward data >>= fun logits => argmax logits) = .ok cls) :
    ∃ prediction : Prediction, (answer site.chip process model data).2 = .ok prediction.dict ∧ prediction.clsName = names.getD cls (toString cls) := by
  have accepted : ¬BatchWorker.Refused site.chip process model := not_refused_of_loads (.inr loads)
  have taken := BatchWorker.not_refused accepted
  obtain ⟨prediction,inferred,named⟩ := infer_shared (lived_remapped lived) (remapped_stem asked taken) shares sized forward
  refine ⟨prediction,?_,named⟩
  rw [answer_mapped taken]
  unfold inferOn
  dsimp only
  rw [inferred]
  rfl

theorem count_prediction (same : Value → Value → Bool) (tally : Tally) (prediction : Prediction) :
    ∃ next, countOutput same tally (.successful (dumps (.obj prediction.dict))) = .ok next ∧ next.done = tally.done+1 ∧
      next.errors = tally.errors ∧ next.perHost = tally.perHost.increment same (.str prediction.host) ∧
      next.classes = tally.classes.increment same (.str prediction.clsName) := by
  unfold countOutput countText
  dsimp only
  rw [loads_dumps (prediction_plain prediction)]
  exact ⟨_,rfl,rfl,rfl,rfl,rfl⟩

theorem count_predictions (same : Value → Value → Bool) (name : Nat → String) {outs : List (Nat × Output)}
    (each : ∀ out ∈ outs, ∃ prediction : Prediction, out.2 = .successful (dumps (.obj prediction.dict)) ∧ prediction.clsName = name out.1) :
    ∃ tally, (outs.map Prod.snd).foldlM (countOutput same) {} = .ok tally ∧ tally.errors = 0 ∧ tally.done = outs.length ∧
      tally.perHost.total = outs.length ∧ tally.classes = counts same ((outs.map fun out => name out.1).map .str) := by
  induction outs using List.reverseRecOn with
  | nil => exact ⟨{},rfl,rfl,rfl,rfl,rfl⟩
  | append_singleton outs out ih =>
    obtain ⟨tally,ran,errors,done,hosts,classes⟩ := ih fun other member => each other (List.mem_append_left _ member)
    obtain ⟨prediction,text,named⟩ := each out (by simp)
    obtain ⟨next,counted,more,kept,host,label⟩ := count_prediction same tally prediction
    refine ⟨next,?_,kept.trans errors,?_,?_,?_⟩
    · rw [List.map_append,List.foldlM_append,ran,List.map_singleton,text,Outcome.ok_bind,List.foldlM_cons,counted]
      rfl
    · rw [more,done,List.length_append]
      rfl
    · rw [host,BatchClient.Counter.total_increment,hosts,List.length_append]
      rfl
    · unfold counts at classes ⊢
      rw [label,classes,named,List.map_append,List.map_append,List.foldl_append]
      rfl

end

section
variable {Id : Type} {setup : Setup Id} {m : Model} {names : List String} {cls : List UInt8 → Nat}

-- Every site has the one model on its shelf, and it takes every input.
structure Agrees (setup : Setup Id) (m : Model) (names : List String) (cls : List UInt8 → Nat) : Prop where
  asked : setup.model ≠ ""
  loads : ∀ who, Loads (setup.site who) setup.model
  shares : ∀ who, Shares (setup.site who) setup.model m names
  sized : ∀ data ∈ setup.pool, data.length = m.inputShape.prod
  forward : ∀ data ∈ setup.pool, (m.forward data >>= fun logits => argmax logits) = .ok (cls data)

def label (names : List String) (cls : List UInt8 → Nat) (data : List UInt8) : String := names.getD (cls data) (toString (cls data))

def Labelled (setup : Setup Id) (names : List String) (cls : List UInt8 → Nat) (i : Nat) (out : Output) : Prop :=
  ∃ (data : List UInt8) (prediction : Prediction), setup.pool[i%setup.pool.length]? = some data ∧
    out = .successful (dumps (.obj prediction.dict)) ∧ prediction.clsName = label names cls data

-- No task is given up or lost, and no worker dies under its container.
def calm : Farm.Action Id → Prop
  | .giveUp _ | .harm _ | .die _ false => False
  | _ => True

theorem invoke_labelled (sound : Sound setup) (agrees : Agrees setup m names cls) {link : Link Process} {who : Id}
    (held : Held (setup.site who) setup.model link) (alive : link.alive = true) (known : Known setup i) :
    ∃ later out, setup.invoke who link i = some (later,out) ∧ (Held (setup.site who) setup.model later ∧ later.alive = true) ∧
      Labelled setup names cls i out := by
  obtain ⟨data,member,found⟩ := known
  obtain ⟨later,invoked,kept,up,_⟩ := invoke_alive held alive (input_of found) (sound who data member)
  obtain ⟨prediction,answered,named⟩ := answer_shared agrees.asked (agrees.loads who) held.lived (agrees.shares who)
    (agrees.sized data member) (agrees.forward data member)
  rw [answered] at invoked
  exact ⟨later,_,invoked,⟨kept,up⟩,data,prediction,found,rfl,named⟩

variable [DecidableEq Id]

theorem labelled_promise (sound : Sound setup) (agrees : Agrees setup m names cls) :
    Farm.Promise setup.service calm (Known setup) (fun who link => Held (setup.site who) setup.model link ∧ link.alive = true)
      (Labelled setup names cls) where
  start who link created := by
    refine ⟨held_create created,?_⟩
    obtain ⟨process,_,rfl⟩ := Option.map_eq_some_iff.mp created
    rfl
  serve who link i later out held known served := by
    obtain ⟨other,said,invoked,kept,labelled⟩ := invoke_labelled sound agrees held.1 held.2 known
    cases (served.symm.trans invoked)
    exact ⟨kept,labelled⟩
  harm who link admitted := admitted.elim
  giveUp place i admitted := admitted.elim
  die place i admitted := admitted.elim

theorem histogram_pool {same : Value → Value → Bool} (texts : ∀ a b : String, same (.str a) (.str b) = (a == b))
    (filled : setup.pool ≠ []) (sound : Sound setup) (agrees : Agrees setup m names cls) {s : Sys Id}
    (path : Reached setup calm setup.start s) (finished : s.left = 0) :
    ∃ tally, books same s = .ok tally ∧ tally.done = setup.count ∧ tally.errors = 0 ∧ tally.perHost.total = setup.count ∧
      ∀ name, let called := (List.range setup.count).map fun i => label names cls (setup.pool.getD (i%setup.pool.length) [])
        countOf same tally.classes name = if name ∈ called then some (called.count name) else none := by
  have kept := Farm.reached_kept (labelled_promise sound agrees) path (known_threads filled)
  obtain ⟨whole,size⟩ := fetched_range filled path finished
  have each : ∀ out ∈ s.fetched, ∃ prediction : Prediction, out.2 = .successful (dumps (.obj prediction.dict)) ∧
      prediction.clsName = label names cls (setup.pool.getD (out.1%setup.pool.length) []) := by
    intro out member
    obtain ⟨data,prediction,found,text,named⟩ := kept.fetched out member
    refine ⟨prediction,text,?_⟩
    rw [List.getD_eq_getElem?_getD,found]
    exact named
  obtain ⟨tally,ran,errors,done,hosts,classes⟩ := count_predictions same (fun i => label names cls (setup.pool.getD (i%setup.pool.length) [])) each
  refine ⟨tally,ran,done.trans size,errors,hosts.trans size,fun name => ?_⟩
  have called : ((s.fetched.map fun out => label names cls (setup.pool.getD (out.1%setup.pool.length) []))).Perm
      ((List.range setup.count).map fun i => label names cls (setup.pool.getD (i%setup.pool.length) [])) := by
    have mapped := whole.map fun i => label names cls (setup.pool.getD (i%setup.pool.length) [])
    rwa [List.map_map] at mapped
  rw [classes,BatchClient.counts_texts texts,called.count_eq]
  simp only [called.mem_iff]

end

-- Two sites with one shelf, the second without a shared buffer.
def yardSite (buffered : Bool) : Site :=
  ⟨BatchWorker.whole,shelfNode,fun _ => RoundRobin.yardWorld,true,"",if buffered then some 4 else none,true⟩

def yard (pool : List (List UInt8)) : Setup Bool := ⟨"pairs",pool,3,2,yardSite⟩

theorem yard_loads (site : Bool) : Loads (yardSite site) "pairs" := by
  intro k
  refine ⟨"/models/pairs.fbz".toList,RoundRobin.yardModel,"AllNps",["0","1"],?_,RoundRobin.yard_classes _ _⟩
  exact ⟨rfl,show RoundRobin.yardWorld.isfile "/models/pairs.fbz".toList = true by decide,rfl,rfl,.inl rfl⟩

theorem yard_sound {pool : List (List UInt8)} (pairs : ∀ data ∈ pool, data.length = 2) : Sound (yard pool) := by
  intro site data member
  have two : data.length = ([0,0] : List UInt8).length := pairs data member
  have spoken : Spoken (yardSite site).shm (BatchWorker.named "pairs") (some data) := by
    have same : wireHeader (yardSite site).shm (BatchWorker.named "pairs") (some data) =
        wireHeader (yardSite site).shm (BatchWorker.named "pairs") (some [0,0]) := by
      simp only [wireHeader,two]
    cases site <;> exact ⟨by rw [same]; decide +kernel,by rw [same]; decide +kernel⟩
  cases site with
  | false => exact ⟨spoken,.piped rfl (by rw [two]; decide) (.inr (yard_loads false))⟩
  | true => exact ⟨spoken,.shared (by simp [yard,yardSite,BatchWorker.Inline,two]) rfl⟩

section
variable {Id : Type} [DecidableEq Id] {setup : Setup Id}

-- A run of the yard in which every task comes back.
theorem yard_ends {pool : List (List UInt8)} (filled : (yard pool).pool ≠ []) (pairs : ∀ data ∈ pool, data.length = 2)
    (admits : Farm.Action Bool → Prop) (works : ∀ action : Farm.Action Bool, action.works = true → admits action)
    (creates : admits (.create true)) :
    ∃ s, Reached (yard pool) admits (yard pool).start s ∧ s.left = 0 := by
  have sound := yard_sound pairs
  exact Farm.completes (served_promise sound admits) (known_threads filled) (told_serves sound)
    (show ((yardSite true).create).isSome = true by rfl) works creates .refl

-- Whatever the threads, the instances and the manager do, no task is lost or
-- doubled, and what main counts of a task is a failure, or what the instance that
-- served it said: an error, or the class that the model it had mapped on its chip
-- gives the task's own bytes.
theorem batch_replies (filled : setup.pool ≠ []) (sound : Sound setup) {s : Sys Id} (path : Reached setup (fun _ => True) setup.start s) :
    s.tasks = (List.range setup.count : Multiset Nat) ∧
    (∀ out ∈ s.outs ++ s.fetched, ∃ data, setup.pool[out.1%setup.pool.length]? = some data ∧ (out.2 = .failed ∨ ∃ who link later,
      Farm.Served setup.service (fun _ => True) setup.start s who link later out.1 out.2 ∧
      Tells (setup.site who) setup.model data later.state out.2)) ∧
    ∀ same, ∃ tally, books same s = .ok tally ∧ tally.done = s.fetched.length ∧ tally.errors+tally.perHost.total = tally.done ∧
      tally.classes.total = tally.perHost.total := by
  refine ⟨?_,?_,fun same => ?_⟩
  · exact (Farm.reached_tasks path).trans (Multiset.coe_eq_coe.mpr (threads_perm filled))
  · intro out member
    have known := known_of_filled filled out.1
    rcases Farm.reached_outs path member with failed | ⟨who,link,later,served⟩
    · obtain ⟨data,_,found⟩ := known
      exact ⟨data,found,.inl failed⟩
    · obtain ⟨before,held,up,answered,taken,after⟩ := served
      have kept := Farm.reached_kept (served_promise sound fun _ => True) before (known_threads filled)
      obtain ⟨other,one,invoked,_,data,found,tells⟩ := invoke_told sound (kept.up who link up) known
      cases (answered.symm.trans invoked)
      exact ⟨data,found,.inr ⟨who,link,later,⟨before,held,up,answered,taken,after⟩,tells⟩⟩
  · have served := fetched_served filled sound path
    have empty : BatchClient.Balanced {} := ⟨rfl,rfl⟩
    obtain ⟨tally,ran,balanced,done⟩ := BatchClient.batch_balanced same empty served
    refine ⟨tally,ran,?_,balanced.outputs,balanced.classes⟩
    rw [done,List.length_map]
    exact Nat.zero_add _

theorem batch_replies_yard : ∃ s, Reached (yard [[1,9],[5,2]]) (fun _ => True) (yard [[1,9],[5,2]]).start s ∧
    (s.fetched.map Prod.fst).Perm [0,1,2] ∧
    ∀ out ∈ s.fetched, ∃ data, [[1,9],[5,2]][out.1%2]? = some data ∧ (out.2 = .failed ∨ ∃ who link later,
      Farm.Served (yard [[1,9],[5,2]]).service (fun _ => True) (yard [[1,9],[5,2]]).start s who link later out.1 out.2 ∧
      Tells (yardSite who) "pairs" data later.state out.2) := by
  have filled : (yard [[1,9],[5,2]]).pool ≠ [] := by simp [yard]
  have pairs : ∀ data ∈ ([[1,9],[5,2]] : List (List UInt8)), data.length = 2 := by simp
  obtain ⟨s,path,finished⟩ := yard_ends filled pairs (fun _ => True) (fun _ _ => trivial) trivial
  have replies := (batch_replies filled (yard_sound pairs) path).2.1
  refine ⟨s,path,?_,fun out member => replies out (List.mem_append_right _ member)⟩
  exact (fetched_range filled path finished).1

end

theorem pool_rows {npz : SampleSets.Npz} {metas : SampleSets.Models} {samples out : SampleSets.Samples} {model : Option String} {set : String}
    {side : SampleSets.Sidecar} (axes : npz.frames.shape = available :: rest)
    (accepted : SampleSets.convert npz model set metas out = .ok samples) (held : samples.side set = some side) (some_ : 0 < available)
    (count : Nat) (randbelow : Nat → Nat) (getrandbits : Nat → UInt8) :
    ∃ order : List Nat, order.Perm (List.range available) ∧ (SampleSets.buildPool samples (some (set,side)) rest.prod count randbelow getrandbits).1 =
      (order.take (max 1 (min available count))).map npz.frames.row := by
  obtain ⟨other,written,described⟩ := SampleSets.convert_stores axes accepted
  have stored : samples.bin set = some (SampleSets.written npz.frames available) := by rw [written]; exact if_pos rfl
  obtain rfl : other = side := by
    rw [written] at held
    exact Option.some.inj ((if_pos rfl).symm.trans held)
  have size : (max 1 (min (available : Int) count)).toNat = max 1 (min available count) := by omega
  rw [← size]
  exact ScanData.pool_stored axes stored described some_ count randbelow getrandbits

section
variable {Id : Type} [DecidableEq Id] {setup : Setup Id} {m : Model} {names : List String} {cls : List UInt8 → Nat}

-- From the dataset's array to the client's histogram: the names counted are
-- those of the rows drawn, and of every row once where the batch is the set.
theorem batch_histogram {npz : SampleSets.Npz} {metas : SampleSets.Models} {samples out : SampleSets.Samples} {model : Option String} {set : String}
    {side : SampleSets.Sidecar} {randbelow : Nat → Nat} {getrandbits : Nat → UInt8} {same : Value → Value → Bool}
    (axes : npz.frames.shape = available :: rest) (accepted : SampleSets.convert npz model set metas out = .ok samples)
    (held : samples.side set = some side) (some_ : 0 < available)
    (pool : setup.pool = (SampleSets.buildPool samples (some (set,side)) rest.prod setup.count randbelow getrandbits).1)
    (texts : ∀ a b : String, same (.str a) (.str b) = (a == b)) (sound : Sound setup) (agrees : Agrees setup m names cls)
    {s : Sys Id} (path : Reached setup calm setup.start s) (finished : s.left = 0) :
    ∃ (order : List Nat) (tally : Tally), order.Perm (List.range available) ∧ books same s = .ok tally ∧ tally.done = setup.count ∧ tally.errors = 0 ∧
      tally.perHost.total = setup.count ∧
      (∀ name, let called := (List.range setup.count).map fun i =>
          label names cls (npz.frames.row (order.getD (i%max 1 (min available setup.count)) 0))
        countOf same tally.classes name = if name ∈ called then some (called.count name) else none) ∧
      (setup.count = available → ∀ name, let called := (List.range available).map fun i => label names cls (npz.frames.row i)
        countOf same tally.classes name = if name ∈ called then some (called.count name) else none) := by
  obtain ⟨order,drawn,rows⟩ := pool_rows axes accepted held some_ setup.count randbelow getrandbits
  rw [← pool] at rows
  have whole : order.length = available := by rw [drawn.length_eq,List.length_range]
  have size : setup.pool.length = max 1 (min available setup.count) := by
    rw [rows,List.length_map,List.length_take,whole]
    omega
  have filled : setup.pool ≠ [] := List.length_pos_iff.mp (by omega)
  obtain ⟨tally,ran,done,errors,hosts,classes⟩ := histogram_pool texts filled sound agrees path finished
  have each : ∀ i, setup.pool.getD (i%setup.pool.length) [] = npz.frames.row (order.getD (i%max 1 (min available setup.count)) 0) := by
    intro i
    have below := Nat.mod_lt i (List.length_pos_iff.mpr filled)
    rw [size] at below ⊢
    have inside : i%max 1 (min available setup.count) < order.length := by omega
    rw [rows,List.getD_eq_getElem?_getD,List.getElem?_map,List.getElem?_take_of_lt below,List.getD_eq_getElem?_getD,
      List.getElem?_eq_getElem inside]
    rfl
  have called : (List.range setup.count).map (fun i => label names cls (setup.pool.getD (i%setup.pool.length) [])) =
      (List.range setup.count).map fun i => label names cls (npz.frames.row (order.getD (i%max 1 (min available setup.count)) 0)) :=
    List.map_congr_left fun i _ => congrArg (label names cls) (each i)
  dsimp only at classes
  rw [called] at classes
  refine ⟨order,tally,drawn,ran,done,errors,hosts,classes,fun all name => ?_⟩
  -- The whole set: the rows drawn are the order itself.
  have drawn_all : ((List.range setup.count).map fun i =>
      label names cls (npz.frames.row (order.getD (i%max 1 (min available setup.count)) 0))).Perm
      ((List.range available).map fun i => label names cls (npz.frames.row i)) := by
    refine List.Perm.trans (.of_eq ?_) (drawn.map fun i => label names cls (npz.frames.row i))
    refine List.ext_getElem (by simp [whole,all]) fun i left right => ?_
    have below : i < setup.count := by simpa using left
    have inside : i < order.length := by omega
    have first : i%max 1 (min available setup.count) = i := Nat.mod_eq_of_lt (by omega)
    simp only [List.getElem_map,List.getElem_range,first]
    rw [List.getD_eq_getElem?_getD,List.getElem?_eq_getElem inside]
    rfl
  dsimp only
  rw [classes name,drawn_all.count_eq]
  simp only [drawn_all.mem_iff]

end

def yardSide : SampleSets.Sidecar := ⟨"swaps","pairs",3,2,[2],none,none,"/data/swaps.npz",false,false⟩

def yardPool : List (List UInt8) :=
  (SampleSets.buildPool RoundRobin.yardSamples (some ("swaps",yardSide)) [2].prod 3 (fun _ => 0) (fun _ => 0)).1

def yardClass (data : List UInt8) : Nat := ((RoundRobin.yardModel.forward data >>= fun logits => argmax logits).toOption).getD 0

theorem yard_held : RoundRobin.yardSamples.side "swaps" = some yardSide := rfl

theorem yard_pairs : ∀ data ∈ yardPool, data.length = 2 := by
  obtain ⟨order,_,rows⟩ := pool_rows RoundRobin.yard_axes RoundRobin.yard_accepted yard_held (by decide) 3 (fun _ => 0) (fun _ => 0)
  intro data member
  have drawn : data ∈ (order.take (max 1 (min 3 3))).map RoundRobin.yardNpz.frames.row := rows ▸ member
  obtain ⟨i,_,rfl⟩ := List.mem_map.mp drawn
  rw [Strided.row_length,RoundRobin.yard_axes]
  rfl

theorem yard_agrees : Agrees (yard yardPool) RoundRobin.yardModel ["0","1"] yardClass where
  asked := by decide
  loads := yard_loads
  shares site k name path m' mode opens _ := by
    have same : RoundRobin.yardModel = m' := Except.ok.inj opens.built
    subst same
    exact ⟨rfl,RoundRobin.yard_classes path 2⟩
  sized := yard_pairs
  forward data member := by
    have two := yard_pairs data member
    have read : RoundRobin.yardModel.forward data = .ok (data.map fun byte => (byte.toNat : Int)) := rfl
    unfold yardClass
    rw [read]
    simp only [Outcome.ok_bind]
    unfold argmax
    cases top : (data.map fun byte => (byte.toNat : Int)).max? with
    | some value => rfl
    | none =>
      have empty := congrArg List.length (List.max?_eq_none_iff.mp top)
      rw [List.length_map,two] at empty
      cases empty

theorem batch_histogram_yard : ∃ s tally, Reached (yard yardPool) calm (yard yardPool).start s ∧
    books sameText s = .ok tally ∧ tally.errors = 0 ∧ countOf sameText tally.classes "1" = some 2 ∧
    countOf sameText tally.classes "0" = some 1 ∧ countOf sameText tally.classes "2" = none := by
  have works : ∀ action : Farm.Action Bool, action.works = true → calm action := by
    intro action working
    cases action with
    | send _ | take _ _ | serve _ | fetch _ => trivial
    | create _ | giveUp _ | stop _ | die _ _ | harm _ => cases working
  have filled : (yard yardPool).pool ≠ [] := by decide
  have texts : ∀ a b : String, sameText (.str a) (.str b) = (a == b) := fun _ _ => rfl
  obtain ⟨s,path,finished⟩ := yard_ends filled yard_pairs calm works trivial
  obtain ⟨order,tally,_,ran,_,errors,_,_,all⟩ := batch_histogram RoundRobin.yard_axes RoundRobin.yard_accepted yard_held (by decide)
    (show (yard yardPool).pool = (SampleSets.buildPool RoundRobin.yardSamples (some ("swaps",yardSide)) [2].prod (yard yardPool).count
      (fun _ => 0) (fun _ => 0)).1 from rfl) texts (yard_sound yard_pairs) yard_agrees path finished
  exact ⟨s,tally,path,ran,errors,all rfl "1",all rfl "0",all rfl "2"⟩

section
variable {Id : Type} [DecidableEq Id] {setup : Setup Id}

-- A run takes at most four steps a task, one more for each task that has to be
-- done again; no state is stuck as long as an instance can come up, and where
-- nothing is left main's loop ends, however its outputs came in batches.
theorem batch_ends (filled : setup.pool ≠ []) (sound : Sound setup) {who : Id} (starts : (setup.site who).create.isSome = true) :
    (∀ actions s, Runs.run (Farm.Sys.step setup.service) setup.start actions = some s →
      s.left+(actions.map Farm.Action.effort).sum ≤ 4*setup.count+(actions.map Farm.Action.undoes).sum) ∧
    (∀ s, Reached setup (fun _ => True) setup.start s → 0 < s.left →
      (∃ action : Farm.Action Id, action.works = true ∧ (s.step setup.service action).isSome = true) ∨
        ∃ next, s.step setup.service (.create who) = some next ∧ (next.step setup.service (.take 0 who)).isSome = true) ∧
    ∀ s, Reached setup (fun _ => True) setup.start s → s.left = 0 → (s.fetched.map Prod.fst).Perm (List.range setup.count) ∧
      ∀ same batches, batches.flatten = s.fetched.map Prod.snd →
        ∃ tally, fetchLoop same setup.count {} batches = .ok (some tally) ∧ tally.done = setup.count := by
  refine ⟨?_,?_,?_⟩
  · intro actions s ran
    have size : setup.start.left = 4*setup.count := by
      have sent := (threads_perm filled).length_eq
      rw [List.length_range] at sent
      simp [Setup.start,Farm.Sys.start,Farm.Sys.left,sent]
    rw [← size]
    exact Farm.run_left ran
  · intro s path left
    have known : ∀ i ∈ s.tasks, Known setup i := fun i _ => known_of_filled filled i
    have kept := Farm.reached_kept (served_promise sound fun _ => True) path (known_threads filled)
    exact Farm.goes (Farm.reached_placed path) kept known (told_serves sound) starts left
  · intro s path finished
    obtain ⟨whole,all⟩ := fetched_range filled path finished
    refine ⟨whole,fun same batches split => ?_⟩
    have served : ∀ out ∈ batches.flatten, BatchClient.Served out := by
      rw [split]
      exact fetched_served filled sound path
    have size : batches.flatten.length = setup.count := by rw [split,List.length_map,all]
    have empty : BatchClient.Balanced {} := ⟨rfl,rfl⟩
    obtain ⟨tally,ran,_,done⟩ := BatchClient.fetchLoop_balanced same empty served (by simpa using size)
    exact ⟨tally,ran,done⟩

theorem batch_ends_yard : ∃ s, Reached (yard yardPool) (fun _ => True) (yard yardPool).start s ∧
    ∃ tally, fetchLoop sameText 3 {} [s.fetched.map Prod.snd] = .ok (some tally) ∧ tally.done = 3 := by
  have filled : (yard yardPool).pool ≠ [] := by decide
  obtain ⟨s,path,finished⟩ := yard_ends filled yard_pairs (fun _ => True) (fun _ _ => trivial) trivial
  have ends := (batch_ends filled (yard_sound yard_pairs) (show (yardSite true).create.isSome = true from rfl)).2.2
  exact ⟨s,path,(ends s path finished).2 _ [s.fetched.map Prod.snd] (by simp)⟩

end

end SymphonyAkida.BatchSystem
