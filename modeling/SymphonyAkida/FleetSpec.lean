import SymphonyAkida.Fleet
import SymphonyAkida.Library.Order

namespace SymphonyAkida.Fleet
open Regex (Match results matchStart mem_plus_seq mem_text_seq mem_group_seq mem_eol_end)

structure Names (digits : Digits) (name host : List Char) (kind pid tail : List Char) : Prop where
  split : name = kind ++ '-' :: (host ++ '-' :: (pid ++ (".log".toList ++ tail)))
  kinds : kind ≠ [] ∧ ∀ c ∈ kind, lower c = true
  hosts : host ≠ [] ∧ ∀ c ∈ host, c ≠ '\n'
  pids : pid ≠ [] ∧ ∀ c ∈ pid, digits.decimal c = true
  ends : tail = [] ∨ tail = ['\n']

def Belongs (digits : Digits) (path host : String) : Prop :=
  ∃ kind pid tail, Names digits (BatchWorker.basename path).toList host.toList kind pid tail

theorem split_first {a b c d : List Char} (same : a ++ '-' :: b = c ++ '-' :: d) (left : '-' ∉ a) (right : '-' ∉ c) :
    a = c ∧ b = d := by
  rcases List.append_eq_append_iff.mp same with ⟨more,early,late⟩ | ⟨more,early,late⟩
  · cases more with
    | nil => exact ⟨by simpa using early.symm,(List.cons.inj late).2⟩
    | cons x more =>
      obtain ⟨rfl,_⟩ := List.cons.inj late
      exact absurd (by rw [early]; simp) right
  · cases more with
    | nil => exact ⟨by simpa using early,(List.cons.inj late).2.symm⟩
    | cons x more =>
      obtain ⟨rfl,_⟩ := List.cons.inj late
      exact absurd (by rw [early]; simp) left

theorem split_last {a b c d : List Char} (same : a ++ '-' :: b = c ++ '-' :: d) (left : '-' ∉ b) (right : '-' ∉ d) : a = c := by
  have turned : b.reverse ++ '-' :: a.reverse = d.reverse ++ '-' :: c.reverse := by
    have reversed := congrArg List.reverse same
    simpa using reversed
  have parts := split_first turned (by simpa using left) (by simpa using right)
  exact List.reverse_injective parts.2

variable {digits : Digits}

theorem decimal_dash : digits.decimal '-' = false := digits.ascii '-' (by decide)

-- One host a name: kinds and pids hold no dash.
theorem Names.unique (one : Names digits name host kind pid tail) (two : Names digits name host' kind' pid' tail') : host = host' := by
  have noKind : ∀ kind : List Char, (∀ c ∈ kind, lower c = true) → '-' ∉ kind := by
    intro kind all member
    have dash := all '-' member
    exact absurd dash (by decide)
  have noPid : ∀ pid tail : List Char, (∀ c ∈ pid, digits.decimal c = true) → (tail = [] ∨ tail = ['\n']) →
      '-' ∉ pid ++ (".log".toList ++ tail) := by
    intro pid tail all ends member
    rcases List.mem_append.mp member with early | late
    · have dash := all '-' early
      rw [decimal_dash] at dash
      cases dash
    · rcases ends with rfl | rfl
      · exact absurd late (by decide)
      · exact absurd late (by decide)
  have same := one.split.symm.trans two.split
  obtain ⟨_,after⟩ := split_first same (noKind kind one.kinds.2) (noKind kind' two.kinds.2)
  exact split_last after (noPid pid tail one.pids.2 one.ends) (noPid pid' tail' two.pids.2 two.ends)

theorem mem_logHostRe {name : List Char} (m : Match) : m ∈ results (logHostRe digits) name ↔
    ∃ host kind pid, Names digits name host kind pid m.rest ∧ m.groups = [(1,host)] := by
  constructor
  · intro member
    obtain ⟨kind,_,rfl,kinds,dash⟩ := mem_plus_seq.mp member
    obtain ⟨_,rfl,name⟩ := mem_text_seq.mp dash
    obtain ⟨host,_,rfl,hosts,inner,dash',rfl⟩ := mem_group_seq.mp name
    obtain ⟨_,rfl,number⟩ := mem_text_seq.mp dash'
    obtain ⟨pid,_,rfl,pids,log⟩ := mem_plus_seq.mp number
    obtain ⟨tail,rfl,last⟩ := mem_text_seq.mp log
    obtain ⟨rfl,ends⟩ := mem_eol_end.mp last
    refine ⟨host,kind,pid,⟨rfl,kinds,⟨hosts.1,?_⟩,pids,ends⟩,rfl⟩
    intro c inside
    exact of_decide_eq_true (hosts.2 c inside)
  · intro found
    obtain ⟨host,kind,pid,names,held⟩ := found
    obtain ⟨split,kinds,hosts,pids,ends⟩ := names
    obtain ⟨groups,tail⟩ := m
    cases held
    rw [split]
    apply mem_plus_seq.mpr ⟨kind,_,rfl,kinds,?_⟩
    apply mem_text_seq.mpr ⟨_,rfl,?_⟩
    apply mem_group_seq.mpr ⟨host,_,rfl,⟨hosts.1,?_⟩,⟨[],tail⟩,?_,rfl⟩
    · intro c inside
      exact decide_eq_true (hosts.2 c inside)
    · apply mem_text_seq.mpr ⟨_,rfl,?_⟩
      apply mem_plus_seq.mpr ⟨pid,_,rfl,pids,?_⟩
      apply mem_text_seq.mpr ⟨tail,rfl,?_⟩
      exact mem_eol_end.mpr ⟨rfl,ends⟩

theorem logHost_iff {path host : String} : logHost digits path = some host ↔ Belongs digits path host := by
  unfold logHost Belongs matchStart
  cases tried : results (logHostRe digits) (BatchWorker.basename path).toList with
  | nil =>
    constructor
    · intro found
      cases found
    · intro found
      obtain ⟨kind,pid,tail,names⟩ := found
      have member := (mem_logHostRe ⟨[(1,host.toList)],tail⟩).mpr ⟨host.toList,kind,pid,names,rfl⟩
      rw [tried] at member
      cases member
  | cons first rest =>
    have member : first ∈ results (logHostRe digits) (BatchWorker.basename path).toList := by
      rw [tried]
      exact List.mem_cons_self
    obtain ⟨taken,kind,pid,names,groups⟩ := (mem_logHostRe first).mp member
    have given : (((first :: rest).head?.bind (·.group 1)).map String.ofList) = some (String.ofList taken) := by
      rw [List.head?_cons,Option.bind_some,Match.group,groups]
      rfl
    rw [given]
    constructor
    · intro same
      rw [← Option.some.inj same,String.toList_ofList]
      exact ⟨kind,pid,first.rest,names⟩
    · intro found
      obtain ⟨kind',pid',tail,other⟩ := found
      rw [names.unique other,String.ofList_toList]

theorem hostOf_iff {path host : String} : hostOf digits path = some host ↔ Belongs digits path host := by
  rw [hostOf,Option.filter_eq_some_iff,logHost_iff]
  constructor
  · intro held
    exact held.1
  · intro belongs
    refine ⟨belongs,decide_eq_true ?_⟩
    obtain ⟨_,_,_,names⟩ := belongs
    intro empty
    rw [empty] at names
    exact names.hosts.1 rfl

variable {files : Files}

def entriesAt (digits : Digits) (files : Files) (host path : String) : List Entry :=
  if hostOf digits path = some host then ((files.getmtime path).map (·,path)).toList else []

theorem mem_entriesAt : e ∈ entriesAt digits files host path ↔
    Belongs digits path host ∧ files.getmtime path = some e.1 ∧ e.2 = path := by
  obtain ⟨time,other⟩ := e
  unfold entriesAt
  rw [← hostOf_iff]
  split
  · rename_i belongs
    rw [Option.mem_toList,Option.map_eq_some_iff]
    constructor
    · intro found
      obtain ⟨t,same,pair⟩ := found
      cases pair
      exact ⟨belongs,same,rfl⟩
    · intro held
      obtain ⟨_,same,rfl⟩ := held
      exact ⟨time,same,rfl⟩
  · rename_i other
    constructor
    · intro none
      cases none
    · intro held
      exact absurd held.1 other

theorem note_entries (byHost : List (String × List Entry)) (path host : String) :
    ((note digits files byHost path).lookup host).getD [] = (byHost.lookup host).getD [] ++ entriesAt digits files host path := by
  unfold note entriesAt
  cases found : hostOf digits path with
  | none => simp
  | some other =>
    dsimp only
    rw [Assoc.lookup_alter]
    by_cases same : host = other
    · rw [if_pos same,if_pos (congrArg some same.symm)]
      rfl
    · rw [if_neg same,if_neg fun equal => same (Option.some.inj equal).symm,List.append_nil]

theorem notes_entries (digits : Digits) (files : Files) (listing : List String) (byHost : List (String × List Entry)) (host : String) :
    ((listing.foldl (note digits files) byHost).lookup host).getD [] =
      (byHost.lookup host).getD [] ++ listing.flatMap (entriesAt digits files host) := by
  induction listing generalizing byHost with
  | nil => simp
  | cons path rest ih => rw [List.foldl_cons,ih,note_entries,List.flatMap_cons,List.append_assoc]

theorem notes_nodup (digits : Digits) (files : Files) (listing : List String) {byHost : List (String × List Entry)} (distinct : (byHost.map (·.1)).Nodup) :
    ((listing.foldl (note digits files) byHost).map (·.1)).Nodup := by
  induction listing generalizing byHost with
  | nil => exact distinct
  | cons path rest ih =>
    rw [List.foldl_cons]
    apply ih
    unfold note
    split
    · exact distinct
    · exact Assoc.nodup_alter distinct _ _

theorem workers_lookup (known : logSpecs.lookup app = some (pattern,marker)) (host : String) :
    (workers digits files sharedDir app).lookup host =
      inspect digits files marker.toList ((files.glob (join sharedDir pattern)).flatMap (entriesAt digits files host)) := by
  have own := notes_entries digits files (files.glob (join sharedDir pattern)) [] host
  have empty : (([] : List (String × List Entry)).map (·.1)).Nodup := List.nodup_nil
  have distinct := notes_nodup digits files (files.glob (join sharedDir pattern)) empty
  unfold workers
  rw [known]
  dsimp only
  rw [Assoc.lookup_collect _ distinct,List.lookup_nil,Option.or_none]
  rw [List.lookup_nil,Option.getD_none,List.nil_append] at own
  rw [← own]
  cases (List.foldl (note digits files) [] (files.glob (join sharedDir pattern))).lookup host with
  | none => rfl
  | some entries => rfl

def readable (files : Files) (e : Entry) : Bool := (head files e.2).isSome

def marked (files : Files) (marker : List Char) (e : Entry) : Bool := (head files e.2).any fun text => marker <:+: text

-- The scan stops at the first log with the marker, else it keeps the first readable one.
theorem scan_spec (marker : List Char) (entries : List Entry) (chosen : Option (List Char)) :
    scan files marker entries chosen =
      match entries.find? (marked files marker) with
      | some e => (head files e.2,true)
      | none => (chosen.or ((entries.find? (readable files)).bind fun e => head files e.2),false) := by
  induction entries generalizing chosen with
  | nil => simp [scan]
  | cons e rest ih =>
    obtain ⟨time,path⟩ := e
    unfold scan
    rw [List.find?_cons,List.find?_cons]
    cases text : head files path with
    | none =>
      have unread : readable files (time,path) = false := by
        rw [readable,text]
        rfl
      have unmarked : marked files marker (time,path) = false := by
        rw [marked,text]
        rfl
      rw [unread,unmarked,ih]
    | some text' =>
      have read : readable files (time,path) = true := by
        rw [readable,text]
        rfl
      have same : marked files marker (time,path) = decide (marker <:+: text') := by
        rw [marked,text]
        rfl
      rw [read,same]
      by_cases live : marker <:+: text'
      · simp [live,text]
      · simp only [live,if_false,decide_false,ih,Option.bind_some,text]
        cases chosen <;> rfl

theorem mem_newestFirst {entries : List Entry} : e ∈ newestFirst entries ↔ e ∈ entries :=
  (List.perm_insertionSort _ _).mem_iff

theorem newestFirst_found {p : Entry → Bool} (found : (newestFirst entries).find? p = some e) :
    e ∈ entries ∧ p e = true ∧ ∀ f ∈ entries, p f = true → toLex f ≤ toLex e := by
  have sorted : (newestFirst entries).Pairwise fun a b => toLex b ≤ toLex a :=
    @List.pairwise_insertionSort _ _ _ ⟨fun a b => le_total (toLex b) (toLex a)⟩ ⟨fun _ _ _ first second => le_trans second first⟩ entries
  obtain ⟨before,after,split,holds,others⟩ := Stable.find_rest found
  refine ⟨mem_newestFirst.mp (List.mem_of_find?_eq_some found),holds,?_⟩
  intro f member chosen
  rw [split] at sorted
  rcases others f (mem_newestFirst.mpr member) chosen with same | later
  · exact le_of_eq (congrArg toLex same)
  · exact (List.pairwise_cons.mp (List.pairwise_append.mp sorted).2.1).1 f later

structure Log (digits : Digits) (files : Files) (host path : String) (time : ℚ) (text : List Char) : Prop where
  belongs : Belongs digits path host
  mtime : files.getmtime path = some time
  reads : head files path = some text

structure Reports (digits : Digits) (files : Files) (listing : List String) (marker : List Char) (host : String) (info : Info) : Prop where
  ready : info.ready = true ↔ ∃ path ∈ listing, ∃ time text, Log digits files host path time text ∧ marker <:+: text
  newest : ∃ path ∈ listing, ∃ time text, Log digits files host path time text ∧ (info.ready = true → marker <:+: text) ∧
    info = describe digits info.ready text ∧
    ∀ other ∈ listing, ∀ time' text', Log digits files host other time' text' → (info.ready = true → marker <:+: text') →
      toLex (time',other) ≤ toLex (time,path)

theorem mem_entries {listing : List String} : e ∈ listing.flatMap (entriesAt digits files host) ↔
    e.2 ∈ listing ∧ Belongs digits e.2 host ∧ files.getmtime e.2 = some e.1 := by
  rw [List.mem_flatMap]
  constructor
  · intro found
    obtain ⟨path,member,inside⟩ := found
    obtain ⟨belongs,time,rfl⟩ := mem_entriesAt.mp inside
    exact ⟨member,belongs,time⟩
  · intro held
    exact ⟨e.2,held.1,mem_entriesAt.mpr ⟨held.2.1,held.2.2,rfl⟩⟩

theorem Log.entry {listing : List String} (log : Log digits files host path time text) (member : path ∈ listing) :
    (time,path) ∈ listing.flatMap (entriesAt digits files host) :=
  mem_entries.mpr ⟨member,log.belongs,log.mtime⟩

theorem Log.readable (log : Log digits files host path time text) : readable files (time,path) = true := by
  rw [Fleet.readable,log.reads]
  rfl

theorem Log.marked (log : Log digits files host path time text) : marked files marker (time,path) = true ↔ marker <:+: text := by
  rw [Fleet.marked,log.reads]
  exact decide_eq_true_iff

theorem inspect_marked {marker : List Char} (live : (newestFirst entries).find? (marked files marker) = some e)
    (reads : head files e.2 = some text) : inspect digits files marker entries = some (describe digits true text) := by
  rw [inspect,scan_spec,live]
  dsimp only
  rw [reads]

theorem inspect_fallback {marker : List Char} (dead : (newestFirst entries).find? (marked files marker) = none) :
    inspect digits files marker entries =
      (((newestFirst entries).find? (readable files)).bind fun e => head files e.2).map (describe digits false) := by
  rw [inspect,scan_spec,dead,Option.none_or]
  dsimp only
  cases ((newestFirst entries).find? (readable files)).bind fun e => head files e.2 <;> rfl

theorem inspect_none {listing : List String} {marker : List Char}
    (silent : inspect digits files marker (listing.flatMap (entriesAt digits files host)) = none)
    (member : path ∈ listing) : ¬Log digits files host path time text := by
  intro log
  cases live : (newestFirst (listing.flatMap (entriesAt digits files host))).find? (marked files marker) with
  | some e =>
    obtain ⟨_,holds,_⟩ := newestFirst_found live
    obtain ⟨text,reads,_⟩ := (Option.any_eq_true _ _).mp holds
    rw [inspect_marked live reads] at silent
    cases silent
  | none =>
    cases seen : (newestFirst (listing.flatMap (entriesAt digits files host))).find? (readable files) with
    | some e =>
      obtain ⟨_,holds,_⟩ := newestFirst_found seen
      obtain ⟨text,reads⟩ := Option.isSome_iff_exists.mp holds
      rw [inspect_fallback live,seen,Option.bind_some,reads] at silent
      cases silent
    | none =>
      exact List.find?_eq_none.mp seen _ (mem_newestFirst.mpr (log.entry member)) log.readable

theorem inspect_reports {listing : List String} {marker : List Char}
    (found : inspect digits files marker (listing.flatMap (entriesAt digits files host)) = some info) :
    Reports digits files listing marker host info := by
  cases live : (newestFirst (listing.flatMap (entriesAt digits files host))).find? (marked files marker) with
  | some e =>
    obtain ⟨inside,holds,above⟩ := newestFirst_found live
    obtain ⟨member,belongs,mtime⟩ := mem_entries.mp inside
    obtain ⟨text,reads,held⟩ := (Option.any_eq_true _ _).mp holds
    have log : Log digits files host e.2 e.1 text := ⟨belongs,mtime,reads⟩
    have marker_in : marker <:+: text := of_decide_eq_true held
    rw [inspect_marked live reads] at found
    cases Option.some.inj found
    refine ⟨⟨fun _ => ⟨e.2,member,e.1,text,log,marker_in⟩,fun _ => rfl⟩,e.2,member,e.1,text,log,fun _ => marker_in,rfl,?_⟩
    intro other listed time' text' log' live'
    exact above _ (log'.entry listed) (log'.marked.mpr (live' rfl))
  | none =>
    have dead : ∀ path ∈ listing, ∀ time text, Log digits files host path time text → ¬marker <:+: text := by
      intro path member time text log live'
      exact List.find?_eq_none.mp live _ (mem_newestFirst.mpr (log.entry member)) (log.marked.mpr live')
    cases seen : (newestFirst (listing.flatMap (entriesAt digits files host))).find? (readable files) with
    | none =>
      rw [inspect_fallback live,seen] at found
      cases found
    | some e =>
      obtain ⟨inside,holds,above⟩ := newestFirst_found seen
      obtain ⟨member,belongs,mtime⟩ := mem_entries.mp inside
      obtain ⟨text,reads⟩ := Option.isSome_iff_exists.mp holds
      have log : Log digits files host e.2 e.1 text := ⟨belongs,mtime,reads⟩
      rw [inspect_fallback live,seen,Option.bind_some,reads] at found
      cases Option.some.inj found
      have unready : ¬(describe digits false text).ready = true := Bool.false_ne_true
      refine ⟨⟨fun ready => absurd ready unready,?_⟩,e.2,member,e.1,text,log,fun ready => absurd ready unready,rfl,?_⟩
      · intro ready
        obtain ⟨path,listed,time',text',log',live'⟩ := ready
        exact absurd live' (dead path listed time' text' log')
      · intro other listed time' text' log' _
        exact above _ (log'.entry listed) log'.readable

theorem workers_right (digits : Digits) (files : Files) (sharedDir : String) (known : logSpecs.lookup app = some (pattern,marker))
    (host : String) :
    ((∃ info, (workers digits files sharedDir app).lookup host = some info) ↔
      ∃ path ∈ files.glob (join sharedDir pattern), ∃ time text, Log digits files host path time text) ∧
    ∀ info, (workers digits files sharedDir app).lookup host = some info →
      Reports digits files (files.glob (join sharedDir pattern)) marker.toList host info := by
  rw [workers_lookup known]
  refine ⟨⟨?_,?_⟩,fun info found => inspect_reports found⟩
  · intro found
    obtain ⟨info,found⟩ := found
    obtain ⟨path,member,time,text,log,_⟩ := (inspect_reports found).newest
    exact ⟨path,member,time,text,log⟩
  · intro held
    obtain ⟨path,member,time,text,log⟩ := held
    cases found : inspect digits files marker.toList ((files.glob (join sharedDir pattern)).flatMap (entriesAt digits files host)) with
    | none => exact absurd log (inspect_none found member)
    | some info => exact ⟨info,rfl⟩

-- A live worker's log, and a newer one of an instance that died.
def pile : Files where
  glob _ := ["logs/si-symphony-compute-0-9.log","logs/si-symphony-compute-0-10.log"]
  getmtime path := if path = "logs/si-symphony-compute-0-9.log" then some 1 else some 2
  text path := if path = "logs/si-symphony-compute-0-9.log" then some "worker READY".toList else some "no Akida device present".toList

theorem workers_right_pile : ∃ info,
    (workers ⟨Char.isDigit,fun _ _ => rfl⟩ pile "shared" "batch-inference").lookup "symphony-compute-0" = some info ∧
      info.ready = true := by
  have known : logSpecs.lookup "batch-inference" = some ("soam/akida-service/logs/si-*.log","worker READY") := by decide
  have right := workers_right ⟨Char.isDigit,fun _ _ => rfl⟩ pile "shared" known "symphony-compute-0"
  have log : Log ⟨Char.isDigit,fun _ _ => rfl⟩ pile "symphony-compute-0" "logs/si-symphony-compute-0-9.log" 1 "worker READY".toList :=
    ⟨⟨"si".toList,"9".toList,[],by decide,by simp [lower],by simp,by simp,.inl rfl⟩,rfl,by decide⟩
  have listed : "logs/si-symphony-compute-0-9.log" ∈ pile.glob (join "shared" "soam/akida-service/logs/si-*.log") := List.mem_cons_self
  obtain ⟨info,found⟩ := right.1.mpr ⟨_,listed,_,_,log⟩
  refine ⟨info,found,?_⟩
  exact (right.2 info found).ready.mpr ⟨_,listed,_,_,log,List.infix_rfl⟩

end SymphonyAkida.Fleet
