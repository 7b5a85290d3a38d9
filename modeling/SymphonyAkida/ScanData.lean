import SymphonyAkida.BatchWorker
import SymphonyAkida.Datasets
import SymphonyAkida.SampleSets

namespace SymphonyAkida.ScanData
open SampleSets (Npz Models Samples convert written Describes)

structure Folder where
  name : String
  found : List (Except ShardWire.Raised Npz)

-- data_dir: the .npz files loose in it and its folders, none where it is not a directory.
structure Data where
  path : String
  entries : Option (List String × List Folder)

def padded (name : String) : String := name ++ String.ofList (List.replicate (28-name.length) ' ')

def skipped (name reason : String) : String := s!"{padded name} skipped: {reason}"

-- A turn of the loop, and what it prints of a folder it skips.
def scanFolder (models : Models) (out : Samples) (folder : Folder) : Samples × Option String :=
  match folder.found with
  | [] => (out,some (skipped folder.name s!"no .npz in {folder.name}/"))
  | [npz] =>
    match npz >>= fun npz => convert npz none folder.name models out with
    | .ok later => (later,none)
    | .error raised => (out,some (skipped folder.name raised.text))
  | found => (out,some (skipped folder.name s!"{found.length} .npz files; a dataset folder holds exactly one"))

def turn (models : Models) (state : Samples × List String) (folder : Folder) : Samples × List String :=
  let (out,line) := scanFolder models state.1 folder
  (out,state.2 ++ line.toList)

def byName (folders : List Folder) : List Folder := folders.insertionSort fun a b => a.name ≤ b.name

def looseLines (path : String) (loose : List String) : List String :=
  let base := BatchWorker.basename path
  (loose.insertionSort (· ≤ ·)).map fun name => skipped name s!"datasets live in {base}/<dataset>/, not loose in {base}/"

-- scan_data: the samples it leaves, and what it prints besides convert's own lines.
def scanData (models : Models) (data : Data) (out : Samples) : Samples × List String :=
  match data.entries with
  | none => (out,[s!"no {data.path}; nothing to prepare"])
  | some (loose,folders) =>
    if folders.isEmpty then (out,looseLines data.path loose ++ [s!"no dataset folders in {data.path}; nothing to prepare"])
    else (byName folders).foldl (turn models) (out,looseLines data.path loose)

def nothing : Samples := ⟨fun _ => none,fun _ => none⟩

-- One set taken from elsewhere.
def overlay (out alone : Samples) (set : String) : Samples where
  bin name := if name = set then alone.bin name else out.bin name
  side name := if name = set then alone.side name else out.side name

-- What convert stores does not depend on what was there.
theorem convert_overlay (npz : Npz) (model : Option String) (set : String) (models : Models) (out : Samples) :
    convert npz model set models out = (convert npz model set models nothing).map (overlay out · set) := by
  unfold convert
  dsimp only
  cases SampleSets.pickModel models model npz.frames.shape.tail.prod with
  | error raised => rfl
  | ok name =>
    rw [Outcome.ok_bind,Outcome.ok_bind]
    cases SampleSets.readMeta models name with
    | error raised => rfl
    | ok metadata =>
      rw [Outcome.ok_bind,Outcome.ok_bind]
      cases SampleSets.sampleShape metadata with
      | error raised => rfl
      | ok shape =>
        rw [Outcome.ok_bind,Outcome.ok_bind]
        by_cases wrong : npz.frames.shape.tail.prod ≠ shape.prod
        · rw [if_pos wrong,if_pos wrong]
          rfl
        · rw [if_neg wrong,if_neg wrong]
          cases npz.frames.shape.head? with
          | none => rfl
          | some count =>
            refine congrArg Except.ok ?_
            unfold overlay Samples.store
            congr 1
            · funext name
              by_cases same : name = set <;> simp [same]
            · funext name
              by_cases same : name = set <;> simp [same]

-- The folder has the one archive, and convert takes it.
structure Prepared (models : Models) (folder : Folder) (npz : Npz) (alone : Samples) : Prop where
  found : folder.found = [.ok npz]
  converted : convert npz none folder.name models nothing = .ok alone

theorem prepared_unique (first : Prepared models folder npz alone) (second : Prepared models folder npz' alone') :
    npz = npz' ∧ alone = alone' := by
  have same := first.found.symm.trans second.found
  cases same
  have equal := first.converted.symm.trans second.converted
  cases equal
  exact ⟨rfl,rfl⟩

theorem scanFolder_cases (models : Models) (out : Samples) (folder : Folder) :
    (∃ npz alone, Prepared models folder npz alone ∧ scanFolder models out folder = (overlay out alone folder.name,none)) ∨
    (∀ npz alone, ¬Prepared models folder npz alone) ∧ ∃ reason, scanFolder models out folder = (out,some (skipped folder.name reason)) := by
  unfold scanFolder
  split
  · rename_i none
    refine .inr ⟨fun npz alone prepared => ?_,_,rfl⟩
    cases none.symm.trans prepared.found
  · rename_i opened one
    cases opened with
    | error raised =>
      refine .inr ⟨fun npz alone prepared => ?_,_,rfl⟩
      cases one.symm.trans prepared.found
    | ok npz =>
      simp only [Outcome.ok_bind]
      rw [convert_overlay]
      cases converted : convert npz none folder.name models nothing with
      | ok alone => exact .inl ⟨npz,alone,⟨one,converted⟩,rfl⟩
      | error raised =>
        refine .inr ⟨fun npz' alone prepared => ?_,_,rfl⟩
        cases one.symm.trans prepared.found
        cases converted.symm.trans prepared.converted
  · rename_i several
    refine .inr ⟨fun npz alone prepared => ?_,_,rfl⟩
    exact several (.ok npz) prepared.found

-- What the loop has done: each prepared folder's set is as if it were the only
-- one, the other sets are as they were, and every other folder has had its line.
structure Scanned (models : Models) (out : Samples) (done : List Folder) (state : Samples × List String) : Prop where
  stored : ∀ folder ∈ done, ∀ npz alone, Prepared models folder npz alone →
    state.1.bin folder.name = alone.bin folder.name ∧ state.1.side folder.name = alone.side folder.name
  kept : ∀ set, (∀ folder ∈ done, folder.name = set → ∀ npz alone, ¬Prepared models folder npz alone) →
    state.1.bin set = out.bin set ∧ state.1.side set = out.side set
  told : ∀ folder ∈ done, (∃ npz alone, Prepared models folder npz alone) ∨ ∃ reason, skipped folder.name reason ∈ state.2

theorem turn_scanned (scanned : Scanned models out done state) (fresh : folder.name ∉ done.map (·.name)) :
    Scanned models out (done ++ [folder]) (turn models state folder) := by
  have apart : ∀ other ∈ done, other.name ≠ folder.name := fun other member same =>
    fresh (List.mem_map.mpr ⟨other,member,same⟩)
  have told : ∀ lines, ∀ other ∈ done, (∃ npz alone, Prepared models other npz alone) ∨
      ∃ reason, skipped other.name reason ∈ state.2 ++ lines := fun lines other member =>
    (scanned.told other member).imp_right fun ⟨reason,line⟩ => ⟨reason,List.mem_append_left _ line⟩
  unfold turn
  obtain ⟨npz,alone,prepared,scan⟩ | ⟨unprepared,reason,scan⟩ := scanFolder_cases models state.1 folder
  · rw [scan]
    refine ⟨?_,?_,?_⟩
    · intro other member npz' alone' taken
      rcases List.mem_append.mp member with old | last
      · have before := scanned.stored other old npz' alone' taken
        simp only [overlay,if_neg (apart other old)]
        exact before
      · rw [List.mem_singleton.mp last] at taken ⊢
        obtain ⟨_,rfl⟩ := prepared_unique prepared taken
        simp only [overlay,if_true,and_self]
    · intro set unprepared
      have other : set ≠ folder.name := fun same =>
        unprepared folder (List.mem_append_right _ List.mem_cons_self) same.symm npz alone prepared
      simp only [overlay,if_neg other]
      exact scanned.kept set fun earlier member => unprepared earlier (List.mem_append_left _ member)
    · intro other member
      rcases List.mem_append.mp member with old | last
      · exact told _ other old
      · rw [List.mem_singleton.mp last]
        exact .inl ⟨npz,alone,prepared⟩
  · rw [scan]
    refine ⟨?_,?_,?_⟩
    · intro other member npz alone taken
      rcases List.mem_append.mp member with old | last
      · exact scanned.stored other old npz alone taken
      · rw [List.mem_singleton.mp last] at taken
        exact absurd taken (unprepared npz alone)
    · exact fun set others => scanned.kept set fun earlier member => others earlier (List.mem_append_left _ member)
    · intro other member
      rcases List.mem_append.mp member with old | last
      · exact told _ other old
      · rw [List.mem_singleton.mp last]
        exact .inr ⟨reason,List.mem_append_right _ (by simp)⟩

theorem loop_scanned (rest : List Folder) (scanned : Scanned models out done state) (distinct : ((done ++ rest).map (·.name)).Nodup) :
    Scanned models out (done ++ rest) (rest.foldl (turn models) state) := by
  induction rest generalizing done state with
  | nil => simpa using scanned
  | cons folder rest ih =>
    have whole : done ++ folder :: rest = done ++ [folder] ++ rest := by simp
    rw [whole] at distinct ⊢
    refine ih (turn_scanned scanned fun member => ?_) distinct
    rw [List.map_append,List.map_append] at distinct
    have parted := (List.nodup_append.mp (List.nodup_append.mp distinct).1).2.2
    exact parted _ member _ (by simp) rfl

theorem byName_perm (folders : List Folder) : (byName folders).Perm folders := List.perm_insertionSort _ _

theorem scan_scanned {data : Data} {loose : List String} {folders : List Folder} (entries : data.entries = some (loose,folders))
    (distinct : (folders.map (·.name)).Nodup) (models : Models) (out : Samples) :
    Scanned models out folders (scanData models data out) := by
  have start : Scanned models out [] (out,looseLines data.path loose) := ⟨by simp,fun _ _ => ⟨rfl,rfl⟩,by simp⟩
  unfold scanData
  rw [entries]
  dsimp only
  split
  · rename_i empty
    rw [List.isEmpty_iff] at empty
    subst empty
    exact ⟨by simp,fun _ _ => ⟨rfl,rfl⟩,by simp⟩
  · have sorted := byName_perm folders
    have ran := loop_scanned (byName folders) start ((sorted.map _).nodup_iff.mpr distinct)
    rw [List.nil_append] at ran
    refine ⟨?_,?_,?_⟩
    · exact fun folder member => ran.stored folder (sorted.mem_iff.mpr member)
    · exact fun set others => ran.kept set fun folder member => others folder (sorted.mem_iff.mp member)
    · exact fun folder member => ran.told folder (sorted.mem_iff.mpr member)

theorem convert_named {set : String} (accepted : convert npz model set models out = .ok out') :
    (∃ count rest, npz.frames.shape = count :: rest) ∧ ∃ side, out'.side set = some side ∧ side.set = set := by
  unfold convert at accepted
  obtain ⟨name,_,accepted⟩ := Outcome.bind_ok accepted
  obtain ⟨metadata,_,accepted⟩ := Outcome.bind_ok accepted
  obtain ⟨shape,_,accepted⟩ := Outcome.bind_ok accepted
  by_cases wrong : npz.frames.shape.tail.prod ≠ shape.prod
  · rw [if_pos wrong] at accepted
    cases accepted
  · rw [if_neg wrong] at accepted
    cases axes : npz.frames.shape with
    | nil =>
      rw [axes] at accepted
      cases accepted
    | cons count rest =>
      rw [axes,List.head?_cons] at accepted
      cases accepted
      exact ⟨⟨count,rest,rfl⟩,_,if_pos rfl,rfl⟩

theorem prepared_stores (prepared : Prepared models folder npz alone) :
    ∃ count rest side, npz.frames.shape = count :: rest ∧ alone.bin folder.name = some (written npz.frames count) ∧
      alone.side folder.name = some side ∧ side.set = folder.name ∧ Describes models side count rest.prod := by
  obtain ⟨⟨count,rest,axes⟩,own,held,named⟩ := convert_named prepared.converted
  obtain ⟨side,stored,described⟩ := SampleSets.convert_stores axes prepared.converted
  rw [stored] at held ⊢
  have same : side = own := Option.some.inj ((if_pos rfl).symm.trans held)
  subst same
  exact ⟨count,rest,side,axes,if_pos rfl,if_pos rfl,named,described⟩

theorem pool_stored {npz : Npz} {samples : Samples} {set : String} {side : SampleSets.Sidecar} (axes : npz.frames.shape = available :: rest)
    (stored : samples.bin set = some (written npz.frames available)) (described : Describes models side available rest.prod)
    (some_ : 0 < available) (count : Int) (randbelow : Nat → Nat) (getrandbits : Nat → UInt8) :
    ∃ order : List Nat, order.Perm (List.range available) ∧ (SampleSets.buildPool samples (some (set,side)) rest.prod count randbelow getrandbits).1 =
      (order.take (max 1 (min (available : Int) count)).toNat).map npz.frames.row := by
  refine ⟨_,SampleSets.shuffle_perm randbelow (List.range available),?_⟩
  unfold SampleSets.buildPool
  simp only [stored,described.bytes,described.counted,some_,and_self,if_true]
  refine List.map_congr_left fun i member => ?_
  have below : i < available := List.mem_range.mp ((SampleSets.shuffle_perm randbelow _).mem_iff.mp (List.mem_of_mem_take member))
  exact SampleSets.readAt_row axes below

-- What the clients choose a set by.
def card (side : SampleSets.Sidecar) : Datasets.Sidecar := ⟨side.set,side.model,side.count,side.random⟩

-- The sidecars of a directory, in any order.
structure Listed (samples : Samples) (files : List SampleSets.Sidecar) : Prop where
  distinct : (files.map (·.set)).Nodup
  exact : ∀ side, side ∈ files ↔ ∃ set, samples.side set = some side

-- The folder's archive makes a set for the model.
structure Feeds (models : Models) (folder : Folder) (model : String) (npz : Npz) (side : SampleSets.Sidecar) : Prop where
  prepared : ∃ alone, Prepared models folder npz alone ∧ alone.side folder.name = some side
  fits : side.model = model

section
variable {models : Models} {folders : List Folder} {state : Samples × List String} {files : List SampleSets.Sidecar}
  {side : SampleSets.Sidecar} {model : String}

theorem feeds_of_file (scanned : Scanned models nothing folders state) (listed : Listed state.1 files) (member : side ∈ files) :
    ∃ folder ∈ folders, ∃ npz, Feeds models folder side.model npz side ∧ state.1.side folder.name = some side ∧
      side.set = folder.name := by
  obtain ⟨set,held⟩ := (listed.exact side).mp member
  by_cases made : ∃ folder ∈ folders, folder.name = set ∧ ∃ npz alone, Prepared models folder npz alone
  · obtain ⟨folder,inside,rfl,npz,alone,prepared⟩ := made
    have alone_side := (scanned.stored folder inside npz alone prepared).2.symm.trans held
    obtain ⟨_,_,own,_,_,stored,named,_⟩ := prepared_stores prepared
    have same : own = side := Option.some.inj (stored.symm.trans alone_side)
    subst same
    exact ⟨folder,inside,npz,⟨⟨alone,prepared,stored⟩,rfl⟩,held,named⟩
  · have untouched := (scanned.kept set fun folder inside same npz alone prepared =>
      made ⟨folder,inside,same,npz,alone,prepared⟩).2
    rw [untouched] at held
    cases held

theorem file_of_feeds (scanned : Scanned models nothing folders state) (listed : Listed state.1 files) {folder : Folder}
    (inside : folder ∈ folders) (feeds : Feeds models folder model npz side) : side ∈ files := by
  obtain ⟨alone,prepared,held⟩ := feeds.prepared
  exact (listed.exact side).mpr ⟨folder.name,(scanned.stored folder inside npz alone prepared).2.trans held⟩

end

-- Of four folders one can be prepared.
def shelf : List Folder :=
  [⟨"torn",[.error ⟨"PrepareError","not an .npz archive"⟩]⟩,⟨"columns",[.ok SampleSets.columns]⟩,
   ⟨"empty",[]⟩,⟨"both",[.ok SampleSets.columns,.ok SampleSets.columns]⟩]

def shelfData : Data := ⟨"/repo/data",some ([],shelf)⟩

def columnsSide : SampleSets.Sidecar := ⟨"columns","pairs",3,2,[2],none,none,"/data/columns.npz",false,false⟩

theorem shelf_side (set : String) : (scanData SampleSets.pairs shelfData nothing).1.side set = if set = "columns" then some columnsSide else none := by
  have scanned := scan_scanned (show shelfData.entries = some ([],shelf) from rfl) (by decide) SampleSets.pairs nothing
  split
  · rename_i same
    subst same
    have prepared : Prepared SampleSets.pairs ⟨"columns",[.ok SampleSets.columns]⟩ SampleSets.columns
        (nothing.store "columns" (written SampleSets.columns.frames 3) columnsSide) := ⟨rfl,rfl⟩
    exact (scanned.stored _ (by simp [shelf]) _ _ prepared).2
  · rename_i other
    refine (scanned.kept set fun folder inside same npz alone prepared => ?_).2
    have found := prepared.found
    simp only [shelf,List.mem_cons,List.not_mem_nil,or_false] at inside
    obtain rfl | rfl | rfl | rfl := inside
    · cases found
    · exact other same.symm
    · cases found
    · cases found

example : (scanData SampleSets.pairs shelfData nothing).2 =
    ["both                         skipped: 2 .npz files; a dataset folder holds exactly one",
     "empty                        skipped: no .npz in empty/",
     "torn                         skipped: not an .npz archive"] := by decide +kernel

end SymphonyAkida.ScanData
