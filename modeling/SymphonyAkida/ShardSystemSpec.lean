import SymphonyAkida.PipelineSpec
import SymphonyAkida.ShardSystem
import SymphonyAkida.ShardClientOrder

namespace SymphonyAkida.ShardSystem
open TiledShard Arrays Outcome Jobs ShardClient

theorem tileCount_layout (built : makeTileLayout layout frameSize tileSize = .ok tiles) : tileCount layout = some tiles.length := by
  unfold makeTileLayout Layout.named at built
  split at built
  · cases built
  · cases built
    rename_i named
    split at named <;> cases named
    rfl
  · rename_i kind _ named
    split at built
    · cases built
    · split at built
      · cases built
      · cases built
        split at named <;> cases named
        all_goals first | rfl | exact absurd rfl ‹_›

theorem slash_repr (n : Nat) : '/' ∉ (toString n).toList := by
  intro digit
  have digits : (toString n).toList = Nat.toDigits 10 n := by simp [toString,Nat.repr]
  rw [digits] at digit
  exact absurd (Nat.isDigit_of_mem_toDigits (by decide) (by decide) digit) (by decide)

theorem toList_join (directory name : String) : (Pipeline.join directory name).toList = (Pipeline.join directory "").toList ++ name.toList := by
  unfold Pipeline.join
  split <;> simp

-- What comes before the first slash.
theorem before_slash {a : List Char} (none : '/' ∉ a) (rest : List Char) : (a ++ '/' :: rest).takeWhile (· ≠ '/') = a := by
  have plain : ∀ c ∈ a, (decide (c ≠ '/')) = true := by
    intro c member
    exact decide_eq_true fun same => none (same ▸ member)
  rw [List.takeWhile_append_of_pos plain]
  simp

theorem slash_cancel {a b : List Char} (left : '/' ∉ a) (right : '/' ∉ b) (same : a ++ '/' :: t = b ++ '/' :: c) : a = b := by
  rw [← before_slash left t,same,before_slash right]

section
variable (setup : Setup)

theorem toList_directory (i : Nat) : (setup.directory i).toList =
    (Pipeline.join setup.pipeDir "").toList ++ ("r" ++ toString setup.pid ++ "_").toList ++ (toString i).toList := by
  rw [Setup.directory,toList_join,Setup.imageId]
  simp only [String.toList_append,List.append_assoc]

-- A frame's directory ends in a digit, so its files follow a slash.
theorem toList_path (i : Nat) (name : String) :
    (Pipeline.join (setup.directory i) name).toList = (setup.directory i).toList ++ '/' :: name.toList := by
  have filled : (toString i).toList ≠ [] := by simp [toString,Nat.repr,Nat.toDigits_ne_nil]
  have last : (setup.directory i).toList.getLast? = (toString i).toList.getLast? := by
    rw [toList_directory,List.getLast?_append_of_ne_nil _ filled]
  have open_ : ¬(setup.directory i).toList.getLast?.all (· == '/') = true := by
    rw [last]
    intro all
    have digit := slash_repr i
    rw [List.getLast?_eq_some_getLast filled,Option.all_some,beq_iff_eq] at all
    exact digit (all ▸ List.getLast_mem filled)
  unfold Pipeline.join
  rw [if_neg open_]
  simp

theorem under_path (i j : Nat) (name : String) : under (setup.directory i) (Pipeline.join (setup.directory j) name) = decide (i = j) := by
  rw [under,toList_path,toList_directory,toList_directory]
  generalize (Pipeline.join setup.pipeDir "").toList ++ ("r" ++ toString setup.pid ++ "_").toList = base
  rw [List.append_assoc,List.append_assoc,Bool.eq_iff_iff,List.isPrefixOf_iff_prefix,List.prefix_append_right_inj,decide_eq_true_iff]
  constructor
  · intro given
    obtain ⟨rest,same⟩ := given
    rw [List.append_assoc] at same
    have digits := slash_cancel (slash_repr i) (slash_repr j) same
    exact Nat.repr_injective (String.toList_inj.mp digits)
  · intro same
    subst same
    exact ⟨name.toList,by simp⟩

theorem directory_inj {i j : Nat} (same : setup.directory i = setup.directory j) : i = j := by
  have inside := under_path setup i j ""
  rw [← same,under_path] at inside
  simpa using inside

theorem directory_under {i j : Nat} : under (setup.directory i) (setup.directory j) = false := by
  rw [under,toList_directory,toList_directory]
  generalize (Pipeline.join setup.pipeDir "").toList ++ ("r" ++ toString setup.pid ++ "_").toList = base
  rw [List.append_assoc,Bool.eq_false_iff,ne_eq,List.isPrefixOf_iff_prefix,List.prefix_append_right_inj]
  intro given
  exact slash_repr j (given.subset (List.mem_append_right _ List.mem_cons_self))

end

-- A directory and some files: what a task looks at, or a whole tree.
structure View where
  directory : String
  paths : String → Prop

def Agree (view : View) (a b : Disk) : Prop :=
  a.dirs view.directory = b.dirs view.directory ∧ ∀ path, view.paths path → a.files path = b.files path

theorem save_alone (there : disk.dirs directory = true) :
    (save directory path file next).alone disk = next.alone {disk with files := disk.files.write path file} := by
  have made : ((disk.create directory path).fill path file) = {disk with files := disk.files.write path file} := by
    simp only [Disk.create,there,if_true,Disk.fill,Pipeline.write_same,Option.isSome_some]
    congr 1
    funext other
    unfold Pipeline.Bus.write
    split <;> rfl
  simp only [save,Program.alone,there,if_true,made]

theorem create_agree {view : View} (alike : Agree view a b) (mine : view.directory = directory) :
    Agree view (a.create directory path) (b.create directory path) := by
  obtain ⟨dirs,files⟩ := alike
  subst mine
  unfold Disk.create
  rw [dirs]
  split
  · refine ⟨dirs,fun other inside => ?_⟩
    show (if _ then _ else _) = if _ then _ else _
    rw [files other inside]
  · exact ⟨dirs,files⟩

theorem fill_agree {view : View} (alike : Agree view a b) (inside : view.paths path) :
    Agree view (a.fill path file) (b.fill path file) := by
  obtain ⟨dirs,files⟩ := alike
  unfold Disk.fill
  rw [files path inside]
  split
  · refine ⟨dirs,fun other member => ?_⟩
    show (if _ then _ else _) = if _ then _ else _
    rw [files other member]
  · exact ⟨dirs,files⟩

theorem save_sees {view : View} (mine : view.directory = directory) (inside : view.paths path) (later : next.Sees (Agree view)) :
    (save directory path file next).Sees (Agree view) := by
  refine ⟨fun a b alike => ⟨?_,create_agree alike mine⟩,fun a => ?_⟩
  · dsimp only
    rw [← mine,alike.1]
  · dsimp only
    split
    · exact ⟨fun _ _ alike => ⟨rfl,fill_agree alike inside⟩,fun _ => later⟩
    · trivial

theorem write_agree {view : View} (outside : ¬view.paths path) (disk : Disk) (file : Pipeline.File ℚ) :
    Agree view disk {disk with files := disk.files.write path file} :=
  ⟨rfl,fun other inside =>
    (Pipeline.write_other disk.files file (show other ≠ path from fun same => outside (same ▸ inside))).symm⟩

theorem save_spares {view : View} (outside : ¬view.paths path) (later : next.Spares (Agree view)) :
    (save directory path file next).Spares (Agree view) := by
  refine fun a => ⟨?_,?_⟩
  · dsimp only
    unfold Disk.create
    split
    · exact write_agree outside a _
    · exact ⟨rfl,fun _ _ => rfl⟩
  · dsimp only
    split
    · refine fun b => ⟨?_,later⟩
      dsimp only
      unfold Disk.fill
      split
      · exact write_agree outside b _
      · exact ⟨rfl,fun _ _ => rfl⟩
    · trivial

theorem saveCrops_sees {view : View} (mine : view.directory = directory) (inside : ∀ k, view.paths (Pipeline.segPath directory k))
    (later : next.Sees (Agree view)) (crops : List (Image size size 3)) (base : Nat) :
    (saveCrops directory next base crops).Sees (Agree view) := by
  induction crops generalizing base with
  | nil => exact later
  | cons crop crops ih => exact save_sees mine (inside base) (ih (base+1))

theorem saveCrops_spares {view : View} (outside : ∀ k, ¬view.paths (Pipeline.segPath directory k))
    (later : next.Spares (Agree view)) (crops : List (Image size size 3)) (base : Nat) :
    (saveCrops directory next base crops).Spares (Agree view) := by
  induction crops generalizing base with
  | nil => exact later
  | cons crop crops ih => exact save_spares (outside base) (ih (base+1))

theorem saveCrops_alone (there : disk.dirs directory = true) (crops : List (Image size size 3)) (base : Nat) :
    (saveCrops directory next base crops).alone disk =
      next.alone {disk with files := Pipeline.writeCrops directory disk.files base crops} := by
  induction crops generalizing disk base with
  | nil => rfl
  | cons crop crops ih =>
    rw [saveCrops,save_alone there,ih (by exact there)]
    rfl

section
variable (setup : Setup)

def Setup.sees : Task → View
  | .seg i => ⟨setup.directory i,fun path => ∃ k, path = Pipeline.segPath (setup.directory i) k⟩
  | .inf i tile => ⟨setup.directory i,fun path =>
      path = Pipeline.segPath (setup.directory i) tile ∨ path = Pipeline.detPath (setup.directory i) tile⟩
  | .stitch i => ⟨setup.directory i,fun path => ∃ k, path = Pipeline.detPath (setup.directory i) k⟩

def Setup.tree (i : Nat) : View := ⟨setup.directory i,fun path => under (setup.directory i) path = true⟩

-- What the task writes is outside the view.
def Setup.apart : Task → View → Prop
  | .seg i,view => view.directory ≠ setup.directory i ∧ ∀ k, ¬view.paths (Pipeline.segPath (setup.directory i) k)
  | .inf i tile,view => ¬view.paths (Pipeline.detPath (setup.directory i) tile)
  | .stitch _,_ => True

-- One process and the class names give the frame a result.
def Setup.Yields (i : Nat) (result : Pipeline.FrameResult ℚ) : Prop :=
  setup.reference i = .ok result ∧ ∀ label ∈ result.labels, (Pipeline.item setup.meta_.classNames label).isSome

def Setup.packed (crop : Image setup.meta_.inputSize setup.meta_.inputSize 3) : Except Error (Classes ℚ) :=
  Pipeline.infer setup.np setup.meta_ setup.predict crop >>= Pipeline.pack setup.np setup.meta_.numClasses

def Setup.Done (disk : Disk) : Task → Reply → Prop
  | .seg i,_ => ∃ crops, setup.cut i = .ok crops ∧ disk.dirs (setup.directory i) = true ∧
      Pipeline.Ready (setup.directory i) disk.files crops
  | .inf i tile,_ => ∃ crops, setup.cut i = .ok crops ∧
      Pipeline.Done setup.np setup.meta_ setup.predict (setup.directory i) crops disk.files tile
  | .stitch i,reply => ∃ stitched : Pipeline.Stitched ℚ, setup.Yields i stitched.result ∧
      Pipeline.histogram setup.meta_.classNames stitched.result.labels = .ok stitched.classHist ∧ reply = stitchReply i stitched

def Setup.Fails : Task → Prop
  | .seg i => ∀ crops, setup.cut i ≠ .ok crops
  | .inf i tile => ∃ crops crop, setup.cut i = .ok crops ∧ crops[tile]? = some crop ∧ ∀ packed, setup.packed crop ≠ .ok packed
  | .stitch i => ∀ result, ¬setup.Yields i result

-- An ok reply names its frame, and the host of an inference.
structure Named (task : Task) (reply : Reply) : Prop where
  frame : reply.imageId = some task.frame
  ok : reply.ok = true
  host : ∀ i tile, task = .inf i tile → reply.host.isSome

def Setup.post (task : Task) (disk : Disk) : Except Error Reply → Prop
  | .ok reply => Named task reply ∧ setup.Done disk task reply
  | .error _ => setup.Fails task

theorem segmentJob_sees (i : Nat) : (segmentJob setup i).Sees (Agree (setup.sees (.seg i))) := by
  unfold segmentJob
  split
  · trivial
  · have inside : ∀ k, (setup.sees (.seg i)).paths (Pipeline.segPath (setup.directory i) k) := fun k => ⟨k,rfl⟩
    refine ⟨fun a b alike => ⟨rfl,⟨?_,alike.2⟩⟩,fun _ => saveCrops_sees rfl inside (by trivial) _ 0⟩
    simp [Disk.makedirs,Setup.sees]

theorem segmentJob_spares (apart : setup.apart (.seg i) view) : (segmentJob setup i).Spares (Agree view) := by
  obtain ⟨away,outside⟩ := apart
  unfold segmentJob
  split
  · trivial
  · refine fun a => ⟨⟨?_,fun _ _ => rfl⟩,saveCrops_spares outside (by trivial) _ 0⟩
    simp [Disk.makedirs,away]

theorem detectJob_sees (worker : Worker) (i tile : Nat) :
    (detectJob setup worker i tile).Sees (Agree (setup.sees (.inf i tile))) := by
  have reads : ∀ a b : Disk, Agree (setup.sees (.inf i tile)) a b →
      readCrop (setup.directory i) tile a.files = readCrop (setup.directory i) tile b.files := by
    intro a b alike
    unfold readCrop
    rw [alike.2 _ (.inl rfl)]
  refine ⟨fun a b alike => ⟨by dsimp only; rw [reads a b alike],alike⟩,fun a => ?_⟩
  dsimp only
  split
  · trivial
  · exact save_sees rfl (.inr rfl) (by trivial)

theorem detectJob_spares (worker : Worker) (apart : setup.apart (.inf i tile) view) :
    (detectJob setup worker i tile).Spares (Agree view) := by
  refine fun a => ⟨⟨rfl,fun _ _ => rfl⟩,?_⟩
  dsimp only
  split
  · trivial
  · exact save_spares apart (by trivial)

theorem gather_sees (i : Nat) (finish : List (TileEntry ℚ) → Except Error (Pipeline.Stitched ℚ)) (left : List Nat)
    (perTile : List (TileEntry ℚ)) : (gather setup i finish left perTile).Sees (Agree (setup.sees (.stitch i))) := by
  induction left generalizing perTile with
  | nil => trivial
  | cons index left ih =>
    have reads : ∀ a b : Disk, Agree (setup.sees (.stitch i)) a b →
        Pipeline.readDetections setup.meta_.numClasses (setup.directory i) a.files index =
          Pipeline.readDetections setup.meta_.numClasses (setup.directory i) b.files index := by
      intro a b alike
      unfold Pipeline.readDetections
      rw [alike.2 _ ⟨index,rfl⟩]
    refine ⟨fun a b alike => ⟨by dsimp only; rw [reads a b alike],alike⟩,fun a => ?_⟩
    dsimp only
    split
    · trivial
    · exact ih _

theorem gather_spares (i : Nat) (finish : List (TileEntry ℚ) → Except Error (Pipeline.Stitched ℚ)) (left : List Nat)
    (perTile : List (TileEntry ℚ)) (view : View) : (gather setup i finish left perTile).Spares (Agree view) := by
  induction left generalizing perTile with
  | nil => trivial
  | cons index left ih =>
    refine fun a => ⟨⟨rfl,fun _ _ => rfl⟩,?_⟩
    dsimp only
    split
    · trivial
    · exact ih _

theorem stitchJob_sees (i : Nat) : (stitchJob setup i).Sees (Agree (setup.sees (.stitch i))) := by
  unfold stitchJob
  split
  · trivial
  · exact gather_sees setup i _ _ _

theorem stitchJob_spares (i : Nat) (view : View) : (stitchJob setup i).Spares (Agree view) := by
  unfold stitchJob
  split
  · trivial
  · exact gather_spares setup i _ _ _ view

theorem program_sees (worker : Worker) (task : Task) : (program setup worker task).Sees (Agree (setup.sees task)) := by
  cases task with
  | seg i => exact segmentJob_sees setup i
  | inf i tile => exact detectJob_sees setup worker i tile
  | stitch i => exact stitchJob_sees setup i

theorem program_spares (worker : Worker) (task : Task) (view : View) (apart : setup.apart task view) :
    (program setup worker task).Spares (Agree view) := by
  cases task with
  | seg i => exact segmentJob_spares setup apart
  | inf i tile => exact detectJob_spares setup worker apart
  | stitch i => exact stitchJob_spares setup i view

theorem done_rests (reply : Reply) (alike : Agree (setup.sees task) a b) (done : setup.Done a task reply) : setup.Done b task reply := by
  cases task with
  | seg i =>
    obtain ⟨crops,cut,there,ready⟩ := done
    refine ⟨crops,cut,alike.1 ▸ there,fun k crop found => ?_⟩
    rw [← alike.2 _ ⟨k,rfl⟩]
    exact ready k crop found
  | inf i tile =>
    obtain ⟨crops,cut,crop,packed,found,inferred,at_⟩ := done
    refine ⟨crops,cut,crop,packed,found,inferred,?_⟩
    rw [← alike.2 _ (.inr rfl)]
    exact at_
  | stitch i => exact done

def rules : Rules (program setup) View where
  same := Agree
  sees := setup.sees
  post := setup.post
  apart := setup.apart
  looks := program_sees setup
  spares := program_spares setup
  rests := by
    intro task a b result alike post
    cases result with
    | ok reply => exact ⟨post.1,done_rests setup reply alike post.2⟩
    | error raised => exact post

theorem nTiles_pos : 0 < setup.nTiles := by
  have counted := setup.counted
  unfold tileCount at counted
  simp only [List.lookup_cons,List.lookup_nil] at counted
  grind

theorem cut_parts (cut : setup.cut i = .ok crops) : ∃ tiles frame,
    makeTileLayout setup.meta_.tileLayout setup.meta_.frameSize setup.meta_.inputSize = .ok tiles ∧
    unravel setup.meta_.frameSize setup.meta_.frameSize 3 (setup.frame i).2 = some frame ∧
    splitFrame frame tiles setup.meta_.inputSize = .ok crops ∧ tiles.length = setup.nTiles ∧ crops.length = setup.nTiles := by
  obtain ⟨tiles,built,cut⟩ := bind_ok cut
  obtain ⟨frame,shaped,cut⟩ := bind_ok cut
  have count : tiles.length = setup.nTiles := Option.some.inj ((tileCount_layout built).symm.trans setup.counted)
  have pixels : unravel setup.meta_.frameSize setup.meta_.frameSize 3 (setup.frame i).2 = some frame := by
    unfold orRaise at shaped
    split at shaped
    · rename_i found
      rw [found,Except.ok.inj shaped]
    · cases shaped
  exact ⟨tiles,frame,built,pixels,cut,count,(Pipeline.split_length cut).trans count⟩

theorem segment_ends (i : Nat) (disk : Disk) :
    setup.post (.seg i) ((segmentJob setup i).alone disk).1 ((segmentJob setup i).alone disk).2 := by
  unfold segmentJob
  cases cut : setup.cut i with
  | error raised =>
    intro crops found
    rw [cut] at found
    cases found
  | ok crops =>
    have there : (disk.makedirs (setup.directory i)).dirs (setup.directory i) = true := by simp [Disk.makedirs]
    dsimp only
    unfold Program.alone
    rw [saveCrops_alone there]
    refine ⟨⟨rfl,rfl,fun _ _ same => (by cases same)⟩,crops,cut,there,?_⟩
    exact Pipeline.writeCrops_ready _ crops _

theorem decoded_ravel (crop : Image setup.meta_.inputSize setup.meta_.inputSize 3) : setup.decoded (ravel crop) = setup.packed crop := by
  unfold Setup.decoded Setup.packed Pipeline.infer Pipeline.predictTile
  rw [unravel_ravel]
  dsimp only
  cases setup.predict crop with
  | error raised => rfl
  | ok output => rfl

theorem detect_ends (worker : Worker) {ack : Reply} (split : setup.Done disk (.seg i) ack) (number : tile < setup.nTiles) :
    setup.post (.inf i tile) ((detectJob setup worker i tile).alone disk).1 ((detectJob setup worker i tile).alone disk).2 := by
  obtain ⟨crops,cut,there,ready⟩ := split
  obtain ⟨_,_,_,_,_,_,size⟩ := cut_parts setup cut
  obtain ⟨crop,found⟩ : ∃ crop, crops[tile]? = some crop := ⟨_,List.getElem?_eq_getElem (size ▸ number)⟩
  have read : readCrop (setup.directory i) tile disk.files = .ok (ravel crop) := by
    unfold readCrop
    rw [ready tile crop found]
  unfold detectJob Program.alone
  dsimp only
  rw [read,ok_bind,decoded_ravel]
  cases inferred : setup.packed crop with
  | error raised =>
    refine ⟨crops,crop,cut,found,fun packed same => ?_⟩
    rw [inferred] at same
    cases same
  | ok packed =>
    dsimp only [id]
    rw [save_alone there]
    exact ⟨⟨rfl,rfl,fun _ _ _ => rfl⟩,crops,cut,crop,packed,found,inferred,Pipeline.write_same _ _ _⟩

theorem gather_alone (i : Nat) (finish : List (TileEntry ℚ) → Except Error (Pipeline.Stitched ℚ)) (left : List Nat)
    (perTile : List (TileEntry ℚ)) (disk : Disk) : (gather setup i finish left perTile).alone disk =
      (disk,left.mapM (Pipeline.readDetections setup.meta_.numClasses (setup.directory i) disk.files) >>= fun rest =>
        (finish (perTile ++ rest)).map (stitchReply i)) := by
  induction left generalizing perTile with
  | nil => simp [gather,Program.alone,pure,Except.pure,ok_bind]
  | cons index left ih =>
    rw [gather,Program.alone,List.mapM_cons]
    cases read : Pipeline.readDetections setup.meta_.numClasses (setup.directory i) disk.files index with
    | error raised => rfl
    | ok entry =>
      dsimp only [id]
      rw [ih,ok_bind]
      cases left.mapM (Pipeline.readDetections setup.meta_.numClasses (setup.directory i) disk.files) with
      | error raised => rfl
      | ok rest => simp [ok_bind,pure,Except.pure]

theorem stitch_alone (i : Nat) (disk : Disk) : (stitchJob setup i).alone disk =
    (disk,(Pipeline.stitch setup.meta_ (setup.directory i) disk.files setup.request).map (stitchReply i)) := by
  unfold stitchJob Pipeline.stitch
  cases makeTileLayout setup.meta_.tileLayout setup.meta_.frameSize setup.meta_.inputSize with
  | error raised => rfl
  | ok tiles =>
    dsimp only
    rw [gather_alone,ok_bind]
    cases (List.range tiles.length).mapM (Pipeline.readDetections setup.meta_.numClasses (setup.directory i) disk.files) with
    | error raised => rfl
    | ok perTile => rfl

theorem stitch_hist {meta_ : Pipeline.Meta ℚ} {request : Pipeline.StitchRequest ℚ} {stitched : Pipeline.Stitched ℚ}
    (ran : Pipeline.stitch meta_ directory bus request = .ok stitched) :
    Pipeline.histogram meta_.classNames stitched.result.labels = .ok stitched.classHist := by
  obtain ⟨_,_,ran⟩ := bind_ok ran
  obtain ⟨_,_,ran⟩ := bind_ok ran
  obtain ⟨_,_,ran⟩ := bind_ok ran
  obtain ⟨_,_,ran⟩ := bind_ok ran
  obtain ⟨_,counted,ran⟩ := bind_ok ran
  cases ran
  exact counted

variable (small : setup.meta_.numClasses ≤ 2^24)
include small

theorem stitch_yields {result : Pipeline.FrameResult ℚ} (cut : setup.cut i = .ok crops)
    (done : ∀ k < crops.length, Pipeline.Done setup.np setup.meta_ setup.predict (setup.directory i) crops files k) :
    (Pipeline.stitch setup.meta_ (setup.directory i) files setup.request).map (·.result) = .ok result ↔ setup.Yields i result := by
  obtain ⟨tiles,frame,built,pixels,split,count,size⟩ := cut_parts setup cut
  obtain ⟨perTile,inferred,read⟩ := Pipeline.read_all small done
  rw [size,← count] at read
  have whole : setup.reference i = (Pipeline.inProcess setup.np setup.meta_ setup.predict frame (setup.request.cap setup.meta_) >>=
      Pipeline.gate (setup.request.thresh setup.meta_)) := by
    unfold Setup.reference
    rw [pixels,orRaise_some]
    rfl
  unfold Setup.Yields
  rw [Pipeline.stitch_ok built read,whole,Pipeline.inProcess_ok built split]
  constructor
  · intro given
    exact ⟨⟨perTile,inferred,given.1⟩,given.2⟩
  · intro given
    obtain ⟨⟨other,again,merged⟩,named⟩ := given
    cases inferred.symm.trans again
    exact ⟨merged,named⟩

theorem stitch_ends (split : setup.cut i = .ok crops) (tiles : ∀ tile < setup.nTiles, ∃ ack, setup.Done disk (.inf i tile) ack) :
    setup.post (.stitch i) ((stitchJob setup i).alone disk).1 ((stitchJob setup i).alone disk).2 := by
  obtain ⟨_,_,_,_,_,_,size⟩ := cut_parts setup split
  have done : ∀ k < crops.length, Pipeline.Done setup.np setup.meta_ setup.predict (setup.directory i) crops disk.files k := by
    intro k below
    obtain ⟨_,other,same,done⟩ := tiles k (size ▸ below)
    cases split.symm.trans same
    exact done
  rw [stitch_alone]
  cases stitched : Pipeline.stitch setup.meta_ (setup.directory i) disk.files setup.request with
  | error raised =>
    intro result yields
    have there := (stitch_yields setup small split done).mpr yields
    rw [stitched] at there
    cases there
  | ok stitched' =>
    refine ⟨⟨rfl,rfl,fun _ _ same => (by cases same)⟩,stitched',?_,stitch_hist stitched,rfl⟩
    exact (stitch_yields setup small split done).mp (by rw [stitched]; rfl)

end

end SymphonyAkida.ShardSystem
