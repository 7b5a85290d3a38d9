import SymphonyAkida.Decode

namespace SymphonyAkida.TiledShard
open Outcome Arrays
variable {K : Type} [Field K] [LinearOrder K] {np : Numpy K} {numClasses : Nat}

-- What holds of every detection a tile gives: its label is a class, and its
-- numbers are float32 values.
structure Sound (np : Numpy K) (one : Candidate K numClasses) : Prop where
  label : one.label < numClasses
  score : 0 ≤ one.score ∧ np.float32 one.score = one.score
  box : one.box.map np.float32 = one.box
  classes : one.classes.map np.float32 = one.classes

theorem sigmoid_nonneg [IsStrictOrderedRing K] (np : Numpy K) (x : K) : 0 ≤ sigmoid np x :=
  div_nonneg zero_le_one (add_nonneg zero_le_one (np.exp_nonneg _))

theorem castCell_sound {cell : Box K × K × Vector K numClasses} (ran : castCell np cell = .ok one)
    (positive : 0 ≤ cell.2.1) : Sound np one := by
  obtain ⟨box,confidence,classes⟩ := cell
  obtain ⟨label,first,ran⟩ := bind_ok ran
  cases ran
  cases largest : Argmax.argmax (classes.map np.float32).toList with
  | none => rw [largest] at first; cases first
  | some k =>
    rw [largest] at first
    cases first
    obtain ⟨_,found⟩ := Argmax.argmax_spec largest
    refine ⟨?_,⟨np.float32_nonneg _ positive,np.float32_idem _⟩,?_,?_⟩
    · have below := (List.getElem?_eq_some_iff.mp found.here).1
      simpa using below
    · simp [Box.map,np.float32_idem]
    · simp [Vector.map_map,Function.comp_def,np.float32_idem]

theorem candidates_sound [IsStrictOrderedRing K] {output : Output K}
    (ran : candidates np output anchors numClasses objThreshold = .ok found) : ∀ one ∈ found, Sound np one := by
  unfold candidates at ran
  dsimp only at ran
  split at ran
  · obtain ⟨soft,_,ran⟩ := bind_ok ran
    intro one member
    obtain ⟨cell,inside,cast⟩ := mapM_mem ran member
    obtain ⟨i,_,rfl⟩ := List.mem_map.mp (List.mem_filter.mp inside).1
    exact castCell_sound cast (sigmoid_nonneg np _)
  · cases ran

section
variable {P : K → Prop} {found : List (Candidate K numClasses)} {scores : List K}

theorem strike_keeps (zero : P 0) (held : ∀ s ∈ scores, P s) :
    ∀ s ∈ strike nmsThreshold found c i scores j, P s := by
  unfold strike
  split
  · split
    · exact held
    · split
      · intro s member
        rcases List.mem_or_eq_of_mem_set member with old | rfl
        · exact held s old
        · exact zero
      · exact held
  · exact held

theorem walk_keeps (zero : P 0) (order : List Nat) (held : ∀ s ∈ scores, P s) :
    ∀ s ∈ nmsWalk nmsThreshold found c order scores, P s := by
  induction order generalizing scores with
  | nil => exact held
  | cons i rest ih =>
    unfold nmsWalk
    apply ih
    split
    · exact held
    · have all : ∀ later : List Nat, ∀ scores : List K, (∀ s ∈ scores, P s) →
          ∀ s ∈ later.foldl (strike nmsThreshold found c i) scores, P s := by
        intro later
        induction later with
        | nil => exact fun _ held => held
        | cons j later ih => exact fun _ held => ih _ (strike_keeps zero held)
      exact all rest scores held

theorem nms_keeps (np : Numpy K) (nmsThreshold : K) (zero : P 0) (held : ∀ one ∈ found, P one.score) :
    ∀ s ∈ nmsScores np nmsThreshold found, P s := by
  have all : ∀ classes : List Nat, ∀ scores : List K, (∀ s ∈ scores, P s) →
      ∀ s ∈ classes.foldl (fun scores c => nmsWalk nmsThreshold found c
        (np.argsort (found.map (·.classes.toList.getD c 0))).reverse scores) scores, P s := by
    intro classes
    induction classes with
    | nil => exact fun _ held => held
    | cons c classes ih => exact fun _ held => ih _ (walk_keeps zero _ held)
  apply all
  intro s member
  obtain ⟨one,inside,rfl⟩ := List.mem_map.mp member
  exact held one inside

end

omit [Field K] [LinearOrder K] in
theorem rescored_mem {found : List (Candidate K numClasses)} {scores : List K} (member : one ∈ rescored found scores) :
    ∃ old ∈ found, ∃ s ∈ scores, one = {old with score := s} := by
  induction found generalizing scores with
  | nil => cases member
  | cons old found ih =>
    cases scores with
    | nil => cases member
    | cons s scores =>
      rcases List.mem_cons.mp member with rfl | later
      · exact ⟨old,List.mem_cons_self,s,List.mem_cons_self,rfl⟩
      · obtain ⟨other,inside,t,found_,same⟩ := ih later
        exact ⟨other,List.mem_cons_of_mem _ inside,t,List.mem_cons_of_mem _ found_,same⟩

theorem decodeTile_sound [IsStrictOrderedRing K]
    (ran : decodeTile np output anchors numClasses objThreshold nmsThreshold = .ok entry) :
    ∃ found : List (Candidate K numClasses), entry = entryOf found ∧ ∀ one ∈ found, Sound np one := by
  obtain ⟨found,first,ran⟩ := bind_ok ran
  cases ran
  refine ⟨_,rfl,?_⟩
  intro one member
  have sound := candidates_sound first
  obtain ⟨old,inside,s,scored,rfl⟩ := rescored_mem (List.mem_filter.mp member).1
  have fixed : np.float32 0 = 0 := by simpa using np.float32_int 0 (by decide)
  have held := nms_keeps (P := fun s => 0 ≤ s ∧ np.float32 s = s) np nmsThreshold ⟨le_refl 0,fixed⟩
    (fun one member => (sound one member).score) s scored
  exact ⟨(sound old inside).label,held,(sound old inside).box,(sound old inside).classes⟩

end SymphonyAkida.TiledShard
