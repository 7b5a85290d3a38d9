import SymphonyAkida.Library.Order
import Mathlib.Data.Prod.Lex
import Mathlib.Data.String.Basic
import Mathlib.Order.Lex
import Mathlib.Data.Bool.Basic

namespace SymphonyAkida.Datasets

-- What prepare_samples.convert writes for a set, as far as the two apps choose by it.
structure Sidecar where
  set : String
  model : String
  count : Nat
  random : Bool
deriving DecidableEq

def suffix : String := ".samples.json"

-- os.path.join(out_dir, set_name + ".samples.json")
def Sidecar.file (side : Sidecar) : String := side.set ++ suffix

-- The * of a glob does not match a leading dot.
def Sidecar.hidden (side : Sidecar) : Bool := side.file.toList.head? == some '.'

def byFile (files : List Sidecar) : List Sidecar := files.insertionSort fun a b => a.file ≤ b.file

-- (bool(side.get("random")), -int(side.get("count") or 0), set_name)
def rank (side : Sidecar) : Bool ×ₗ Int ×ₗ String := toLex (side.random,toLex (-(side.count : Int),side.set))

def better (model : String) (best : Option Sidecar) (side : Sidecar) : Option Sidecar :=
  if side.model ≠ model then best
  else
    match best with
    | none => some side
    | some least => if rank side < rank least then some side else some least

def resolveSet (files : List Sidecar) (model : String) : Option Sidecar := (byFile files).foldl (better model) none

-- (d["is_random"], -d["count"])
def order (side : Sidecar) : Bool ×ₗ Int := toLex (side.random,-(side.count : Int))

def listDatasets (files : List Sidecar) (models : List String) : List Sidecar :=
  (((byFile files).filter (!·.hidden)).filter (models.contains ·.model)).insertionSort fun a b => order a ≤ order b

-- resolve_set's choice is the dashboard's first entry for the model.
def Agree (files : List Sidecar) (models : List String) (model : String) : Prop :=
  (resolveSet files model).map (·.set) = ((listDatasets files models).find? (·.model == model)).map (·.set)

instance (files : List Sidecar) (models : List String) (model : String) : Decidable (Agree files models model) :=
  inferInstanceAs (Decidable (_ = _))

-- What the docstring of resolve_set promises of a choice.
structure First (files : List Sidecar) (model : String) (s : Sidecar) : Prop where
  member : s ∈ files
  fits : s.model = model
  least : ∀ t ∈ files, t.model = model → t ≠ s → rank s < rank t

def Least (model : String) (done : List Sidecar) : Option Sidecar → Prop
  | none => ∀ t ∈ done, t.model ≠ model
  | some s => s ∈ done ∧ s.model = model ∧ ∀ t ∈ done, t.model = model → rank s ≤ rank t

theorem better_least (least : Least model done best) (side : Sidecar) : Least model (done ++ [side]) (better model best side) := by
  unfold better
  split
  · rename_i other
    cases best with
    | none =>
      intro t member
      rcases List.mem_append.mp member with old | last
      · exact least t old
      · rw [List.mem_singleton.mp last]
        exact other
    | some s =>
      obtain ⟨member,fits,below⟩ := least
      refine ⟨List.mem_append_left _ member,fits,fun t inside same => ?_⟩
      rcases List.mem_append.mp inside with old | last
      · exact below t old same
      · rw [List.mem_singleton.mp last] at same
        exact absurd same other
  · rename_i fits
    rw [not_not] at fits
    have added : side ∈ done ++ [side] := List.mem_append_right _ List.mem_cons_self
    cases best with
    | none =>
      refine ⟨added,fits,fun t inside same => ?_⟩
      rcases List.mem_append.mp inside with old | last
      · exact absurd same (least t old)
      · exact le_of_eq (congrArg rank (List.mem_singleton.mp last).symm)
    | some s =>
      obtain ⟨member,held,below⟩ := least
      dsimp only
      split
      · rename_i less
        refine ⟨added,fits,fun t inside same => ?_⟩
        rcases List.mem_append.mp inside with old | last
        · exact le_trans (le_of_lt less) (below t old same)
        · exact le_of_eq (congrArg rank (List.mem_singleton.mp last).symm)
      · rename_i more
        refine ⟨List.mem_append_left _ member,held,fun t inside same => ?_⟩
        rcases List.mem_append.mp inside with old | last
        · exact below t old same
        · rw [List.mem_singleton.mp last]
          exact not_lt.mp more

theorem scan_least (rest : List Sidecar) (least : Least model done best) :
    Least model (done ++ rest) (rest.foldl (better model) best) := by
  induction rest generalizing done best with
  | nil => simpa using least
  | cons side rest ih =>
    have whole : done ++ side :: rest = done ++ [side] ++ rest := by simp
    rw [whole,List.foldl_cons]
    exact ih (better_least least side)

theorem byFile_perm (files : List Sidecar) : (byFile files).Perm files := List.perm_insertionSort _ _

theorem resolveSet_least (files : List Sidecar) (model : String) : Least model files (resolveSet files model) := by
  have start : Least model [] none := fun t member => absurd member List.not_mem_nil
  have scanned := scan_least (byFile files) start
  rw [List.nil_append] at scanned
  unfold resolveSet
  cases chosen : (byFile files).foldl (better model) none with
  | none =>
    rw [chosen] at scanned
    exact fun t member => scanned t ((byFile_perm files).mem_iff.mpr member)
  | some s =>
    rw [chosen] at scanned
    obtain ⟨member,fits,below⟩ := scanned
    exact ⟨(byFile_perm files).mem_iff.mp member,fits,fun t inside => below t ((byFile_perm files).mem_iff.mpr inside)⟩

theorem rank_set {s t : Sidecar} (same : rank s = rank t) : s.set = t.set :=
  congrArg (fun key => (ofLex (ofLex key).2).2) same

theorem eq_of_set {files : List Sidecar} (distinct : (files.map (·.set)).Nodup) (first : s ∈ files) (second : t ∈ files)
    (same : s.set = t.set) : s = t :=
  List.inj_on_of_nodup_map distinct first second same

theorem resolveSet_first {files : List Sidecar} (distinct : (files.map (·.set)).Nodup) (chosen : resolveSet files model = some s) :
    First files model s := by
  have least := resolveSet_least files model
  rw [chosen] at least
  obtain ⟨member,fits,below⟩ := least
  refine ⟨member,fits,fun t inside same apart => lt_of_le_of_ne (below t inside same) fun equal => ?_⟩
  exact apart (eq_of_set distinct inside member (rank_set equal).symm)

theorem file_lt_iff {s t : Sidecar} : s.file < t.file ↔ s.set.toList ++ suffix.toList < t.set.toList ++ suffix.toList := by
  rw [String.lt_iff_toList_lt,Sidecar.file,Sidecar.file,String.toList_append,String.toList_append]

-- The first entry of the dropdown for a model: a tie goes to the first file.
theorem listDatasets_first {files : List Sidecar} (distinct : (files.map (·.set)).Nodup)
    (found : (listDatasets files models).find? (·.model == model) = some d) :
    d ∈ files ∧ d.hidden = false ∧ d.model = model ∧
      ∀ e ∈ files, e.hidden = false → e.model = model → model ∈ models → e ≠ d →
        order d < order e ∨ (order d = order e ∧ d.file ≤ e.file) := by
  have perm := byFile_perm files
  have whole : (byFile files).Nodup := perm.nodup_iff.mpr (List.Nodup.of_map _ distinct)
  have sorted : (byFile files).Pairwise fun a b => a.file ≤ b.file :=
    @List.pairwise_insertionSort _ (fun a b : Sidecar => a.file ≤ b.file) _ ⟨fun a b => le_total a.file b.file⟩ ⟨fun _ _ _ => le_trans⟩ files
  obtain ⟨member,fits,least⟩ := Stable.find_spec ((whole.filter _).filter _) found
  obtain ⟨shown,_⟩ := List.mem_filter.mp member
  obtain ⟨there,visible⟩ := List.mem_filter.mp shown
  refine ⟨perm.mem_iff.mp there,by simpa using visible,by simpa using fits,?_⟩
  intro e inside seen same listed apart
  have offered : e ∈ ((byFile files).filter (!·.hidden)).filter (models.contains ·.model) :=
    List.mem_filter.mpr ⟨List.mem_filter.mpr ⟨perm.mem_iff.mpr inside,by simpa using seen⟩,by simpa [same] using listed⟩
  rcases least e offered (by simpa using same) apart with less | ⟨tie,early⟩
  · exact .inl less
  · have pair := ((sorted.filter (!·.hidden)).filter (models.contains ·.model)).sublist early
    exact .inr ⟨tie,by simpa using pair⟩

theorem listDatasets_none {files : List Sidecar} (none : (listDatasets files models).find? (·.model == model) = none)
    (listed : model ∈ models) (inside : e ∈ files) (same : e.model = model) : e.hidden = true := by
  by_contra seen
  have offered : e ∈ listDatasets files models := by
    unfold listDatasets
    rw [List.mem_insertionSort]
    exact List.mem_filter.mpr ⟨List.mem_filter.mpr ⟨(byFile_perm files).mem_iff.mpr inside,by simpa using seen⟩,
      by simpa [same] using listed⟩
  have barred := List.find?_eq_none.mp none e offered
  simp [same] at barred

theorem rank_lt_iff {s t : Sidecar} : rank s < rank t ↔ order s < order t ∨ (order s = order t ∧ s.set < t.set) := by
  simp only [rank,order,Prod.Lex.toLex_lt_toLex,EmbeddingLike.apply_eq_iff_eq,Prod.mk.injEq]
  tauto

theorem order_eq_iff {s t : Sidecar} : order s = order t ↔ s.random = t.random ∧ s.count = t.count := by
  have counts : -(s.count : Int) = -(t.count : Int) ↔ s.count = t.count := by omega
  rw [order,order,EmbeddingLike.apply_eq_iff_eq,Prod.mk.injEq,counts]

theorem set_of_file {s t : Sidecar} (same : s.file = t.file) : s.set = t.set := by
  apply String.toList_inj.mp
  have lists := congrArg String.toList same
  rw [Sidecar.file,Sidecar.file,String.toList_append,String.toList_append] at lists
  exact List.append_cancel_right lists

-- A longer name may still be the first file, when what it goes on with sorts
-- before the suffix.
theorem file_order {s t : Sidecar} (less : s.set < t.set) :
    t.file ≤ s.file ↔ ∃ r, r ≠ "" ∧ t.set = s.set ++ r ∧ r ++ suffix < suffix := by
  have apart : t.file ≠ s.file := fun same => absurd less (set_of_file same ▸ lt_irrefl _)
  rw [le_iff_lt_or_eq,or_iff_left apart,file_lt_iff,Lexicographic.append_lt_iff (String.lt_iff_toList_lt.mp less)]
  constructor
  · intro found
    obtain ⟨r,filled,same,short⟩ := found
    refine ⟨String.ofList r,?_,?_,?_⟩
    · intro empty
      exact filled (by simpa using congrArg String.toList empty)
    · apply String.toList_inj.mp
      rw [same,String.toList_append,String.toList_ofList]
    · rwa [String.lt_iff_toList_lt,String.toList_append,String.toList_ofList]
  · intro found
    obtain ⟨r,filled,same,short⟩ := found
    refine ⟨r.toList,?_,?_,?_⟩
    · intro empty
      exact filled (String.toList_inj.mp empty)
    · rw [same,String.toList_append]
    · rwa [String.lt_iff_toList_lt,String.toList_append] at short

theorem ne_append {s r : String} (filled : r ≠ "") : s ≠ s ++ r := by
  intro longer
  have lists := congrArg String.toList longer
  rw [String.toList_append] at lists
  exact filled (String.toList_inj.mp (by simpa using lists))

theorem hidden_append {s t : Sidecar} (longer : t.set = s.set ++ r) (seen : s.hidden = false) : t.hidden = false := by
  unfold Sidecar.hidden Sidecar.file at seen ⊢
  rw [String.toList_append] at seen
  rw [longer,String.toList_append,String.toList_append]
  cases start : s.set.toList with
  | nil =>
    rw [start] at seen
    exact absurd seen (by decide)
  | cons c rest =>
    rw [start] at seen
    exact seen

theorem resolveSet_of_first {files : List Sidecar} (distinct : (files.map (·.set)).Nodup) (first : First files model s) :
    resolveSet files model = some s := by
  have least := resolveSet_least files model
  cases chosen : resolveSet files model with
  | none =>
    rw [chosen] at least
    exact absurd first.fits (least s first.member)
  | some b =>
    have best := resolveSet_first distinct chosen
    congr 1
    by_contra apart
    exact absurd (first.least b best.member best.fits apart) (lt_asymm (best.least s first.member first.fits (Ne.symm apart)))

theorem agree_iff_found {files : List Sidecar} (distinct : (files.map (·.set)).Nodup) (first : First files model s) :
    Agree files models model ↔ (listDatasets files models).find? (·.model == model) = some s := by
  rw [Agree,resolveSet_of_first distinct first,eq_comm,Option.map_some,Option.map_eq_some_iff]
  constructor
  · intro shown
    obtain ⟨d,found,named⟩ := shown
    obtain ⟨inside,_⟩ := listDatasets_first distinct found
    rw [found,eq_of_set distinct inside first.member named]
  · intro found
    exact ⟨s,found,rfl⟩

theorem found_iff {files : List Sidecar} (distinct : (files.map (·.set)).Nodup) (listed : model ∈ models) (first : First files model s) :
    (listDatasets files models).find? (·.model == model) = some s ↔ s.hidden = false ∧
      ∀ t ∈ files, t.model = model → t.random = s.random → t.count = s.count →
        ∀ r, r ≠ "" → t.set = s.set ++ r → ¬r ++ suffix < suffix := by
  constructor
  · intro found
    obtain ⟨inside,seen,_,early⟩ := listDatasets_first distinct found
    refine ⟨seen,fun t member fits noise size r filled longer short => ?_⟩
    have apart : t ≠ s := fun same => ne_append filled (same ▸ longer)
    have tie : order s = order t := order_eq_iff.mpr ⟨noise.symm,size.symm⟩
    have less : s.set < t.set := by
      rcases rank_lt_iff.mp (first.least t member fits apart) with below | ⟨_,less⟩
      · exact absurd below (tie ▸ lt_irrefl _)
      · exact less
    rcases early t member (hidden_append longer seen) fits listed apart with below | ⟨_,before⟩
    · exact absurd below (tie ▸ lt_irrefl _)
    · have after := (file_order less).mpr ⟨r,filled,longer,short⟩
      have named := set_of_file (le_antisymm before after)
      exact absurd less (named ▸ lt_irrefl _)
  · intro held
    obtain ⟨seen,ties⟩ := held
    cases found : (listDatasets files models).find? (·.model == model) with
    | none =>
      rw [listDatasets_none found listed first.member first.fits] at seen
      cases seen
    | some d =>
      obtain ⟨inside,_,fits,early⟩ := listDatasets_first distinct found
      congr 1
      by_contra apart
      have below := rank_lt_iff.mp (first.least d inside fits apart)
      rcases early s first.member seen first.fits listed (Ne.symm apart) with less | ⟨tie,before⟩
      · rcases below with other | ⟨equal,_⟩
        · exact absurd less (lt_asymm other)
        · exact absurd less (equal ▸ lt_irrefl _)
      · rcases below with other | ⟨_,less⟩
        · exact absurd other (tie ▸ lt_irrefl _)
        · obtain ⟨r,filled,longer,short⟩ := (file_order less).mp before
          obtain ⟨noise,size⟩ := order_eq_iff.mp tie
          exact ties d inside fits noise size r filled longer short

-- The two apps agree for a model exactly when its first set by rank can be seen
-- and no tied set's name goes on from its name in a way that sorts before the suffix.
theorem apps_agree {files : List Sidecar} (distinct : (files.map (·.set)).Nodup) {models : List String} (listed : model ∈ models) :
    Agree files models model ↔ ∀ s, First files model s → s.hidden = false ∧
      ∀ t ∈ files, t.model = model → t.random = s.random → t.count = s.count →
        ∀ r, r ≠ "" → t.set = s.set ++ r → ¬r ++ suffix < suffix := by
  constructor
  · intro agree s first
    exact (found_iff distinct listed first).mp ((agree_iff_found distinct first).mp agree)
  · intro holds
    cases chosen : resolveSet files model with
    | some s =>
      have first := resolveSet_first distinct chosen
      exact (agree_iff_found distinct first).mpr ((found_iff distinct listed first).mpr (holds s first))
    | none =>
      have least := resolveSet_least files model
      rw [chosen] at least
      rw [Agree,chosen]
      cases found : (listDatasets files models).find? (·.model == model) with
      | none => rfl
      | some d =>
        obtain ⟨inside,_,fits,_⟩ := listDatasets_first distinct found
        exact absurd fits (least d inside)

-- Two sets as large as each other, the name of one going on from the other's,
-- before a larger one of noise.
def tied : List Sidecar := [⟨"noise","yolo",200,true⟩,⟨"voc_b","yolo",96,false⟩,⟨"voc","yolo",96,false⟩]

theorem tied_first (first : First tied "yolo" s) : s = ⟨"voc","yolo",96,false⟩ := by
  by_contra other
  have voc : (⟨"voc","yolo",96,false⟩ : Sidecar) ∈ tied := by simp [tied]
  have less := first.least _ voc rfl (Ne.symm other)
  have member := first.member
  simp only [tied,List.mem_cons,List.not_mem_nil,or_false] at member
  obtain rfl | rfl | rfl := member
  · exact absurd less (by decide +kernel)
  · exact absurd less (by decide +kernel)
  · exact other rfl

theorem apps_agree_tied : Agree tied ["yolo"] "yolo" ∧ resolveSet tied "yolo" = some ⟨"voc","yolo",96,false⟩ := by
  refine ⟨(apps_agree (by decide +kernel) (by decide)).mpr fun s first => ?_,by decide +kernel⟩
  rw [tied_first first]
  refine ⟨by decide,fun t member _ _ _ r filled longer => ?_⟩
  simp only [tied,List.mem_cons,List.not_mem_nil,or_false] at member
  have whole := congrArg String.toList longer
  rw [String.toList_append] at whole
  obtain rfl | rfl | rfl := member
  · cases whole
  · have ends : "voc".toList ++ "_b".toList = "voc".toList ++ r.toList := whole
    have rest : r.toList = "_b".toList := (List.append_cancel_left ends).symm
    rw [String.toList_inj.mp rest]
    decide +kernel
  · exact absurd longer (ne_append filled)

-- Two sets of a model, as large as each other; the name of one goes on from the
-- other's with a dash, which sorts before the dot.
def dashed : List Sidecar := [⟨"voc","yolo",96,false⟩,⟨"voc-b","yolo",96,false⟩]

theorem dashed_differ : ¬Agree dashed ["yolo"] "yolo" := by decide +kernel

end SymphonyAkida.Datasets
