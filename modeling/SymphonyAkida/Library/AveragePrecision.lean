import Mathlib.Algebra.Order.Field.Basic
import Mathlib.Data.Nat.Cast.Order.Field
import Mathlib.Data.List.Sort
import Mathlib.Order.Bounds.Basic
import Mathlib.Tactic.Linarith
import Mathlib.Tactic.Ring

-- Ranked lists of hits and misses, scored by the area under the precision
-- envelope: each hit adds the best precision reached at it or later.
namespace AveragePrecision
variable {K : Type} [Field K] [LinearOrder K]

def hits (found : Nat) (hit : Bool) : Nat := found+hit.toNat

-- The best precision at some rank of the list, after `found` hits in `seen` places.
def envelope (found seen : Nat) : List Bool → K
  | [] => 0
  | hit :: rest => max ((hits found hit : K)/(seen+1 : Nat)) (envelope (hits found hit) (seen+1) rest)

def gain (found seen : Nat) : List Bool → K
  | [] => 0
  | hit :: rest => (if hit then envelope found seen (hit :: rest) else 0)+gain (hits found hit) (seen+1) rest

-- At every rank of the shorter list it has found no more than the longer one.
def Dominated (a b : Nat) : List Bool → List Bool → Prop
  | [],_ => True
  | _ :: _,[] => False
  | f :: few,g :: more => hits a f ≤ hits b g ∧ Dominated (hits a f) (hits b g) few more

theorem dominated_front (found : Nat) {few more : List Bool} (first : few <+: more) : Dominated found found few more := by
  induction few generalizing found more with
  | nil => trivial
  | cons f few ih =>
    cases more with
    | nil => exact absurd (List.prefix_nil.mp first) (List.cons_ne_nil _ _)
    | cons g more =>
      obtain ⟨rfl,later⟩ := List.cons_prefix_cons.mp first
      exact ⟨Nat.le_refl _,ih _ later⟩

theorem count_cons (hit : Bool) (rest : List Bool) : List.count true (hit :: rest) = hit.toNat+rest.count true := by
  cases hit <;> simp [Nat.add_comm]

theorem dominated_counts {few more : List Bool} (size : few.length ≤ more.length)
    (counts : ∀ k ≤ few.length, a+(few.take k).count true ≤ b+(more.take k).count true) : Dominated a b few more := by
  induction few generalizing a b more with
  | nil => trivial
  | cons f few ih =>
    cases more with
    | nil => simp at size
    | cons g more =>
      refine ⟨?_,ih (by simpa using size) fun k within => ?_⟩
      · have first := counts 1 (by simp)
        unfold hits
        simpa only [List.take_succ_cons,List.take_zero,count_cons,List.count_nil,Nat.add_zero] using first
      · have later := counts (k+1) (by simpa using within)
        simp only [List.take_succ_cons,count_cons] at later
        unfold hits
        omega

theorem envelope_nonneg (found seen : Nat) (list : List Bool) : (0 : K) ≤ envelope found seen list := by
  induction list generalizing found seen with
  | nil => exact le_refl 0
  | cons hit rest ih => exact le_max_of_le_right (ih _ _)

theorem envelope_tail (found seen : Nat) (hit : Bool) (rest : List Bool) :
    (envelope (hits found hit) (seen+1) rest : K) ≤ envelope found seen (hit :: rest) := le_max_right _ _

variable [IsStrictOrderedRing K]

theorem gain_nonneg (found seen : Nat) (list : List Bool) : (0 : K) ≤ gain found seen list := by
  induction list generalizing found seen with
  | nil => exact le_refl 0
  | cons hit rest ih =>
    have later := ih (hits found hit) (seen+1)
    have here := envelope_nonneg (K := K) found seen (hit :: rest)
    unfold gain
    split
    · exact add_nonneg here later
    · exact add_nonneg (le_refl 0) later

theorem envelope_mono (seen : Nat) {few more : List Bool} (dominated : Dominated a b few more) :
    (envelope a seen few : K) ≤ envelope b seen more := by
  induction few generalizing a b seen more with
  | nil => exact envelope_nonneg b seen more
  | cons f few ih =>
    cases more with
    | nil => exact dominated.elim
    | cons g more =>
      have cast : (hits a f : K) ≤ hits b g := Nat.cast_le.mpr dominated.1
      refine max_le_max ?_ (ih (seen+1) dominated.2)
      exact div_le_div_of_nonneg_right cast (Nat.cast_nonneg _)

-- The hits the longer list is ahead by were counted at precisions no lower
-- than any still to come.
theorem gain_ahead (seen : Nat) {few more : List Bool} (ahead : a ≤ b) (dominated : Dominated a b few more) :
    (gain a seen few : K) ≤ gain b seen more+((b : K)-a)*envelope b seen more := by
  induction few generalizing a b seen more with
  | nil =>
    have lead : (0 : K) ≤ (b : K)-a := sub_nonneg.mpr (Nat.cast_le.mpr ahead)
    exact add_nonneg (gain_nonneg _ _ _) (mul_nonneg lead (envelope_nonneg _ _ _))
  | cons f few ih =>
    cases more with
    | nil => exact dominated.elim
    | cons g more =>
      have later := ih (seen+1) dominated.1 dominated.2
      have tail := envelope_tail (K := K) b seen g more
      have best := envelope_mono (K := K) (a := a) (b := b) seen (show Dominated a b (f :: few) (g :: more) from dominated)
      have lead : (0 : K) ≤ (hits b g : K)-hits a f := sub_nonneg.mpr (Nat.cast_le.mpr dominated.1)
      have carried := mul_le_mul_of_nonneg_left tail lead
      have counted : ∀ (hit : Bool) (e : K), (if hit then e else 0) = (hit.toNat : K)*e := by
        intro hit e
        cases hit <;> simp
      have first : ((f.toNat : K))*envelope a seen (f :: few) ≤ f.toNat*envelope b seen (g :: more) :=
        mul_le_mul_of_nonneg_left best (Nat.cast_nonneg _)
      simp only [gain,counted]
      calc (f.toNat : K)*envelope a seen (f :: few)+gain (hits a f) (seen+1) few
          ≤ f.toNat*envelope b seen (g :: more)+
              (gain (hits b g) (seen+1) more+((hits b g : K)-hits a f)*envelope b seen (g :: more)) := by linarith
        _ = g.toNat*envelope b seen (g :: more)+gain (hits b g) (seen+1) more+
              ((b : K)-a)*envelope b seen (g :: more) := by
            unfold hits
            push_cast
            ring

theorem gain_mono {few more : List Bool} (dominated : Dominated 0 0 few more) : (gain 0 0 few : K) ≤ gain 0 0 more := by
  have all := gain_ahead (K := K) 0 (Nat.le_refl 0) dominated
  simpa using all

def precisionAt (found seen : Nat) (list : List Bool) (j : Nat) : K :=
  ((found+(list.take (j+1)).count true : Nat) : K)/(seen+j+1 : Nat)

omit [LinearOrder K] [IsStrictOrderedRing K] in
theorem precisionAt_zero (found seen : Nat) (hit : Bool) (rest : List Bool) :
    (precisionAt found seen (hit :: rest) 0 : K) = (hits found hit : K)/(seen+1 : Nat) := by
  rw [precisionAt,List.take_succ_cons,List.take_zero,count_cons,List.count_nil]
  rfl

omit [LinearOrder K] [IsStrictOrderedRing K] in
theorem precisionAt_succ (found seen : Nat) (hit : Bool) (rest : List Bool) (j : Nat) :
    (precisionAt found seen (hit :: rest) (j+1) : K) = precisionAt (hits found hit) (seen+1) rest j := by
  unfold precisionAt hits
  rw [List.take_succ_cons,count_cons,Nat.add_assoc found,Nat.add_assoc seen 1,Nat.add_comm 1 j]

omit [LinearOrder K] [IsStrictOrderedRing K] in
theorem precisionAt_drop (found seen : Nat) (list : List Bool) (k i : Nat) :
    (precisionAt (found+(list.take k).count true) (seen+k) (list.drop k) i : K) = precisionAt found seen list (k+i) := by
  unfold precisionAt
  have parts : list.take (k+i+1) = list.take k ++ (list.drop k).take (i+1) := by
    rw [Nat.add_assoc,List.take_add]
  rw [parts,List.count_append,Nat.add_assoc found,Nat.add_assoc seen]

theorem envelope_greatest (found seen : Nat) {list : List Bool} (filled : list ≠ []) :
    IsGreatest {p : K | ∃ j < list.length, p = precisionAt found seen list j} (envelope found seen list) := by
  induction list generalizing found seen with
  | nil => exact absurd rfl filled
  | cons hit rest ih =>
    have first : (hits found hit : K)/(seen+1 : Nat) = precisionAt found seen (hit :: rest) 0 :=
      (precisionAt_zero found seen hit rest).symm
    have nonneg : (0 : K) ≤ (hits found hit : K)/(seen+1 : Nat) := div_nonneg (Nat.cast_nonneg _) (Nat.cast_nonneg _)
    unfold envelope
    cases rest with
    | nil =>
      rw [show (envelope (hits found hit) (seen+1) [] : K) = 0 from rfl,max_eq_left nonneg]
      refine ⟨⟨0,Nat.one_pos,first⟩,?_⟩
      rintro p ⟨j,below,rfl⟩
      rw [Nat.lt_one_iff.mp below,first]
    | cons next rest =>
      obtain ⟨⟨j,below,best⟩,most⟩ := ih (hits found hit) (seen+1) (List.cons_ne_nil _ _)
      refine ⟨?_,?_⟩
      · rcases max_choice ((hits found hit : K)/(seen+1 : Nat)) (envelope (hits found hit) (seen+1) (next :: rest)) with here | there
        · exact ⟨0,Nat.succ_pos _,here.trans first⟩
        · exact ⟨j+1,Nat.succ_lt_succ below,there.trans (best.trans (precisionAt_succ found seen hit (next :: rest) j).symm)⟩
      · rintro p ⟨j,below,rfl⟩
        cases j with
        | zero => exact le_max_of_le_left (le_of_eq first.symm)
        | succ j =>
          rw [precisionAt_succ]
          exact le_max_of_le_right (most ⟨j,Nat.lt_of_succ_lt_succ below,rfl⟩)

def best (found seen : Nat) (list : List Bool) (k : Nat) : K :=
  envelope (found+(list.take k).count true) (seen+k) (list.drop k)

theorem best_greatest (found seen : Nat) {list : List Bool} (below : k < list.length) :
    IsGreatest {p : K | ∃ j, k ≤ j ∧ j < list.length ∧ p = precisionAt found seen list j} (best found seen list k) := by
  have filled : list.drop k ≠ [] := by
    rw [Ne,List.drop_eq_nil_iff]
    exact Nat.not_le.mpr below
  obtain ⟨⟨i,inside,here⟩,most⟩ := envelope_greatest (K := K) (found+(list.take k).count true) (seen+k) filled
  rw [List.length_drop] at inside
  refine ⟨⟨k+i,Nat.le_add_right k i,by omega,here.trans (precisionAt_drop found seen list k i)⟩,?_⟩
  rintro p ⟨j,from_,within,rfl⟩
  obtain ⟨i,rfl⟩ := Nat.exists_eq_add_of_le from_
  rw [← precisionAt_drop]
  exact most ⟨i,by rw [List.length_drop]; omega,rfl⟩

def hitRanks (list : List Bool) : List Nat := (List.range list.length).filter (list.getD · false)

omit [LinearOrder K] [IsStrictOrderedRing K] in
theorem hitRanks_cons (hit : Bool) (rest : List Bool) :
    hitRanks (hit :: rest) = (if hit then [0] else []) ++ (hitRanks rest).map Nat.succ := by
  unfold hitRanks
  rw [List.length_cons,List.range_succ_eq_map,List.filter_cons,List.filter_map]
  cases hit <;> simp [Function.comp_def]

omit [IsStrictOrderedRing K] in
theorem gain_sum (found seen : Nat) (list : List Bool) :
    (gain found seen list : K) = ((hitRanks list).map (best found seen list)).sum := by
  induction list generalizing found seen with
  | nil => rfl
  | cons hit rest ih =>
    have later : ∀ k, (best found seen (hit :: rest) (k+1) : K) = best (hits found hit) (seen+1) rest k := by
      intro k
      unfold best hits
      rw [List.take_succ_cons,count_cons,List.drop_succ_cons,Nat.add_assoc found,Nat.add_assoc seen 1,Nat.add_comm 1 k]
    rw [gain,ih,hitRanks_cons,List.map_append,List.sum_append,List.map_map]
    congr 1
    · cases hit <;> simp [best]
    · exact congrArg List.sum (List.map_congr_left fun k _ => (later k).symm)

theorem envelope_le_one (list : List Bool) (room : found ≤ seen) : (envelope found seen list : K) ≤ 1 := by
  induction list generalizing found seen with
  | nil => exact zero_le_one
  | cons hit rest ih =>
    have next : hits found hit ≤ seen+1 := by
      unfold hits
      cases hit <;> simp <;> omega
    refine max_le ?_ (ih next)
    rw [div_le_one (Nat.cast_pos.mpr (Nat.succ_pos seen))]
    exact Nat.cast_le.mpr next

theorem envelope_hits (n found : Nat) : (envelope found found (true :: List.replicate n true) : K) = 1 := by
  have first : ((hits found true : Nat) : K)/(found+1 : Nat) = 1 :=
    div_self (Nat.cast_ne_zero.mpr (Nat.succ_ne_zero found))
  rw [envelope,first]
  exact max_eq_left (envelope_le_one _ (Nat.le_refl _))

theorem gain_hits (n found : Nat) : (gain found found (List.replicate n true) : K) = n := by
  induction n generalizing found with
  | zero => simp [gain]
  | succ n ih =>
    rw [List.replicate_succ,gain,if_pos rfl,envelope_hits,show hits found true = found+1 from rfl,ih,Nat.cast_succ,add_comm]

theorem gain_le (list : List Bool) (room : found ≤ seen) : (gain found seen list : K) ≤ (list.count true : Nat) := by
  induction list generalizing found seen with
  | nil => simp [gain]
  | cons hit rest ih =>
    have next : hits found hit ≤ seen+1 := by
      unfold hits
      cases hit <;> simp <;> omega
    rw [gain,count_cons,Nat.cast_add]
    refine add_le_add ?_ (ih next)
    cases hit with
    | true => simpa using envelope_le_one (K := K) (true :: rest) room
    | false => simp

end AveragePrecision
