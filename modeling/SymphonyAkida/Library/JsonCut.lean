import SymphonyAkida.Library.JsonSpec

namespace Json
open Outcome

-- What is left of a number that is cut short.
def numeric (c : Char) : Bool := c.isDigit || isSign c || c == '.' || c == 'e' || c == 'E'

theorem digits_numeric {text : List Char} : ∀ c ∈ text.takeWhile Char.isDigit, numeric c = true := by
  intro c member
  simp [numeric,List.mem_takeWhile_imp member]

theorem wholePart_numeric (found : wholePart text = some (whole,after)) : ∀ c ∈ whole, numeric c = true := by
  intro c member
  cases text with
  | nil => cases found
  | cons d text =>
    simp only [wholePart] at found
    split at found
    · rename_i zero
      cases found
      rw [List.mem_singleton.mp member,zero]
      rfl
    · split at found
      · rename_i digit
        cases found
        rcases List.mem_cons.mp member with rfl | later
        · simp [numeric,digit]
        · exact digits_numeric c later
      · cases found

theorem minusPart_numeric (text : List Char) : ∀ c ∈ (minusPart text).1, numeric c = true := by
  intro c member
  unfold minusPart at member
  split at member
  · rw [List.mem_singleton.mp member]
    rfl
  · cases member

theorem fracPart_numeric (text : List Char) : ∀ c ∈ (fracPart text).1, numeric c = true := by
  intro c member
  unfold fracPart at member
  split at member
  · split at member
    · cases member
    · rcases List.mem_cons.mp member with rfl | later
      · rfl
      · exact digits_numeric c later
  · cases member

theorem signPart_numeric (text : List Char) : ∀ c ∈ (signPart text).1, numeric c = true := by
  intro c member
  unfold signPart at member
  split at member
  · cases member
  · split at member
    · rename_i sign
      rw [List.mem_singleton.mp member]
      simp [numeric,sign]
    · cases member

theorem expPart_numeric (text : List Char) : ∀ c ∈ (expPart text).1, numeric c = true := by
  intro c member
  unfold expPart at member
  split at member
  · cases member
  · split at member
    · rename_i e
      dsimp only at member
      split at member
      · cases member
      · rcases List.mem_cons.mp member with rfl | later
        · rcases e with rfl | rfl <;> rfl
        · rcases List.mem_append.mp later with sign | digit
          · exact signPart_numeric _ c sign
          · exact digits_numeric c digit
    · cases member

theorem numberToken_numeric (found : numberToken text = some (token,after)) : ∀ c ∈ token.text, numeric c = true := by
  unfold numberToken at found
  simp only [Option.bind_eq_bind,Option.bind_eq_some_iff] at found
  obtain ⟨⟨digits,more⟩,first,last⟩ := found
  cases Option.some.inj last
  simp only [NumberToken.text,List.mem_append]
  intro c member
  rcases member with ((minus | digit) | frac) | exp
  · exact minusPart_numeric _ c minus
  · exact wholePart_numeric first c digit
  · exact fracPart_numeric _ c frac
  · exact expPart_numeric _ c exp

-- A number cut short is no number, or one with the rest of its text behind it.
theorem cut_number (found : numberToken text = some (token,[])) (cut : p ++ more = text)
    (ran : scanOnce none (fuel+1) p = .ok (value,rest)) : (∀ c ∈ p, numeric c = true) ∧ ∀ c ∈ rest, numeric c = true := by
  have whole := numberToken_text found
  rw [List.append_nil] at whole
  have all : ∀ c ∈ p, numeric c = true := fun c member =>
    numberToken_numeric found c (whole ▸ cut ▸ List.mem_append_left _ member)
  obtain ⟨c,last,shape,_,other⟩ := number_opening found
  cases p with
  | nil => cases ran
  | cons d p =>
    obtain ⟨rfl,tail⟩ := List.cons.inj (cut.trans shape)
    have atom : scanOnce none (fuel+1) (d :: p ++ []) = scanAtom none (d :: p ++ []) := scan_atom rfl other fuel []
    rw [List.append_nil] at atom
    rw [atom] at ran
    have head := numberToken_head found
    rw [shape] at head
    have inside : (d :: p = ['-']) ∨ NumberHead (d :: p) := by
      rcases head with digit | ⟨rfl,e,after,rfl,digit⟩
      · exact .inr (.inl digit)
      · cases p with
        | nil => exact .inl rfl
        | cons f p => exact .inr (.inr ⟨rfl,f,p,rfl,(List.cons.inj tail).1 ▸ digit⟩)
    rcases inside with minus | head
    · rw [minus] at ran
      cases ran
    · rw [scanAtom_number head,scanNumber] at ran
      split at ran
      · cases ran
      · rename_i part after scanned
        rw [checkDigits_ok rfl,ite_self] at ran
        cases ran
        refine ⟨all,?_⟩
        intro c member
        exact all c (numberToken_text scanned ▸ List.mem_append_right _ member)

theorem cut_take {p more text : List Char} (cut : p ++ more = text) (missing : more ≠ []) : ∃ k, k < text.length ∧ p = text.take k := by
  refine ⟨p.length,?_,?_⟩
  · rw [← cut,List.length_append]
    exact Nat.lt_add_of_pos_right (List.length_pos_of_ne_nil missing)
  · rw [← cut,List.take_left]

theorem cut_literal (named : text ∈ ["null","true","false","NaN","Infinity","-Infinity"]) (cut : p ++ more = text.toList)
    (missing : more ≠ []) : scanOnce none (fuel+1) p ≠ .ok result := by
  intro ran
  obtain ⟨k,short,rfl⟩ := cut_take cut missing
  simp only [List.mem_cons,List.not_mem_nil,or_false] at named
  rcases named with rfl | rfl | rfl | rfl | rfl | rfl <;> simp only [String.reduceToList,List.length_cons,List.length_nil] at short <;>
    interval_cases k <;> cases ran

theorem cut_float {text : String} (held : isRepr text = true) (cut : p ++ more = text.toList) (missing : more ≠ [])
    (ran : scanOnce none (fuel+1) p = .ok (value,rest)) : (∀ c ∈ p, numeric c = true) ∧ ∀ c ∈ rest, numeric c = true := by
  simp only [isRepr,Bool.or_eq_true,beq_iff_eq] at held
  rcases held with ((rfl | rfl) | rfl) | number
  · exact absurd ran (cut_literal (by decide) cut missing)
  · exact absurd ran (cut_literal (by decide) cut missing)
  · exact absurd ran (cut_literal (by decide) cut missing)
  · split at number
    · rename_i token found
      exact cut_number found cut ran
    · cases number

theorem hex4_length (found : hex4 text = some (code,rest)) : text.length = rest.length+4 := by
  unfold hex4 at found
  split at found
  · simp only [Option.bind_eq_bind,Option.bind_eq_some_iff] at found
    obtain ⟨_,_,_,_,_,_,_,_,last⟩ := found
    cases Option.some.inj last
    rfl
  · cases found

theorem hexDigits_short (cut : e ++ more = hexDigits n) : e.length ≤ 4 := by
  have size := congrArg List.length cut
  rw [List.length_append] at size
  have four : (hexDigits n).length = 4 := rfl
  omega

theorem codeUnit_short (short : e.length ≤ 4) : codeUnit text e ≠ .ok result := by
  intro ran
  unfold codeUnit at ran
  split at ran
  · rename_i found
    have size := hex4_length found
    rw [List.length_cons] at size
    omega
  · cases ran

theorem scan_unicode_ok (ran : scanString opened fuel ('\\' :: 'u' :: e) = .ok result) : ∃ out, unicodeEscape ('u' :: e) e = .ok out := by
  cases fuel with
  | zero => cases ran
  | succ fuel =>
    simp only [scanString,if_neg (show ('\\' : Char) ≠ '"' by decide),if_neg (show ¬('\\' : Char).toNat ≤ 0x1f by decide),if_true] at ran
    obtain ⟨out,first,_⟩ := bind_ok ran
    exact ⟨out,first⟩

theorem cut_unicode (short : e.length ≤ 4) : scanString opened fuel ('\\' :: 'u' :: e) ≠ .ok result := by
  intro ran
  obtain ⟨out,ran⟩ := scan_unicode_ok ran
  obtain ⟨unit,first,_⟩ := bind_ok ran
  exact codeUnit_short short first

theorem cut_pair (high : isHigh n = true) (below : n < 0x10000) (cut : e ++ more = '\\' :: 'u' :: hexDigits m) :
    scanString opened fuel ('\\' :: 'u' :: (hexDigits n ++ e)) ≠ .ok result := by
  intro ran
  obtain ⟨out,ran⟩ := scan_unicode_ok ran
  cases e with
  | nil =>
    obtain ⟨unit,first,_⟩ := bind_ok ran
    rw [List.append_nil] at first
    exact codeUnit_short (hexDigits_short (List.append_nil _)) first
  | cons d e =>
    obtain ⟨rfl,tail⟩ := List.cons.inj cut
    unfold unicodeEscape at ran
    rw [codeUnit_digits _ _ below,ok_bind] at ran
    cases e with
    | nil =>
      have invalid : ¬n.isValidChar := by
        simp only [isHigh,Bool.and_eq_true,decide_eq_true_eq] at high
        simp only [Nat.isValidChar]
        omega
      simp only [high,List.isPrefixOf,Bool.and_false,Bool.false_eq_true,if_false,beq_self_eq_true] at ran
      obtain ⟨char,first,_⟩ := bind_ok ran
      rw [charOf,if_neg invalid] at first
      cases first
    | cons d e =>
      obtain ⟨rfl,last⟩ := List.cons.inj tail
      simp only [high,List.isPrefixOf,beq_self_eq_true,Bool.and_self,if_true,List.drop_succ_cons,List.drop_zero] at ran
      obtain ⟨half,second,_⟩ := bind_ok ran
      exact codeUnit_short (hexDigits_short last) second

theorem cut_simple (cut : e ++ more = ['\\',x]) (unescaped : simpleEscape x = some c) (plain : x ≠ 'u') :
    scanString opened fuel e ≠ .ok result := by
  intro ran
  cases fuel with
  | zero => cases ran
  | succ fuel =>
    cases e with
    | nil => cases ran
    | cons d e =>
      obtain ⟨rfl,tail⟩ := List.cons.inj cut
      cases e with
      | nil => cases ran
      | cons d e =>
        obtain ⟨rfl,last⟩ := List.cons.inj tail
        cases (List.append_eq_nil_iff.mp last).1
        rw [scan_simple opened fuel d [] unescaped plain] at ran
        cases fuel <;> cases ran

theorem cut_escape (cut : e ++ more = escapeChar c) : scanString opened fuel e ≠ .ok result := by
  have short : ∀ n more, e ++ more = '\\' :: 'u' :: hexDigits n → scanString opened fuel e ≠ .ok result := by
    intro n more cut ran
    cases e with
    | nil => cases fuel <;> cases ran
    | cons d e =>
      obtain ⟨rfl,tail⟩ := List.cons.inj cut
      cases e with
      | nil => cases fuel <;> cases ran
      | cons d e =>
        obtain ⟨rfl,last⟩ := List.cons.inj tail
        exact cut_unicode (hexDigits_short last) ran
  unfold escapeChar at cut
  split at cut
  · rename_i same
    rcases same with rfl | rfl
    · exact cut_simple cut rfl (by decide)
    · exact cut_simple cut rfl (by decide)
  · split at cut
    · exact cut_simple cut rfl (by decide)
    · split at cut
      · exact cut_simple cut rfl (by decide)
      · split at cut
        · exact cut_simple cut rfl (by decide)
        · split at cut
          · exact cut_simple cut rfl (by decide)
          · split at cut
            · exact cut_simple cut rfl (by decide)
            · split at cut
              · rename_i special _ _ _ _ _ printable
                rw [not_or] at special
                have visible : ¬c.toNat ≤ 0x1f := by omega
                intro ran
                cases fuel with
                | zero => cases ran
                | succ fuel =>
                  cases e with
                  | nil => cases ran
                  | cons d e =>
                    obtain ⟨rfl,tail⟩ := List.cons.inj cut
                    cases (List.append_eq_nil_iff.mp tail).1
                    simp only [scanString,if_neg special.1,if_neg visible,if_neg special.2] at ran
                    cases fuel <;> cases ran
              · split at cut
                · exact short _ _ cut
                · rename_i above
                  obtain ⟨high,low,whole⟩ := pair_units c (Nat.le_of_not_lt above)
                  rcases List.append_eq_append_iff.mp cut with ⟨rest,first,_⟩ | ⟨rest,first,second⟩
                  · exact short _ _ first.symm
                  · subst first
                    have below : 0xd800+(c.toNat-0x10000)/1024 < 0x10000 := by
                      simp only [isHigh,Bool.and_eq_true,decide_eq_true_eq] at high
                      omega
                    exact cut_pair high below second.symm

theorem cut_chars (chars : List Char) (cut : p ++ more = chars.flatMap escapeChar ++ ['"']) (missing : more ≠ []) (fuel : Nat) :
    scanString opened fuel p ≠ .ok result := by
  induction chars generalizing p fuel result with
  | nil =>
    have empty : p = [] := by
      cases p with
      | nil => rfl
      | cons d p => exact absurd (List.append_eq_nil_iff.mp (List.cons.inj cut).2).2 missing
    rw [empty]
    intro ran
    cases fuel <;> cases ran
  | cons c chars ih =>
    rw [List.flatMap_cons,List.append_assoc] at cut
    rcases List.append_eq_append_iff.mp cut with ⟨rest,first,_⟩ | ⟨rest,first,second⟩
    · exact cut_escape first.symm
    · subst first
      cases rest with
      | nil => exact cut_escape (show (escapeChar c ++ []) ++ [] = escapeChar c by simp)
      | cons d rest =>
        intro ran
        cases fuel with
        | zero => cases ran
        | succ fuel =>
          rw [scan_escape] at ran
          obtain ⟨out,ran,_⟩ := map_ok ran
          exact ih second.symm fuel ran

theorem cut_string {text : String} (cut : '"' :: p ++ more = dumpString text) (missing : more ≠ []) :
    scanString opened fuel p ≠ .ok result :=
  cut_chars text.toList (List.cons.inj cut).2 missing fuel

theorem cut_append {p more a b : List Char} (cut : p ++ more = a ++ b) :
    (∃ m, m ≠ [] ∧ p ++ m = a) ∨ ∃ q, p = a ++ q ∧ q ++ more = b := by
  rcases List.append_eq_append_iff.mp cut with ⟨rest,first,second⟩ | ⟨rest,first,second⟩
  · cases rest with
    | nil => exact .inr ⟨[],by rw [first,List.append_nil,List.append_nil],second⟩
    | cons c rest => exact .inl ⟨c :: rest,List.cons_ne_nil c rest,first.symm⟩
  · exact .inr ⟨rest,first,second.symm⟩

theorem Delimited.part {text : List Char} (delimited : Delimited text) (cut : q ++ more = text) : Delimited q := by
  intro c head
  apply delimited c
  cases q with
  | nil => cases head
  | cons d q =>
    rw [← cut]
    exact head

theorem Delimited.skip {text : List Char} (delimited : Delimited text) : skipBlanks text = text := by
  rcases delimited.cases with rfl | ⟨c,last,rfl,kind⟩
  · rfl
  · rcases kind with rfl | rfl | rfl <;> rfl

theorem skip_part (plain : v.plain = true) (cut : q ++ more = dumps v ++ rest) : skipBlanks q = q := by
  obtain ⟨c,last,shape,opening⟩ := dumps_opening plain
  cases q with
  | nil => rfl
  | cons d q =>
    rw [shape] at cut
    obtain ⟨rfl,_⟩ := List.cons.inj cut
    exact skip_opening opening q

theorem numeric_apart (held : numeric c = true) : isBlank c = false ∧ c ≠ ']' ∧ c ≠ ',' ∧ c ≠ '\x7d' := by
  have others : [' ','\t','\n','\r',']',',','\x7d'].all (fun d => !numeric d) = true := rfl
  have apart : ∀ d ∈ [' ','\t','\n','\r',']',',','\x7d'], c ≠ d := by
    intro d member same
    have other := List.all_eq_true.mp others d member
    rw [← same,held] at other
    cases other
  refine ⟨?_,apart _ (by simp),apart _ (by simp),apart _ (by simp)⟩
  simp [isBlank,apart ' ' (by simp),apart '\t' (by simp),apart '\n' (by simp),apart '\r' (by simp)]

theorem items_broken (stray : ∀ c ∈ rest, numeric c = true) : scanItems none fuel (skipBlanks rest) ≠ .ok result := by
  intro ran
  cases fuel with
  | zero => cases ran
  | succ fuel =>
    cases rest with
    | nil => cases ran
    | cons c rest =>
      obtain ⟨blank,close,comma,_⟩ := numeric_apart (stray c List.mem_cons_self)
      simp only [skipBlanks,List.dropWhile_cons,blank,Bool.false_eq_true,if_false] at ran
      unfold scanItems at ran
      split at ran
      · rename_i same
        exact close (List.cons.inj same).1
      · rename_i same
        exact comma (List.cons.inj same).1
      · cases ran

theorem members_broken (stray : ∀ c ∈ rest, numeric c = true) : scanMembers none fuel (skipBlanks rest) ≠ .ok result := by
  intro ran
  cases fuel with
  | zero => cases ran
  | succ fuel =>
    cases rest with
    | nil => cases ran
    | cons c rest =>
      obtain ⟨blank,_,comma,close⟩ := numeric_apart (stray c List.mem_cons_self)
      simp only [skipBlanks,List.dropWhile_cons,blank,Bool.false_eq_true,if_false] at ran
      unfold scanMembers at ran
      split at ran
      · rename_i same
        exact close (List.cons.inj same).1
      · rename_i same
        exact comma (List.cons.inj same).1
      · cases ran

-- What a value cut short may come to: nothing, or a number that stops early.
def Broken (fuel : Nat) (p : List Char) : Prop :=
  ∀ value rest, scanOnce none fuel p = .ok (value,rest) → (∀ c ∈ p, numeric c = true) ∧ ∀ c ∈ rest, numeric c = true

theorem scan_nothing : scanOnce none fuel [] ≠ .ok result := by
  intro ran
  cases fuel <;> cases ran

theorem cut_sequence (plain : item.plain = true) (cut : q ++ more = dumps item ++ dumpItems items)
    (enough : (dumps item).length ≤ q.length → (dumps item).length < fuel)
    (first : ∀ p more, p ++ more = dumps item → more ≠ [] → p.length ≤ q.length → Broken fuel p)
    (later : ∀ p, p ++ more = dumpItems items → p.length ≤ q.length → ∀ result, scanItems none fuel p ≠ .ok result)
    (ran : scanOnce none fuel q = .ok (value,text)) (again : scanItems none fuel (skipBlanks text) = .ok result) : False := by
  rcases cut_append cut with ⟨m,missing,inside⟩ | ⟨p,rfl,after⟩
  · exact items_broken (first q m inside missing (Nat.le_refl _) value text ran).2 again
  · have size : (dumps item ++ p).length = (dumps item).length+p.length := List.length_append
    have delimited : Delimited p := by
      have whole := (dumpItems_delimited items []).1
      rw [List.append_nil] at whole
      exact whole.part after
    rw [scan_dumps item plain (within_none item) p delimited fuel (enough (by omega))] at ran
    rw [← (Prod.mk.inj (Except.ok.inj ran)).2,delimited.skip] at again
    exact later p after (by omega) _ again

theorem dumpMembers_part (cut : p ++ more = dumpMembers members) : Delimited p := by
  have whole := (dumpMembers_delimited members []).1
  rw [List.append_nil] at whole
  exact whole.part cut

def memberText (key : String) (value : Value) : List Char := dumpString key ++ ": ".toList ++ dumps value

theorem cut_member (plain : v.plain = true) (cut : p ++ more = memberText key v) (missing : more ≠ [])
    (enough : p.length ≤ fuel+1) (value : ∀ q more, q ++ more = dumps v → more ≠ [] → q.length+2 ≤ p.length → Broken fuel q)
    (ran : scanMember none (fuel+1) p = .ok (entry,rest)) : ∀ c ∈ rest, numeric c = true := by
  rw [memberText,List.append_assoc] at cut
  rcases cut_append cut with ⟨m,short,inside⟩ | ⟨q,rfl,after⟩
  · cases p with
    | nil => cases ran
    | cons c p =>
      obtain ⟨rfl,_⟩ := List.cons.inj inside
      simp only [scanMember] at ran
      obtain ⟨out,first,_⟩ := bind_ok ran
      exact absurd first (cut_string inside short)
  · have size : (dumpString key ++ q).length = (dumpString key).length+q.length := List.length_append
    have string := @scan_string fuel key (dumpString key ++ q) q (by omega)
    have shape : dumpString key ++ q = '"' :: (key.toList.flatMap escapeChar ++ '"' :: q) := by simp [dumpString]
    rw [shape] at string ran
    simp only [scanMember,string,ok_bind] at ran
    cases q with
    | nil => cases ran
    | cons c q =>
      obtain ⟨rfl,tail⟩ := List.cons.inj (show c :: (q ++ more) = ':' :: ' ' :: dumps v from after)
      have colon : skipBlanks (':' :: q) = ':' :: q := rfl
      rw [colon] at ran
      obtain ⟨⟨w,text⟩,second,ran⟩ := bind_ok ran
      cases ran
      cases q with
      | nil => exact absurd second scan_nothing
      | cons c q =>
        obtain ⟨rfl,last⟩ := List.cons.inj tail
        have inner : q ++ more = dumps v ++ [] := last.trans (List.append_nil _).symm
        have blank : skipBlanks (' ' :: q) = q := skip_part plain inner
        rw [blank] at second
        rw [List.length_cons,List.length_cons] at size
        exact (value q more last missing (by omega) w _ second).2

theorem cut_pairs (plain : v.plain = true) (cut : q ++ more = memberText key v ++ dumpMembers members)
    (enough : q.length ≤ fuel)
    (value : ∀ p more, p ++ more = dumps v → more ≠ [] → p.length+2 ≤ q.length → Broken fuel p)
    (whole : ∀ p, Delimited p → memberText key v ++ p = q → scanOnce none fuel (dumps v ++ p) = .ok (v,p))
    (later : ∀ p, p ++ more = dumpMembers members → p.length ≤ q.length → ∀ result, scanMembers none (fuel+1) p ≠ .ok result)
    (ran : scanMember none (fuel+1) q = .ok (entry,text)) (again : scanMembers none (fuel+1) (skipBlanks text) = .ok result) : False := by
  rcases cut_append cut with ⟨m,missing,inside⟩ | ⟨p,rfl,after⟩
  · exact members_broken (cut_member plain inside missing (by omega) value ran) again
  · have size : (memberText key v ++ p).length = (memberText key v).length+p.length := List.length_append
    have part : (dumpString key).length ≤ (memberText key v).length := by
      simp only [memberText,List.length_append]
      omega
    have delimited := dumpMembers_part after
    rw [memberText,scan_member plain key p (whole p delimited rfl) (by omega)] at ran
    rw [← (Prod.mk.inj (Except.ok.inj ran)).2,delimited.skip] at again
    exact later p after (by omega) _ again

theorem itemsText (item : Value) (items : List Value) : dumpItems (item :: items) = ',' :: ' ' :: (dumps item ++ dumpItems items) := by
  simp [dumpItems]

theorem membersText (key : String) (value : Value) (members : List (String × Value)) :
    dumpMembers ((key,value) :: members) = ',' :: ' ' :: (memberText key value ++ dumpMembers members) := by
  simp [dumpMembers,memberText]

mutual
-- Text that stops before its value is complete is not read as one, unless it
-- is a number's.
theorem cut_dumps (v : Value) (plain : v.plain = true) (p more : List Char) (cut : p ++ more = dumps v) (missing : more ≠ [])
    (fuel : Nat) (enough : p.length < fuel) : Broken fuel p := by
  intro value rest ran
  obtain ⟨fuel,rfl,enough⟩ := fuel_succ enough
  match v with
  | .null => exact absurd ran (cut_literal (by decide) cut missing)
  | .bool true => exact absurd ran (cut_literal (by decide) cut missing)
  | .bool false => exact absurd ran (cut_literal (by decide) cut missing)
  | .int number =>
    obtain ⟨token,found,_⟩ := dumpInt_token number
    exact cut_number found cut ran
  | .float text => exact cut_float (by simpa [Value.plain] using plain) cut missing ran
  | .str text =>
    cases p with
    | nil => cases ran
    | cons c p =>
      obtain ⟨rfl,_⟩ := List.cons.inj cut
      simp only [scanOnce,if_true] at ran
      obtain ⟨out,first,_⟩ := map_ok ran
      exact absurd first (cut_string cut missing)
  | .arr [] =>
    obtain ⟨k,short,rfl⟩ := cut_take cut missing
    have two : (dumps (.arr [])).length = 2 := rfl
    rw [two] at short
    interval_cases k
    · cases ran
    · cases fuel <;> cases ran
  | .arr (item :: items) =>
    have parts : item.plain = true ∧ plainItems items = true := by simpa [Value.plain,plainItems] using plain
    cases p with
    | nil => cases ran
    | cons c p =>
      obtain ⟨rfl,tail⟩ := List.cons.inj (show c :: (p ++ more) = '[' :: (dumps item ++ dumpItems items) by rw [← List.cons_append,cut,dumps])
      rw [List.length_cons] at enough
      simp only [scanOnce,if_neg (show ('[' : Char) ≠ '"' by decide),if_true,skip_part parts.1 tail] at ran
      obtain ⟨d,last,head,opening⟩ := dumps_opening parts.1
      split at ran
      · rw [head] at tail
        exact absurd (List.cons.inj tail).1.symm opening.2.1
      · obtain ⟨⟨w,text⟩,first,ran⟩ := bind_ok ran
        obtain ⟨out,second,_⟩ := bind_ok ran
        exact (cut_sequence parts.1 tail (fun whole => by omega)
          (fun q more cut missing size => cut_dumps item parts.1 q more cut missing fuel (by omega))
          (fun q cut size result => cut_items items parts.2 q more cut missing fuel (by omega)) first second).elim
  | .obj [] =>
    obtain ⟨k,short,rfl⟩ := cut_take cut missing
    have two : (dumps (.obj [])).length = 2 := rfl
    rw [two] at short
    interval_cases k
    · cases ran
    · cases fuel <;> cases ran
  | .obj ((key,inner) :: members) =>
    simp only [Value.plain,plainMembers,Bool.and_eq_true,decide_eq_true_eq] at plain
    obtain ⟨_,whole,others⟩ := plain
    cases p with
    | nil => cases ran
    | cons c p =>
      obtain ⟨rfl,tail⟩ := List.cons.inj (show c :: (p ++ more) = '\x7b' :: (memberText key inner ++ dumpMembers members) by
        rw [← List.cons_append,cut,dumps,memberText])
      rw [List.length_cons] at enough
      obtain ⟨fuel,rfl,_⟩ := fuel_succ (n := 0) (show 0 < fuel by omega)
      have quoted : skipBlanks p = p := by
        cases p with
        | nil => rfl
        | cons d p =>
          obtain ⟨rfl,_⟩ := List.cons.inj tail
          rfl
      simp only [scanOnce,if_neg (show ('\x7b' : Char) ≠ '"' by decide),if_neg (show ('\x7b' : Char) ≠ '[' by decide),if_true,quoted] at ran
      split at ran
      · cases tail
      · obtain ⟨⟨entry,text⟩,first,ran⟩ := bind_ok ran
        obtain ⟨out,second,_⟩ := bind_ok ran
        exact (cut_pairs whole tail (by omega)
          (fun q more cut missing size => cut_dumps inner whole q more cut missing fuel (by omega))
          (fun q delimited same => scan_dumps inner whole (within_none inner) q delimited fuel (by
            have size := congrArg List.length same
            simp only [memberText,List.length_append] at size
            have two : (": ".toList).length = 2 := rfl
            omega))
          (fun q cut size result => cut_members members others q more cut missing (fuel+1) (by omega)) first second).elim

theorem cut_items (items : List Value) (plain : plainItems items = true) (p more : List Char) (cut : p ++ more = dumpItems items)
    (missing : more ≠ []) (fuel : Nat) (enough : p.length < fuel) : scanItems none fuel p ≠ .ok result := by
  intro ran
  obtain ⟨fuel,rfl,enough⟩ := fuel_succ enough
  match items with
  | [] =>
    obtain ⟨k,short,rfl⟩ := cut_take cut missing
    have one : (dumpItems []).length = 1 := rfl
    rw [one] at short
    interval_cases k
    cases ran
  | item :: items =>
    have parts : item.plain = true ∧ plainItems items = true := by simpa [plainItems] using plain
    rw [itemsText] at cut
    cases p with
    | nil => cases ran
    | cons c p =>
      obtain ⟨rfl,tail⟩ := List.cons.inj cut
      simp only [scanItems] at ran
      obtain ⟨⟨w,text⟩,first,ran⟩ := bind_ok ran
      obtain ⟨out,second,_⟩ := bind_ok ran
      cases p with
      | nil => exact scan_nothing first
      | cons c p =>
        obtain ⟨rfl,last⟩ := List.cons.inj tail
        have blank : skipBlanks (' ' :: p) = p := skip_part parts.1 last
        rw [blank] at first
        rw [List.length_cons,List.length_cons] at enough
        exact cut_sequence parts.1 last (fun whole => by omega)
          (fun q more cut missing size => cut_dumps item parts.1 q more cut missing fuel (by omega))
          (fun q cut size result => cut_items items parts.2 q more cut missing fuel (by omega)) first second

theorem cut_members (members : List (String × Value)) (plain : plainMembers members = true) (p more : List Char)
    (cut : p ++ more = dumpMembers members) (missing : more ≠ []) (fuel : Nat) (enough : p.length < fuel) :
    scanMembers none fuel p ≠ .ok result := by
  intro ran
  obtain ⟨fuel,rfl,enough⟩ := fuel_succ enough
  match members with
  | [] =>
    obtain ⟨k,short,rfl⟩ := cut_take cut missing
    have one : (dumpMembers []).length = 1 := rfl
    rw [one] at short
    interval_cases k
    cases ran
  | (key,inner) :: members =>
    have parts : inner.plain = true ∧ plainMembers members = true := by simpa [plainMembers] using plain
    rw [membersText] at cut
    cases p with
    | nil => cases ran
    | cons c p =>
      obtain ⟨rfl,tail⟩ := List.cons.inj cut
      rw [List.length_cons] at enough
      obtain ⟨fuel,rfl,_⟩ := fuel_succ (n := 0) (show 0 < fuel by omega)
      simp only [scanMembers] at ran
      obtain ⟨⟨entry,text⟩,first,ran⟩ := bind_ok ran
      obtain ⟨out,second,_⟩ := bind_ok ran
      cases p with
      | nil => cases first
      | cons c p =>
        obtain ⟨rfl,last⟩ := List.cons.inj tail
        have blank : skipBlanks (' ' :: p) = p := by
          cases p with
          | nil => rfl
          | cons d p =>
            obtain ⟨rfl,_⟩ := List.cons.inj last
            rfl
        rw [blank] at first
        rw [List.length_cons] at enough
        exact cut_pairs parts.1 last (by omega)
          (fun q more cut missing size => cut_dumps inner parts.1 q more cut missing fuel (by omega))
          (fun q delimited same => scan_dumps inner parts.1 (within_none inner) q delimited fuel (by
            have size := congrArg List.length same
            simp only [memberText,List.length_append] at size
            have two : (": ".toList).length = 2 := rfl
            omega))
          (fun q cut size result => cut_members members parts.2 q more cut missing (fuel+1) (by omega)) first second
end

theorem loads_cut (plain : (Value.obj members).plain = true) (cut : p ++ more = dumps (.obj members)) (missing : more ≠ []) :
    loads p ≠ .ok value := by
  intro ran
  unfold loads loadsWithin at ran
  split at ran
  · cases ran
  · obtain ⟨⟨w,rest⟩,scanned,_⟩ := bind_ok ran
    have blank : skipBlanks p = p := skip_part plain (cut.trans (List.append_nil _).symm)
    rw [blank] at scanned
    have broken := (cut_dumps _ plain p more cut missing _ (Nat.lt_succ_self _) w rest scanned).1
    cases p with
    | nil => exact scan_nothing scanned
    | cons c p =>
      obtain ⟨last,shape⟩ : ∃ last, dumps (.obj members) = '\x7b' :: last := by
        cases members with
        | nil => exact ⟨_,rfl⟩
        | cons member members => exact ⟨_,by rw [dumps]⟩
      obtain ⟨rfl,_⟩ := List.cons.inj (cut.trans shape)
      cases broken '\x7b' List.mem_cons_self

end Json
