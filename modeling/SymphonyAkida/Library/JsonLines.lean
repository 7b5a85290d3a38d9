import SymphonyAkida.Library.JsonCut
import Mathlib.Data.List.DropRight

namespace JsonLines
open Json

-- What a file opened as text gives: every line ends in a newline.
def universal : List Char → List Char
  | [] => []
  | '\r' :: '\n' :: rest => '\n' :: universal rest
  | c :: rest => (if c = '\r' then '\n' else c) :: universal rest

-- for line in handle, less the newline of each.
def lines : List Char → List (List Char)
  | [] => []
  | c :: rest =>
    if c = '\n' then [] :: lines rest
    else
      match lines rest with
      | [] => [[c]]
      | line :: more => (c :: line) :: more

def isSpace (c : Char) : Bool :=
  let code := c.toNat
  decide (9 ≤ code ∧ code ≤ 13) || decide (28 ≤ code ∧ code ≤ 32) || decide (0x2000 ≤ code ∧ code ≤ 0x200a) ||
    [0x85,0xa0,0x1680,0x2028,0x2029,0x202f,0x205f,0x3000].contains code

def strip (text : List Char) : List Char := (text.dropWhile isSpace).rdropWhile isSpace

def documents (text : List Char) : List (List Char) := ((lines (universal text)).map strip).filter (· ≠ [])

-- handle.write(json.dumps(record) + "\n") for each record.
def written (records : List (List (String × Value))) : List Char :=
  records.flatMap fun record => dumps (.obj record) ++ ['\n']

theorem universal_plain {text : List Char} (plain : '\r' ∉ text) (rest : List Char) :
    universal (text ++ rest) = text ++ universal rest := by
  induction text with
  | nil => rfl
  | cons c text ih =>
    rw [List.mem_cons,not_or] at plain
    have other : c ≠ '\r' := Ne.symm plain.1
    rw [List.cons_append,universal.eq_3 c _ (fun _ same _ => other same),if_neg other,ih plain.2]
    rfl

theorem lines_line {line : List Char} (plain : '\n' ∉ line) (rest : List Char) :
    lines (line ++ '\n' :: rest) = line :: lines rest := by
  induction line with
  | nil => rfl
  | cons c line ih =>
    rw [List.mem_cons,not_or] at plain
    rw [List.cons_append,lines,if_neg (Ne.symm plain.1),ih plain.2]

theorem lines_last {line : List Char} (plain : '\n' ∉ line) (some_ : line ≠ []) : lines line = [line] := by
  induction line with
  | nil => exact absurd rfl some_
  | cons c line ih =>
    rw [List.mem_cons,not_or] at plain
    rw [lines,if_neg (Ne.symm plain.1)]
    cases line with
    | nil => rfl
    | cons d line => rw [ih plain.2 (List.cons_ne_nil d line)]

theorem dict_text (record : List (String × Value)) :
    ∃ inner, dumps (.obj record) = '\x7b' :: inner ∧ ∃ front, dumps (.obj record) = front ++ ['\x7d'] := by
  have ends : ∀ members : List (String × Value), ∃ front, dumpMembers members = front ++ ['\x7d'] := by
    intro members
    induction members with
    | nil => exact ⟨[],rfl⟩
    | cons member members ih =>
      obtain ⟨key,value⟩ := member
      obtain ⟨front,same⟩ := ih
      exact ⟨", ".toList ++ dumpString key ++ ": ".toList ++ dumps value ++ front,by rw [dumpMembers,same,← List.append_assoc]⟩
  cases record with
  | nil => exact ⟨_,rfl,['\x7b'],rfl⟩
  | cons member members =>
    obtain ⟨key,value⟩ := member
    obtain ⟨front,same⟩ := ends members
    refine ⟨dumpString key ++ ": ".toList ++ dumps value ++ dumpMembers members,by rw [dumps],
      '\x7b' :: (dumpString key ++ ": ".toList ++ dumps value ++ front),?_⟩
    rw [dumps,same,← List.append_assoc,List.cons_append]

theorem dict_plain {record : List (String × Value)} (plain : (Value.obj record).plain = true) (cut : p ++ more = dumps (.obj record)) :
    '\r' ∉ p ∧ '\n' ∉ p := by
  have visible : ∀ c ∈ p, Printable c := fun c member =>
    dumps_printable _ plain c (cut ▸ List.mem_append_left _ member)
  exact ⟨fun member => absurd (visible _ member).1 (by decide),fun member => absurd (visible _ member).1 (by decide)⟩

theorem strip_dict (record : List (String × Value)) : strip (dumps (.obj record)) = dumps (.obj record) := by
  obtain ⟨inner,first,front,last⟩ := dict_text record
  unfold strip
  have left : (dumps (.obj record)).dropWhile isSpace = dumps (.obj record) := by
    rw [first,List.dropWhile_cons_of_neg (by decide)]
  rw [left,last,List.rdropWhile_concat_neg _ _ _ (by decide)]

theorem strip_part (cut : p ++ more = dumps (.obj record)) (some_ : p ≠ []) :
    strip p ≠ [] ∧ ∃ blanks, strip p ++ blanks = p := by
  obtain ⟨inner,first,_⟩ := dict_text record
  cases p with
  | nil => exact absurd rfl some_
  | cons c p =>
    obtain ⟨rfl,_⟩ := List.cons.inj (cut.trans first)
    unfold strip
    rw [List.dropWhile_cons_of_neg (by decide)]
    refine ⟨fun nothing => ?_,List.rdropWhile_prefix _ _⟩
    exact absurd (List.rdropWhile_eq_nil_iff.mp nothing _ List.mem_cons_self) (by decide)

theorem documents_line (plain : (Value.obj record).plain = true) (rest : List Char) :
    documents (dumps (.obj record) ++ '\n' :: rest) = dumps (.obj record) :: documents rest := by
  have clean := dict_plain plain (List.append_nil _)
  obtain ⟨inner,first,_⟩ := dict_text record
  have some_ : dumps (.obj record) ≠ [] := by
    rw [first]
    exact List.cons_ne_nil _ _
  have tail : universal ('\n' :: rest) = '\n' :: universal rest := by
    rw [universal.eq_3 '\n' rest (fun _ same _ => absurd same (by decide)),if_neg (by decide)]
  unfold documents
  rw [universal_plain clean.1,tail,lines_line clean.2,List.map_cons,strip_dict,List.filter_cons_of_pos (by simpa using some_)]

theorem documents_written {records : List (List (String × Value))} (plain : ∀ record ∈ records, (Value.obj record).plain = true) :
    documents (written records) = records.map fun record => dumps (.obj record) := by
  induction records with
  | nil => rfl
  | cons record records ih =>
    have first := documents_line (plain record List.mem_cons_self) (written records)
    rw [written,List.flatMap_cons,List.append_assoc,List.singleton_append]
    exact first.trans (congrArg _ (ih fun other member => plain other (List.mem_cons_of_mem _ member)))

-- A file that stops anywhere has the first of the records, and of the next one
-- at most a part.
theorem documents_cut {records : List (List (String × Value))} (plain : ∀ record ∈ records, (Value.obj record).plain = true)
    (cut : p ++ more = written records) :
    ∃ done rest, records = done ++ rest ∧ (documents p = done.map (fun record => dumps (.obj record)) ∨
      ∃ record later part missing, rest = record :: later ∧ part ++ missing = dumps (.obj record) ∧ missing ≠ [] ∧
        documents p = done.map (fun record => dumps (.obj record)) ++ [part]) := by
  induction records generalizing p with
  | nil =>
    have empty : p = [] := (List.append_eq_nil_iff.mp cut).1
    exact ⟨[],[],rfl,.inl (by rw [empty]; rfl)⟩
  | cons record records ih =>
    have own := plain record List.mem_cons_self
    rw [written,List.flatMap_cons,List.append_assoc] at cut
    rcases cut_append cut with ⟨m,missing,inside⟩ | ⟨q,rfl,after⟩
    · refine ⟨[],record :: records,rfl,?_⟩
      cases p with
      | nil => exact .inl rfl
      | cons c p =>
        have clean := dict_plain own inside
        obtain ⟨filled,blanks,whole⟩ := strip_part inside (List.cons_ne_nil c p)
        refine .inr ⟨record,records,strip (c :: p),blanks ++ m,rfl,?_,?_,?_⟩
        · rw [← List.append_assoc,whole,inside]
        · exact fun nothing => missing (List.append_eq_nil_iff.mp nothing).2
        · have text := universal_plain clean.1 []
          rw [List.append_nil] at text
          unfold documents
          rw [text,show universal [] = [] from rfl,List.append_nil,lines_last clean.2 (List.cons_ne_nil c p)]
          simp [filled]
    · cases q with
      | nil =>
        have clean := dict_plain own (List.append_nil _)
        have text := universal_plain clean.1 []
        obtain ⟨inner,first,_⟩ := dict_text record
        have some_ : dumps (.obj record) ≠ [] := by
          rw [first]
          exact List.cons_ne_nil _ _
        refine ⟨[record],records,rfl,.inl ?_⟩
        unfold documents
        rw [text,show universal [] = [] from rfl,List.append_nil,lines_last clean.2 some_]
        simp [strip_dict,some_]
      | cons c q =>
        obtain ⟨rfl,tail⟩ := List.cons.inj after
        obtain ⟨done,rest,rfl,read⟩ := ih (fun other member => plain other (List.mem_cons_of_mem _ member)) tail
        refine ⟨record :: done,rest,rfl,?_⟩
        rw [documents_line own]
        rcases read with all | ⟨next,later,part,missing,shape,half,some_,all⟩
        · exact .inl (by rw [all,List.map_cons])
        · exact .inr ⟨next,later,part,missing,shape,half,some_,by rw [all,List.map_cons,List.cons_append]⟩

end JsonLines
