import SymphonyAkida.Library.JsonSpec

namespace Bytes
open Json

def encode (text : List Char) : List UInt8 := text.flatMap String.utf8EncodeChar

def decode (bytes : List UInt8) : Option (List Char) := bytes.toByteArray.utf8Decode?.map (·.toList)

theorem decode_encode (text : List Char) : decode (encode text) = some text := by
  unfold decode encode
  have whole : (text.flatMap String.utf8EncodeChar).toByteArray = text.utf8Encode := rfl
  rw [whole,List.utf8Decode?_utf8Encode]
  rfl

theorem encode_cons (c : Char) (text : List Char) : encode (c :: text) = String.utf8EncodeChar c ++ encode text :=
  List.flatMap_cons

theorem encode_append (a b : List Char) : encode (a ++ b) = encode a ++ encode b := List.flatMap_append

theorem encode_printable (visible : Printable c) : String.utf8EncodeChar c = [c.val.toUInt8] := by
  apply String.utf8EncodeChar_eq_singleton
  rw [Char.utf8Size_eq_one_iff,UInt32.le_iff_toNat_le]
  exact Nat.le_trans visible.2 (by decide)

theorem byte_printable (visible : Printable c) : c.val.toUInt8.toNat = c.toNat := by
  obtain ⟨_,high⟩ := visible
  have small : c.val.toNat ≤ 126 := high
  rw [UInt32.toNat_toUInt8,Nat.mod_eq_of_lt (by omega)]
  rfl

def newline : UInt8 := 10

theorem encode_line {text : List Char} (visible : ∀ c ∈ text, Printable c) : newline ∉ encode text := by
  intro member
  obtain ⟨c,inside,byte⟩ := List.mem_flatMap.mp member
  rw [encode_printable (visible c inside),List.mem_singleton] at byte
  have same := congrArg UInt8.toNat byte
  rw [byte_printable (visible c inside)] at same
  have low := (visible c inside).1
  have ten : newline.toNat = 10 := rfl
  omega

-- stream.readline() on an open pipe: through the first newline, or still
-- waiting for one.
def readLine : List UInt8 → Option (List UInt8 × List UInt8)
  | [] => none
  | b :: rest =>
    if b = newline then some ([b],rest)
    else (readLine rest).map fun (line,rest) => (b :: line,rest)

theorem readLine_line (line rest : List UInt8) (whole : newline ∉ line) :
    readLine (line ++ newline :: rest) = some (line ++ [newline],rest) := by
  induction line with
  | nil => rfl
  | cons b line ih =>
    rw [List.mem_cons,not_or] at whole
    rw [List.cons_append,readLine,if_neg (Ne.symm whole.1),ih whole.2]
    rfl

theorem readLine_none (line : List UInt8) (whole : newline ∉ line) : readLine line = none := by
  induction line with
  | nil => rfl
  | cons b line ih =>
    rw [List.mem_cons,not_or] at whole
    rw [readLine,if_neg (Ne.symm whole.1),ih whole.2]
    rfl

theorem readLine_part {text : List UInt8} (whole : newline ∉ text) (split : part ++ more = text ++ [newline])
    (missing : more ≠ []) : readLine part = none := by
  have same := congrArg List.dropLast split
  rw [List.dropLast_append_of_ne_nil missing,List.dropLast_concat] at same
  apply readLine_none
  intro member
  exact whole (same ▸ List.mem_append_left _ member)

theorem readLine_before {text body : List UInt8} (whole : newline ∉ text)
    (split : part ++ more = text ++ [newline] ++ body) :
    readLine part = none ∨ ∃ rest, part = text ++ [newline] ++ rest ∧ rest ++ more = body := by
  rcases List.append_eq_append_iff.mp split with ⟨rest,first,second⟩ | ⟨rest,first,second⟩
  · by_cases complete : rest = []
    · subst complete
      rw [List.append_nil] at first
      exact .inr ⟨[],by rw [first,List.append_nil],second⟩
    · exact .inl (readLine_part whole first.symm complete)
  · exact .inr ⟨rest,first,second.symm⟩

def isSpace (b : UInt8) : Bool := b == 32 || (9 ≤ b && b ≤ 13)

def strip (line : List UInt8) : List UInt8 :=
  ((line.dropWhile isSpace).reverse.dropWhile isSpace).reverse

theorem strip_line (first last : UInt8) (inner : List UInt8) (left : isSpace first = false)
    (right : isSpace last = false) :
    strip (first :: (inner ++ [last,newline])) = first :: (inner ++ [last]) := by
  unfold strip
  have blank : isSpace newline = true := rfl
  rw [List.dropWhile_cons,left]
  simp [blank,right]

-- The loop of _read_exact. A read returns at least one byte and at most what
-- is asked for; `short` says how many. None is a read that still waits.
def readExact (short : List UInt8 → Nat → Nat) : Nat → Nat → List UInt8 → Option (List UInt8 × List UInt8)
  | _,0,bytes => some ([],bytes)
  | 0,_+1,_ => none
  | fuel+1,n+1,bytes =>
    let size := max 1 (min (short bytes (n+1)) (n+1))
    if bytes.take size = [] then none
    else (readExact short fuel (n+1-(bytes.take size).length) (bytes.drop size)).map fun (more,rest) =>
      (bytes.take size ++ more,rest)

theorem readExact_all (short : List UInt8 → Nat → Nat) (n fuel : Nat) (bytes : List UInt8) (enough : n ≤ fuel)
    (there : n ≤ bytes.length) : readExact short fuel n bytes = some (bytes.take n,bytes.drop n) := by
  induction fuel generalizing n bytes with
  | zero =>
    cases n with
    | zero => simp [readExact]
    | succ n => exact absurd enough (Nat.not_succ_le_zero n)
  | succ fuel ih =>
    cases n with
    | zero => simp [readExact]
    | succ n =>
      have low : 1 ≤ max 1 (min (short bytes (n+1)) (n+1)) := Nat.le_max_left _ _
      have high : max 1 (min (short bytes (n+1)) (n+1)) ≤ n+1 :=
        Nat.max_le.mpr ⟨Nat.succ_le_succ (Nat.zero_le n),Nat.min_le_right _ _⟩
      simp only [readExact]
      generalize max 1 (min (short bytes (n+1)) (n+1)) = size at low high
      have size_ : (bytes.take size).length = size := by rw [List.length_take]; omega
      have some_ : bytes.take size ≠ [] := fun empty => by rw [empty] at size_; simp at size_; omega
      rw [if_neg some_,size_,ih (n+1-size) (bytes.drop size) (by omega) (by rw [List.length_drop]; omega)]
      have split : n+1 = size+(n+1-size) := by omega
      rw [Option.map_some,List.drop_drop,← split,← List.take_add,← split]

theorem readExact_waits (short : List UInt8 → Nat → Nat) (n fuel : Nat) (bytes : List UInt8)
    (missing : bytes.length < n) : readExact short fuel n bytes = none := by
  induction fuel generalizing n bytes with
  | zero =>
    cases n with
    | zero => exact absurd missing (Nat.not_lt_zero _)
    | succ n => rfl
  | succ fuel ih =>
    cases n with
    | zero => exact absurd missing (Nat.not_lt_zero _)
    | succ n =>
      simp only [readExact]
      split
      · rfl
      · rw [ih]
        · rfl
        · rw [List.length_drop,List.length_take]
          omega

end Bytes
