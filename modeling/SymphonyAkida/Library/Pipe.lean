import SymphonyAkida.Library.Bytes

-- A server at the far end of two pipes: it reads requests from one and writes
-- replies to the other, one turn after another.
namespace Pipe
open Bytes

-- One turn on what has arrived: it waits for more, ends, or goes on with what
-- is left to read and what it wrote.
inductive Turn (σ : Type) where
  | waits
  | stops (stdin : List UInt8)
  | goes (state : σ) (stdin written : List UInt8)

structure Server (σ : Type) where
  state : σ
  stdin : List UInt8 := []
  stdout : List UInt8 := []
  alive : Bool := true

variable {σ : Type} (turn : σ → List UInt8 → Turn σ)

def run : Nat → Server σ → Server σ
  | 0,server => server
  | fuel+1,server =>
    match turn server.state server.stdin with
    | .waits => server
    | .stops rest => {server with stdin := rest,alive := false}
    | .goes state rest written => run fuel {server with
        state
        stdin := rest
        stdout := server.stdout ++ written}

def deliver (server : Server σ) (piece : List UInt8) : Server σ :=
  let server := {server with stdin := server.stdin ++ piece}
  if server.alive then run turn (server.stdin.length+1) server else server

def exchange (pieces : List (List UInt8)) (server : Server σ) : Server σ × Option (List UInt8) :=
  let server := pieces.foldl (deliver turn) server
  match readLine server.stdout with
  | some (reply,rest) => ({server with stdout := rest},some reply)
  | none => (server,none)

structure Quiet (server : Server σ) : Prop where
  stdin : server.stdin = []
  stdout : server.stdout = []
  alive : server.alive = true

theorem run_stdout (fuel : Nat) (server : Server σ) : server.stdout <+: (run turn fuel server).stdout := by
  induction fuel generalizing server with
  | zero => exact List.prefix_refl _
  | succ fuel ih =>
    unfold run
    split
    · exact List.prefix_refl _
    · exact List.prefix_refl _
    · rename_i state rest written _
      have later := ih {server with state,stdin := rest,stdout := server.stdout ++ written}
      exact (List.prefix_append _ _).trans later

theorem deliver_stdout (pieces : List (List UInt8)) (server : Server σ) :
    server.stdout <+: (pieces.foldl (deliver turn) server).stdout := by
  induction pieces generalizing server with
  | nil => exact List.prefix_refl _
  | cons piece pieces ih =>
    refine List.IsPrefix.trans ?_ (ih _)
    unfold deliver
    dsimp only
    split
    · exact run_stdout turn _ {server with stdin := server.stdin ++ piece}
    · exact List.prefix_refl _

-- A reply left behind answers the next request, whatever it asks.
theorem exchange_leftover (pieces : List (List UInt8)) {server : Server σ} (one : newline ∉ text)
    (left : text ++ [newline] <+: server.stdout) :
    (exchange turn pieces server).2 = some (text ++ [newline]) := by
  obtain ⟨rest,same⟩ := left.trans (deliver_stdout turn pieces server)
  unfold exchange
  dsimp only
  rw [← same,List.append_assoc,List.singleton_append,readLine_line text rest one]

section
variable {turn} {server : Server σ} {next : σ} {total written : List UInt8}

theorem deliver_idle (pieces : List (List UInt8)) (drained : server.stdin = []) (empty : pieces.flatten = [])
    (idle : ∀ state, turn state [] = .waits) : pieces.foldl (deliver turn) server = server := by
  induction pieces with
  | nil => rfl
  | cons piece pieces ih =>
    rw [List.flatten_cons,List.append_eq_nil_iff] at empty
    have still : deliver turn server piece = server := by
      obtain ⟨state,stdin,stdout,alive⟩ := server
      cases drained
      simp only [deliver,empty.1,List.append_nil]
      split
      · simp only [run,idle]
      · rfl
    rw [List.foldl_cons,still,ih empty.2]

-- However a request arrives, it is served once, when all of it is there.
theorem deliver_all (pieces : List (List UInt8)) (done : List UInt8) (alive : server.alive = true)
    (idle : ∀ state, turn state [] = .waits)
    (waits : ∀ part more, part ++ more = total → more ≠ [] → turn server.state part = .waits)
    (serves : turn server.state total = .goes next [] written)
    (split : done ++ pieces.flatten = total) (missing : done ≠ total) :
    pieces.foldl (deliver turn) {server with stdin := done} =
      {server with state := next,stdin := [],stdout := server.stdout ++ written} := by
  induction pieces generalizing done with
  | nil => exact absurd (by simpa using split) missing
  | cons piece pieces ih =>
    rw [List.flatten_cons,← List.append_assoc] at split
    rw [List.foldl_cons]
    by_cases complete : done ++ piece = total
    · have empty : pieces.flatten = [] := by
        have size := congrArg List.length split
        rw [complete,List.length_append] at size
        exact List.eq_nil_of_length_eq_zero (by omega)
      obtain ⟨n,size⟩ : ∃ n, total.length = n+1 := by
        cases total with
        | nil => exact absurd (List.append_eq_nil_iff.mp complete).1 missing
        | cons b total => exact ⟨total.length,rfl⟩
      have served : deliver turn {server with stdin := done} piece =
          {server with state := next,stdin := [],stdout := server.stdout ++ written} := by
        simp only [deliver,complete,alive,if_true,size,run,serves,idle]
      rw [served]
      exact deliver_idle pieces rfl empty idle
    · have later : pieces.flatten ≠ [] := by
        intro empty
        rw [empty,List.append_nil] at split
        exact complete split
      have waited : deliver turn {server with stdin := done} piece = {server with stdin := done ++ piece} := by
        simp only [deliver,alive,if_true,run,waits (done ++ piece) _ split later]
      rw [waited]
      exact ih (done ++ piece) split complete

theorem exchange_quiet (pieces : List (List UInt8)) (quiet : Quiet server) (idle : ∀ state, turn state [] = .waits)
    (waits : ∀ part more, part ++ more = pieces.flatten → more ≠ [] → turn server.state part = .waits)
    (serves : turn server.state pieces.flatten = .goes next [] (text ++ [newline])) (one : newline ∉ text)
    (some_ : pieces.flatten ≠ []) :
    exchange turn pieces server = ({server with state := next},some (text ++ [newline])) := by
  obtain ⟨state,stdin,stdout,alive⟩ := server
  obtain ⟨rfl,rfl,rfl⟩ := quiet
  have delivered := deliver_all pieces [] rfl idle waits serves (List.nil_append _) some_.symm
  have line := readLine_line text [] one
  unfold exchange
  rw [delivered]
  simp only [List.nil_append,line]

theorem deliver_waits (pieces : List (List UInt8)) (done : List UInt8)
    (waits : ∀ part more, part ++ more = total → turn server.state part = .waits)
    (split : done ++ pieces.flatten = total) :
    pieces.foldl (deliver turn) {server with stdin := done} = {server with stdin := total} := by
  induction pieces generalizing done with
  | nil =>
    rw [List.flatten_nil,List.append_nil] at split
    rw [List.foldl_nil,split]
  | cons piece pieces ih =>
    rw [List.flatten_cons,← List.append_assoc] at split
    have waited : deliver turn {server with stdin := done} piece = {server with stdin := done ++ piece} := by
      simp only [deliver,run,waits (done ++ piece) _ split,ite_self]
    rw [List.foldl_cons,waited]
    exact ih (done ++ piece) split

theorem exchange_waits (pieces : List (List UInt8)) (quiet : Quiet server)
    (waits : ∀ part more, part ++ more = pieces.flatten → turn server.state part = .waits) :
    exchange turn pieces server = ({server with stdin := pieces.flatten},none) := by
  obtain ⟨state,stdin,stdout,alive⟩ := server
  obtain ⟨rfl,rfl,rfl⟩ := quiet
  have delivered := deliver_waits pieces [] waits (List.nil_append _)
  unfold exchange
  rw [delivered]
  rfl

end

end Pipe
