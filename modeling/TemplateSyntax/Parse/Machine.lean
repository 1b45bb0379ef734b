import TemplateSyntax.Parse.Block

/-! # The Parsing Machine

  Templates are parsed by a machine that counts the nested calls that are open. A nested call
  is refused where the counter has reached the limit. Else it counts up, runs, and counts down
  again, whether what it ran has read something or failed. The counter is part of the state,
  next to the cursor, and so survives a run: the next run begins with whatever the one before
  it has left there.

  A call takes a frame of the stack, and where none is left there is no answer. An error has
  the calls with it that were open where it arose.
-/

namespace TemplateSyntax

/-- What a nested call is made to read. -/
inductive Callee where
  | expression
  | operand
  | block
  | alternate
deriving DecidableEq, Repr

/-- A nested call that has begun and not ended: what it is to read, and the token it began at. -/
structure OpenCall where
  callee : Callee
  token : Token
deriving DecidableEq, Repr

/-- An error, with the nested calls that were open where it arose, the outermost first. -/
structure Failure where
  error : ParseError
  calls : List OpenCall
deriving DecidableEq, Repr

namespace Machine

/-- Where the machine stands, and how many nested calls are open. -/
structure State where
  cursor : Cursor
  depth : Nat
deriving DecidableEq

/-- What a run of the machine answers, and the state that it leaves. -/
structure Answer (α : Type) where
  result : Except Failure α
  state : State
  notes : List ParseNote

/-- The state before anything is read. -/
def State.start (ts : List Token) : State := ⟨.ofTokens ts, 0⟩

/-- The result without the open calls. -/
def Answer.outcome {α : Type} (a : Answer α) : Except ParseError α :=
  a.result.mapError Failure.error

end Machine

/-- A program of the machine. It has no answer if it runs out of the stack. -/
def Machine (α : Type) : Type := Machine.State → Option (Machine.Answer α)

namespace Machine

variable {α β : Type}

/-! ### Operations -/

/-- Run one program, then the one its value selects, from the state it leaves. -/
def andThen (p : Machine α) (f : α → Machine β) : Machine β := fun s =>
  match p s with
  | none => none
  | some ⟨.error e, s', notes⟩ => some ⟨.error e, s', notes⟩
  | some ⟨.ok a, s', notes⟩ =>
    (f a s').map fun o => ⟨o.result, o.state, notes ++ o.notes⟩

/-- Run the program that the cursor selects, again and again, until it selects none. -/
def rounds (select : Cursor → Option (Machine α)) : Machine (List α) := fun s =>
  match select s.cursor with
  | none => some ⟨.ok [], s, []⟩
  | some item =>
    match item s with
    | none => none
    | some ⟨.error e, s', notes⟩ => some ⟨.error e, s', notes⟩
    | some ⟨.ok a, s', notes⟩ =>
      if _h : s'.cursor.ahead.length < s.cursor.ahead.length then
        (rounds select s').map fun o => ⟨o.result.map (a :: ·), o.state, notes ++ o.notes⟩
      else some ⟨.ok [a], s', notes⟩
termination_by s => s.cursor.ahead.length

/-- Fail with an error, while no nested call is open but those outside. -/
def raise (e : ParseError) (notes : List ParseNote) : Machine α := fun s =>
  some ⟨.error ⟨e, []⟩, s, notes⟩

instance : Parsing Machine where
  pure a := fun s => some ⟨.ok a, s, []⟩
  bind := andThen
  current := fun s => some ⟨.ok s.cursor.current, s, []⟩
  following := fun s => some ⟨.ok s.cursor.following, s, []⟩
  advance := fun s => some ⟨.ok s.cursor.current, { s with cursor := s.cursor.advance }, []⟩
  report note := fun s => some ⟨.ok (), s, [note]⟩
  reject e := raise e []
  fail cause := fun s =>
    let e := ParseError.blaming s.cursor.current cause
    raise e [.failed e] s
  branch isSuch p q := fun s => if isSuch s.cursor then p s else q s
  many := rounds

/-! ### Nested Calls -/

/-- The state with one more nested call open. -/
def State.enter (s : State) : State := { s with depth := s.depth + 1 }

/-- The state with one nested call less open. -/
def State.leave (s : State) : State := { s with depth := s.depth - 1 }

/-- The answer of what a nested call has run, behind the call. If it is an error, the call was
    open where this arose. -/
def Answer.leave (call : OpenCall) (a : Answer α) : Answer α where
  result := a.result.mapError fun f => { f with calls := call :: f.calls }
  state := a.state.leave
  notes := a.notes

/-- Run a program one level deeper, unless the limit is reached. -/
def nested (limit : Nat) (callee : Callee) (p : Machine α) : Machine α := fun s =>
  if limit ≤ s.depth then Parse.fail (P := Machine) (.tooDeep limit) s
  else (p s.enter).map (Answer.leave ⟨callee, s.cursor.current⟩)

/-- The programs of nested parts, when so many frames of the stack are left. -/
def calls (limit : Nat) : Nat → Calls Machine
  | 0 =>
    { expression := fun _ => none
      operand := fun _ => none
      block := fun _ => none
      alternate := fun _ => none }
  | frames + 1 =>
    let inner := calls limit frames
    { expression := nested limit .expression (Parse.conditional inner)
      operand := nested limit .operand (Parse.unary inner)
      block := nested limit .block (Parse.block inner)
      alternate := nested limit .alternate (Parse.alternate inner) }

/-! ### Templates -/

/-- A template with at most so many levels of nesting. One frame more than there are levels
    is for the call that is refused. -/
def programWithin (limit : Nat) : Machine Program :=
  Parse.programOf (calls limit (limit + 1))

end Machine

end TemplateSyntax
