import TemplateSyntax.Parse.Cursor
import TemplateSyntax.Parse.Error

/-! # What the Grammar Is Written In

  A rule of the grammar is composed of a few operations on the tokens ahead, and of the
  parsers of whatever is nested inside it. It is written once, over any monad that has the
  operations (`Parsing`).
-/

namespace TemplateSyntax

/-- What is worth reporting while nodes are parsed. -/
inductive ParseNote where
  /-- Parsing stopped with an error. -/
  | failed (error : ParseError)
  /-- A token between the header of a switch block and its cases was passed over. -/
  | skipped (token : Token)
  /-- A template with so many nodes was read. -/
  | parsed (count : Nat)
deriving DecidableEq, Repr

/-- The operations that the rules of the grammar are composed of. -/
class Parsing (P : Type → Type) extends Monad P where
  /-- The current token, not yet read. -/
  current : P Token
  /-- The token behind the current one, not yet read. -/
  following : P Token
  /-- Read the current token. -/
  advance : P Token
  /-- Report something. -/
  report (note : ParseNote) : P Unit
  /-- Fail without a report. -/
  reject {α : Type} (e : ParseError) : P α
  /-- Fail, for a reason that the current token is at fault for. -/
  fail {α : Type} (cause : Cause) : P α
  /-- The first parser where the cursor is such, else the second one. -/
  branch {α : Type} (isSuch : Cursor → Bool) (p q : P α) : P α
  /-- Run the parser that the cursor selects, again and again, until it selects none. -/
  many {α : Type} (select : Cursor → Option (P α)) : P (List α)

namespace Parse

export Parsing (current following advance report reject fail branch many)

variable {P : Type → Type} [Parsing P] {α : Type}

/-- Fail because something else was expected than the current token, or than the end
    of the input. -/
def unexpected (expected : Expected) : P α :=
  branch Cursor.atEnd (fail (.ended expected)) do
    let t ← current
    fail (.unexpected t.text expected)

/-- Read a token of the given kind. -/
def expect (kind : Kind) : P Token :=
  branch (·.isAt kind) advance (unexpected (.token kind))

end Parse

end TemplateSyntax
