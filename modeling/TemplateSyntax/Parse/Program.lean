import TemplateSyntax.Parse.Basic
import TemplateSyntax.Parse.Machine
import TemplateSyntax.Token.Scan

/-! # Programs

  The rules of the grammar, closed over the levels of nesting that are left: what is
  nested has one level less, and with none left nothing may be nested. The number of
  levels is a parameter.

  What the machine counts in its state is told here by which parsers there are, so a
  template is read by a function of the cursor alone.
-/

namespace TemplateSyntax

/-- Parsers of nested parts. -/
abbrev Nested := Calls Parse

/-- The parsers of nested parts when some levels of nesting are left. The limit is
    what an error reports when there are none. -/
def Nested.within (limit : Nat) : Nat → Nested
  | 0 =>
    { expression := Parse.fail (.tooDeep limit)
      operand := Parse.fail (.tooDeep limit)
      block := Parse.fail (.tooDeep limit)
      alternate := Parse.fail (.tooDeep limit) }
  | left + 1 =>
    let inner := Nested.within limit left
    { expression := Parse.conditional inner
      operand := Parse.unary inner
      block := Parse.block inner
      alternate := Parse.alternate inner }

/-- A template with at most so many levels of nesting. -/
def Parse.programWithin (limit : Nat) : Parse Program :=
  Parse.programOf (Nested.within limit limit)

/-- The levels of nesting that a template may have. -/
def nestingLimit : Nat := 64

/-- A template. -/
def Parse.program : Parse Program := Parse.programWithin nestingLimit

/-- The template that some tokens write. -/
def parse (ts : List Token) : Except ParseError Program :=
  (Parse.program (.ofTokens ts)).result

/-- The template that a source text writes. -/
def compile (source : String) : Except ParseError Program :=
  parse (tokenize source)

/-! ### One Template After Another -/

/-- A run of the machine over one template. -/
def Machine.program : Machine Program := Machine.programWithin nestingLimit

/-- The answers of the machine to so many runs, each from the state that the one before it has
    left. They end where a run has no answer. -/
def Machine.programs (s : Machine.State) : Nat → List (Machine.Answer Program)
  | 0 => []
  | count + 1 =>
    match Machine.program s with
    | none => []
    | some a => a :: programs a.state count

/-- Reads templates one after another, each from where the one before it stopped. -/
def Parse.programs (c : Cursor) (count : Nat) : List (Except ParseError Program) :=
  (Machine.programs ⟨c, 0⟩ count).map Machine.Answer.outcome

end TemplateSyntax
