import TemplateSyntax.Parse.Program

/-! # Diagnostics

  What an editor is told about a template that does not compile: a message, and the
  place that it is about as numbers of double precision.
-/

namespace TemplateSyntax

/-- A message about a place in a template. -/
structure Diagnostic where
  message : String
  line : Nat
  column : Nat
deriving DecidableEq, Repr

namespace Diagnostic

/-- The diagnostic of an error. -/
def ofError (e : ParseError) : Diagnostic := ⟨e.message, e.line, e.column⟩

/-- The diagnostic of a source text that does not compile. -/
def ofSource? (source : String) : Option Diagnostic :=
  match compile source with
  | .ok _ => none
  | .error e => some (ofError e)

/-- The properties of a diagnostic besides its message. -/
def properties (d : Diagnostic) : List (String × Binary64) :=
  [("line", .ofNat d.line), ("column", .ofNat d.column)]

end Diagnostic

end TemplateSyntax
