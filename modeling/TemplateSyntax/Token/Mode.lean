import TemplateSyntax.Token.Kind

/-! # Lexical Modes

  The same characters mean different things in markup, in a style or script
  segment, in a comment and in an expression. The mode says which rules apply, and
  a marker is a spelling that ends the rules of one mode and begins those of
  another.

  Expression blocks do not nest, so one saved mode is enough to know where the
  closing brace returns to.
-/

namespace TemplateSyntax

/-- Which lexical rules apply. -/
inductive Mode where
  /-- Plain markup. -/
  | text
  /-- Inside a style segment. -/
  | css
  /-- Inside a script segment. -/
  | js
  /-- Inside a line comment. -/
  | comment
  /-- Between the braces of an expression block. -/
  | expression
deriving DecidableEq, Repr, Inhabited

/-- A spelling that changes the mode: the kind of its token and the mode behind it. -/
structure Marker where
  spelling : String
  kind : Kind
  enters : Mode
deriving DecidableEq, Repr

/-- Whether the characters begin with the marker. -/
def Marker.opens (k : Marker) (cs : List Char) : Bool :=
  k.spelling.toList.isPrefixOf cs

namespace Mode

/-- The name of a mode, as log messages show it. -/
def name : Mode → String
  | text => "Text"
  | css => "Css"
  | js => "Js"
  | comment => "Comment"
  | expression => "Expression"

/-- The markers that are looked for in a mode. None begins another of its mode. -/
def markers : Mode → List Marker
  | text =>
    [⟨"<script>", .jsStart, .js⟩, ⟨"<style>", .cssStart, .css⟩,
      ⟨"\x7b", .exprStart, .expression⟩]
  | css => [⟨"</style>", .cssEnd, .text⟩, ⟨"@\x7b", .exprStart, .expression⟩]
  | js => [⟨"</script>", .jsEnd, .text⟩, ⟨"@\x7b", .exprStart, .expression⟩]
  | comment => []
  | expression => []

/-- The marker of this mode that the characters begin with. -/
def marker? (m : Mode) (cs : List Char) : Option Marker :=
  m.markers.find? (·.opens cs)

/-- The spellings that a stretch of text stops in front of, listed apart from the
    markers: the two slashes of a comment stop it too, and stand under every mode. -/
def textEnds : Mode → List String
  | text => ["//", "<script>", "<style>", "\x7b"]
  | css => ["//", "</style>", "@\x7b"]
  | js => ["//", "</script>", "@\x7b"]
  | comment => ["//"]
  | expression => ["//"]

/-- Whether the characters begin with a spelling that text stops in front of. -/
def atTextEnd (m : Mode) (cs : List Char) : Bool :=
  m.textEnds.any (·.toList.isPrefixOf cs)

/-- The kind of the text between two markers. -/
def textKind : Mode → Kind
  | css => .textCss
  | js => .textJs
  | _ => .text

/-- Whether expressions are opened by a brace behind an at sign, and not by the
    brace alone. -/
def isSegment : Mode → Bool
  | css => true
  | js => true
  | _ => false

end Mode

/-! ### The Saved Mode -/

/-- The mode in force, and the one that the end of an expression block returns to. -/
structure Modes where
  current : Mode
  saved : Mode
deriving DecidableEq, Repr, Inhabited

namespace Modes

/-- A source text begins as markup. -/
def initial : Modes := ⟨.text, .text⟩

/-- Enter a mode. An expression block remembers the mode around it. -/
def enter (m : Modes) (mode : Mode) : Modes :=
  if mode = .expression then ⟨mode, m.current⟩ else ⟨mode, m.saved⟩

/-- Leave an expression block. -/
def leave (m : Modes) : Modes := ⟨m.saved, m.saved⟩

@[simp] theorem current_enter (m : Modes) (mode : Mode) : (m.enter mode).current = mode := by
  unfold enter; split <;> rfl

@[simp] theorem current_leave (m : Modes) : m.leave.current = m.saved := rfl

end Modes

end TemplateSyntax
