import TemplateSyntax.Proofs.Print.Basic
import TemplateSyntax.Proofs.Scan.Lexemes

/-! # Leaves of Templates

  The leaves of a tree are the texts, the names and the whole numbers in it, each with the
  part that it plays (`Program.leaves`). What is scanned from a source text has a form by
  which one knows it (`Token.Legible`), and a leaf has the form that its part asks for
  (`Leaf.Legible`).
-/

namespace TemplateSyntax

/-! ## Forms -/

/-- No line ends inside the text. -/
def OneLine (s : String) : Prop := ∀ c ∈ s.toList, c ≠ '\n' ∧ c ≠ '\r'

/-- A text is part of one line, and the blanks in front of it do not belong to it. -/
structure IsText (s : String) : Prop where
  oneLine : OneLine s
  nonempty : s.toList ≠ []
  first : ∀ c ∈ s.toList.head?, c ≠ ' ' ∧ c ≠ '\t'

/-- A comment is part of one line, from two slashes on. -/
structure IsComment (s : String) : Prop where
  oneLine : OneLine s
  slashes : "//".toList <+: s.toList

/-- A name consists of letters, digits and underscores, does not begin with a digit, and is
    more than an underscore. -/
structure IsName (s : String) : Prop where
  first : ∃ c cs, s.toList = c :: cs ∧ isWordStart c = true
  chars : ∀ c ∈ s.toList, isWordChar c = true
  more : s ≠ "_"

/-- What the kind of a token says of its text. -/
structure Token.Legible (t : Token) : Prop where
  markup : t.kind.isMarkup = true → IsText t.text
  comment : t.kind = .comment → IsComment t.text
  word : t.kind.isWord = true → IsName t.text ∧ t.kind = .ofWord t.text
  integer : t.kind = .integer → Digits t.text.toList

/-! ## Leaves -/

/-- A text, a name or a number in a tree, and what it is there. -/
inductive Leaf where
  | text (value : String)
  | comment (value : String)
  | variable (name : String)
  /-- The name of a property behind a point. -/
  | property (name : String)
  /-- The name of the item of a loop. -/
  | iterator (name : String)
  /-- The name of the counter of a loop. -/
  | index (name : String)
  | int (value : Int64)

/-- The words that cannot stand for a variable. -/
def Kind.valueWords : List String := ["default", "true", "false", "null", "undefined"]

/-- The form that a leaf has. -/
def Leaf.Legible : Leaf → Prop
  | .text value => IsText value
  | .comment value => IsComment value
  | .variable name => IsName name ∧ name ∉ Kind.valueWords
  | .property name => IsName name
  | .iterator name | .index name => IsName name ∧ Kind.keyword? name = none
  | .int value => 0 ≤ value.toInt ∧ value.toInt ≤ Integer.maxValue

namespace Expr

mutual

/-- The leaves of an expression, from left to right. -/
def leaves : Expr → List Leaf
  | conditional c a b => c.leaves ++ a.leaves ++ b.leaves
  | binary a _ b => a.leaves ++ b.leaves
  | unary _ e => e.leaves
  | member object (identifier name) false => object.leaves ++ [.property name]
  | member object property _ => object.leaves ++ property.leaves
  | identifier name => [.variable name]
  | call callee args => callee.leaves ++ rowLeaves args
  | int value => [.int value]
  | null | float _ | string _ | boolean _ => []

/-- The leaves of expressions. -/
def rowLeaves : List Expr → List Leaf
  | [] => []
  | e :: es => e.leaves ++ rowLeaves es

end

theorem leaves_property (object : Expr) (name : String) :
    (object.property name).leaves = object.leaves ++ [.property name] := rfl

theorem leaves_index (object key : Expr) :
    (object.index key).leaves = object.leaves ++ key.leaves := by
  simp [index, leaves]

end Expr

mutual

/-- The leaves of a node, from left to right. -/
def Node.leaves : Node → List Leaf
  | .program body => Node.rowLeaves body
  | .text value => [.text value]
  | .comment value => [.comment value]
  | .ifBlock block => block.leaves
  | .switchBlock test cases => test.leaves ++ Case.rowLeaves cases
  | .forBlock iterator index iterable body =>
    .iterator iterator :: (index.toList.map .index ++ (iterable.leaves ++ Node.rowLeaves body))
  | .importFile _ => []
  | .interpolation value => value.leaves

/-- The leaves of a condition and its alternates. -/
def IfBlock.leaves : IfBlock → List Leaf
  | ⟨condition, consequent, alternate⟩ =>
    condition.leaves ++ Node.rowLeaves consequent ++ Alternate.leaves? alternate

/-- The leaves of an alternate. -/
def Alternate.leaves : Alternate → List Leaf
  | .elseIf block => block.leaves
  | .otherwise body => Node.rowLeaves body

/-- The leaves of an alternate, if there is one. -/
def Alternate.leaves? : Option Alternate → List Leaf
  | none => []
  | some a => a.leaves

/-- The leaves of a part of a switch block. -/
def Case.leaves : Case → List Leaf
  | .case values body => Expr.rowLeaves values ++ Node.rowLeaves body
  | .default body => Node.rowLeaves body

/-- The leaves of the parts of a switch block. -/
def Case.rowLeaves : List Case → List Leaf
  | [] => []
  | x :: xs => x.leaves ++ Case.rowLeaves xs

/-- The leaves of nodes. -/
def Node.rowLeaves : List Node → List Leaf
  | [] => []
  | x :: xs => x.leaves ++ Node.rowLeaves xs

end

/-- The leaves of a template, from left to right. -/
def Program.leaves (p : Program) : List Leaf := Node.rowLeaves p.body

end TemplateSyntax
