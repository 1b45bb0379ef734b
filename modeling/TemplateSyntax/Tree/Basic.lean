import TemplateSyntax.Number.Binary64
import TemplateSyntax.Tree.Operator

/-! # Syntax Trees

  What a template means, layout apart: a list of nodes, which are text, comments,
  interpolated expressions and blocks with lists of nodes inside.
-/

namespace TemplateSyntax

/-- An expression. -/
inductive Expr where
  /-- The consequent if the condition holds, else the alternate. -/
  | conditional (condition consequent alternate : Expr)
  | binary (left : Expr) (operator : BinaryOp) (right : Expr)
  | unary (operator : UnaryOp) (operand : Expr)
  /-- A property of an object. A computed one is any expression, written in
      brackets; one that is not is an identifier behind a point. -/
  | member (object property : Expr) (computed : Bool)
  | identifier (name : String)
  | call (callee : Expr) (args : List Expr)
  | null
  | int (value : Int64)
  | float (value : Binary64)
  | string (value : String)
  | boolean (value : Bool)
deriving Repr, Inhabited

namespace Expr

/-- The property of that name. -/
def property (object : Expr) (name : String) : Expr :=
  member object (identifier name) false

/-- The property that an expression computes. -/
def index (object : Expr) (key : Expr) : Expr :=
  member object key true

end Expr

mutual

/-- A part of a template. -/
inductive Node where
  /-- The nodes behind an `else` that belongs to no `if`. -/
  | program (body : List Node)
  /-- Markup text, style or script text, or the tag of a segment. -/
  | text (value : String)
  /-- A comment with its two slashes. -/
  | comment (value : String)
  | ifBlock (block : IfBlock)
  | switchBlock (test : Expr) (cases : List Case)
  /-- A loop over the items of an iterable, which may count them as well. -/
  | forBlock (iterator : String) (index : Option String) (iterable : Expr) (body : List Node)
  /-- Another template in place of this node. -/
  | importFile (path : String)
  /-- The value of an expression. -/
  | interpolation (value : Expr)

/-- A condition, the nodes if it holds, and what there is if it does not. -/
structure IfBlock where
  condition : Expr
  consequent : List Node
  alternate : Option Alternate

/-- What there is if a condition does not hold. -/
inductive Alternate where
  /-- A further condition. -/
  | elseIf (block : IfBlock)
  | otherwise (body : List Node)

/-- A part of a switch block. -/
inductive Case where
  /-- The nodes for a list of values. -/
  | case (values : List Expr) (body : List Node)
  /-- The nodes for all other values. -/
  | default (body : List Node)

end

instance : Inhabited Node := ⟨.text ""⟩

/-- A template. -/
structure Program where
  body : List Node
deriving Inhabited

end TemplateSyntax
