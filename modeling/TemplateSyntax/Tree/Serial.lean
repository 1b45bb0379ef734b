import TemplateSyntax.Tree.Basic

/-! # Serialized Trees

  A tree as plain data: every part is a record with a field `type` that says which
  part it is, next to the fields of the part. The part inside a block node has no
  record of its own; its fields stand in the record of the node.

  A number that is not finite has no plain form and is serialized as null.
-/

namespace TemplateSyntax

/-- Plain data. -/
inductive Datum where
  | null
  | boolean (value : Bool)
  | int (value : Int)
  | float (value : Binary64)
  | text (value : String)
  | list (items : List Datum)
  | record (fields : List (String × Datum))
deriving Repr, Inhabited

namespace Datum

/-- A record whose first field says what it is. -/
def tagged (tag : String) (fields : List (String × Datum)) : Datum :=
  .record (("type", .text tag) :: fields)

/-- A number, if it has a plain form. -/
def number (x : Binary64) : Datum :=
  if x.isFinite then .float x else .null

/-- A text that may be missing. -/
def text? : Option String → Datum
  | none => .null
  | some s => .text s

end Datum

open Datum

/-! ### Expressions -/

mutual

/-- An expression as plain data. -/
def Expr.serial : Expr → Datum
  | .conditional condition consequent alternate =>
    tagged "conditional" [("condition", condition.serial), ("consequent", consequent.serial),
      ("alternate", alternate.serial)]
  | .binary left operator right =>
    tagged "binary"
      [("left", left.serial), ("operator", .text operator.name), ("right", right.serial)]
  | .unary operator operand =>
    tagged "unary" [("operator", .text operator.name), ("operand", operand.serial)]
  | .member object property computed =>
    tagged "member" [("object", object.serial), ("property", property.serial),
      ("computed", .boolean computed)]
  | .identifier name => tagged "identifier" [("name", .text name)]
  | .call callee args =>
    tagged "function_call"
      [("callee", callee.serial), ("args", .record [("args", .list (Expr.serials args))])]
  | .null => tagged "null" []
  | .int value => tagged "int" [("value", .int value.toInt)]
  | .float value => tagged "float" [("value", number value)]
  | .string value => tagged "string" [("value", .text value)]
  | .boolean value => tagged "boolean" [("value", .boolean value)]

/-- The expressions of a list as plain data. -/
def Expr.serials : List Expr → List Datum
  | [] => []
  | e :: es => e.serial :: Expr.serials es

end

/-! ### Nodes -/

mutual

/-- A node as plain data. -/
def Node.serial : Node → Datum
  | .program body => tagged "program" [("body", .list (Node.serials body))]
  | .text value => tagged "text" [("value", .text value)]
  | .comment value => tagged "comment" [("value", .text value)]
  | .ifBlock block => tagged "if" block.fields
  | .switchBlock test cases =>
    tagged "switch" [("test", test.serial), ("cases", .list (Case.serials cases))]
  | .forBlock iterator index iterable body =>
    tagged "for" [("iterator", .text iterator), ("index", text? index),
      ("iterable", iterable.serial), ("body", .list (Node.serials body))]
  | .importFile path => tagged "import" [("path", .text path)]
  | .interpolation value => tagged "expression" [("value", value.serial)]

/-- The fields of a condition with its nodes. -/
def IfBlock.fields : IfBlock → List (String × Datum)
  | ⟨condition, consequent, alternate⟩ =>
    [("condition", condition.serial), ("consequent", .list (Node.serials consequent)),
      ("alternate", Alternate.serial? alternate)]

/-- An alternate as plain data. -/
def Alternate.serial : Alternate → Datum
  | .elseIf block => tagged "else_if" block.fields
  | .otherwise body => tagged "else" [("body", .list (Node.serials body))]

/-- An alternate that may be missing, as plain data. -/
def Alternate.serial? : Option Alternate → Datum
  | none => .null
  | some a => a.serial

/-- A part of a switch block as plain data. -/
def Case.serial : Case → Datum
  | .case values body =>
    tagged "case" [("values", .record [("args", .list (Expr.serials values))]),
      ("body", .list (Node.serials body))]
  | .default body => tagged "default" [("body", .list (Node.serials body))]

/-- The parts of a switch block as plain data. -/
def Case.serials : List Case → List Datum
  | [] => []
  | c :: cs => c.serial :: Case.serials cs

/-- The nodes of a list as plain data. -/
def Node.serials : List Node → List Datum
  | [] => []
  | n :: ns => n.serial :: Node.serials ns

end

/-- A template as plain data. -/
def Program.serial (p : Program) : Datum :=
  .record [("body", .list (Node.serials p.body))]

end TemplateSyntax
