import TemplateSyntax.Dump
import TemplateSyntax.Number.Layout
import TemplateSyntax.Text.Casing
import TemplateSyntax.Text.Quoted
import TemplateSyntax.Tree.Basic

/-! # Dumps of Trees

  A tree shown by the names of its parts, as a person would inspect it. A part that
  holds a block stands around a record of its own for the block.
-/

namespace TemplateSyntax

open Dump

/-- A text, quoted. -/
def Dump.text (s : String) : Dump := .atom (Text.quoted s)

/-- The name of an operator with capitals. -/
def BinaryOp.dump (op : BinaryOp) : Dump := .atom (Text.capitalised op.name)

/-- The name of an operator with capitals. -/
def UnaryOp.dump (op : UnaryOp) : Dump := .atom (Text.capitalised op.name)

/-- Expressions as arguments. -/
def Dump.arguments (items : List Dump) : Dump := .record "ArgumentList" [("args", .list items)]

/-! ### Expressions -/

mutual

/-- An expression to be shown. -/
def Expr.dump : Expr → Dump
  | .conditional condition consequent alternate =>
    .record "Conditional" [("condition", condition.dump), ("consequent", consequent.dump),
      ("alternate", alternate.dump)]
  | .binary left operator right =>
    .record "Binary" [("left", left.dump), ("operator", operator.dump), ("right", right.dump)]
  | .unary operator operand =>
    .record "Unary" [("operator", operator.dump), ("operand", operand.dump)]
  | .member object property computed =>
    .record "Member" [("object", object.dump), ("property", property.dump),
      ("computed", .atom (toString computed))]
  | .identifier name => .record "Identifier" [("name", Dump.text name)]
  | .call callee args =>
    .record "FunctionCall" [("callee", callee.dump), ("args", arguments (Expr.dumps args))]
  | .null => .atom "Null"
  | .int value => .record "Int" [("value", .atom (toString value.toInt))]
  | .float value => .record "Float" [("value", .atom (DecimalLayout.dump.render value))]
  | .string value => .record "String" [("value", Dump.text value)]
  | .boolean value => .record "Boolean" [("value", .atom (toString value))]

/-- The expressions of a list to be shown. -/
def Expr.dumps : List Expr → List Dump
  | [] => []
  | e :: es => e.dump :: Expr.dumps es

end

/-! ### Nodes -/

/-- The nodes of a template to be shown. -/
def Dump.program (body : List Dump) : Dump := .record "Program" [("body", .list body)]

mutual

/-- A node to be shown. -/
def Node.dump : Node → Dump
  | .program body => .tuple "Program" [Dump.program (Node.dumps body)]
  | .text value => .record "Text" [("value", Dump.text value)]
  | .comment value => .record "Comment" [("value", Dump.text value)]
  | .ifBlock block => .tuple "If" [block.dump]
  | .switchBlock test cases =>
    .tuple "Switch" [.record "Switch" [("test", test.dump), ("cases", .list (Case.dumps cases))]]
  | .forBlock iterator index iterable body =>
    .tuple "For"
      [.record "For" [("iterator", Dump.text iterator), ("index", option (index.map Dump.text)),
        ("iterable", iterable.dump), ("body", .list (Node.dumps body))]]
  | .importFile path => .record "Import" [("path", Dump.text path)]
  | .interpolation value => .record "Expression" [("value", value.dump)]

/-- A condition with its nodes to be shown. -/
def IfBlock.dump : IfBlock → Dump
  | ⟨condition, consequent, alternate⟩ =>
    .record "If" [("condition", condition.dump), ("consequent", .list (Node.dumps consequent)),
      ("alternate", option (Alternate.dump? alternate))]

/-- An alternate to be shown. -/
def Alternate.dump : Alternate → Dump
  | .elseIf block => .tuple "ElseIf" [block.dump]
  | .otherwise body => .tuple "Else" [Dump.program (Node.dumps body)]

/-- An alternate to be shown, if there is one. -/
def Alternate.dump? : Option Alternate → Option Dump
  | none => none
  | some a => some a.dump

/-- A part of a switch block to be shown. -/
def Case.dump : Case → Dump
  | .case values body =>
    .tuple "Case" [.record "Case" [("values", arguments (Expr.dumps values)),
      ("body", .list (Node.dumps body))]]
  | .default body =>
    .tuple "Default" [.record "DefaultCase" [("body", .list (Node.dumps body))]]

/-- The parts of a switch block to be shown. -/
def Case.dumps : List Case → List Dump
  | [] => []
  | c :: cs => c.dump :: Case.dumps cs

/-- The nodes of a list to be shown. -/
def Node.dumps : List Node → List Dump
  | [] => []
  | n :: ns => n.dump :: Node.dumps ns

end

/-- A template to be shown. -/
def Program.dump (p : Program) : Dump := Dump.program (Node.dumps p.body)

end TemplateSyntax
