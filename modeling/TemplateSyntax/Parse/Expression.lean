import TemplateSyntax.Parse.Parsing
import TemplateSyntax.Tree.Basic

/-! # Expressions

  The grammar of expressions, from the loosest binding to the tightest: the
  conditional, six levels of binary operators, unary operators, and primary
  expressions, which are literals, parenthesised expressions and names with their
  suffixes.

  A rule refers to the parsers of whatever is nested one level deeper through a
  record (`Calls`), so that no rule refers to itself.
-/

namespace TemplateSyntax

/-- The parsers of what may be nested inside a block or an expression. -/
structure Calls (P : Type → Type) where
  /-- A whole expression. -/
  expression : P Expr
  /-- What a unary operator is applied to. -/
  operand : P Expr
  /-- A block, from its opening brace. -/
  block : P Node
  /-- What follows the opening brace of an `else`. -/
  alternate : P Alternate

/-! ### Suffixes -/

/-- What may follow a name: a property, a key in brackets, or arguments. -/
inductive Suffix where
  | property (name : String)
  | index (key : Expr)
  | call (args : List Expr)

/-- The expression that a suffix makes of what stands before it. -/
def Suffix.apply (object : Expr) : Suffix → Expr
  | .property name => object.property name
  | .index key => object.index key
  | .call args => .call object args

namespace Parse

variable {P : Type → Type} [Parsing P]

/-- A comma and a further expression. -/
def furtherExpression (n : Calls P) : P Expr := do
  let _ ← advance
  n.expression

/-- One or more expressions with commas between them. -/
def expressions (n : Calls P) : P (List Expr) := do
  let first ← n.expression
  let others ← many fun c => if c.isAt .comma then some (furtherExpression n) else none
  return first :: others

/-- A point and the name of a property. -/
def propertySuffix : P Suffix := do
  let _ ← advance
  let t ← current
  if t.kind.isWord then
    let _ ← advance
    return .property t.text
  else unexpected .propertyName

/-- A key in brackets. -/
def indexSuffix (n : Calls P) : P Suffix := do
  let _ ← advance
  let key ← n.expression
  let _ ← expect .rBracket
  return .index key

/-- The expressions in front of a closing parenthesis. There may be none. -/
def arguments (n : Calls P) : P (List Expr) := do
  let t ← current
  if t.kind = .rParen then return []
  else expressions n

/-- Arguments in parentheses. -/
def callSuffix (n : Calls P) : P Suffix := do
  let _ ← advance
  let args ← arguments n
  let _ ← expect .rParen
  return .call args

/-- The suffix that a kind of token begins. -/
def suffix? (n : Calls P) : Kind → Option (P Suffix)
  | .period => some propertySuffix
  | .lBracket => some (indexSuffix n)
  | .lParen => some (callSuffix n)
  | _ => none

/-- A name and its suffixes, applied from left to right. -/
def chain (n : Calls P) : P Expr := do
  let name ← advance
  let suffixes ← many fun c => suffix? n c.current.kind
  return suffixes.foldl Suffix.apply (.identifier name.text)

/-! ### Primary Expressions -/

/-- An integer literal. -/
def integerLiteral : P Expr := do
  let t ← advance
  match Integer.read t.text with
  | .ok value => return .int value
  | .error fault => reject (.blaming t (.badInteger t.text fault))

/-- A literal with a fraction. -/
def decimalLiteral : P Expr := do
  let t ← advance
  match Decimal.read t.text with
  | .ok value => return .float value
  | .error fault => reject (.blaming t (.badDecimal t.text fault))

/-- An expression in parentheses, which leave no trace in the tree. -/
def parenthesised (n : Calls P) : P Expr := do
  let _ ← advance
  let e ← n.expression
  let _ ← expect .rParen
  return e

/-- A literal, a parenthesised expression, or a name with its suffixes. -/
def primary (n : Calls P) : P Expr := do
  let t ← current
  match t.kind with
  | .lParen => parenthesised n
  | .integer => integerLiteral
  | .float => decimalLiteral
  | .string => do
    let _ ← advance
    return .string t.text
  | .boolean => do
    let _ ← advance
    return .boolean (t.text == "true")
  | .null | .undefined => do
    let _ ← advance
    return .null
  | kind => if kind.isVariable then chain n else unexpected .expression

/-! ### Operators -/

/-- Unary operators, any number of them, and a primary expression. -/
def unary (n : Calls P) : P Expr := do
  let t ← current
  match UnaryOp.ofKind? t.kind with
  | some op => do
    let _ ← advance
    return .unary op (← n.operand)
  | none => primary n

/-- An operator and the operand behind it. -/
def operation (op : BinaryOp) (tighter : P Expr) : P (BinaryOp × Expr) := do
  let _ ← advance
  return (op, ← tighter)

/-- The operator of a level that a kind of token writes. -/
def operatorOf? (ops : List BinaryOp) (kind : Kind) : Option BinaryOp :=
  (BinaryOp.ofKind? kind).filter ops.contains

/-- Operands that bind tighter, with operators of one level between them. They group
    to the left. -/
def leftAssociative (ops : List BinaryOp) (tighter : P Expr) : P Expr := do
  let first ← tighter
  let others ← many fun c => (operatorOf? ops c.current.kind).map (operation · tighter)
  return others.foldl (fun left next => .binary left next.1 next.2) first

/-- The levels of binary operators, the loosest first. -/
def levels : List (List BinaryOp) :=
  [[.or], [.and], [.eq, .notEq], [.lt, .gt, .ltEq, .gtEq], [.add, .sub], [.mul, .div]]

/-- Binary operators over unary expressions. -/
def binary (n : Calls P) : P Expr :=
  levels.foldr leftAssociative (unary n)

/-- A binary expression, or one that chooses between two expressions. -/
def conditional (n : Calls P) : P Expr := do
  let condition ← binary n
  let t ← current
  if t.kind = .questionMark then
    let _ ← advance
    let consequent ← n.expression
    let _ ← expect .colon
    let alternate ← n.expression
    return .conditional condition consequent alternate
  else return condition

end Parse

end TemplateSyntax
