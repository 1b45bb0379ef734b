import TemplateSyntax.Token.Kind

/-! # Operators

  The operators of expressions. Each is written by one kind of token and each such
  kind writes one operator, so the two correspond (`BinaryOp.ofKind?_eq_some_iff`,
  `UnaryOp.ofKind?_eq_some_iff`); the minus sign writes one operator of either sort.
-/

namespace TemplateSyntax

/-- An operator between two operands. -/
inductive BinaryOp where
  | add | sub | mul | div
  | eq | notEq | lt | gt | ltEq | gtEq
  | and | or
deriving DecidableEq, Repr, Inhabited

namespace BinaryOp

/-- The kind of token that writes an operator. -/
def kind : BinaryOp → Kind
  | add => .plus
  | sub => .minus
  | mul => .multiplication
  | div => .division
  | eq => .equal
  | notEq => .notEqual
  | lt => .lessThan
  | gt => .greaterThan
  | ltEq => .lessEqual
  | gtEq => .greaterEqual
  | and => .logicalAnd
  | or => .logicalOr

/-- The operator that a kind of token writes. -/
def ofKind? : Kind → Option BinaryOp
  | .plus => some add
  | .minus => some sub
  | .multiplication => some mul
  | .division => some div
  | .equal => some eq
  | .notEqual => some notEq
  | .lessThan => some lt
  | .greaterThan => some gt
  | .lessEqual => some ltEq
  | .greaterEqual => some gtEq
  | .logicalAnd => some and
  | .logicalOr => some or
  | _ => none

/-- The name of an operator in serialized trees. -/
def name : BinaryOp → String
  | add => "add"
  | sub => "sub"
  | mul => "mul"
  | div => "div"
  | eq => "eq"
  | notEq => "not_eq"
  | lt => "lt"
  | gt => "gt"
  | ltEq => "lt_eq"
  | gtEq => "gt_eq"
  | and => "and"
  | or => "or"

/-- Every operator, in the order of declaration. -/
def all : List BinaryOp :=
  [add, sub, mul, div, eq, notEq, lt, gt, ltEq, gtEq, and, or]

/-- The operator that bears a name. -/
def ofName? (s : String) : Option BinaryOp :=
  all.find? (·.name == s)

theorem ofKind?_eq_some_iff {k : Kind} {op : BinaryOp} :
    ofKind? k = some op ↔ op.kind = k := by
  constructor
  · intro h; cases k <;> simp [ofKind?] at h <;> subst h <;> rfl
  · rintro rfl; cases op <;> rfl

theorem ofName?_name (op : BinaryOp) : ofName? op.name = some op := by
  cases op <;> decide

end BinaryOp

/-- An operator in front of its operand. -/
inductive UnaryOp where
  | neg | not
deriving DecidableEq, Repr, Inhabited

namespace UnaryOp

/-- The kind of token that writes an operator. -/
def kind : UnaryOp → Kind
  | neg => .minus
  | not => .exclamation

/-- The operator that a kind of token writes. -/
def ofKind? : Kind → Option UnaryOp
  | .minus => some neg
  | .exclamation => some not
  | _ => none

/-- The name of an operator in serialized trees. -/
def name : UnaryOp → String
  | neg => "neg"
  | not => "not"

/-- The operator that bears a name. -/
def ofName? (s : String) : Option UnaryOp :=
  [neg, not].find? (·.name == s)

theorem ofKind?_eq_some_iff {k : Kind} {op : UnaryOp} :
    ofKind? k = some op ↔ op.kind = k := by
  constructor
  · intro h; cases k <;> simp [ofKind?] at h <;> subst h <;> rfl
  · rintro rfl; cases op <;> rfl

theorem ofName?_name (op : UnaryOp) : ofName? op.name = some op := by
  cases op <;> decide

end UnaryOp

end TemplateSyntax
