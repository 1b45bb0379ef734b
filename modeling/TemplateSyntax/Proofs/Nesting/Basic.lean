import TemplateSyntax.Proofs.Grammar.Nodes.Exact

/-! # How Deeply Trees Are Nested

  The nesting of a tree is the number of levels on the way to the innermost of its parts
  (`Program.nesting`). A block is one level, and so is an `else` that belongs to a condition; a
  whole expression is one, wherever one may stand, and so is the operand of a unary operator.
  The operands of binary operators and whatever suffixes stand behind take none.

  The grammar bounds what is written in so many levels (`Grammar.Body.nesting_le`).
-/

namespace TemplateSyntax

/-! ## Levels -/

namespace Expr

mutual

/-- The levels inside an expression. The expression itself is not counted. -/
def nesting : Expr → Nat
  | conditional c a b => max c.nesting (max (a.nesting + 1) (b.nesting + 1))
  | binary a _ b => max a.nesting b.nesting
  | unary _ e => e.nesting + 1
  | member object key true => max object.nesting (key.nesting + 1)
  | member object name false => max object.nesting name.nesting
  | call callee args => max callee.nesting (rowNesting args)
  | identifier _ | null | int _ | float _ | string _ | boolean _ => 0

/-- The levels of whole expressions side by side. -/
def rowNesting : List Expr → Nat
  | [] => 0
  | e :: es => max (e.nesting + 1) (rowNesting es)

end

end Expr

mutual

/-- The levels of a node. Between braces null is no expression of its own, for it is what empty
    braces stand for. -/
def Node.nesting : Node → Nat
  | .text _ | .comment _ => 0
  | .program body => Node.rowNesting body + 1
  | .ifBlock block => block.nesting + 1
  | .switchBlock test cases => max (test.nesting + 1) (Case.rowNesting cases) + 1
  | .forBlock _ _ iterable body => max (iterable.nesting + 1) (Node.rowNesting body) + 1
  | .importFile _ => 1
  | .interpolation .null => 1
  | .interpolation value => value.nesting + 1 + 1

/-- The levels inside a condition and its alternates. -/
def IfBlock.nesting : IfBlock → Nat
  | ⟨condition, consequent, alternate⟩ =>
    max (condition.nesting + 1) (max (Node.rowNesting consequent) (Alternate.nesting? alternate))

/-- The levels inside an alternate. -/
def Alternate.nesting : Alternate → Nat
  | .elseIf block => block.nesting
  | .otherwise body => Node.rowNesting body

/-- The levels of an alternate that belongs to a condition, if there is one. -/
def Alternate.nesting? : Option Alternate → Nat
  | none => 0
  | some a => a.nesting + 1

/-- The levels of a part of a switch block. -/
def Case.nesting : Case → Nat
  | .case values body => max (Expr.rowNesting values) (Node.rowNesting body)
  | .default body => Node.rowNesting body

/-- The levels of the parts of a switch block. -/
def Case.rowNesting : List Case → Nat
  | [] => 0
  | x :: xs => max x.nesting (Case.rowNesting xs)

/-- The levels of nodes side by side. -/
def Node.rowNesting : List Node → Nat
  | [] => 0
  | x :: xs => max x.nesting (Node.rowNesting xs)

end

/-- The levels of a template. -/
def Program.nesting (p : Program) : Nat := Node.rowNesting p.body

/-- Only null counts for less between braces than a whole expression. -/
theorem Node.nesting_interpolation_le (e : Expr) :
    (Node.interpolation e).nesting ≤ e.nesting + 1 + 1 := by
  cases e <;> simp [Node.nesting, Expr.nesting]

/-- An alternate that belongs to no condition is a block of its own. -/
theorem Parse.nesting_strayNode (a : Alternate) : (strayNode a).nesting = a.nesting + 1 := by
  cases a with
  | elseIf block => simp only [strayNode, Node.nesting, Alternate.nesting]
  | otherwise body => simp only [strayNode, Node.nesting, Alternate.nesting]

namespace Grammar

/-! ## Expressions -/

mutual

/-- A whole expression takes one of its levels itself. -/
theorem Conditional.nesting_lt {n u e} (h : Conditional n u e) : e.nesting < n :=
  match h with
  | .single h => Nat.lt_succ_of_le h.nesting_le
  | .choice hc _ ha _ hb => by
    have hcondition := hc.nesting_le
    have hconsequent := ha.nesting_lt
    have halternate := hb.nesting_lt
    simp only [Expr.nesting]
    omega
termination_by structural h

theorem Binary.nesting_le {i n u e} (h : Binary i n u e) : e.nesting ≤ n :=
  match h with
  | .unary h => h.nesting_le
  | .tighter h => h.nesting_le
  | .operation hl _ hr => by
    have hleft := hl.nesting_le
    have hright := hr.nesting_le
    simp only [Expr.nesting]
    omega
termination_by structural h

theorem Unary.nesting_le {n u e} (h : Unary n u e) : e.nesting ≤ n :=
  match h with
  | .primary h => h.nesting_le
  | .operation _ h => by
    have hoperand := h.nesting_le
    simp only [Expr.nesting]
    omega
termination_by structural h

theorem Primary.nesting_le {n u e} (h : Primary n u e) : e.nesting ≤ n :=
  match h with
  | .parenthesised _ h _ => Nat.le_of_lt h.nesting_lt
  | .integer _ _ | .float _ _ | .string _ | .boolean _ | .null _ => by
    simp only [Expr.nesting]
    omega
  | .chain h => h.nesting_le
termination_by structural h

theorem Chain.nesting_le {n u e} (h : Chain n u e) : e.nesting ≤ n :=
  match h with
  | .head _ => by
    simp only [Expr.nesting]
    omega
  | .property h _ _ => by
    have hobject := h.nesting_le
    simp only [Expr.property, Expr.nesting]
    omega
  | .index h _ hk _ => by
    have hobject := h.nesting_le
    have hkey := hk.nesting_lt
    simp only [Expr.index, Expr.nesting]
    omega
  | .call h _ ha _ => by
    have hcallee := h.nesting_le
    have hargs := ha.nesting_le
    simp only [Expr.nesting]
    omega
termination_by structural h

theorem Arguments.nesting_le {n u es} (h : Arguments n u es) : Expr.rowNesting es ≤ n :=
  match h with
  | .none => Nat.zero_le n
  | .some h => h.nesting_le
termination_by structural h

theorem Expressions.nesting_le {n u es} (h : Expressions n u es) : Expr.rowNesting es ≤ n :=
  match h with
  | .single h => by
    have hfirst := h.nesting_lt
    simp only [Expr.rowNesting]
    omega
  | .cons h _ hs => by
    have hfirst := h.nesting_lt
    have hothers := hs.nesting_le
    simp only [Expr.rowNesting]
    omega
termination_by structural h

end

/-! ## Nodes -/

mutual

theorem Body.nesting_le {n words u xs} (h : Body n words u xs) : Node.rowNesting xs ≤ n :=
  match h with
  | .nil => Nat.zero_le n
  | .cons h _ hs => by
    have hfirst := h.nesting_le
    have hothers := hs.nesting_le
    simp only [Node.rowNesting]
    omega
  | .stray _ _ h => by
    have hbranch := h.nesting_le
    simp only [Node.rowNesting, Parse.nesting_strayNode]
    omega
termination_by structural h

theorem Piece.nesting_le {n u x} (h : Piece n u x) : x.nesting ≤ n :=
  match h with
  | .text _ | .comment _ => by
    simp only [Node.nesting]
    omega
  | .block _ h => h.nesting_le
termination_by structural h

/-- A block takes one level more than what is inside. -/
theorem Block.nesting_le {n u x} (h : Block n u x) : x.nesting ≤ n + 1 :=
  match h with
  | .condition h _ => by
    have hblock := h.nesting_le
    simp only [Node.nesting]
    omega
  | .switch _ he _ _ hp _ => by
    have htest := he.nesting_lt
    have hparts := hp.nesting_le
    simp only [Node.nesting]
    omega
  | .loop _ _ _ _ he _ hb _ => by
    have hiterable := he.nesting_lt
    have hbody := hb.nesting_le
    simp only [Node.nesting]
    omega
  | .importFile _ _ _ | .empty _ => by
    simp only [Node.nesting]
    omega
  | .interpolation he _ _ =>
    Nat.le_trans (Node.nesting_interpolation_le _) (Nat.succ_le_succ he.nesting_lt)
termination_by structural h

theorem Condition.nesting_le {n u b} (h : Condition n u b) : b.nesting ≤ n :=
  match h with
  | .alone _ he _ hb => by
    have hcondition := he.nesting_lt
    have hbody := hb.nesting_le
    simp only [IfBlock.nesting, Alternate.nesting?]
    omega
  | .chained _ he _ hb _ ha => by
    have hcondition := he.nesting_lt
    have hbody := hb.nesting_le
    have hbranch := ha.nesting_le
    simp only [IfBlock.nesting, Alternate.nesting?]
    omega
termination_by structural h

theorem Branch.nesting_le {n u a} (h : Branch n u a) : a.nesting ≤ n :=
  match h with
  | .elseIf _ h => by
    have hblock := h.nesting_le
    simpa only [Alternate.nesting] using hblock
  | .otherwise _ _ hb => by
    have hbody := hb.nesting_le
    simpa only [Alternate.nesting] using hbody
termination_by structural h

theorem Parts.nesting_le {n u xs} (h : Parts n u xs) : Case.rowNesting xs ≤ n :=
  match h with
  | .nil => Nat.zero_le n
  | .cons h hs => by
    have hfirst := h.nesting_le
    have hothers := hs.nesting_le
    simp only [Case.rowNesting]
    omega
termination_by structural h

theorem Part.nesting_le {n u x} (h : Part n u x) : x.nesting ≤ n :=
  match h with
  | .case _ _ he _ hb => by
    have hvalues := he.nesting_le
    have hbody := hb.nesting_le
    simp only [Case.nesting]
    omega
  | .default _ _ _ hb => by
    have hbody := hb.nesting_le
    simpa only [Case.nesting] using hbody
termination_by structural h

end

end Grammar

end TemplateSyntax
