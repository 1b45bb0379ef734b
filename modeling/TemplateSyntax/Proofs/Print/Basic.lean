import Mathlib.Control.Monad.Basic
import Mathlib.Data.List.Forall2
import TemplateSyntax.Proofs.Grammar.Basic

/-! # Writing Templates

  How a template is written as tokens. What a token has to be like is said by a sign, and a
  template is written by a row of signs (`Program.signs`): texts, names and literals by the
  texts that they have, braces, words and operators by their kinds. Where a token stands
  does not matter, nor what a brace, a word or an operator has as its text.

  An expression stands in parentheses where the place that it is in asks for a tighter one,
  and nowhere else. A condition and all its alternates share one closing `{/if}`, and the
  nodes behind an `else` that belongs to no condition have none.

  Not every tree is one that can be written (`Program.wellFormed`), and a tree takes as many
  levels of nesting as `Program.depth` says.
-/

namespace TemplateSyntax

/-! ## Signs -/

/-- What a token has to be like. -/
inductive Sign where
  /-- A token of a kind, with any text. -/
  | mark (kind : Kind)
  /-- A token of a kind with a text. -/
  | lexeme (kind : Kind) (text : String)
  /-- A text, of any kind of markup. -/
  | markup (text : String)
  /-- Any literal with a fraction that is read as the number. -/
  | decimal (value : Binary64)

/-- Whether a token is what the sign says. -/
def Token.Shows (t : Token) : Sign → Prop
  | .mark kind => t.kind = kind
  | .lexeme kind text => t.kind = kind ∧ t.text = text
  | .markup text => t.kind.isMarkup = true ∧ t.text = text
  | .decimal value => t.kind = .float ∧ Decimal.read t.text = .ok value

instance (t : Token) : (s : Sign) → Decidable (t.Shows s)
  | .mark kind => inferInstanceAs (Decidable (t.kind = kind))
  | .lexeme kind text => inferInstanceAs (Decidable (t.kind = kind ∧ t.text = text))
  | .markup text => inferInstanceAs (Decidable (t.kind.isMarkup = true ∧ t.text = text))
  | .decimal value =>
    inferInstanceAs (Decidable (t.kind = .float ∧ Decimal.read t.text = .ok value))

/-- Some tokens are what the signs of a row say, one by one. -/
def Writes (ts : List Token) (signs : List Sign) : Prop :=
  List.Forall₂ Token.Shows ts signs

instance (ts : List Token) (signs : List Sign) : Decidable (Writes ts signs) :=
  inferInstanceAs (Decidable (List.Forall₂ Token.Shows ts signs))

theorem Writes.nil_inv {ts : List Token} (h : Writes ts []) : ts = [] :=
  List.forall₂_nil_right_iff.mp h

theorem Writes.cons_inv {ts : List Token} {s : Sign} {signs : List Sign}
    (h : Writes ts (s :: signs)) : ∃ t u, ts = t :: u ∧ t.Shows s ∧ Writes u signs := by
  obtain ⟨t, u, ht, hu, rfl⟩ := List.forall₂_cons_right_iff.mp h
  exact ⟨t, u, rfl, ht, hu⟩

theorem Writes.single_inv {ts : List Token} {s : Sign} (h : Writes ts [s]) :
    ∃ t, ts = [t] ∧ t.Shows s := by
  obtain ⟨t, u, rfl, ht, hu⟩ := h.cons_inv
  exact ⟨t, by rw [hu.nil_inv], ht⟩

/-- Tokens for a row and a further one are tokens for each of the two. -/
theorem Writes.append_inv {ts : List Token} {a b : List Sign} (h : Writes ts (a ++ b)) :
    ∃ u v, ts = u ++ v ∧ Writes u a ∧ Writes v b :=
  ⟨ts.take a.length, ts.drop a.length, (List.take_append_drop _ _).symm,
    List.forall₂_take_append _ _ _ h, List.forall₂_drop_append _ _ _ h⟩

theorem Writes.append_cons_inv {ts : List Token} {a b : List Sign} {s : Sign}
    (h : Writes ts (a ++ s :: b)) :
    ∃ u t v, ts = u ++ t :: v ∧ Writes u a ∧ t.Shows s ∧ Writes v b := by
  obtain ⟨u, w, rfl, hu, hw⟩ := h.append_inv
  obtain ⟨t, v, rfl, ht, hv⟩ := hw.cons_inv
  exact ⟨u, t, v, rfl, hu, ht, hv⟩

/-! ## Expressions -/

namespace Expr

/-- How tightly an expression holds together: a conditional not at all, then by its
    operator, then names with their suffixes and literals. -/
def level : Expr → Nat
  | conditional .. => 0
  | binary _ op _ => op.level
  | unary .. => 7
  | _ => 8

/-- Whether an expression is a name with any number of suffixes. -/
def headed : Expr → Bool
  | identifier _ => true
  | member object _ _ => object.headed
  | call callee _ => callee.headed
  | _ => false

/-- Whether an expression is a name. -/
def isIdentifier : Expr → Bool
  | identifier _ => true
  | _ => false

/-- Signs in parentheses, if there have to be some. -/
def enclosed (needed : Bool) (signs : List Sign) : List Sign :=
  if needed then .mark .lParen :: (signs ++ [.mark .rParen]) else signs

/-- The levels that parentheses and what is in them take. -/
def enclosedDepth (needed : Bool) (depth : Nat) : Nat :=
  if needed then depth + 1 else depth

mutual

/-- The signs of an expression. The operands of an operator on some level are of that level
    on the left and of the next one on the right. -/
def signs : Expr → List Sign
  | conditional c a b =>
    enclosed (c.level < 1) c.signs ++ .mark .questionMark :: (a.signs ++ .mark .colon :: b.signs)
  | binary a op b =>
    -- Operators of one level group to the left, so only the right operand has to be tighter.
    enclosed (a.level < op.level) a.signs ++
      .mark op.kind :: enclosed (b.level < op.level + 1) b.signs
  | unary op e => .mark op.kind :: enclosed (e.level < 7) e.signs
  | member object property true =>
    object.signs ++ .mark .lBracket :: (property.signs ++ [.mark .rBracket])
  | member object property false => object.signs ++ .mark .period :: property.signs
  | identifier name => [.lexeme .identifier name]
  | call callee args =>
    callee.signs ++ .mark .lParen :: (rowSigns args ++ [.mark .rParen])
  | null => [.mark .null]
  | int value => [.lexeme .integer (toString value.toInt.toNat)]
  | float value => [.decimal value]
  | string value => [.lexeme .string value]
  | boolean value => [.lexeme .boolean (toString value)]

/-- The signs of expressions, with commas between them. -/
def rowSigns : List Expr → List Sign
  | [] => []
  | [e] => e.signs
  | e :: e' :: es => e.signs ++ .mark .comma :: rowSigns (e' :: es)

end

mutual

/-- The levels of nesting that an expression takes besides its own: one for each expression
    that is whole, in parentheses or not, and one for each operand of a unary operator. -/
def depth : Expr → Nat
  | conditional c a b =>
    max (enclosedDepth (c.level < 1) c.depth) (max (a.depth + 1) (b.depth + 1))
  | binary a op b =>
    max (enclosedDepth (a.level < op.level) a.depth)
      (enclosedDepth (b.level < op.level + 1) b.depth)
  | unary _ e => enclosedDepth (e.level < 7) e.depth + 1
  | member object property true => max object.depth (property.depth + 1)
  | member object _ false => object.depth
  | call callee args => max callee.depth (rowDepth args)
  | _ => 0

/-- The levels of nesting that whole expressions take. -/
def rowDepth : List Expr → Nat
  | [] => 0
  | e :: es => max (e.depth + 1) (rowDepth es)

end

mutual

/-- Whether suffixes follow names only, names stand behind points, and no number is below
    zero. -/
def wellFormed : Expr → Bool
  | conditional c a b => c.wellFormed && a.wellFormed && b.wellFormed
  | binary a _ b => a.wellFormed && b.wellFormed
  | unary _ e => e.wellFormed
  | member object property computed =>
    object.headed && object.wellFormed && property.wellFormed &&
      (computed || property.isIdentifier)
  | call callee args => callee.headed && callee.wellFormed && rowWellFormed args
  | int value => 0 ≤ value.toInt
  | _ => true

/-- Whether all expressions are well-formed. -/
def rowWellFormed : List Expr → Bool
  | [] => true
  | e :: es => e.wellFormed && rowWellFormed es

end

end Expr

/-! ## Nodes -/

/-- The signs of a word in braces. -/
def Kind.closingSigns (word : Kind) : List Sign :=
  [.mark .exprStart, .mark word, .mark .exprEnd]

/-- The signs of a comma and the name of a counter. -/
def counterSigns : Option String → List Sign
  | none => []
  | some name => [.mark .comma, .lexeme .identifier name]

/-- Whether a node is what stands behind an `else` that belongs to no condition. -/
def Node.isProgram : Node → Bool
  | .program _ => true
  | _ => false

mutual

/-- The signs of a node. -/
def Node.signs : Node → List Sign
  | .program body =>
    -- What closes these nodes is the `{/if}` of the condition around them.
    .mark .exprStart :: .mark .elseStart :: .mark .exprEnd :: Node.rowSigns body
  | .text value => [.markup value]
  | .comment value => [.lexeme .comment value]
  | .ifBlock block => .mark .exprStart :: (block.signs ++ Kind.ifEnd.closingSigns)
  | .switchBlock test cases =>
    .mark .exprStart :: .mark .switchStart :: (test.signs ++ .mark .exprEnd ::
      (Case.rowSigns cases ++ Kind.switchEnd.closingSigns))
  | .forBlock iterator index iterable body =>
    .mark .exprStart :: .mark .forStart :: .lexeme .identifier iterator ::
      (counterSigns index ++ .mark .forIn :: (iterable.signs ++ .mark .exprEnd ::
        (Node.rowSigns body ++ Kind.forEnd.closingSigns)))
  | .importFile path =>
    [.mark .exprStart, .mark .importStart, .lexeme .string path, .mark .exprEnd]
  | .interpolation value => .mark .exprStart :: (value.signs ++ [.mark .exprEnd])

/-- The signs of a condition with its alternates, behind the brace that opens it and
    without the word that closes it. -/
def IfBlock.signs : IfBlock → List Sign
  | ⟨condition, consequent, alternate⟩ =>
    .mark .ifStart :: (condition.signs ++ .mark .exprEnd ::
      (Node.rowSigns consequent ++ Alternate.signs? alternate))

/-- The signs of an alternate behind its brace. -/
def Alternate.signs : Alternate → List Sign
  | .elseIf block => .mark .elseStart :: block.signs
  | .otherwise body => .mark .elseStart :: .mark .exprEnd :: Node.rowSigns body

/-- The signs of an alternate with its brace, if there is one. -/
def Alternate.signs? : Option Alternate → List Sign
  | none => []
  | some a => .mark .exprStart :: a.signs

/-- The signs of a part of a switch block. -/
def Case.signs : Case → List Sign
  | .case values body =>
    .mark .exprStart :: .mark .caseStart :: (Expr.rowSigns values ++ .mark .exprEnd ::
      Node.rowSigns body)
  | .default body =>
    .mark .exprStart :: .mark .defaultStart :: .mark .exprEnd :: Node.rowSigns body

/-- The signs of parts, one after another. -/
def Case.rowSigns : List Case → List Sign
  | [] => []
  | x :: xs => x.signs ++ Case.rowSigns xs

/-- The signs of nodes, one after another. -/
def Node.rowSigns : List Node → List Sign
  | [] => []
  | x :: xs => x.signs ++ Node.rowSigns xs

end

mutual

/-- The levels of nesting that a node takes: one for each block, one for each alternate,
    and those of its expressions, which are whole. -/
def Node.depth : Node → Nat
  | .program body => Node.rowDepth body + 1
  | .text _ | .comment _ => 0
  | .ifBlock block => block.depth + 1
  | .switchBlock test cases => max (test.depth + 1) (Case.rowDepth cases) + 1
  | .forBlock _ _ iterable body => max (iterable.depth + 1) (Node.rowDepth body) + 1
  | .importFile _ => 1
  | .interpolation value => value.depth + 1 + 1

/-- The levels of nesting that a condition and its alternates take. -/
def IfBlock.depth : IfBlock → Nat
  | ⟨condition, consequent, alternate⟩ =>
    max (condition.depth + 1) (max (Node.rowDepth consequent) (Alternate.depth? alternate))

/-- The levels of nesting that an alternate takes besides its own. -/
def Alternate.depth : Alternate → Nat
  | .elseIf block => block.depth
  | .otherwise body => Node.rowDepth body

/-- The levels of nesting that an alternate takes, if there is one. -/
def Alternate.depth? : Option Alternate → Nat
  | none => 0
  | some a => a.depth + 1

/-- The levels of nesting that a part of a switch block takes. -/
def Case.depth : Case → Nat
  | .case values body => max (Expr.rowDepth values) (Node.rowDepth body)
  | .default body => Node.rowDepth body

/-- The levels of nesting that parts take. -/
def Case.rowDepth : List Case → Nat
  | [] => 0
  | x :: xs => max x.depth (Case.rowDepth xs)

/-- The levels of nesting that nodes take. -/
def Node.rowDepth : List Node → Nat
  | [] => 0
  | x :: xs => max x.depth (Node.rowDepth xs)

end

mutual

/-- Whether a node can be written. -/
def Node.wellFormed : Node → Bool
  | .program body => Node.rowWellFormed true body
  | .text _ | .comment _ | .importFile _ => true
  | .ifBlock block => block.wellFormed
  | .switchBlock test cases => test.wellFormed && Case.rowWellFormed cases
  | .forBlock _ _ iterable body => iterable.wellFormed && Node.rowWellFormed false body
  | .interpolation value => value.wellFormed

/-- Whether a condition and its alternates can be written. -/
def IfBlock.wellFormed : IfBlock → Bool
  | ⟨condition, consequent, alternate⟩ =>
    condition.wellFormed && Node.rowWellFormed false consequent &&
      Alternate.wellFormed? alternate

/-- Whether an alternate can be written. -/
def Alternate.wellFormed : Alternate → Bool
  | .elseIf block => block.wellFormed
  | .otherwise body => Node.rowWellFormed true body

/-- Whether an alternate can be written, if there is one. -/
def Alternate.wellFormed? : Option Alternate → Bool
  | none => true
  | some a => a.wellFormed

/-- Whether a part of a switch block can be written: a case has at least one value. -/
def Case.wellFormed : Case → Bool
  | .case values body =>
    !values.isEmpty && Expr.rowWellFormed values && Node.rowWellFormed false body
  | .default body => Node.rowWellFormed false body

/-- Whether parts can be written. -/
def Case.rowWellFormed : List Case → Bool
  | [] => true
  | x :: xs => x.wellFormed && Case.rowWellFormed xs

/-- Whether nodes can be written one after another. What stands behind an `else` that
    belongs to no condition can only be the last of them, and only where `{/if}` comes
    next. -/
def Node.rowWellFormed (closed : Bool) : List Node → Bool
  | [] => true
  | x :: xs =>
    (!x.isProgram || closed && xs.isEmpty) && x.wellFormed && Node.rowWellFormed closed xs

end

/-! ## Templates -/

namespace Program

/-- The signs of a template. -/
def signs (p : Program) : List Sign := Node.rowSigns p.body

/-- The levels of nesting that a template takes. -/
def depth (p : Program) : Nat := Node.rowDepth p.body

/-- Whether a template can be written. -/
def wellFormed (p : Program) : Bool := Node.rowWellFormed false p.body

end Program

end TemplateSyntax
