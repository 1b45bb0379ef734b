import TemplateSyntax.Proofs.Parse.Built.Basic
import TemplateSyntax.Proofs.Parse.Standing

/-! # How Parsers of Expressions Are Put Together

  No expression reaches over a brace: all that its parsers move over are tokens that stay inside
  (`Kind.StaysInside`). A block may move over any token but the ending one.
-/

namespace TemplateSyntax

open Parse

/-- A token of the kind leads neither out of the braces nor behind the end of the input. -/
def Kind.StaysInside (k : Kind) : Prop := k ≠ .eof ∧ k.leadsTo .inside = .inside

instance (k : Kind) : Decidable k.StaysInside :=
  inferInstanceAs (Decidable (k ≠ .eof ∧ k.leadsTo .inside = .inside))

/-- The parsers of nested parts are put together from single steps, a block from its brace. -/
structure Nested.Built (n : Nested) : Prop where
  expression : Parse.Built Kind.StaysInside (fun _ => True) n.expression
  operand : Parse.Built Kind.StaysInside (fun _ => True) n.operand
  block : Parse.Built (· ≠ .eof) (· = .exprStart) n.block
  alternate : Parse.Built (· ≠ .eof) (fun _ => True) n.alternate

section built

variable {n : Nested} {start : Kind → Prop}

/-! ## Suffixes -/

/-- A token that is known to stay inside is moved over. -/
theorem built_advance {k : Kind} (hk : k.StaysInside) :
    Built Kind.StaysInside (· = k) advance :=
  .advance fun _ h => h ▸ hk

theorem built_propertySuffix : Built Kind.StaysInside (· = .period) propertySuffix := by
  refine .bind (built_advance (by decide)) fun _ => ?_
  refine built_look fun t _ => built_cond (fun hword => ?_) fun _ => built_unexpected
  exact .bind (built_advance (Kind.stays_of_isWord hword .inside)) fun _ => .pure _

section nested

variable (hn : n.Built)
include hn

theorem built_furtherExpression : Built Kind.StaysInside (· = .comma) (furtherExpression n) :=
  .bind (built_advance (by decide)) fun _ => hn.expression

theorem built_expressions : Built Kind.StaysInside (fun _ => True) (expressions n) := by
  refine .bind hn.expression fun _ => .bind (.many (fun c d h => ?_) fun c item hs => ?_)
    fun _ => .pure _
  · rw [h.isAt]
  · split at hs <;> cases hs
    next hcomma =>
    rw [show c.current.kind = .comma from of_decide_eq_true hcomma]
    exact built_furtherExpression hn

theorem built_indexSuffix : Built Kind.StaysInside (· = .lBracket) (indexSuffix n) := by
  refine .bind (built_advance (by decide)) fun _ => ?_
  refine .bind hn.expression fun _ => ?_
  exact .bind (built_expect (by decide)) fun _ => .pure _

theorem built_arguments : Built Kind.StaysInside (fun _ => True) (arguments n) := by
  refine built_look fun t _ => built_cond (fun _ => .pure _) fun _ => ?_
  exact (built_expressions hn).of_start fun _ _ => trivial

theorem built_callSuffix : Built Kind.StaysInside (· = .lParen) (callSuffix n) := by
  refine .bind (built_advance (by decide)) fun _ => ?_
  refine .bind (built_arguments hn) fun _ => ?_
  exact .bind (built_expect (by decide)) fun _ => .pure _

theorem built_suffix {k : Kind} {item : Parse Suffix} (hs : suffix? n k = some item) :
    Built Kind.StaysInside (· = k) item := by
  unfold suffix? at hs
  split at hs <;> cases hs
  · exact built_propertySuffix
  · exact built_indexSuffix hn
  · exact built_callSuffix hn

theorem built_chain (hstart : ∀ k, start k → k.StaysInside) :
    Built Kind.StaysInside start (chain n) := by
  refine .bind (.advance hstart) fun _ => ?_
  refine .bind (.many (fun c d h => ?_) fun c item hs => ?_) fun _ => .pure _
  · rw [h.current]
  · exact built_suffix hn hs

/-! ## Primary Expressions -/

theorem built_parenthesised : Built Kind.StaysInside (· = .lParen) (parenthesised n) := by
  refine .bind (built_advance (by decide)) fun _ => ?_
  refine .bind hn.expression fun _ => ?_
  exact .bind (built_expect (by decide)) fun _ => .pure _

omit hn in
theorem built_integerLiteral : Built Kind.StaysInside (· = .integer) integerLiteral := by
  refine .bind (built_advance (by decide)) fun t => ?_
  cases Integer.read t.text with
  | ok value => exact .pure _
  | error fault => exact .reject rfl

omit hn in
theorem built_decimalLiteral : Built Kind.StaysInside (· = .float) decimalLiteral := by
  refine .bind (built_advance (by decide)) fun t => ?_
  cases Decimal.read t.text with
  | ok value => exact .pure _
  | error fault => exact .reject rfl

omit hn in
/-- A token that stands for itself. -/
theorem built_literal {k : Kind} {e : Expr} (hk : k.StaysInside) :
    Built Kind.StaysInside (· = k) (do let _ ← advance; return e) :=
  .bind (built_advance hk) fun _ => .pure _

theorem built_primary : Built Kind.StaysInside (fun _ => True) (primary n) := by
  refine built_look fun t _ => ?_
  split
  · next hk => exact hk ▸ built_parenthesised hn
  · next hk => exact hk ▸ built_integerLiteral
  · next hk => exact hk ▸ built_decimalLiteral
  · next hk => exact hk ▸ built_literal (by decide)
  · next hk => exact hk ▸ built_literal (by decide)
  · next hk => exact hk ▸ built_literal (by decide)
  · next hk => exact hk ▸ built_literal (by decide)
  · refine built_cond (fun hvariable => ?_) fun _ => built_unexpected
    have hstays := Kind.stays_of_isWord (Kind.isWord_of_isVariable hvariable) .inside
    exact built_chain hn fun _ hk => hk ▸ hstays

/-! ## Operators -/

theorem built_unary : Built Kind.StaysInside (fun _ => True) (unary n) := by
  refine built_look fun t _ => ?_
  cases hop : UnaryOp.ofKind? t.kind with
  | some op =>
    have hkind : op.kind = t.kind := UnaryOp.ofKind?_eq_some_iff.mp hop
    refine .bind (built_advance (hkind ▸ op.stays .inside)) fun _ => ?_
    exact .bind hn.operand fun _ => .pure _
  | none => exact (built_primary hn).of_start fun _ _ => trivial

end nested

section operators

variable {tighter : Parse Expr} (h : Built Kind.StaysInside (fun _ => True) tighter)
include h

theorem built_operation (op : BinaryOp) :
    Built Kind.StaysInside (· = op.kind) (operation op tighter) :=
  .bind (built_advance (op.stays .inside)) fun _ => .bind h fun _ => .pure _

theorem built_leftAssociative (ops : List BinaryOp) :
    Built Kind.StaysInside (fun _ => True) (leftAssociative ops tighter) := by
  refine .bind h fun _ => ?_
  refine .bind (.many (fun c d hcd => ?_) fun c item hs => ?_) fun _ => .pure _
  · rw [hcd.current]
  · obtain ⟨op, hop, rfl⟩ := Option.map_eq_some_iff.mp hs
    have hkind : op.kind = c.current.kind :=
      BinaryOp.ofKind?_eq_some_iff.mp (Option.eq_some_of_filter_eq_some hop)
    rw [← hkind]
    exact built_operation h op

/-- Levels of operators over operands. -/
theorem built_levels (ls : List (List BinaryOp)) :
    Built Kind.StaysInside (fun _ => True) (ls.foldr leftAssociative tighter) := by
  induction ls with
  | nil => exact h
  | cons ops ls ih => exact built_leftAssociative ih ops

end operators

theorem built_conditional (hn : n.Built) :
    Built Kind.StaysInside (fun _ => True) (conditional n) := by
  refine .bind (built_levels (built_unary hn) levels) fun _ => ?_
  refine built_look fun t _ => built_cond (fun hk => ?_) fun _ => .pure _
  refine .bind (built_advance (hk ▸ by decide)) fun _ => ?_
  refine .bind hn.expression fun _ => ?_
  refine .bind (built_expect (by decide)) fun _ => ?_
  exact .bind hn.expression fun _ => .pure _

end built

end TemplateSyntax
