import TemplateSyntax.Proofs.Parse.InStep.Basic

/-! # Expressions in Step

  Each parser of the grammar is in step with itself over parsers of nested parts that are in
  step (`Nested.InStep`). The two sides may have different limits, and so different parsers
  of nested parts. Expressions are read here, nodes and blocks in the next module.
-/

namespace TemplateSyntax

open Parse

/-- The parsers of nested parts are in step, a block from its brace. -/
structure Nested.InStep (R : Cursor → Cursor → Prop) (excused : ParseError → Prop)
    (n m : Nested) : Prop where
  expression : Parse.InStep R excused R n.expression m.expression (Same R)
  operand : Parse.InStep R excused R n.operand m.operand (Same R)
  block : Parse.InStep R excused (fun c d => R c d ∧ c.current.kind = .exprStart)
    n.block m.block (Same R)
  alternate : Parse.InStep R excused R n.alternate m.alternate (Same R)

section inStep

variable {R : Cursor → Cursor → Prop} {excused : ParseError → Prop} {n m : Nested}
  (hR : Alike R)
include hR

/-! ## Suffixes -/

theorem inStep_propertySuffix :
    InStep R excused (fun c d => R c d ∧ c.current.kind ≠ .eof) propertySuffix propertySuffix
      (Same R) := by
  refine inStep_bind_like (inStep_advance hR) fun _ _ _ _ => ?_
  refine inStep_look hR (fun _ _ h => h) fun t u hkind htext => ?_
  rw [← hkind, ← htext]
  refine inStep_cond (fun hword => ?_) fun _ => ?_
  -- A word does not end the input, so both sides may move over it.
  · have hne : t.kind ≠ .eof := (Kind.stays_of_isWord hword .inside).1
    exact inStep_bind_like (inStep_advance_looked hR hne) fun _ _ _ _ => inStep_done
  · exact (inStep_unexpected hR).looked fun _ _ h _ => h

section nested

variable (hn : n.InStep R excused m)
include hn

theorem inStep_furtherExpression :
    InStep R excused (fun c d => R c d ∧ c.current.kind ≠ .eof) (furtherExpression n)
      (furtherExpression m) (Same R) := by
  refine inStep_bind_like (inStep_advance hR) fun _ _ _ _ => ?_
  exact hn.expression

theorem inStep_expressions :
    InStep R excused R (expressions n) (expressions m) (Same R) := by
  refine inStep_bind_same hn.expression fun _ => ?_
  refine inStep_bind_same (inStep_many hR fun c d hcd => ?_) fun _ => inStep_done
  rw [hR.isAt hcd]
  by_cases hcomma : d.isAt .comma = true
  · have hkind : d.current.kind = .comma := of_decide_eq_true hcomma
    rw [if_pos hcomma, if_pos hcomma]
    refine .inr ⟨_, _, rfl, rfl, (inStep_furtherExpression hR hn).startAt ⟨hcd, ?_⟩⟩
    rw [hR.kind hcd, hkind]
    decide
  · rw [if_neg hcomma, if_neg hcomma]
    exact .inl ⟨rfl, rfl⟩

theorem inStep_indexSuffix :
    InStep R excused (fun c d => R c d ∧ c.current.kind ≠ .eof) (indexSuffix n) (indexSuffix m)
      (Same R) := by
  refine inStep_bind_like (inStep_advance hR) fun _ _ _ _ => ?_
  refine inStep_bind_same hn.expression fun _ => ?_
  exact inStep_bind_like (inStep_expect hR nofun) fun _ _ _ _ => inStep_done

theorem inStep_arguments :
    InStep R excused R (arguments n) (arguments m) (Same R) := by
  refine inStep_look hR (fun _ _ h => h) fun t u hkind _ => ?_
  rw [← hkind]
  refine inStep_cond (fun _ => ?_) fun _ => ?_
  · exact inStep_done.looked fun _ _ h _ => h
  · exact (inStep_expressions hR hn).looked fun _ _ h _ => h

theorem inStep_callSuffix :
    InStep R excused (fun c d => R c d ∧ c.current.kind ≠ .eof) (callSuffix n) (callSuffix m)
      (Same R) := by
  refine inStep_bind_like (inStep_advance hR) fun _ _ _ _ => ?_
  refine inStep_bind_same (inStep_arguments hR hn) fun _ => ?_
  exact inStep_bind_like (inStep_expect hR nofun) fun _ _ _ _ => inStep_done

/-- The same suffix begins on both sides, and with no ending token. -/
theorem inStep_suffix (k : Kind) :
    (suffix? n k = none ∧ suffix? m k = none) ∨
      ∃ p q, suffix? n k = some p ∧ suffix? m k = some q ∧
        InStep R excused (fun c d => R c d ∧ c.current.kind = k) p q (Same R) := by
  unfold suffix?
  split
  · refine .inr ⟨_, _, rfl, rfl, (inStep_propertySuffix hR).of_pre fun c d h => ⟨h.1, ?_⟩⟩
    exact h.2 ▸ nofun
  · refine .inr ⟨_, _, rfl, rfl, (inStep_indexSuffix hR hn).of_pre fun c d h => ⟨h.1, ?_⟩⟩
    exact h.2 ▸ nofun
  · refine .inr ⟨_, _, rfl, rfl, (inStep_callSuffix hR hn).of_pre fun c d h => ⟨h.1, ?_⟩⟩
    exact h.2 ▸ nofun
  · exact .inl ⟨rfl, rfl⟩

theorem inStep_chain :
    InStep R excused (fun c d => R c d ∧ c.current.kind ≠ .eof) (chain n) (chain m) (Same R) := by
  refine inStep_bind_like (inStep_advance hR) fun t u _ htext => ?_
  rw [← htext]
  refine inStep_bind_same (inStep_many hR fun c d hcd => ?_) fun _ => inStep_done
  rw [hR.kind hcd]
  rcases inStep_suffix hR hn d.current.kind with hnone | ⟨p, q, hp, hq, hstep⟩
  · exact .inl hnone
  · exact .inr ⟨p, q, hp, hq, hstep.startAt ⟨hcd, hR.kind hcd⟩⟩

end nested

/-! ## Primary Expressions -/

/-- A numeral that is no number is at fault. -/
theorem inStep_integerLiteral :
    InStep R excused (fun c d => R c d ∧ c.current.kind = .integer) integerLiteral integerLiteral
      (Same R) := by
  refine inStep_bind (inStep_read hR) fun t u c d h => ?_
  obtain ⟨hkind, hbehind⟩ := h
  rw [← hbehind.1]
  cases hvalue : Integer.read t.text with
  | ok value => exact inStep_done c d (hbehind.alike hR (hkind ▸ nofun))
  -- The parsers have moved over the numeral by now, and still it is the one to blame.
  | error fault =>
    have hfits : (Cause.badInteger t.text fault).FitsNumber t := ⟨hkind, rfl, hvalue⟩
    exact inStep_reject hfits c d hbehind

theorem inStep_decimalLiteral :
    InStep R excused (fun c d => R c d ∧ c.current.kind = .float) decimalLiteral decimalLiteral
      (Same R) := by
  refine inStep_bind (inStep_read hR) fun t u c d h => ?_
  obtain ⟨hkind, hbehind⟩ := h
  rw [← hbehind.1]
  cases hvalue : Decimal.read t.text with
  | ok value => exact inStep_done c d (hbehind.alike hR (hkind ▸ nofun))
  | error fault =>
    have hfits : (Cause.badDecimal t.text fault).FitsNumber t := ⟨hkind, rfl, hvalue⟩
    exact inStep_reject hfits c d hbehind

theorem inStep_parenthesised (hn : n.InStep R excused m) :
    InStep R excused (fun c d => R c d ∧ c.current.kind ≠ .eof) (parenthesised n)
      (parenthesised m) (Same R) := by
  refine inStep_bind_like (inStep_advance hR) fun _ _ _ _ => ?_
  refine inStep_bind_same hn.expression fun _ => ?_
  exact inStep_bind_like (inStep_expect hR nofun) fun _ _ _ _ => inStep_done

/-- A token that stands for itself. -/
theorem inStep_literal {e : Expr} :
    InStep R excused (fun c d => R c d ∧ c.current.kind ≠ .eof)
      (do let _ ← advance; return e) (do let _ ← advance; return e) (Same R) :=
  inStep_bind_like (inStep_advance hR) fun _ _ _ _ => inStep_done

theorem inStep_primary (hn : n.InStep R excused m) :
    InStep R excused R (primary n) (primary m) (Same R) := by
  refine inStep_look hR (fun _ _ h => h) fun t u hkind htext => ?_
  rw [← hkind, ← htext]
  split
  · next hk =>
    exact (inStep_parenthesised hR hn).looked fun c d hcd ht => ⟨hcd, ht ▸ hk ▸ nofun⟩
  · next hk => exact (inStep_integerLiteral hR).looked fun c d hcd ht => ⟨hcd, ht ▸ hk⟩
  · next hk => exact (inStep_decimalLiteral hR).looked fun c d hcd ht => ⟨hcd, ht ▸ hk⟩
  · next hk => exact (inStep_literal hR).looked fun c d hcd ht => ⟨hcd, ht ▸ hk ▸ nofun⟩
  · next hk => exact (inStep_literal hR).looked fun c d hcd ht => ⟨hcd, ht ▸ hk ▸ nofun⟩
  · next hk => exact (inStep_literal hR).looked fun c d hcd ht => ⟨hcd, ht ▸ hk ▸ nofun⟩
  · next hk => exact (inStep_literal hR).looked fun c d hcd ht => ⟨hcd, ht ▸ hk ▸ nofun⟩
  · refine inStep_cond (fun hvariable => ?_) fun _ => ?_
    · have hne : t.kind ≠ .eof :=
        (Kind.stays_of_isWord (Kind.isWord_of_isVariable hvariable) .inside).1
      exact (inStep_chain hR hn).looked fun c d hcd ht => ⟨hcd, ht ▸ hne⟩
    · exact (inStep_unexpected hR).looked fun _ _ h _ => h

/-! ## Operators -/

theorem inStep_unary (hn : n.InStep R excused m) :
    InStep R excused R (unary n) (unary m) (Same R) := by
  refine inStep_look hR (fun _ _ h => h) fun t u hkind _ => ?_
  rw [← hkind]
  cases hop : UnaryOp.ofKind? t.kind with
  | some op =>
    have hne : t.kind ≠ .eof := by
      rw [← UnaryOp.ofKind?_eq_some_iff.mp hop]
      exact (op.stays .inside).1
    refine inStep_bind_like (inStep_advance_looked hR hne) fun _ _ _ _ => ?_
    exact inStep_bind_same hn.operand fun _ => inStep_done
  | none => exact (inStep_primary hR hn).looked fun _ _ h _ => h

section operators

variable {tighter tighter' : Parse Expr} (h : InStep R excused R tighter tighter' (Same R))
include h

theorem inStep_operation (op : BinaryOp) :
    InStep R excused (fun c d => R c d ∧ c.current.kind ≠ .eof) (operation op tighter)
      (operation op tighter') (Same R) := by
  refine inStep_bind_like (inStep_advance hR) fun _ _ _ _ => ?_
  exact inStep_bind_same h fun _ => inStep_done

theorem inStep_leftAssociative (ops : List BinaryOp) :
    InStep R excused R (leftAssociative ops tighter) (leftAssociative ops tighter') (Same R) := by
  refine inStep_bind_same h fun _ => ?_
  refine inStep_bind_same (inStep_many hR fun c d hcd => ?_) fun _ => inStep_done
  rw [← hR.kind hcd]
  cases hop : operatorOf? ops c.current.kind with
  | none => exact .inl ⟨rfl, rfl⟩
  | some op =>
    have hkind : op.kind = c.current.kind :=
      BinaryOp.ofKind?_eq_some_iff.mp (Option.eq_some_of_filter_eq_some hop)
    refine .inr ⟨_, _, rfl, rfl, (inStep_operation hR h op).startAt ⟨hcd, ?_⟩⟩
    exact hkind ▸ (op.stays .inside).1

/-- Levels of operators over operands in step. -/
theorem inStep_levels (ls : List (List BinaryOp)) :
    InStep R excused R (ls.foldr leftAssociative tighter) (ls.foldr leftAssociative tighter')
      (Same R) := by
  induction ls with
  | nil => exact h
  | cons ops ls ih => exact inStep_leftAssociative hR ih ops

end operators

theorem inStep_conditional (hn : n.InStep R excused m) :
    InStep R excused R (conditional n) (conditional m) (Same R) := by
  refine inStep_bind_same (inStep_levels hR (inStep_unary hR hn) levels) fun _ => ?_
  refine inStep_look hR (fun _ _ h => h) fun t u hkind _ => ?_
  rw [← hkind]
  refine inStep_cond (fun hk => ?_) fun _ => inStep_done.looked fun _ _ h _ => h
  refine inStep_bind_like (inStep_advance_looked hR (hk ▸ nofun)) fun _ _ _ _ => ?_
  refine inStep_bind_same hn.expression fun _ => ?_
  refine inStep_bind_like (inStep_expect hR nofun) fun _ _ _ _ => ?_
  exact inStep_bind_same hn.expression fun _ => inStep_done

end inStep

end TemplateSyntax
