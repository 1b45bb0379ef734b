import TemplateSyntax.Proofs.Parse.Firm.Basic

/-! # Firm Expressions

  An expression ends where the next token does not go on with it, and nothing behind that token is
  looked at. So each parser of expressions is firm in the lesser degree, in front of it and
  behind it.
-/

namespace TemplateSyntax

open Parse

/-- The parsers of nested parts are firm. A block is started at its brace, behind which its word
    has been looked at. -/
structure Nested.Firm (n : Nested) : Prop where
  expression (c : Cursor) : Parse.Firm Near Near n.expression c
  operand (c : Cursor) : Parse.Firm Near Near n.operand c
  block {c : Cursor} (hk : c.current.kind = .exprStart) : Parse.Firm Far Far n.block c
  alternate (c : Cursor) : Parse.Firm Near Far n.alternate c

section firm

variable {n : Nested}

/-! ## Suffixes -/

theorem firm_propertySuffix (c : Cursor) : Firm Near Near propertySuffix c := by
  apply firm_bind_read
  intro _ c₁
  refine firm_look (firm_cond (fun _ => ?_) fun _ => firm_unexpected (.intro _))
  exact firm_bind_read fun _ _ => firm_pure

section nested

variable (hn : n.Firm) (c : Cursor)
include hn

theorem firm_furtherExpression : Firm Near Near (furtherExpression n) c :=
  firm_bind_read fun _ c₁ => hn.expression c₁

theorem firm_expressions : Firm Near Near (expressions n) c := by
  apply firm_bind (hn.expression c)
  intro _ c₁ _
  refine firm_bind (firm_many (fun c d h => ?_) (fun c item hs => ?_) c₁) fun _ _ _ => firm_pure
  · unfold Cursor.isAt
    rw [h.current]
  · split at hs
    · cases hs
      exact firm_furtherExpression hn c
    · cases hs

theorem firm_indexSuffix : Firm Near Near (indexSuffix n) c := by
  apply firm_bind_read
  intro _ c₁
  apply firm_bind (hn.expression c₁)
  intro _ c₂ _
  exact firm_bind_expect fun _ _ => firm_pure

theorem firm_arguments : Firm Near Near (arguments n) c :=
  firm_look (firm_cond (fun _ => firm_pure) fun _ => firm_expressions hn c)

theorem firm_callSuffix : Firm Near Near (callSuffix n) c := by
  apply firm_bind_read
  intro _ c₁
  apply firm_bind (firm_arguments hn c₁)
  intro _ c₂ _
  exact firm_bind_expect fun _ _ => firm_pure

theorem firm_suffix {k : Kind} {item : Parse Suffix} (hs : suffix? n k = some item) :
    Firm Near Near item c := by
  unfold suffix? at hs
  split at hs <;> cases hs
  · exact firm_propertySuffix c
  · exact firm_indexSuffix hn c
  · exact firm_callSuffix hn c

theorem firm_chain : Firm Near Near (chain n) c := by
  apply firm_bind_read
  intro _ c₁
  refine firm_bind (firm_many (fun c d h => ?_) (fun c item hs => ?_) c₁) fun _ _ _ => firm_pure
  · rw [h.current]
  · exact firm_suffix hn c hs

/-! ## Primary Expressions -/

theorem firm_parenthesised : Firm Near Near (parenthesised n) c := by
  apply firm_bind_read
  intro _ c₁
  apply firm_bind (hn.expression c₁)
  intro _ c₂ _
  exact firm_bind_expect fun _ _ => firm_pure

end nested

variable {c : Cursor}

/-- A token that is no ending token is ahead. -/
theorem ahead_ne_nil_of_kind (h : c.current.kind ≠ .eof) : c.ahead ≠ [] :=
  Cursor.ahead_ne_nil (decide_eq_false h)

theorem firm_integerLiteral (hk : c.current.kind = .integer) :
    Firm Near Near integerLiteral c := by
  apply firm_number
  · exact ahead_ne_nil_of_kind (hk ▸ nofun)
  · cases hvalue : Integer.read c.current.text with
    | ok value => exact .inl ⟨_, rfl⟩
    | error fault => exact .inr ⟨_, rfl, hk, rfl, hvalue⟩

theorem firm_decimalLiteral (hk : c.current.kind = .float) : Firm Near Near decimalLiteral c := by
  apply firm_number
  · exact ahead_ne_nil_of_kind (hk ▸ nofun)
  · cases hvalue : Decimal.read c.current.text with
    | ok value => exact .inl ⟨_, rfl⟩
    | error fault => exact .inr ⟨_, rfl, hk, rfl, hvalue⟩

/-- A token that stands for itself. -/
theorem firm_literal {e : Expr} : Firm Near Near (do let _ ← advance; return e) c :=
  firm_bind_read fun _ _ => firm_pure

theorem firm_primary (hn : n.Firm) (c : Cursor) : Firm Near Near (primary n) c := by
  apply firm_look
  split
  · exact firm_parenthesised hn c
  · next hk => exact firm_integerLiteral hk
  · next hk => exact firm_decimalLiteral hk
  · exact firm_literal
  · exact firm_literal
  · exact firm_literal
  · exact firm_literal
  · exact firm_cond (fun _ => firm_chain hn c) fun _ => firm_unexpected (.intro _)

/-! ## Operators -/

theorem firm_unary (hn : n.Firm) (c : Cursor) : Firm Near Near (unary n) c := by
  apply firm_look
  split
  · apply firm_bind_read
    intro _ c₁
    exact firm_bind (hn.operand c₁) fun _ _ _ => firm_pure
  · exact firm_primary hn c

section operators

variable {tighter : Parse Expr} (h : ∀ c, Firm Near Near tighter c)
include h

theorem firm_operation (op : BinaryOp) (c : Cursor) : Firm Near Near (operation op tighter) c := by
  apply firm_bind_read
  intro _ c₁
  exact firm_bind (h c₁) fun _ _ _ => firm_pure

theorem firm_leftAssociative (ops : List BinaryOp) (c : Cursor) :
    Firm Near Near (leftAssociative ops tighter) c := by
  apply firm_bind (h c)
  intro _ c₁ _
  refine firm_bind (firm_many (fun c d h => ?_) (fun c item hs => ?_) c₁) fun _ _ _ => firm_pure
  · rw [h.current]
  · obtain ⟨op, -, rfl⟩ := Option.map_eq_some_iff.mp hs
    exact firm_operation h op c

/-- Levels of operators over firm operands. -/
theorem firm_levels (ls : List (List BinaryOp)) (c : Cursor) :
    Firm Near Near (ls.foldr leftAssociative tighter) c := by
  induction ls generalizing c with
  | nil => exact h c
  | cons ops ls ih => exact firm_leftAssociative ih ops c

end operators

theorem firm_conditional (hn : n.Firm) (c : Cursor) : Firm Near Near (conditional n) c := by
  apply firm_bind (firm_levels (firm_unary hn) levels c)
  intro _ c₁ _
  refine firm_look (firm_cond (fun _ => ?_) fun _ => firm_pure)
  apply firm_bind_read
  intro _ c₂
  apply firm_bind (hn.expression c₂)
  intro _ c₃ _
  apply firm_bind_expect
  intro _ c₄
  exact firm_bind (hn.expression c₄) fun _ _ _ => firm_pure

end firm

end TemplateSyntax
