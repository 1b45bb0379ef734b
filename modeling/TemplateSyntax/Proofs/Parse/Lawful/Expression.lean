import TemplateSyntax.Proofs.Parse.Standing

/-! # Lawful Expressions

  Every parser of the grammar, started among disciplined tokens on the side where it
  belongs, stops among disciplined tokens on the side where the next parser belongs, and
  fails lawfully. Those of expressions begin and end inside.

  What is nested is assumed to be lawful, and the parsers of the next level are shown to be
  lawful from that.
-/

namespace TemplateSyntax

open Parse

/-- Parsers of nested parts that are lawful. -/
structure Nested.Lawful (ts : List Token) (n : Nested) : Prop where
  expression : Meets (Cursor.Stands ts .inside) n.expression
    (fun _ => Cursor.Stands ts .inside) (TemplateSyntax.Lawful ts)
  operand : Meets (Cursor.Stands ts .inside) n.operand
    (fun _ => Cursor.Stands ts .inside) (TemplateSyntax.Lawful ts)
  block : Meets (fun c => c.Stands ts .outside ∧ c.current.kind = .exprStart) n.block
    (fun _ => Cursor.Stands ts .outside) (TemplateSyntax.Lawful ts)
  alternate : Meets (Cursor.Stands ts .inside) n.alternate
    (fun _ => Cursor.Stands ts .outside) (TemplateSyntax.Lawful ts)

section lawful

variable {ts : List Token} {n : Nested}

/-! ## Suffixes -/

section suffixes

variable (hn : n.Lawful ts)
include hn

theorem lawful_furtherExpression :
    Meets (fun c => c.Stands ts .inside ∧ c.current.kind = .comma) (furtherExpression n)
      (fun _ => Cursor.Stands ts .inside) (Lawful ts) := by
  refine meets_bind (stands_advance_of_kind (fun _ hc => hc) nofun) fun _ => ?_
  exact hn.expression

theorem lawful_expressions :
    Meets (Cursor.Stands ts .inside) (expressions n)
      (fun _ => Cursor.Stands ts .inside) (Lawful ts) := by
  refine meets_bind hn.expression fun _ => ?_
  refine meets_bind (meets_many fun c item hc hs => ?_) fun _ => stands_pure
  split at hs
  · next hcomma =>
    cases hs
    exact (lawful_furtherExpression hn).startAt ⟨hc, of_decide_eq_true hcomma⟩
  · cases hs

theorem lawful_indexSuffix :
    Meets (fun c => c.Stands ts .inside ∧ c.current.kind = .lBracket) (indexSuffix n)
      (fun _ => Cursor.Stands ts .inside) (Lawful ts) := by
  refine meets_bind (stands_advance_of_kind (fun _ hc => hc) nofun) fun _ => ?_
  refine meets_bind hn.expression fun _ => ?_
  refine meets_bind (stands_expect nofun) fun _ => ?_
  exact stands_pure

theorem lawful_arguments :
    Meets (Cursor.Stands ts .inside) (arguments n)
      (fun _ => Cursor.Stands ts .inside) (Lawful ts) := by
  refine meets_bind meets_current fun t => ?_
  split
  · exact (stands_pure).of_pre fun _ hc => hc.1
  · exact (lawful_expressions hn).of_pre fun _ hc => hc.1

theorem lawful_callSuffix :
    Meets (fun c => c.Stands ts .inside ∧ c.current.kind = .lParen) (callSuffix n)
      (fun _ => Cursor.Stands ts .inside) (Lawful ts) := by
  refine meets_bind (stands_advance_of_kind (fun _ hc => hc) nofun) fun _ => ?_
  refine meets_bind (lawful_arguments hn) fun _ => ?_
  refine meets_bind (stands_expect nofun) fun _ => ?_
  exact stands_pure

end suffixes

theorem lawful_propertySuffix :
    Meets (fun c => c.Stands ts .inside ∧ c.current.kind = .period) propertySuffix
      (fun _ => Cursor.Stands ts .inside) (Lawful ts) := by
  refine meets_bind (stands_advance_of_kind (fun _ hc => hc) nofun) fun _ => ?_
  refine meets_bind meets_current fun t => ?_
  split
  · next hword =>
    refine meets_bind (stands_advance_current (Kind.stays_of_isWord hword .inside)) fun _ => ?_
    exact stands_pure
  · exact stands_unexpected

/-- The suffix that a kind of token begins is lawful where such a token stands. -/
theorem lawful_suffix (hn : n.Lawful ts) {c : Cursor} {item : Parse Suffix}
    (hc : c.Stands ts .inside) (hs : suffix? n c.current.kind = some item) :
    Meets (· = c) item (fun _ => Cursor.Stands ts .inside)
      (Lawful ts) := by
  unfold suffix? at hs
  split at hs
  · next hk =>
    cases hs
    exact lawful_propertySuffix.startAt ⟨hc, hk⟩
  · next hk =>
    cases hs
    exact (lawful_indexSuffix hn).startAt ⟨hc, hk⟩
  · next hk =>
    cases hs
    exact (lawful_callSuffix hn).startAt ⟨hc, hk⟩
  · cases hs

/-! ## Primary Expressions -/

theorem lawful_chain (hn : n.Lawful ts) :
    Meets (fun c => c.Stands ts .inside ∧ c.current.kind.isVariable) (chain n)
      (fun _ => Cursor.Stands ts .inside) (Lawful ts) := by
  have hname : Meets (fun c => c.Stands ts .inside ∧ c.current.kind.isVariable) advance
      (fun _ => Cursor.Stands ts .inside) (Lawful ts) := by
    refine stands_advance (s := .inside) fun c hc => ?_
    exact ⟨hc.1, Kind.stays_of_isWord (Kind.isWord_of_isVariable hc.2) .inside⟩
  refine meets_bind hname fun _ => ?_
  refine meets_bind (meets_many fun c item hc hs => ?_) fun _ => stands_pure
  exact lawful_suffix hn hc hs

theorem lawful_parenthesised (hn : n.Lawful ts) :
    Meets (fun c => c.Stands ts .inside ∧ c.current.kind = .lParen) (parenthesised n)
      (fun _ => Cursor.Stands ts .inside) (Lawful ts) := by
  refine meets_bind (stands_advance_of_kind (fun _ hc => hc) nofun) fun _ => ?_
  refine meets_bind hn.expression fun _ => ?_
  refine meets_bind (stands_expect nofun) fun _ => ?_
  exact stands_pure

/-- A numeral is one of the tokens, in the digits of its kind. -/
theorem stands_numeral {k : Kind} (hne : k ≠ .eof)
    (hside : k.leadsTo .inside = .inside) :
    Meets (fun c => c.Stands ts .inside ∧ c.current.kind = k) advance
      (fun t c => c.Stands ts .inside ∧ t ∈ ts ∧ t.kind = k ∧ Numeral k t.text.toList)
      (Lawful ts) := by
  refine meets_advance fun c hc => ?_
  obtain ⟨hs, rfl⟩ := hc
  have hnext := hs.advance hne
  rw [hside] at hnext
  exact ⟨hnext, hs.current_mem hne, rfl, (hs.fits hne).numeral⟩

/-- A digit or a row of them that is bad as an integer is too large. -/
theorem lawful_integerLiteral :
    Meets (fun c => c.Stands ts .inside ∧ c.current.kind = .integer) integerLiteral
      (fun _ => Cursor.Stands ts .inside) (Lawful ts) := by
  refine meets_bind (stands_numeral nofun rfl) fun t => meets_of_forall fun c hc => ?_
  obtain ⟨hs, hmem, hk, hnonempty, hdigits⟩ := hc
  -- The value of digits is all that can be wrong with them.
  rw [Integer.read_digits hnonempty hdigits]
  by_cases hle : digitsValue t.text.toList ≤ Integer.maxValue
  · rw [if_pos hle]
    exact meets_pure fun _ h => h ▸ hs
  · rw [if_neg hle]
    exact meets_reject fun _ _ => ⟨t, hmem, hk, by omega, rfl⟩

theorem lawful_decimalLiteral :
    Meets (fun c => c.Stands ts .inside ∧ c.current.kind = .float) decimalLiteral
      (fun _ => Cursor.Stands ts .inside) (Lawful ts) := by
  refine meets_bind (stands_numeral nofun rfl) fun t => meets_of_forall fun c hc => ?_
  obtain ⟨hs, -, -, whole, fraction, hwritten, hwhole, hfraction⟩ := hc
  rw [Decimal.read_digits hwritten hwhole.1 hwhole.2 hfraction.2]
  exact meets_pure fun _ h => h ▸ hs

/-- A token that stands for itself. -/
theorem lawful_literal {α : Type} {k : Kind} {f : Token → α} (hk : k ≠ .eof)
    (hside : k.leadsTo .inside = .inside) :
    Meets (fun c => c.Stands ts .inside ∧ c.current.kind = k)
      (do let t ← advance; return f t)
      (fun _ => Cursor.Stands ts .inside) (Lawful ts) := by
  refine meets_bind (stands_advance (s := .inside) fun c hc => ?_) fun _ => stands_pure
  obtain ⟨hs, rfl⟩ := hc
  exact ⟨hs, hk, hside⟩

theorem lawful_primary (hn : n.Lawful ts) :
    Meets (Cursor.Stands ts .inside) (primary n)
      (fun _ => Cursor.Stands ts .inside) (Lawful ts) := by
  refine meets_bind meets_current fun t => ?_
  have hkind : ∀ {k : Kind}, t.kind = k → ∀ c : Cursor,
      c.Stands ts .inside ∧ c.current = t → c.Stands ts .inside ∧ c.current.kind = k := by
    rintro k hk c ⟨hc, rfl⟩
    exact ⟨hc, hk⟩
  split
  · next hk => exact (lawful_parenthesised hn).of_pre (hkind hk)
  · next hk => exact lawful_integerLiteral.of_pre (hkind hk)
  · next hk => exact lawful_decimalLiteral.of_pre (hkind hk)
  · next hk => exact (lawful_literal (k := .string) nofun rfl).of_pre (hkind hk)
  · next hk => exact (lawful_literal (k := .boolean) nofun rfl).of_pre (hkind hk)
  · next hk => exact (lawful_literal (k := .null) nofun rfl).of_pre (hkind hk)
  · next hk => exact (lawful_literal (k := .undefined) nofun rfl).of_pre (hkind hk)
  · split
    · next hvariable =>
      refine (lawful_chain hn).of_pre ?_
      rintro c ⟨hc, rfl⟩
      exact ⟨hc, hvariable⟩
    · exact stands_unexpected

/-! ## Operators -/

theorem lawful_unary (hn : n.Lawful ts) :
    Meets (Cursor.Stands ts .inside) (unary n)
      (fun _ => Cursor.Stands ts .inside) (Lawful ts) := by
  refine meets_bind meets_current fun t => ?_
  split
  · next op hop =>
    have hstays : t.kind ≠ .eof ∧ t.kind.leadsTo .inside = .inside := by
      rw [← UnaryOp.ofKind?_eq_some_iff.mp hop]
      exact op.stays .inside
    refine meets_bind (stands_advance_current hstays) fun _ => ?_
    exact meets_bind hn.operand fun _ => stands_pure
  · exact (lawful_primary hn).of_pre fun _ hc => hc.1

section operators

variable {tighter : Parse Expr}

theorem lawful_operation {op : BinaryOp}
    (h : Meets (Cursor.Stands ts .inside) tighter (fun _ => Cursor.Stands ts .inside)
      (Lawful ts)) :
    Meets (fun c => c.Stands ts .inside ∧ c.current.kind = op.kind) (operation op tighter)
      (fun _ => Cursor.Stands ts .inside) (Lawful ts) := by
  have hoperator : Meets (fun c => c.Stands ts .inside ∧ c.current.kind = op.kind) advance
      (fun _ => Cursor.Stands ts .inside) (Lawful ts) := by
    refine stands_advance (s := .inside) fun c hc => ?_
    rw [hc.2]
    exact ⟨hc.1, op.stays .inside⟩
  refine meets_bind hoperator fun _ => ?_
  exact meets_bind h fun _ => stands_pure

theorem lawful_leftAssociative (ops : List BinaryOp)
    (h : Meets (Cursor.Stands ts .inside) tighter (fun _ => Cursor.Stands ts .inside)
      (Lawful ts)) :
    Meets (Cursor.Stands ts .inside) (leftAssociative ops tighter)
      (fun _ => Cursor.Stands ts .inside) (Lawful ts) := by
  refine meets_bind h fun _ => ?_
  refine meets_bind (meets_many fun c item hc hs => ?_) fun _ => stands_pure
  obtain ⟨op, hop, rfl⟩ := Option.map_eq_some_iff.mp hs
  have hkind : op.kind = c.current.kind :=
    BinaryOp.ofKind?_eq_some_iff.mp (Option.eq_some_of_filter_eq_some hop)
  exact (lawful_operation h).startAt ⟨hc, hkind.symm⟩

/-- Levels of operators over lawful operands are lawful. -/
theorem lawful_levels (ls : List (List BinaryOp))
    (h : Meets (Cursor.Stands ts .inside) tighter (fun _ => Cursor.Stands ts .inside)
      (Lawful ts)) :
    Meets (Cursor.Stands ts .inside) (ls.foldr leftAssociative tighter)
      (fun _ => Cursor.Stands ts .inside) (Lawful ts) := by
  induction ls with
  | nil => exact h
  | cons ops ls ih => exact lawful_leftAssociative ops ih

end operators

theorem lawful_conditional (hn : n.Lawful ts) :
    Meets (Cursor.Stands ts .inside) (conditional n)
      (fun _ => Cursor.Stands ts .inside) (Lawful ts) := by
  refine meets_bind (lawful_levels levels (lawful_unary hn)) fun _ => ?_
  refine meets_bind meets_current fun t => ?_
  split
  · next hk =>
    have hstays : t.kind ≠ .eof ∧ t.kind.leadsTo .inside = .inside := by
      rw [hk]
      exact ⟨nofun, rfl⟩
    refine meets_bind (stands_advance_current hstays) fun _ => ?_
    refine meets_bind hn.expression fun _ => ?_
    refine meets_bind (stands_expect nofun) fun _ => ?_
    exact meets_bind hn.expression fun _ => stands_pure
  · exact (stands_pure).of_pre fun _ hc => hc.1

end lawful

end TemplateSyntax
