import TemplateSyntax.Parse.Program
import TemplateSyntax.Proofs.Grammar.Sound

/-! # What Is Written Is Read

  Tokens that write an expression are read as that expression, whatever stands behind
  them, as long as the first token there does not go on with the expression
  (`complete_expression`).

  What goes on with an expression depends on the nonterminal: a question mark goes on
  with a conditional only, an operator with operands of its level or a looser one, and
  a suffix with whatever ends in a name. `Halts` says so once for all nonterminals, and
  is handed down along the right edge of a derivation.

  It follows that tokens write at most one expression (`conditional_unique`).
-/

namespace TemplateSyntax

open Parse

namespace Grammar

/-! ## Where Reading Stops -/

/-- A token of that kind may go on with an expression of the level. -/
def ContinuesAt (i : Nat) (k : Kind) : Prop := ∃ j, k.bond = some j ∧ i ≤ j

/-- `r` does not go on with what `u` writes in the language `D`: its first token may not
    on that level, or does not here. -/
def Halts (i : Nat) (D : List Token → Prop) (u r : List Token) : Prop :=
  ∀ t ∈ r.head?, ContinuesAt i t.kind → ∀ v, ¬ D (u ++ t :: v)

theorem halts_of_not_continuesAt {i : Nat} {D : List Token → Prop} {u r : List Token}
    (h : ∀ t ∈ r.head?, ¬ ContinuesAt i t.kind) : Halts i D u r :=
  fun t ht hc => absurd hc (h t ht)

/-- A token that goes on with no expression. -/
theorem halts_cons {i : Nat} {D : List Token → Prop} {u r : List Token} {t : Token} {k : Kind}
    (ht : t.kind = k) (hk : k.bond = none) : Halts i D u (t :: r) := by
  refine halts_of_not_continuesAt fun s hs => ?_
  cases hs
  rintro ⟨j, hj, -⟩
  rw [ht, hk] at hj
  cases hj

/-- Halting is handed down to the right end of a longer derivation: what goes on with its
    last part goes on with the whole. -/
theorem Halts.part {α β : Type} {i j : Nat} {D : Nat → List Token → α → Prop}
    {E : Nat → List Token → β → Prop} {u w r : List Token}
    (h : Halts i (fun v => ∃ m b, E m v b) w r) (hij : i ≤ j)
    (hE : ∀ v m a, D m (u ++ v) a → ∃ m b, E m (w ++ v) b) :
    Halts j (fun v => ∃ m a, D m v a) u r := by
  intro t ht hc v hv
  obtain ⟨k, hk, hjk⟩ := hc
  obtain ⟨m, a, ha⟩ := hv
  exact h t ht ⟨k, hk, Nat.le_trans hij hjk⟩ v (hE (t :: v) m a ha)

/-- The parser reads whatever `n` levels of a nonterminal write, where `r` does not go
    on with it. -/
def CompleteFor {α : Type} (p : Parse α) (D : Nat → List Token → α → Prop) (n i : Nat) : Prop :=
  ∀ u a r s, D n u a → Halts i (fun w => ∃ m b, D m w b) u r → Reads p ⟨u ++ r, s⟩ a ⟨r, s⟩

/-- The parsers of nested expressions are complete with `n` levels. -/
structure CompleteNested (n : Nat) (inner : Nested) : Prop where
  expression : CompleteFor inner.expression Conditional n 0
  operand : ∀ m, n = m + 1 → CompleteFor inner.operand Unary m 7

variable {n : Nat} {inner : Nested} {s : Span}

/-! ## Lists of Expressions -/

/-- What may stand behind a list of expressions. -/
def ClosesList (r : List Token) : Prop := ∀ t ∈ r.head?, t.kind ≠ .comma ∧ t.kind.bond = none

theorem ClosesList.halts {i : Nat} {D : List Token → Prop} {u r : List Token}
    (h : ClosesList r) : Halts i D u r := by
  refine halts_of_not_continuesAt fun t ht => ?_
  rintro ⟨j, hj, -⟩
  rw [(h t ht).2] at hj
  cases hj

theorem ClosesList.not_comma {r : List Token} (h : ClosesList r) :
    (Cursor.mk r s).isAt .comma = false := by
  cases r with
  | nil => rfl
  | cons t r => simp [Cursor.isAt, (h t rfl).1]

/-- The expressions behind a comma are the rounds of the loop. -/
theorem rounds_expressions (hn : CompleteNested n inner) {v r : List Token} {es : List Expr}
    (h : Expressions n v es) (hr : ClosesList r) :
    ∀ {t : Token}, t.kind = .comma →
      Rounds (fun c => if c.isAt .comma then some (furtherExpression inner) else none)
        ⟨t :: (v ++ r), s⟩ es ⟨r, s⟩ := by
  have hselect : ∀ {t : Token} (ts : List Token), t.kind = .comma →
      (if (Cursor.mk (t :: ts) s).isAt .comma then some (furtherExpression inner) else none)
        = some (furtherExpression inner) := by
    intro t ts ht
    simp [Cursor.isAt, ht]
  induction h using Expressions.along with
  | @single v e h =>
    intro t ht
    have hread : Reads (furtherExpression inner) ⟨t :: (v ++ r), s⟩ e ⟨r, s⟩ := by
      simp only [furtherExpression, reads_bind, reads_advance]
      exact ⟨t, _, ⟨rfl, rfl⟩, hn.expression _ _ _ _ h hr.halts⟩
    refine .round (hselect _ ht) hread ?_ (.done ?_)
    · simp only [List.length_cons, List.length_append]
      omega
    · simp [hr.not_comma]
  | @cons u w e es t' h ht' hs ih =>
    intro t ht
    have hread : Reads (furtherExpression inner) ⟨t :: ((u ++ t' :: w) ++ r), s⟩ e
        ⟨t' :: (w ++ r), s⟩ := by
      simp only [furtherExpression, reads_bind, reads_advance]
      refine ⟨t, _, ⟨rfl, rfl⟩, ?_⟩
      have hfirst := hn.expression _ _ (t' :: (w ++ r)) s h (halts_cons ht' rfl)
      simpa using hfirst
    refine .round (hselect _ ht) hread ?_ (ih ht')
    simp only [List.length_cons, List.length_append]
    omega

theorem complete_expressions (hn : CompleteNested n inner) {u r : List Token} {es : List Expr}
    (h : Expressions n u es) (hr : ClosesList r) :
    Reads (expressions inner) ⟨u ++ r, s⟩ es ⟨r, s⟩ := by
  simp only [expressions, reads_bind, reads_pure]
  cases h with
  | @single _ _ e h =>
    refine ⟨e, _, hn.expression _ _ _ _ h hr.halts, [], _, ?_, rfl, rfl⟩
    refine (Rounds.done ?_).reads
    simp [hr.not_comma]
  | @cons _ u w e es t h ht hs =>
    have hfirst := hn.expression _ _ (t :: (w ++ r)) s h (halts_cons ht rfl)
    refine ⟨e, _, by simpa using hfirst, es, _, ?_, rfl, rfl⟩
    exact (rounds_expressions hn hs hr ht).reads

theorem complete_arguments (hn : CompleteNested n inner) {u r : List Token} {es : List Expr}
    {t : Token} (h : Arguments n u es) (ht : t.kind = .rParen) :
    Reads (arguments inner) ⟨u ++ t :: r, s⟩ es ⟨t :: r, s⟩ := by
  have hr : ClosesList (t :: r) := by
    intro t' ht'
    cases ht'
    rw [ht]
    exact ⟨by decide, rfl⟩
  simp only [arguments, reads_bind, reads_current]
  refine ⟨_, _, ⟨rfl, rfl⟩, ?_⟩
  cases h with
  | none =>
    have hk : (Cursor.mk ([] ++ t :: r) s).current.kind = .rParen := ht
    rw [if_pos hk, reads_pure]
    exact ⟨rfl, rfl⟩
  | some h =>
    have hk : (Cursor.mk (u ++ t :: r) s).current.kind ≠ .rParen := by
      obtain ⟨t', v, rfl, ht'⟩ := h.first
      intro he
      rw [List.cons_append, Cursor.current_cons] at he
      rw [he] at ht'
      exact absurd ht' (by decide)
    rw [if_neg hk]
    exact complete_expressions hn h hr

/-! ## Chains -/

/-- Behind a token there is less ahead. -/
theorem ahead_lt_of_suffix {t : Token} {u r : List Token} (h : r <:+ u) :
    (Cursor.mk r s).ahead.length < (Cursor.mk (t :: u) s).ahead.length :=
  Nat.lt_succ_of_le h.length_le

/-- The suffixes at a cursor. -/
def suffixAt (inner : Nested) (c : Cursor) : Option (Parse Suffix) :=
  suffix? inner c.current.kind

/-- A chain is read as its head with its suffixes applied in turn, so whatever suffixes
    the loop finds behind the chain are applied to it. -/
theorem complete_suffixes (hn : CompleteNested n inner) {u : List Token} {e : Expr}
    (h : Chain n u e) :
    ∀ {r : List Token} {ss : List Suffix} {c' : Cursor},
      Rounds (suffixAt inner) ⟨r, s⟩ ss c' →
        Reads (chain inner) ⟨u ++ r, s⟩ (ss.foldl Suffix.apply e) c' := by
  induction h using Chain.along with
  | head ht =>
    intro r ss c' hss
    simp only [chain, reads_bind, reads_advance, reads_pure]
    exact ⟨_, _, ⟨rfl, rfl⟩, ss, c', hss.reads, rfl, rfl⟩
  | @property u e p t h hp ht ih =>
    intro r ss c' hss
    have hread : Reads propertySuffix ⟨p :: t :: r, s⟩ (.property t.text) ⟨r, s⟩ := by
      simp only [propertySuffix, reads_bind, reads_advance, reads_current]
      refine ⟨p, _, ⟨rfl, rfl⟩, t, _, ⟨rfl, rfl⟩, ?_⟩
      simp [ht]
    have hselect : suffixAt inner ⟨p :: t :: r, s⟩ = some propertySuffix := by
      simp [suffixAt, suffix?, hp]
    have := ih (.round hselect hread (ahead_lt_of_suffix (List.suffix_cons t r)) hss)
    simpa [Suffix.apply] using this
  | @index u v e k l q h hl hk hq ih =>
    intro r ss c' hss
    have hread : Reads (indexSuffix inner) ⟨l :: (v ++ q :: r), s⟩ (.index k) ⟨r, s⟩ := by
      simp only [indexSuffix, reads_bind, reads_advance, reads_expect, reads_pure]
      have hkey := hn.expression _ _ (q :: r) s hk (halts_cons hq rfl)
      exact ⟨l, _, ⟨rfl, rfl⟩, k, _, hkey, q, _, ⟨hq, rfl, rfl⟩, rfl, rfl⟩
    have hselect : suffixAt inner ⟨l :: (v ++ q :: r), s⟩ = some (indexSuffix inner) := by
      simp [suffixAt, suffix?, hl]
    have hsuffix : r <:+ v ++ q :: r := (List.suffix_cons q r).trans (List.suffix_append v _)
    have := ih (.round hselect hread (ahead_lt_of_suffix hsuffix) hss)
    simpa [Suffix.apply] using this
  | @call u v e args l q h hl ha hq ih =>
    intro r ss c' hss
    have hread : Reads (callSuffix inner) ⟨l :: (v ++ q :: r), s⟩ (.call args) ⟨r, s⟩ := by
      simp only [callSuffix, reads_bind, reads_advance, reads_expect, reads_pure]
      exact ⟨l, _, ⟨rfl, rfl⟩, args, _, complete_arguments hn ha hq, q, _, ⟨hq, rfl, rfl⟩,
        rfl, rfl⟩
    have hselect : suffixAt inner ⟨l :: (v ++ q :: r), s⟩ = some (callSuffix inner) := by
      simp [suffixAt, suffix?, hl]
    have hsuffix : r <:+ v ++ q :: r := (List.suffix_cons q r).trans (List.suffix_append v _)
    have := ih (.round hselect hread (ahead_lt_of_suffix hsuffix) hss)
    simpa [Suffix.apply] using this

/-- The token of a kind, for showing what could stand somewhere. -/
def sample (k : Kind) : Token := ⟨k, .at .start, ""⟩

theorem primary_sample : Primary 0 [sample .null] .null := .null (.inl rfl)

theorem unary_sample : Unary 0 [sample .null] .null := .primary primary_sample

theorem conditional_sample : Conditional 1 [sample .null] .null :=
  .single (.loosen (by omega) (.unary unary_sample))

/-- Where nothing goes on with a chain, no suffix stands. -/
theorem suffixAt_of_halts {u r : List Token} {e : Expr} (h : Chain n u e)
    (hh : Halts 7 (fun w => ∃ m b, Chain m w b) u r) : suffixAt inner ⟨r, s⟩ = none := by
  cases r with
  | nil => rfl
  | cons t r =>
    have hcontinues : ∀ k : Kind, t.kind = k → k.bond = some 8 → ContinuesAt 7 t.kind := by
      intro k hk hb
      exact ⟨8, hk ▸ hb, by omega⟩
    simp only [suffixAt, Cursor.current_cons]
    unfold suffix?
    -- Every suffix that could begin here is one that the chain would go on with.
    split
    case h_1 hk =>
      exact absurd ⟨n, _, h.property hk rfl⟩
        (hh t rfl (hcontinues _ hk rfl) [sample .identifier])
    case h_2 hk =>
      have hindex := (h.mono (Nat.le_succ n)).index hk (conditional_sample.mono (by omega))
        (rfl : (sample .rBracket).kind = .rBracket)
      exact absurd ⟨n + 1, _, hindex⟩ (hh t rfl (hcontinues _ hk rfl) _)
    case h_3 hk =>
      have hcall := h.call hk .none (rfl : (sample .rParen).kind = .rParen)
      exact absurd ⟨n, _, hcall⟩ (hh t rfl (hcontinues _ hk rfl) _)
    case h_4 => rfl

theorem complete_chain (hn : CompleteNested n inner) : CompleteFor (chain inner) Chain n 7 :=
  fun _ _ _ _ h hh => complete_suffixes hn h (.done (suffixAt_of_halts h hh))

/-! ## Primary and Unary Expressions -/

theorem complete_primary (hn : CompleteNested n inner) :
    CompleteFor (primary inner) Primary n 7 := by
  intro u e r s h hh
  simp only [primary, reads_bind, reads_current]
  refine ⟨_, _, ⟨rfl, rfl⟩, ?_⟩
  cases h with
  | @parenthesised _ u _ l q hl h hq =>
    simp only [List.cons_append, List.append_assoc, Cursor.current_cons, hl, parenthesised,
      reads_bind, reads_advance, reads_expect, reads_pure]
    have hread := hn.expression _ _ (q :: r) s h (halts_cons hq rfl)
    exact ⟨l, _, ⟨rfl, rfl⟩, e, _, hread, q, _, ⟨hq, rfl, rfl⟩, rfl, rfl⟩
  | @integer _ x t ht hx =>
    simp only [List.cons_append, Cursor.current_cons, ht, integerLiteral, reads_bind, reads_advance]
    refine ⟨t, _, ⟨rfl, rfl⟩, ?_⟩
    simp [hx]
  | @float _ x t ht hx =>
    simp only [List.cons_append, Cursor.current_cons, ht, decimalLiteral, reads_bind, reads_advance]
    refine ⟨t, _, ⟨rfl, rfl⟩, ?_⟩
    simp [hx]
  | @string _ t ht => simp [ht]
  | @boolean _ t ht => simp [ht]
  | @null _ t ht => rcases ht with ht | ht <;> simp [ht]
  | chain h =>
    obtain ⟨t, v, rfl, ht⟩ := h.first
    have hpart := hh.part (D := Chain) (Nat.le_refl 7) fun _ m b hb => ⟨m, b, .chain hb⟩
    have hread := complete_chain hn _ _ r s h hpart
    -- A name is of none of the kinds before the last case.
    simp only [List.cons_append, Cursor.current_cons]
    revert ht
    cases t.kind <;> intro ht <;> first | exact hread | cases ht

theorem complete_unary (hn : CompleteNested n inner) : CompleteFor (unary inner) Unary n 7 := by
  intro u e r s h hh
  simp only [unary, reads_bind, reads_current]
  refine ⟨_, _, ⟨rfl, rfl⟩, ?_⟩
  cases h with
  | primary h =>
    have hpart := hh.part (D := Primary) (Nat.le_refl 7) fun _ m b hb => ⟨m, b, .primary hb⟩
    have hread := complete_primary hn _ _ r s h hpart
    obtain ⟨t, v, rfl, ht⟩ := h.first
    -- What begins a primary expression is no unary operator.
    simp only [List.cons_append, Cursor.current_cons]
    revert ht
    cases t.kind <;> intro ht <;> first | exact hread | cases ht
  | @operation op m u e t ht h =>
    have hop : UnaryOp.ofKind? t.kind = some op := UnaryOp.ofKind?_eq_some_iff.mpr ht.symm
    have hpart := hh.part (D := Unary) (u := u) (Nat.le_refl 7)
      fun _ m b hb => ⟨m + 1, _, .operation ht hb⟩
    have hread := hn.operand m rfl _ _ r s h hpart
    simp only [List.cons_append, Cursor.current_cons, hop, reads_bind, reads_advance, reads_pure]
    exact ⟨t, _, ⟨rfl, rfl⟩, e, _, hread, rfl, rfl⟩

/-! ## Binary Expressions -/

/-- The operations of a level at a cursor. -/
def operationAt (ops : List BinaryOp) (tighter : Parse Expr) (c : Cursor) :
    Option (Parse (BinaryOp × Expr)) :=
  (operatorOf? ops c.current.kind).map (operation · tighter)

/-- What a row of operations makes of the operand in front of it. -/
def applyAll (e : Expr) (others : List (BinaryOp × Expr)) : Expr :=
  others.foldl (fun a next => .binary a next.1 next.2) e

/-- Operands of one level are read as the first of them with the operations applied in
    turn, so whatever operations the loop finds behind them are applied to them. -/
theorem complete_operations {i : Nat} {ops : List BinaryOp} {tighter : Parse Expr}
    (hops : ∀ op, op ∈ ops ↔ op.level = i)
    (htight : CompleteFor tighter (Binary (i + 1)) n (i + 1)) {u : List Token} {e : Expr}
    (h : Binary i n u e) (hi : i < 7) :
    ∀ {r : List Token} {others : List (BinaryOp × Expr)} {c' : Cursor},
      Halts (i + 1) (fun w => ∃ m b, Binary i m w b) u r →
      Rounds (operationAt ops tighter) ⟨r, s⟩ others c' →
        Reads (leftAssociative ops tighter) ⟨u ++ r, s⟩ (applyAll e others) c' := by
  induction h using Binary.along with
  | unary _ => omega
  | @tighter i u e h _ =>
    intro r others c' hh hrounds
    have hpart := hh.part (D := Binary (i + 1)) (Nat.le_refl _) fun _ m b hb => ⟨m, b, .tighter hb⟩
    have hread := htight _ _ r s h hpart
    simp only [leftAssociative, reads_bind, reads_pure]
    exact ⟨e, _, hread, others, c', hrounds.reads, rfl, rfl⟩
  | @operation op u v a b t hl ht hr ih =>
    intro r others c' hh hrounds
    have hgoes : ∀ w m b, Binary (op.level + 1) m (v ++ w) b →
        ∃ m b, Binary op.level m ((u ++ t :: v) ++ w) b := by
      intro w m b hb
      have hleft := hl.mono (Nat.le_max_left n m)
      have hright := hb.mono (Nat.le_max_right n m)
      exact ⟨_, _, by simpa using hleft.operation ht hright⟩
    have hread : Reads (operation op tighter) ⟨t :: (v ++ r), s⟩ (op, b) ⟨r, s⟩ := by
      simp only [operation, reads_bind, reads_advance, reads_pure]
      have hb := htight _ _ r s hr (hh.part (Nat.le_refl _) hgoes)
      exact ⟨t, _, ⟨rfl, rfl⟩, b, _, hb, rfl, rfl⟩
    have hselect : operationAt ops tighter ⟨t :: (v ++ r), s⟩ = some (operation op tighter) := by
      have hop : operatorOf? ops t.kind = some op :=
        operatorOf?_eq_some_iff.mpr ⟨ht.symm, (hops op).mpr rfl⟩
      simp [operationAt, hop]
    -- The left operand ends at the operator, which does not bind tightly enough for it.
    have hleft : Halts (op.level + 1) (fun w => ∃ m b, Binary op.level m w b) u
        (t :: (v ++ r)) := by
      refine halts_of_not_continuesAt fun t' ht' => ?_
      cases ht'
      rintro ⟨j, hj, hlt⟩
      rw [ht, BinaryOp.bond_kind] at hj
      cases hj
      omega
    have hless := ahead_lt_of_suffix (t := t) (s := s) (List.suffix_append v r)
    have := ih hops htight hi hleft (.round hselect hread hless hrounds)
    simpa [applyAll] using this

/-- Where nothing goes on with operands of a level, no operator of the level stands. -/
theorem operationAt_of_halts {i : Nat} {ops : List BinaryOp} {tighter : Parse Expr}
    (hops : ∀ op, op ∈ ops ↔ op.level = i) (hi : i < 7) {u r : List Token} {e : Expr}
    (h : Binary i n u e) (hh : Halts i (fun w => ∃ m b, Binary i m w b) u r) :
    operationAt ops tighter ⟨r, s⟩ = none := by
  rw [operationAt, Option.map_eq_none_iff, Option.eq_none_iff_forall_ne_some]
  intro op hop
  obtain ⟨hk, hmem⟩ := operatorOf?_eq_some_iff.mp hop
  cases r with
  | nil => exact BinaryOp.kind_ne_eof op hk
  | cons t r =>
    have hlevel := (hops op).mp hmem
    subst hlevel
    have hcontinues : ContinuesAt op.level t.kind := ⟨op.level, hk ▸ op.bond_kind, Nat.le_refl _⟩
    have hoperand : Binary (op.level + 1) n [sample .null] .null :=
      .loosen hi (.unary (unary_sample.mono (Nat.zero_le n)))
    exact hh t rfl hcontinues _ ⟨n, _, h.operation hk.symm hoperand⟩

theorem Ranked.lt {i : Nat} {ops : List BinaryOp} {rest : List (List BinaryOp)}
    (h : Ranked i (ops :: rest)) : i < 7 := by
  induction rest generalizing i ops with
  | nil =>
    have := h.2
    simp only [Ranked] at this
    omega
  | cons ops' rest ih =>
    have := ih h.2
    omega

theorem complete_levels (hn : CompleteNested n inner) {i : Nat} {table : List (List BinaryOp)}
    (hr : Ranked i table) :
    CompleteFor (table.foldr leftAssociative (unary inner)) (Binary i) n i := by
  induction table generalizing i with
  | nil =>
    cases hr
    intro u e r s h hh
    have hpart := hh.part (D := Unary) (Nat.le_refl 7) fun _ m b hb => ⟨m, b, .unary hb⟩
    exact complete_unary hn u e r s h.unary_of_seven hpart
  | cons ops rest ih =>
    intro u e r s h hh
    have hpart := hh.part (D := Binary i) (Nat.le_succ i) fun _ m b hb => ⟨m, b, hb⟩
    exact complete_operations hr.1 (ih hr.2) h hr.lt hpart
      (.done (operationAt_of_halts hr.1 hr.lt h hh))

/-! ## Conditionals -/

theorem complete_conditional (hn : CompleteNested n inner) :
    CompleteFor (conditional inner) Conditional (n + 1) 0 := by
  intro u e r s h hh
  simp only [conditional, reads_bind, reads_current]
  cases h with
  | single h =>
    have hpart := hh.part (D := Binary 1) (Nat.zero_le 1) fun _ m b hb => ⟨m + 1, b, .single hb⟩
    have hread := complete_levels hn ranked_levels _ _ r s h hpart
    refine ⟨e, _, hread, _, _, ⟨rfl, rfl⟩, ?_⟩
    -- Behind a question mark the expression could go on.
    have hmark : (Cursor.mk r s).current.kind ≠ .questionMark := by
      cases r with
      | nil =>
        intro hk
        cases hk
      | cons t r =>
        intro hk
        have hchoice := Conditional.choice (h.mono (Nat.le_succ n)) hk
          (conditional_sample.mono (by omega)) (rfl : (sample .colon).kind = .colon)
          (conditional_sample.mono (by omega))
        exact hh t rfl ⟨0, hk ▸ rfl, Nat.le_refl 0⟩ _ ⟨n + 2, _, hchoice⟩
    rw [if_neg hmark, reads_pure]
    exact ⟨rfl, rfl⟩
  | @choice _ u v w c a b mark colon hc hm ha hs hb =>
    have hcondition : Reads (binary inner) ⟨u ++ mark :: (v ++ colon :: (w ++ r)), s⟩ c
        ⟨mark :: (v ++ colon :: (w ++ r)), s⟩ :=
      complete_levels hn ranked_levels _ _ _ s hc (halts_of_not_continuesAt fun t ht => by
        cases ht
        rintro ⟨j, hj, hlt⟩
        rw [hm] at hj
        cases hj
        omega)
    have hthen := hn.expression _ _ (colon :: (w ++ r)) s ha (halts_cons hs rfl)
    have hgoes : ∀ x m d, Conditional m (w ++ x) d →
        ∃ m d, Conditional m ((u ++ mark :: (v ++ colon :: w)) ++ x) d := by
      intro x m d hd
      have hchoice := Conditional.choice (hc.mono (Nat.le_max_left n m)) hm
        (ha.mono (Nat.le_max_left n m)) hs (hd.mono (Nat.le_max_right n m))
      exact ⟨_, _, by simpa using hchoice⟩
    have helse := hn.expression _ _ r s hb (hh.part (Nat.le_refl 0) hgoes)
    have hsplit : u ++ mark :: (v ++ colon :: w) ++ r = u ++ mark :: (v ++ colon :: (w ++ r)) := by
      simp
    rw [hsplit]
    refine ⟨c, _, hcondition, _, _, ⟨rfl, rfl⟩, ?_⟩
    rw [Cursor.current_cons, if_pos hm]
    simp only [reads_bind, reads_advance, reads_expect, reads_pure]
    exact ⟨mark, _, ⟨rfl, rfl⟩, a, _, hthen, colon, _, ⟨hs, rfl, rfl⟩, b, _, helse, rfl, rfl⟩

/-- With no levels left nothing is written, and one more level writes what the rules
    write over one level less. -/
theorem completeNested_within (limit left : Nat) :
    CompleteNested left (Nested.within limit left) := by
  induction left with
  | zero =>
    constructor
    · intro u e r s h
      cases h
    · intro m hm
      cases hm
  | succ left ih =>
    refine ⟨complete_conditional ih, ?_⟩
    rintro m hm
    cases hm
    exact complete_unary ih

/-- Tokens that write an expression are read as it, where reading stops behind them. -/
theorem complete_expression (limit left : Nat) :
    CompleteFor (Nested.within limit left).expression Conditional left 0 :=
  (completeNested_within limit left).expression

/-! ## One Tree -/

/-- Tokens write at most one expression, however many levels a derivation takes. -/
theorem conditional_unique {n m : Nat} {u : List Token} {e e' : Expr}
    (h : Conditional n u e) (h' : Conditional m u e') : e = e' := by
  -- Both trees are read from the same tokens, and a parser reads one value only.
  have hread : ∀ {k : Nat} {b : Expr}, Conditional k u b → k ≤ max n m →
      Reads (Nested.within 0 (max n m)).expression ⟨u ++ [], .at .start⟩ b ⟨[], .at .start⟩ := by
    intro k b hb hk
    refine complete_expression 0 _ u b [] _ (hb.mono hk) ?_
    intro t ht
    cases ht
  have hn := hread h (Nat.le_max_left n m)
  have hm := hread h' (Nat.le_max_right n m)
  exact (hn.unique hm).1

end Grammar

end TemplateSyntax
