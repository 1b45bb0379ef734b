import TemplateSyntax.Parse.Program
import TemplateSyntax.Proofs.Grammar.Basic
import TemplateSyntax.Proofs.Parse.Reads

/-! # What Is Read Is Written

  Whatever the parser of a nonterminal reads is written, in the sense of the grammar,
  by the tokens it has passed over, with no more levels than it had left
  (`sound_expression`).

  The rules of the parser refer to nested expressions through a record, so each rule
  is sound if the record is (`SoundNested`), and the levels left carry the induction.
-/

namespace TemplateSyntax

open Parse

namespace Grammar

/-- Whatever `p` reads is written by the tokens between its two cursors. -/
def SoundFor {α : Type} (p : Parse α) (D : List Token → α → Prop) : Prop :=
  ∀ c a c', Reads p c a c' → ∃ u, c.Spans u c' ∧ D u a

/-- The parsers of nested expressions are sound with `n` levels. -/
structure SoundNested (n : Nat) (inner : Nested) : Prop where
  expression : SoundFor inner.expression (Conditional n)
  operand : SoundFor inner.operand fun u e => ∃ m, n = m + 1 ∧ Unary m u e

variable {n : Nat} {inner : Nested}

/-! ## Lists of Expressions -/

theorem sound_expressions (hn : SoundNested n inner) :
    SoundFor (expressions inner) (Expressions n) := by
  intro c es c' h
  simp only [expressions, reads_bind, reads_pure] at h
  obtain ⟨first, c₁, hfirst, others, c₂, hothers, rfl, rfl⟩ := h
  obtain ⟨u, hu, hd⟩ := hn.expression _ _ _ hfirst
  -- The list grows at its end, so the claim is about every expression in front of the rest.
  have hrest : ∃ v, c₁.Spans v c' ∧
      ∀ u e, Conditional n u e → Expressions n (u ++ v) (e :: others) := by
    refine hothers.rounds.fold (P := fun c es c' => ∃ v, c.Spans v c' ∧
      ∀ u e, Conditional n u e → Expressions n (u ++ v) (e :: es)) ?_ ?_
    · intro c
      exact ⟨[], c.spans_refl, fun u e hd => by simpa using Expressions.single hd⟩
    · rintro c c₁ c₂ item a as hs hi ⟨v, hv, ih⟩
      split at hs
      · rename_i hcomma
        cases hs
        simp only [furtherExpression, reads_bind, reads_advance] at hi
        obtain ⟨t, d, ⟨rfl, rfl⟩, hi⟩ := hi
        have hk : c.current.kind = .comma := by simpa [Cursor.isAt] using hcomma
        obtain ⟨w, hw, ha⟩ := hn.expression _ _ _ hi
        refine ⟨[c.current] ++ w ++ v, ?_, ?_⟩
        · exact ((Cursor.spans_advance_of_kind hk (by decide)).trans hw).trans hv
        · intro u e hd
          simpa using Expressions.cons hd hk (ih w a ha)
      · cases hs
  obtain ⟨v, hv, hd'⟩ := hrest
  exact ⟨u ++ v, hu.trans hv, hd' u first hd⟩

theorem sound_arguments (hn : SoundNested n inner) :
    SoundFor (arguments inner) (Arguments n) := by
  intro c es c' h
  simp only [arguments, reads_bind, reads_current] at h
  obtain ⟨t, d, ⟨rfl, rfl⟩, h⟩ := h
  split at h
  · rw [reads_pure] at h
    obtain ⟨rfl, rfl⟩ := h
    exact ⟨[], c'.spans_refl, .none⟩
  · obtain ⟨u, hu, hd⟩ := sound_expressions hn _ _ _ h
    exact ⟨u, hu, .some hd⟩

/-! ## Chains -/

/-- A suffix that is read extends every chain in front of it. -/
theorem sound_suffix (hn : SoundNested n inner) {k : Kind} {item : Parse Suffix}
    {c c' : Cursor} {s : Suffix} (hk : c.current.kind = k) (hs : suffix? inner k = some item)
    (hi : Reads item c s c') :
    ∃ v, c.Spans v c' ∧ ∀ u e, Chain n u e → Chain n (u ++ v) (s.apply e) := by
  unfold suffix? at hs
  split at hs
  · cases hs
    simp only [propertySuffix, reads_bind, reads_advance, reads_current] at hi
    obtain ⟨_, _, ⟨rfl, rfl⟩, t, _, ⟨rfl, rfl⟩, hi⟩ := hi
    split at hi
    · rename_i hword
      simp only [reads_bind, reads_advance, reads_pure] at hi
      obtain ⟨_, _, ⟨rfl, rfl⟩, rfl, rfl⟩ := hi
      have hend : c.advance.current.kind ≠ .eof := by
        intro he
        rw [he] at hword
        exact absurd hword (by decide)
      have hspan := (Cursor.spans_advance_of_kind hk (by decide)).trans (Cursor.spans_advance hend)
      exact ⟨_, hspan, fun u e hd => hd.property hk hword⟩
    · exact absurd hi not_reads_unexpected
  · cases hs
    simp only [indexSuffix, reads_bind, reads_advance, reads_expect, reads_pure] at hi
    obtain ⟨_, _, ⟨rfl, rfl⟩, key, d, hkey, _, _, ⟨hr, rfl, rfl⟩, rfl, rfl⟩ := hi
    obtain ⟨v, hv, hd⟩ := hn.expression _ _ _ hkey
    have hspan := ((Cursor.spans_advance_of_kind hk (by decide)).trans hv).trans
      (Cursor.spans_advance_of_kind hr (by decide))
    exact ⟨_, hspan, fun u e he => by simpa [Suffix.apply] using he.index hk hd hr⟩
  · cases hs
    simp only [callSuffix, reads_bind, reads_advance, reads_expect, reads_pure] at hi
    obtain ⟨_, _, ⟨rfl, rfl⟩, args, d, hargs, _, _, ⟨hr, rfl, rfl⟩, rfl, rfl⟩ := hi
    obtain ⟨v, hv, hd⟩ := sound_arguments hn _ _ _ hargs
    have hspan := ((Cursor.spans_advance_of_kind hk (by decide)).trans hv).trans
      (Cursor.spans_advance_of_kind hr (by decide))
    exact ⟨_, hspan, fun u e he => by simpa [Suffix.apply] using he.call hk hd hr⟩
  · cases hs

theorem sound_suffixes (hn : SoundNested n inner) {c c' : Cursor} {ss : List Suffix}
    (h : Reads (many fun c => suffix? inner c.current.kind) c ss c') :
    ∃ v, c.Spans v c' ∧ ∀ u e, Chain n u e → Chain n (u ++ v) (ss.foldl Suffix.apply e) := by
  -- The rounds come from the front, so the chain that they extend is left open.
  refine h.rounds.fold (P := fun c ss c' => ∃ v, c.Spans v c' ∧
    ∀ u e, Chain n u e → Chain n (u ++ v) (ss.foldl Suffix.apply e)) ?_ ?_
  · intro c
    exact ⟨[], c.spans_refl, fun u e hd => by simpa using hd⟩
  · rintro c c₁ c₂ item s ss hs hi ⟨w, hw, ih⟩
    obtain ⟨v, hv, hd⟩ := sound_suffix hn rfl hs hi
    refine ⟨v ++ w, hv.trans hw, fun u e he => ?_⟩
    rw [← List.append_assoc]
    exact ih _ _ (hd u e he)

theorem sound_chain (hn : SoundNested n inner) {c c' : Cursor} {e : Expr}
    (hv : c.current.kind.isVariable = true) (h : Reads (chain inner) c e c') :
    ∃ u, c.Spans u c' ∧ Chain n u e := by
  simp only [chain, reads_bind, reads_advance, reads_pure] at h
  obtain ⟨_, _, ⟨rfl, rfl⟩, ss, d, hss, rfl, rfl⟩ := h
  obtain ⟨v, hspan, hd⟩ := sound_suffixes hn hss
  have hend : c.current.kind ≠ .eof := by
    intro he
    rw [he] at hv
    exact absurd hv (by decide)
  exact ⟨_, (Cursor.spans_advance hend).trans hspan, hd _ _ (.head hv)⟩

/-! ## Primary and Unary Expressions -/

theorem sound_parenthesised (hn : SoundNested n inner) {c c' : Cursor} {e : Expr}
    (hl : c.current.kind = .lParen) (h : Reads (parenthesised inner) c e c') :
    ∃ u, c.Spans u c' ∧ Primary n u e := by
  simp only [parenthesised, reads_bind, reads_advance, reads_expect, reads_pure] at h
  obtain ⟨_, _, ⟨rfl, rfl⟩, e, d, he, _, _, ⟨hr, rfl, rfl⟩, rfl, rfl⟩ := h
  obtain ⟨u, hu, hd⟩ := hn.expression _ _ _ he
  have hspan := ((Cursor.spans_advance_of_kind hl (by decide)).trans hu).trans
    (Cursor.spans_advance_of_kind hr (by decide))
  exact ⟨_, hspan, by simpa using Primary.parenthesised hl hd hr⟩

theorem sound_integerLiteral {c c' : Cursor} {e : Expr} (hk : c.current.kind = .integer)
    (h : Reads integerLiteral c e c') : ∃ u, c.Spans u c' ∧ Primary n u e := by
  simp only [integerLiteral, reads_bind, reads_advance] at h
  obtain ⟨_, _, ⟨rfl, rfl⟩, h⟩ := h
  split at h
  · rename_i x hx
    rw [reads_pure] at h
    obtain ⟨rfl, rfl⟩ := h
    exact ⟨_, Cursor.spans_advance_of_kind hk (by decide), .integer hk hx⟩
  · exact absurd h not_reads_reject

theorem sound_decimalLiteral {c c' : Cursor} {e : Expr} (hk : c.current.kind = .float)
    (h : Reads decimalLiteral c e c') : ∃ u, c.Spans u c' ∧ Primary n u e := by
  simp only [decimalLiteral, reads_bind, reads_advance] at h
  obtain ⟨_, _, ⟨rfl, rfl⟩, h⟩ := h
  split at h
  · rename_i x hx
    rw [reads_pure] at h
    obtain ⟨rfl, rfl⟩ := h
    exact ⟨_, Cursor.spans_advance_of_kind hk (by decide), .float hk hx⟩
  · exact absurd h not_reads_reject

theorem sound_primary (hn : SoundNested n inner) : SoundFor (primary inner) (Primary n) := by
  intro c e c' h
  simp only [primary, reads_bind, reads_current] at h
  obtain ⟨_, _, ⟨rfl, rfl⟩, h⟩ := h
  split at h
  case h_1 hk => exact sound_parenthesised hn hk h
  case h_2 hk => exact sound_integerLiteral hk h
  case h_3 hk => exact sound_decimalLiteral hk h
  case h_8 =>
    split at h
    · rename_i hv
      obtain ⟨u, hu, hd⟩ := sound_chain hn hv h
      exact ⟨u, hu, .chain hd⟩
    · exact absurd h not_reads_unexpected
  -- What is left are the literals that their kind, or their text, is the value of.
  all_goals
    rename_i hk
    simp only [reads_bind, reads_advance, reads_pure] at h
    obtain ⟨_, _, ⟨rfl, rfl⟩, rfl, rfl⟩ := h
    have hspan := Cursor.spans_advance_of_kind hk (by decide)
  case h_4 => exact ⟨_, hspan, .string hk⟩
  case h_5 => exact ⟨_, hspan, .boolean hk⟩
  case h_6 => exact ⟨_, hspan, .null (.inl hk)⟩
  case h_7 => exact ⟨_, hspan, .null (.inr hk)⟩

theorem sound_unary (hn : SoundNested n inner) : SoundFor (unary inner) (Unary n) := by
  intro c e c' h
  simp only [unary, reads_bind, reads_current] at h
  obtain ⟨_, c, ⟨rfl, rfl⟩, h⟩ := h
  split at h
  · rename_i op hop
    simp only [reads_bind, reads_advance, reads_pure] at h
    obtain ⟨_, _, ⟨rfl, rfl⟩, e, d, he, rfl, rfl⟩ := h
    have hk : c.current.kind = op.kind := (UnaryOp.ofKind?_eq_some_iff.mp hop).symm
    have hend : c.current.kind ≠ .eof := by
      rw [hk]
      cases op <;> decide
    obtain ⟨u, hu, m, rfl, hd⟩ := hn.operand _ _ _ he
    exact ⟨_, (Cursor.spans_advance hend).trans hu, .operation hk hd⟩
  · obtain ⟨u, hu, hd⟩ := sound_primary hn _ _ _ h
    exact ⟨u, hu, .primary hd⟩

/-! ## Binary Expressions -/

/-- The operators of each list have one level, and the levels ascend from `i` up to the
    last one. -/
def Ranked : Nat → List (List BinaryOp) → Prop
  | i, [] => i = 7
  | i, ops :: rest => (∀ op, op ∈ ops ↔ op.level = i) ∧ Ranked (i + 1) rest

/-- The table of the parser ranks the operators as the grammar does. -/
theorem ranked_levels : Ranked 1 levels := by
  refine ⟨?_, ?_, ?_, ?_, ?_, ?_, rfl⟩ <;> intro op <;> cases op <;> decide

theorem operatorOf?_eq_some_iff {ops : List BinaryOp} {k : Kind} {op : BinaryOp} :
    operatorOf? ops k = some op ↔ op.kind = k ∧ op ∈ ops := by
  rw [operatorOf?, Option.filter_eq_some_iff, BinaryOp.ofKind?_eq_some_iff, List.contains_iff_mem]

/-- Rounds over operators of one level extend every operand in front of them. -/
theorem sound_operations {i : Nat} {ops : List BinaryOp} {tighter : Parse Expr}
    (hops : ∀ op, op ∈ ops ↔ op.level = i) (ht : SoundFor tighter (Binary (i + 1) n))
    {c c' : Cursor} {others : List (BinaryOp × Expr)}
    (h : Reads (many fun c => (operatorOf? ops c.current.kind).map (operation · tighter))
      c others c') :
    ∃ v, c.Spans v c' ∧ ∀ u e, Binary i n u e →
      Binary i n (u ++ v) (others.foldl (fun a next => .binary a next.1 next.2) e) := by
  refine h.rounds.fold (P := fun c others c' => ∃ v, c.Spans v c' ∧ ∀ u e, Binary i n u e →
    Binary i n (u ++ v) (others.foldl (fun a next => .binary a next.1 next.2) e)) ?_ ?_
  · intro c
    exact ⟨[], c.spans_refl, fun u e hd => by simpa using hd⟩
  · rintro c c₁ c₂ item next others hs hi ⟨w, hw, ih⟩
    obtain ⟨op, hop, rfl⟩ := Option.map_eq_some_iff.mp hs
    obtain ⟨hk, hmem⟩ := operatorOf?_eq_some_iff.mp hop
    have hlevel := (hops op).mp hmem
    subst hlevel
    simp only [operation, reads_bind, reads_advance, reads_pure] at hi
    obtain ⟨_, _, ⟨rfl, rfl⟩, b, d, hb, rfl, rfl⟩ := hi
    obtain ⟨v, hv, hd⟩ := ht _ _ _ hb
    have hend : c.current.kind ≠ .eof := hk ▸ op.kind_ne_eof
    refine ⟨[c.current] ++ v ++ w, ((Cursor.spans_advance hend).trans hv).trans hw, ?_⟩
    intro u a ha
    simpa using ih _ _ (ha.operation hk.symm hd)

/-- Binary expressions from a level on, over a sound parser of unary ones. -/
theorem sound_levels (hn : SoundNested n inner) :
    ∀ {i : Nat} {table : List (List BinaryOp)}, Ranked i table →
      SoundFor (table.foldr leftAssociative (unary inner)) (Binary i n)
  | _, [], hr => by
    intro c e c' h
    obtain ⟨u, hu, hd⟩ := sound_unary hn _ _ _ h
    exact ⟨u, hu, hr ▸ .unary hd⟩
  | i, ops :: rest, hr => by
    intro c e c' h
    have ih := sound_levels hn hr.2
    simp only [List.foldr_cons, leftAssociative, reads_bind, reads_pure] at h
    obtain ⟨first, c₁, hfirst, others, c₂, hothers, rfl, rfl⟩ := h
    obtain ⟨u, hu, hd⟩ := ih _ _ _ hfirst
    obtain ⟨v, hv, hd'⟩ := sound_operations hr.1 ih hothers
    exact ⟨u ++ v, hu.trans hv, hd' _ _ (.tighter hd)⟩

/-! ## Conditionals -/

theorem sound_conditional (hn : SoundNested n inner) :
    SoundFor (conditional inner) (Conditional (n + 1)) := by
  intro c e c' h
  simp only [conditional, reads_bind, reads_current] at h
  obtain ⟨condition, c₁, hcondition, _, _, ⟨rfl, rfl⟩, h⟩ := h
  obtain ⟨u, hu, hd⟩ := sound_levels hn ranked_levels _ _ _ hcondition
  split at h
  · rename_i hmark
    simp only [reads_bind, reads_advance, reads_expect, reads_pure] at h
    obtain ⟨_, _, ⟨rfl, rfl⟩, a, d, ha, _, _, ⟨hcolon, rfl, rfl⟩, b, d', hb, rfl, rfl⟩ := h
    obtain ⟨v, hv, hda⟩ := hn.expression _ _ _ ha
    obtain ⟨w, hw, hdb⟩ := hn.expression _ _ _ hb
    have hspan := (((hu.trans (Cursor.spans_advance_of_kind hmark (by decide))).trans hv).trans
      (Cursor.spans_advance_of_kind hcolon (by decide))).trans hw
    exact ⟨_, hspan, by simpa using Conditional.choice hd hmark hda hcolon hdb⟩
  · rw [reads_pure] at h
    obtain ⟨rfl, rfl⟩ := h
    exact ⟨u, hu, .single hd⟩

/-- With no levels left nothing is read, and one more level reaches one level deeper. -/
theorem soundNested_within (limit left : Nat) : SoundNested left (Nested.within limit left) := by
  induction left with
  | zero =>
    exact ⟨fun c e c' h => absurd h not_reads_fail, fun c e c' h => absurd h not_reads_fail⟩
  | succ left ih =>
    refine ⟨sound_conditional ih, ?_⟩
    intro c e c' h
    obtain ⟨u, hu, hd⟩ := sound_unary ih _ _ _ h
    exact ⟨u, hu, left, rfl, hd⟩

/-- Whatever expression is read is written by the tokens that were passed over. -/
theorem sound_expression (limit left : Nat) :
    SoundFor (Nested.within limit left).expression (Conditional left) :=
  (soundNested_within limit left).expression

end Grammar

end TemplateSyntax
