import TemplateSyntax.Proofs.Grammar.Complete

/-! # Expressions Are Read Exactly

  The parser of expressions reads what the grammar says and nothing else. Whatever it
  reads is written by the tokens it passes over; whatever some tokens write is read, if
  the levels left suffice and the next token does not go on with it; and no tokens
  write two expressions.
-/

namespace TemplateSyntax

open Parse

namespace Grammar

/-- The tokens `r` behind `u` do not go on with the expression that `u` writes. The first
    of them is of a kind that goes on with no expression, or of one that does not go on
    with this one, as a bracket behind a number. -/
def Ends (u r : List Token) : Prop := Halts 0 (fun w => ∃ n e, Conditional n w e) u r

/-- A token of a kind that goes on with no expression ends every one. -/
theorem ends_of_bond_eq_none {u r : List Token} (h : ∀ t ∈ r.head?, t.kind.bond = none) :
    Ends u r := by
  refine halts_of_not_continuesAt fun t ht => ?_
  rintro ⟨j, hj, -⟩
  rw [h t ht] at hj
  cases hj

/-- At every cursor and with any number of levels left, reading an expression is sound
    and complete for the grammar within that number of levels, and the grammar gives
    some tokens one tree only. -/
theorem expression_reads_exactly (limit left : Nat) :
    (∀ c e c', Reads (Nested.within limit left).expression c e c' →
      ∃ u, c.Spans u c' ∧ Conditional left u e) ∧
    (∀ u r s e, Conditional left u e → Ends u r →
      Reads (Nested.within limit left).expression ⟨u ++ r, s⟩ e ⟨r, s⟩) ∧
    (∀ n m u e e', Conditional n u e → Conditional m u e' → e = e') := by
  refine ⟨?_, ?_, ?_⟩
  · intro c e c' h
    exact sound_expression limit left c e c' h
  · intro u r s e h hr
    exact complete_expression limit left u e r s h hr
  · intro n m u e e' h h'
    exact conditional_unique h h'

/-- Two subtractions in a row, in front of a closing brace, group to the left, and in no other
    way. -/
theorem differences_read_exactly :
    let word (name : String) : Token := ⟨.identifier, .at .start, name⟩
    let u := [word "a", sample .minus, word "b", sample .minus, word "c"]
    let r := [sample .exprEnd]
    let e := Expr.binary (.binary (.identifier "a") .sub (.identifier "b")) .sub (.identifier "c")
    let e' := Expr.binary (.identifier "a") .sub (.binary (.identifier "b") .sub (.identifier "c"))
    Conditional 64 u e ∧ Ends u r ∧
      Reads (Nested.within 64 64).expression ⟨u ++ r, .at .start⟩ e ⟨r, .at .start⟩ ∧
      (∃ v, (Cursor.mk (u ++ r) (.at .start)).Spans v ⟨r, .at .start⟩ ∧ Conditional 64 v e) ∧
      ¬ Conditional 64 u e' := by
  intro word u r e e'
  obtain ⟨sound, complete, unique⟩ := expression_reads_exactly 64 64
  have hname : ∀ name, Binary 6 63 [word name] (.identifier name) := fun name =>
    .tighter (.unary (.primary (.chain (.head (t := word name) rfl))))
  have hminus : (sample .minus).kind = BinaryOp.sub.kind := rfl
  have ha : Binary BinaryOp.sub.level 63 [word "a"] (.identifier "a") := .tighter (hname "a")
  have hboth := (ha.operation hminus (hname "b")).operation hminus (hname "c")
  have hu : Conditional 64 u e := .single (hboth.loosen (by decide))
  have hr : Ends u r := ends_of_bond_eq_none fun t ht => by
    cases ht
    rfl
  have hread := complete u r (.at .start) e hu hr
  refine ⟨hu, hr, hread, sound _ _ _ hread, fun hother => ?_⟩
  have hsame : e = e' := unique 64 64 u e e' hu hother
  injection hsame with hleft
  cases hleft

end Grammar

end TemplateSyntax
