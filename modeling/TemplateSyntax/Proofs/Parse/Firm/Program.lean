import TemplateSyntax.Parse.Program
import TemplateSyntax.Proofs.Parse.Firm.Block
import TemplateSyntax.Tree.Equal

/-! # Decided Errors Are Final

  A template is read by firm parsers (`firm_program`), and so the tokens up to the one to blame
  decide on an error: however tokens go on behind it, the error stays (`decided_error_final`).
  This is not so for an error of nesting, which may be met behind a look at a word that is not
  there yet, and not for the end of the input, which more tokens put off.
-/

namespace TemplateSyntax

open Parse

/-! ## Programs -/

/-- With no level left nothing is decided; with one more, nested parts are firm over those
    below. -/
theorem firm_within (limit left : Nat) : (Nested.within limit left).Firm := by
  induction left with
  | zero =>
    exact ⟨fun _ => firm_tooDeep, fun _ => firm_tooDeep, fun _ => firm_tooDeep,
      fun _ => firm_tooDeep⟩
  | succ left ih =>
    exact ⟨firm_conditional ih, firm_unary ih, firm_block ih, firm_alternate ih⟩

theorem firm_nodes {n : Nested} (hn : n.Firm) (c : Cursor) : Firm Far Far (nodes n) c := by
  apply firm_many
  · intro c d h
    unfold Cursor.atEnd Cursor.isAt
    rw [h.near.current]
  · intro c item hs
    split at hs <;> cases hs
    next hend => exact firm_node hn (Bool.eq_false_iff.mpr hend)

theorem firm_program (c : Cursor) : Firm Far Far program c := by
  apply firm_bind (firm_nodes (firm_within nestingLimit nestingLimit) c)
  intro _ c₁ _
  exact firm_bind (M := Far) firm_report fun _ _ _ => firm_pure

/-! ## Errors -/

/-- An error that some tokens decide on is met however they go on: behind the last of them, and
    even behind the one that is to blame, at whose line and column the error is. So the tokens
    up to this one are all that the error depends on. -/
theorem decided_error_final {ts : List Token} {e : ParseError} (h : parse ts = .error e)
    (hd : e.cause.isDecided = true) :
    (∀ us, parse (ts ++ us) = .error e) ∧
      ∃ front t rest, ts = front ++ t :: rest ∧ e = .blaming t e.cause ∧
        (e.cause.Fits t ∨ e.cause.FitsNumber t) ∧
        ∀ us, parse (front ++ t :: us) = .error e := by
  have hfails : Fails program (.ofTokens ts) e (program (.ofTokens ts)).cursor := ⟨h, rfl⟩
  obtain ⟨front, t, hsettles⟩ := (firm_program _).fails hfails hd
  obtain ⟨rest, hts⟩ := hsettles.ahead
  replace hts : ts = front ++ t :: rest := hts
  have hfinal : ∀ us, parse (front ++ t :: us) = .error e := by
    intro us
    obtain ⟨d, hfails'⟩ := hsettles.fails us (Cursor.ofTokens (front ++ t :: us)).stop
    exact hfails'.1
  constructor
  · intro us
    rw [hts, List.append_assoc, List.cons_append]
    exact hfinal (rest ++ us)
  · exact ⟨front, t, rest, hts, hsettles.blame, hsettles.fits, hfinal⟩

/-- An operator behind the brace of a block that is not closed. -/
theorem decided_error_final_operator :
    let ts := (tokenize "\x7bif a\x7d\x7b+").dropLast
    let e : ParseError := ⟨.unexpected "+" .expression, 1, 8⟩
    (∀ t ∈ ts, t.kind ≠ .eof) ∧ parse ts = .error e ∧ e.cause.isDecided = true ∧
      parse (ts ++ tokenize "/if\x7d") = .error e := by
  intro ts e
  have hends : ∀ t ∈ ts, t.kind ≠ .eof := by decide +kernel
  have h : parse ts = .error e := by decide +kernel
  have hd : e.cause.isDecided = true := rfl
  exact ⟨hends, h, hd, (decided_error_final h hd).1 _⟩

end TemplateSyntax
