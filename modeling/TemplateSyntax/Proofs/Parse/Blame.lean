import TemplateSyntax.Proofs.Parse.Calls
import TemplateSyntax.Proofs.Scan.Tiles

/-! # Which Token Is to Blame

  An error is blamed on the token at which the parser stops, for a cause that fits this token,
  or on a number right in front of it (`Blames`). So it is on all tokens, however often the
  parser has been called on them before, and the errors of a source text are at one of its
  tokens (`errors_blame`).
-/

namespace TemplateSyntax

open Parse

/-- An error with which the parser stops behind `k` tokens is at the token there, and its cause
    fits this token, or it is at the token in front, which is a number that cannot be read. -/
inductive Blames (tokens : List Token) : Nat → ParseError → Prop
  | here {k : Nat} {t : Token} {cause : Cause} (ht : tokens[k]? = some t) (hc : cause.Fits t) :
      Blames tokens k (.blaming t cause)
  | number {k : Nat} {t : Token} {cause : Cause} (ht : tokens[k]? = some t)
      (hc : cause.FitsNumber t) : Blames tokens (k + 1) (.blaming t cause)

namespace Blames

variable {tokens : List Token} {k : Nat} {e : ParseError}

theorem exists_mem (h : Blames tokens k e) : ∃ t ∈ tokens, e = .blaming t e.cause := by
  cases h with
  | here ht _ => exact ⟨_, List.mem_of_getElem? ht, rfl⟩
  | number ht _ => exact ⟨_, List.mem_of_getElem? ht, rfl⟩

/-- The end of the input is to blame only where it stands. -/
theorem exists_mem_of_ended {x : Expected} (h : Blames tokens k e) (he : e.cause = .ended x) :
    ∃ t ∈ tokens, t.kind = .eof ∧ e = .blaming t e.cause := by
  cases h with
  | @here _ _ cause ht hc =>
    obtain rfl : cause = .ended x := he
    exact ⟨_, List.mem_of_getElem? ht, hc, rfl⟩
  | @number _ _ cause ht hc =>
    obtain rfl : cause = .ended x := he
    exact hc.elim

end Blames

theorem Blamed.blames {ts : List Token} {e e' : ParseError} {c d : Cursor}
    (h : Blamed (Together ts ts 0) e c e' d) :
    ∃ k ≤ firstEnd ts, c = .behind ts k ∧ Blames (stored ts) k e := by
  cases h with
  | here hcd hfits =>
    obtain ⟨k, hk, rfl, -⟩ := hcd
    rw [Nat.zero_add] at hfits ⊢
    exact ⟨k, hk, rfl, .here (getElem?_stored hk) hfits⟩
  | number hcd hfits =>
    obtain ⟨k, hk, rfl, -⟩ := hcd
    rw [Nat.zero_add] at hfits ⊢
    -- A number does not end the input, so the position behind it is still in front of the end.
    have hless : k ≠ firstEnd ts := fun heq => hfits.ne_eof ((kind_eq_eof_iff hk).mpr heq)
    exact ⟨k + 1, by omega, Cursor.advance_behind, .number (getElem?_stored hk) hfits⟩

/-- Whatever call fails, it blames a token at its position. -/
theorem blames_of_error {ts : List Token} {n : Nat} {e : ParseError}
    (h : (program (afterCalls (.ofTokens ts) n)).result = .error e) :
    ∃ k ≤ firstEnd ts, afterCalls (.ofTokens ts) (n + 1) = .behind ts k ∧
      Blames (stored ts) k e := by
  have hsame := sameAhead_refl ts
  obtain ⟨e', d', -, hblamed⟩ := InStep.fails (inStep_program (alike_together hsame))
    (together_afterCalls hsame n) ⟨h, rfl⟩
  exact hblamed.blames

/-- The tokens of a source text end the input themselves. -/
theorem stored_tokenize (source : String) : stored (tokenize source) = tokenize source :=
  stored_of_last (tiled_tokenize source).getLast?_eq rfl

/-- Whatever the tokens are and however often the parser has been called on them, a call that
    fails leaves the cursor at the token that is to blame, or behind it. The errors of a source
    text are at the line and the column of one of its tokens; and if the input ends too early,
    at those of its end. -/
theorem errors_blame :
    (∀ ts n e, (programs (.ofTokens ts) (n + 1))[n]? = some (.error e) →
      ∃ k ≤ firstEnd ts, afterCalls (.ofTokens ts) (n + 1) = .behind ts k ∧
        Blames (stored ts) k e) ∧
    (∀ source e, compile source = .error e →
      (∃ t ∈ tokenize source, e.line = t.span.line ∧ e.column = t.span.column) ∧
      ∀ x, e.cause = .ended x →
        e.line = (Position.start.after source.toList).line ∧
        e.column = (Position.start.after source.toList).column) := by
  refine ⟨fun ts n e he => ?_, fun source e he => ?_⟩
  · rw [programs_eq_map, List.getElem?_map, List.getElem?_range (Nat.lt_succ_self n)] at he
    exact blames_of_error (Option.some.inj he)
  · have hfirst : (program (afterCalls (.ofTokens (tokenize source)) 0)).result = .error e := he
    obtain ⟨k, -, -, hblames⟩ := blames_of_error hfirst
    rw [stored_tokenize] at hblames
    constructor
    · obtain ⟨t, ht, heq⟩ := hblames.exists_mem
      exact ⟨t, ht, by rw [heq]; rfl, by rw [heq]; rfl⟩
    · intro x hx
      obtain ⟨t, ht, heof, heq⟩ := hblames.exists_mem_of_ended hx
      rw [heq, (tiled_tokenize source).eq_ending t ht heof]
      exact ⟨rfl, rfl⟩

end TemplateSyntax
