import Mathlib.Data.List.Forall2
import TemplateSyntax.Proofs.Parse.Stored
import TemplateSyntax.Tree.Equal

/-! # Spans Do Not Matter

  A parser looks at the kinds and the texts of tokens and at nothing else. Two lists whose
  tokens have the same kinds and texts in the same order, wherever these stand, are read as the
  same template or refused for the same cause, and it is the tokens at one position that are to
  blame in both (`parse_of_alike`).
-/

namespace TemplateSyntax

open Parse

/-! ## Tokens at One Position -/

/-- In lists that are related element by element, the elements at one position are. -/
theorem rel_of_getElem? {α β : Type} {R : α → β → Prop} {l : List α} {l' : List β} {k : Nat}
    {a : α} {b : β} (h : List.Forall₂ R l l') (ha : l[k]? = some a) (hb : l'[k]? = some b) :
    R a b := by
  obtain ⟨hlt, rfl⟩ := List.getElem?_eq_some_iff.mp ha
  obtain ⟨hlt', rfl⟩ := List.getElem?_eq_some_iff.mp hb
  exact h.get hlt hlt'

section alike

variable {ts us : List Token} {k : Nat} (h : List.Forall₂ Token.Alike (stored ts) (stored us))
include h

/-- Both lists end the input at one position. -/
theorem firstEnd_eq_of_alike : firstEnd ts = firstEnd us := by
  obtain ⟨u, hu, heof⟩ := exists_firstEnd us
  have hlt : firstEnd us < (stored ts).length := by
    rw [h.length_eq]
    exact firstEnd_lt us
  have ht := List.getElem?_eq_getElem hlt
  refine firstEnd_eq ht ((rel_of_getElem? h ht hu).kind.trans heof) fun i hi t hit => ?_
  have hlt' : i < (stored us).length := Nat.lt_trans hi (firstEnd_lt us)
  have hiu := List.getElem?_eq_getElem hlt'
  rw [(rel_of_getElem? h hit hiu).kind]
  exact kind_ne_eof hiu hi

/-- Cursors that stay together are at the tokens of one position. -/
theorem exists_position {c d : Cursor} (hcd : Together ts us 0 c d) :
    ∃ k : Nat, (stored ts)[k]? = some c.current ∧ (stored us)[k]? = some d.current := by
  obtain ⟨k, hk, rfl, rfl⟩ := hcd
  have hk' : k ≤ firstEnd ts := by rwa [firstEnd_eq_of_alike h]
  rw [Nat.zero_add]
  exact ⟨k, getElem?_stored hk', getElem?_stored hk⟩

/-! ## Two Runs -/

theorem alike_together_of_alike : Alike (Together ts us 0) := by
  refine alike_of_together ?_ fun hcd => ?_
  · rw [firstEnd_eq_of_alike h, Nat.zero_add]
  · obtain ⟨k, ht, hu⟩ := exists_position h hcd
    exact rel_of_getElem? h ht hu

/-- For errors that are blamed on alike tokens, these are the tokens at one position. -/
theorem exists_position_of_blamed {e e' : ParseError} {c d : Cursor}
    (hblamed : Blamed (Together ts us 0) e c e' d) :
    ∃ (k : Nat) (t u : Token) (cause : Cause), (stored ts)[k]? = some t ∧
      (stored us)[k]? = some u ∧ e = .blaming t cause ∧ e' = .blaming u cause := by
  cases hblamed with
  | here hcd _ =>
    obtain ⟨k, ht, hu⟩ := exists_position h hcd
    exact ⟨k, _, _, _, ht, hu, rfl, rfl⟩
  | number hcd _ =>
    obtain ⟨k, ht, hu⟩ := exists_position h hcd
    exact ⟨k, _, _, _, ht, hu, rfl, rfl⟩

/-- Both lists are read as one template, or refused for one cause that the tokens at one
    position are to blame for. -/
theorem parse_of_alike :
    (∃ p, parse ts = .ok p ∧ parse us = .ok p) ∨
    ∃ (k : Nat) (t u : Token) (cause : Cause), (stored ts)[k]? = some t ∧
      (stored us)[k]? = some u ∧ parse ts = .error (.blaming t cause) ∧
      parse us = .error (.blaming u cause) := by
  have hstep : InStep (Together ts us 0) (fun _ => False) (Together ts us 0) program program
      (Same (Together ts us 0)) := inStep_program (alike_together_of_alike h)
  have hstart : Together ts us 0 (.ofTokens ts) (.ofTokens us) := ⟨0, Nat.zero_le _, rfl, rfl⟩
  rcases hstep _ _ hstart with ⟨p, q, c, d, hp, hq, rfl, -⟩ | ⟨e, e', c, d, he, he', hblamed⟩ |
    ⟨e, c, -, hfalse⟩
  · exact .inl ⟨p, hp.1, hq.1⟩
  · obtain ⟨k, t, u, cause, ht, hu, rfl, rfl⟩ := exists_position_of_blamed h hblamed
    exact .inr ⟨k, t, u, cause, ht, hu, he.1, he'.1⟩
  · exact hfalse.elim

end alike

/-- Where tokens stand does not matter to a parser. Two lists that end the input, with the same
    kinds and texts at the same positions, are read as the same template or not at all. If they
    are not read, the causes are the same, with all that is found and expected, and the tokens
    at one position of both lists have the lines and the columns of the errors. -/
theorem parse_ignores_spans {ts us : List Token} (h : List.Forall₂ Token.Alike ts us)
    (hts : ts.getLast?.map (·.kind) = some .eof) (hus : us.getLast?.map (·.kind) = some .eof) :
    (∀ p, parse ts = .ok p ↔ parse us = .ok p) ∧
    ∀ e e', parse ts = .error e → parse us = .error e' →
      e.cause = e'.cause ∧ ∃ (i : Nat) (t u : Token), ts[i]? = some t ∧ us[i]? = some u ∧
        e.line = t.span.line ∧ e.column = t.span.column ∧
        e'.line = u.span.line ∧ e'.column = u.span.column := by
  obtain ⟨t, ht, hteof⟩ := Option.map_eq_some_iff.mp hts
  obtain ⟨u, hu, hueof⟩ := Option.map_eq_some_iff.mp hus
  have hstored : stored ts = ts := stored_of_last ht hteof
  have hstored' : stored us = us := stored_of_last hu hueof
  have halike : List.Forall₂ Token.Alike (stored ts) (stored us) := by rwa [hstored, hstored']
  rcases parse_of_alike halike with ⟨p, hp, hq⟩ | ⟨k, t, u, cause, ht, hu, he, he'⟩
  · rw [hp, hq]
    exact ⟨fun _ => Iff.rfl, fun _ _ => nofun⟩
  · rw [he, he']
    rw [hstored] at ht
    rw [hstored'] at hu
    refine ⟨fun _ => ⟨nofun, nofun⟩, ?_⟩
    intro e e' heq heq'
    cases heq
    cases heq'
    exact ⟨rfl, k, t, u, ht, hu, rfl, rfl, rfl, rfl⟩

/-- An operand that is missing is missing in the second line as well. -/
theorem parse_ignores_spans_operand :
    let ts := tokenize "\x7ba +\x7d"
    let us := tokenize "\x7b a\n  + \x7d"
    let e : ParseError := ⟨.unexpected "\x7d" .expression, 1, 5⟩
    let e' : ParseError := ⟨.unexpected "\x7d" .expression, 2, 5⟩
    List.Forall₂ Token.Alike ts us ∧ parse ts = .error e ∧ parse us = .error e' ∧
      ∃ (i : Nat) (t u : Token), ts[i]? = some t ∧ us[i]? = some u ∧
        e.line = t.span.line ∧ e.column = t.span.column ∧
        e'.line = u.span.line ∧ e'.column = u.span.column := by
  intro ts us e e'
  have halike : List.Forall₂ Token.Alike ts us := by decide +kernel
  have he : parse ts = .error e := by decide +kernel
  have he' : parse us = .error e' := by decide +kernel
  have hspans := parse_ignores_spans halike (by decide +kernel) (by decide +kernel)
  exact ⟨halike, he, he', (hspans.2 e e' he he').2⟩

end TemplateSyntax
