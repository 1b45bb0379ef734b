import TemplateSyntax.Proofs.Scan.Lexemes
import TemplateSyntax.Proofs.Scan.Step

/-! # The Discipline of Braces

  Which tokens may come next depends on the side of the braces, and every token says on
  which side the one behind it stands. The tokens of a source text keep to this
  discipline from the outside to the end of the input (`disciplined_tokenize`), numbers
  among them in digits.
-/

namespace TemplateSyntax

/-! ## Disciplined Tokens -/

/-- A token may stand on a side, and is in digits if it is a number. -/
structure Fits (side : Side) (t : Token) : Prop where
  stands : t.kind.standsOn side
  numeral : Numeral t.kind t.text.toList

/-- Tokens that end with the input, each on the side that the one before it leads to. -/
inductive Disciplined : Side → List Token → Prop
  | ending {side : Side} {t : Token} (h : t.kind = .eof) : Disciplined side [t]
  | token {side : Side} {t : Token} {ts : List Token} (h : Fits side t)
      (hts : Disciplined (t.kind.leadsTo side) ts) : Disciplined side (t :: ts)

namespace Disciplined

variable {side : Side} {ts : List Token}

/-- A token other than the ending one fits, and the discipline goes on behind it. -/
theorem of_ne_eof {t : Token} (h : Disciplined side (t :: ts)) (hk : t.kind ≠ .eof) :
    Fits side t ∧ Disciplined (t.kind.leadsTo side) ts := by
  cases h with
  | ending heof => exact absurd heof hk
  | token hfits hts => exact ⟨hfits, hts⟩

/-- Every token but the ending one fits one of the sides. -/
theorem fits_of_mem (h : Disciplined side ts) : ∀ t ∈ ts, t.kind ≠ .eof → ∃ side, Fits side t := by
  induction h with
  | ending heof =>
    intro t ht hk
    rw [List.mem_singleton.mp ht] at hk
    exact absurd heof hk
  | @token side t ts hfits _ ih =>
    intro t' ht' hk
    rcases List.mem_cons.mp ht' with rfl | ht'
    · exact ⟨side, hfits⟩
    · exact ih t' ht' hk

end Disciplined

/-! ## Scanning Keeps the Discipline -/

namespace Scan

/-- Only the end of the input gives an ending token. -/
theorem next_of_eof {s : Scan} (hsaved : s.modes.saved.side = .outside)
    (h : s.next.token.kind = .eof) :
    s.rest = s.gap ∧ s.next.token = .ending (.at (s.position.after s.gap)) ∧
      s.next.scan = ⟨[], s.position.after s.gap, s.modes⟩ := by
  rcases s.next_cases with hend | ⟨c, cs, rest, -, -, -, ht, -⟩
  · exact hend
  · rw [ht] at h
    exact absurd h (Kind.standsOn_ne_eof (Lexeme.sound_first hsaved).stands)

/-- A token fits the side that the scan is on, and leads to the side that the scan is on
    behind it. -/
theorem next_fits {s : Scan} (hsaved : s.modes.saved.side = .outside)
    (hne : s.next.token.kind ≠ .eof) :
    Fits s.modes.current.side s.next.token ∧
      s.next.scan.modes.current.side = s.next.token.kind.leadsTo s.modes.current.side ∧
      s.next.scan.modes.saved.side = .outside := by
  rcases s.next_cases with ⟨-, ht, -⟩ | ⟨c, cs, rest, -, -, -, ht, hs⟩
  -- At the end of the input there is the ending token only.
  · rw [ht] at hne
    exact absurd rfl hne
  · have hsound : (s.lexeme c cs).Sound s.modes (c :: cs) := Lexeme.sound_first hsaved
    rw [ht, hs]
    refine ⟨⟨hsound.stands, ?_⟩, hsound.leads, hsound.saved⟩
    show Numeral (s.lexeme c cs).kind (String.ofList (s.lexeme c cs).content).toList
    rw [String.toList_ofList]
    exact hsound.numeral

theorem disciplined {s : Scan} (hsaved : s.modes.saved.side = .outside) :
    Disciplined s.modes.current.side s.tokens := by
  induction s using steps.induct with
  | case1 s heof =>
    rw [tokens_of_eof heof]
    exact .ending heof
  | case2 s hne ih =>
    obtain ⟨hfits, hleads, hsaved'⟩ := next_fits hsaved hne
    have hrest := ih hsaved'
    rw [tokens_of_ne_eof hne]
    rw [hleads] at hrest
    exact .token hfits hrest

end Scan

/-- The tokens of a source text begin outside and keep the discipline. -/
theorem disciplined_tokenize (source : String) : Disciplined .outside (tokenize source) :=
  Scan.disciplined (s := Scan.ofSource source) rfl

end TemplateSyntax
