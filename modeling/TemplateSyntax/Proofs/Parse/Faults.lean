import TemplateSyntax.Proofs.Parse.Blame
import TemplateSyntax.Proofs.Parse.Seeking
import TemplateSyntax.Tree.Equal

/-! # Which Errors a Source Text Has

  The tokens of a source text are disciplined, so the errors of `compile` are lawful: no
  token is unknown, no decimal literal is bad, and an integer literal is bad only if its value
  is too large for a signed word of 64 bits. Nesting is too deep only where as many nested
  calls are open as there are levels (`NestsTooDeep`), all of them begun at tokens of their own
  (`compile_lawful`).
-/

namespace TemplateSyntax

open Parse

/-- An integer token that fits a signed word of 64 bits. -/
def Token.InRange (t : Token) : Prop :=
  t.kind = .integer ∧ digitsValue t.text.toList ≤ Integer.maxValue

/-- A token in digits that is in range is read as its value, whatever stands behind it. -/
theorem reads_integer {t : Token} (hdigits : Digits t.text.toList) (ht : t.InRange) (n : Nested)
    (ts : List Token) (s : Span) :
    Reads (primary n) ⟨t :: ts, s⟩ (.int (.ofNat (digitsValue t.text.toList))) ⟨ts, s⟩ := by
  obtain ⟨hk, hle⟩ := ht
  have hread := Integer.read_digits hdigits.1 hdigits.2
  rw [if_pos hle] at hread
  refine reads_bind.mpr ⟨t, ⟨t :: ts, s⟩, reads_current.mpr ⟨rfl, rfl⟩, ?_⟩
  rw [hk]
  refine reads_bind.mpr ⟨t, ⟨ts, s⟩, reads_advance.mpr ⟨rfl, rfl⟩, ?_⟩
  rw [hread]
  exact reads_pure.mpr ⟨rfl, rfl⟩

theorem toInt_ofNat_digitsValue {t : Token} (ht : t.InRange) :
    (Int64.ofNat (digitsValue t.text.toList)).toInt = digitsValue t.text.toList := by
  have hle := ht.2
  refine Int64.toInt_ofNat_of_lt ?_
  unfold Integer.maxValue at hle
  omega

/-! ## Nesting -/

/-- The machine that parses the tokens stops with the error while as many nested calls are open
    as there are levels of nesting. They have begun at so many of the tokens, and the error blames
    the one behind these at which the machine stops. -/
def NestsTooDeep (ts : List Token) (e : ParseError) : Prop :=
  ∃ calls s notes, Machine.program (.start ts) = some ⟨.error ⟨e, calls⟩, s, notes⟩ ∧
    calls.length = nestingLimit ∧
    (calls.map OpenCall.token ++ [s.cursor.current]).Sublist ts ∧
    e = .blaming s.cursor.current (.tooDeep nestingLimit)

/-- A parser stops at one of the tokens of a source text. -/
theorem ahead_ne_nil_of_program (source : String) :
    (program (.ofTokens (tokenize source))).cursor.ahead ≠ [] := by
  obtain ⟨-, i, -, hi, hcursor⟩ := program_behind (Nat.zero_le (firstEnd (tokenize source)))
  have hlt := firstEnd_lt (tokenize source)
  rw [stored_tokenize] at hlt
  rw [← Cursor.behind_zero, hcursor]
  exact List.ne_nil_of_length_pos (by rw [Cursor.behind, List.length_drop]; omega)

theorem Cursor.current_mem_ahead {c : Cursor} (h : c.ahead ≠ []) : c.current ∈ c.ahead := by
  obtain ⟨ts, s⟩ := c
  cases ts with
  | nil => exact absurd rfl h
  | cons t ts => exact List.mem_cons_self

theorem nestsTooDeep_of_compile {source : String} {e : ParseError} (h : compile source = .error e)
    (he : e.cause.isNesting = true) : NestsTooDeep (tokenize source) e := by
  -- The machine comes to the same error, and tells which calls were open where it arose.
  obtain ⟨r, hrun, hagrees⟩ :=
    Machine.refines_programWithin nestingLimit (.ofTokens (tokenize source))
  have hstop := ahead_ne_nil_of_program source
  have hresult : (programWithin nestingLimit (.ofTokens (tokenize source))).result = .error e := h
  rw [hresult] at hagrees
  cases hagrees with
  | @error _ calls hdeep =>
    obtain ⟨hlength, hturn, hblamed⟩ := hdeep he
    refine ⟨calls, _, _, hrun, hlength, ?_, hblamed⟩
    have hfirst := List.singleton_sublist.mpr (Cursor.current_mem_ahead hstop)
    exact (hfirst.append_left _).trans (hturn.sublist hstop)

/-! ## Errors of Source Texts -/

/-- The errors of every source text are lawful, and those of nesting arise only where as many
    nested calls are open as there are levels. An integer literal that is in range is read as
    exactly its value. Wherever a node is looked for, markup, a comment, an opening brace or the
    end of the input stands. -/
theorem compile_lawful (source : String) :
    (∀ e, compile source = .error e → Lawful (tokenize source) e ∧
      (e.cause.isNesting = true → NestsTooDeep (tokenize source) e)) ∧
    (∀ t ∈ tokenize source, t.InRange → ∃ value : Int64,
      value.toInt = digitsValue t.text.toList ∧
      ∀ n ts s, Reads (primary n) ⟨t :: ts, s⟩ (.int value) ⟨ts, s⟩) ∧
    (∀ left c, Seeks nestingLimit (.ofTokens (tokenize source)) left c →
      c.current.kind.beginsNode) := by
  refine ⟨fun e he => ⟨lawful_of_compile he, nestsTooDeep_of_compile he⟩, ?_, ?_⟩
  · intro t ht hrange
    have hne : t.kind ≠ .eof := by
      rw [hrange.1]
      nofun
    -- On whichever side it stands, a numeral is in digits.
    obtain ⟨side, hfits⟩ := (disciplined_tokenize source).fits_of_mem t ht hne
    have hdigits := hfits.numeral
    rw [hrange.1] at hdigits
    exact ⟨.ofNat (digitsValue t.text.toList), toInt_ofNat_digitsValue hrange,
      reads_integer hdigits hrange⟩
  · intro left c hc
    exact beginsNode_of_stands (hc.stands (stands_tokenize source))

-- One more parenthesis than there are levels behind the brace.
example :
    let source := "\x7b" ++ "".pushn '(' 64
    Program.sameResult (compile source) (.error ⟨.tooDeep 64, 1, 65⟩) = true := by
  decide +kernel

-- The greatest literal in range, and the least one that is not.
example : Program.sameResult (compile "\x7b9223372036854775807\x7d")
    (.ok ⟨[.interpolation (.int Int64.maxValue)]⟩) = true := by
  decide +kernel

example : Program.sameResult (compile "\x7b9223372036854775808\x7d")
    (.error ⟨.badInteger "9223372036854775808" .tooLarge, 1, 2⟩) = true := by
  decide +kernel

end TemplateSyntax
