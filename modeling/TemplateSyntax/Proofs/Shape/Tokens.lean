import TemplateSyntax.Proofs.Scan.Automaton
import TemplateSyntax.Proofs.Shape.Basic

/-! # Legible Tokens

  Every token of a source text has the form that its kind says (`legible_tokenize`). Blanks in
  front of a lexeme are dropped, and a stretch of text or a comment ends with its line at the
  latest; a word is of the kind that its characters make it, so whoever knows that a word is an
  identifier knows that it is not reserved.
-/

namespace TemplateSyntax

/-! ## Kinds of Words -/

/-- Only the underscore alone is no word. -/
theorem Kind.isWord_ofWord {s : String} (h : s ≠ "_") : (Kind.ofWord s).isWord = true := by
  unfold Kind.ofWord Kind.keyword?
  rw [if_neg h]
  split <;> rfl

/-- An identifier is not reserved. -/
theorem Kind.keyword?_of_identifier {s : String} (h : Kind.ofWord s = .identifier) :
    Kind.keyword? s = none := by
  unfold Kind.ofWord at h
  split at h
  · cases h
  · cases hk : Kind.keyword? s with
    | none => rfl
    | some k =>
      rw [hk, Option.getD_some] at h
      unfold Kind.keyword? at hk
      split at hk <;> cases hk <;> cases h

/-- A word that names a variable does not stand for a value, nor for all other values. -/
theorem Kind.not_mem_valueWords {s : String} (h : (Kind.ofWord s).isVariable = true) :
    s ∉ Kind.valueWords := by
  intro hs
  have hnone : ∀ word ∈ Kind.valueWords, (Kind.ofWord word).isVariable = false := by decide
  rw [hnone s hs] at h
  cases h

/-- A kind that says nothing of the text, but if it is a number. -/
def Kind.isBare (k : Kind) : Bool := !(k.isMarkup || k = .comment || k.isWord)

/-! ## Legible Lexemes -/

namespace Lexeme

/-- What the kind of a lexeme says of the characters that it stands for. -/
structure Legible (l : Lexeme) : Prop where
  markup : l.kind.isMarkup = true → IsText (.ofList l.content)
  comment : l.kind = .comment → IsComment (.ofList l.content)
  word : l.kind.isWord = true → IsName (.ofList l.content) ∧ l.kind = .ofWord (.ofList l.content)

variable {m : Modes} {c : Char} {cs : List Char}

theorem legible_bare {l : Lexeme} (hk : l.kind.isBare = true) : l.Legible := by
  simp only [Kind.isBare, Bool.not_eq_true', Bool.or_eq_false_iff, decide_eq_false_iff_not] at hk
  obtain ⟨⟨hmarkup, hcomment⟩, hword⟩ := hk
  refine ⟨fun h => ?_, fun h => absurd h hcomment, fun h => ?_⟩
  · rw [hmarkup] at h
    cases h
  · rw [hword] at h
    cases h

/-- A lexeme of markup has to be a text only. -/
theorem legible_of_isMarkup {k : Kind} {us : List Char} (hk : k.isMarkup = true)
    (hus : IsText (.ofList us)) : (plain k us m).Legible := by
  refine ⟨fun _ => hus, fun h => ?_, fun h => ?_⟩
  · rw [kind_plain] at h
    rw [h] at hk
    cases hk
  · rw [kind_plain] at h
    rw [Kind.isMarkup_eq_false_of_isWord h] at hk
    cases hk

/-! ### Markup -/

/-- A comment goes on to the end of its line. -/
theorem legible_comment (h : opensComment cs = true) : (comment m cs).Legible := by
  have hcontent : (String.ofList (comment m cs).content).toList = cs.takeWhile (!isBreak ·) :=
    String.toList_ofList
  refine ⟨nofun, fun _ => ⟨fun d hd => ?_, ?_⟩, nofun⟩
  · rw [hcontent] at hd
    exact ne_of_isBreak ((Bool.not_eq_true' _).mp (List.mem_takeWhile_imp (p := (!isBreak ·)) hd))
  · obtain ⟨rest, rfl⟩ := List.isPrefixOf_iff_prefix.mp h
    have hslashes : "//".toList.all (!isBreak ·) = true := by decide
    rw [hcontent, List.takeWhile_append_of_pos (List.all_eq_true.mp hslashes)]
    exact List.prefix_append _ _

theorem textRun_oneLine (mode : Mode) (cs : List Char) :
    ∀ d ∈ textRun mode cs, isBreak d = false := by
  induction cs with
  | nil => exact List.forall_mem_nil _
  | cons c cs ih =>
    rw [textRun]
    split
    · exact List.forall_mem_nil _
    · next hends =>
      refine List.forall_mem_cons.mpr ⟨?_, ih⟩
      simp only [endsText, Bool.or_eq_true, not_or, Bool.not_eq_true] at hends
      exact hends.1

/-- Where neither a comment nor a marker begins, a stretch of text does. -/
theorem legible_run (hc : isBlank c = false) (hopens : opensComment (c :: cs) = false)
    (hmarker : m.current.marker? (c :: cs) = none) :
    (plain m.current.textKind (textRun m.current (c :: cs)) m).Legible := by
  -- The run takes its first character, which is no blank.
  have hbegins : textRun m.current (c :: cs) = c :: textRun m.current cs := by
    have hends : endsText m.current (c :: cs) = false := by
      simp [endsText_cons, isBreak_eq_false hc, hopens, hmarker]
    rw [textRun, hends]
    rfl
  refine legible_of_isMarkup (by cases m.current <;> rfl) ⟨fun d hd => ?_, ?_, ?_⟩
  · rw [String.toList_ofList] at hd
    exact ne_of_isBreak (textRun_oneLine _ _ d hd)
  · rw [String.toList_ofList, hbegins]
    exact List.cons_ne_nil _ _
  · rw [String.toList_ofList, hbegins]
    rintro d ⟨⟩
    exact ne_of_isBlank hc

/-- The tag of a segment is a text, and the brace of an expression says nothing. -/
theorem legible_marker {k : Marker} (hk : k ∈ m.current.markers) :
    (plain k.kind k.spelling.toList (m.enter k.enters)).Legible := by
  have hforms : ∀ mode : Mode, ∀ k ∈ mode.markers, k.kind.isBare = true ∨
      k.kind.isMarkup = true ∧ k.spelling.toList.all (!isBreak ·) = true ∧
        k.spelling.toList.head?.any (!isBlank ·) = true := by
    intro mode
    cases mode <;> decide
  rcases hforms _ k hk with hbare | ⟨hmarkup, hline, hfirst⟩
  · exact legible_bare hbare
  · obtain ⟨c, hc, hblank⟩ := (Option.any_eq_true _ _).mp hfirst
    refine legible_of_isMarkup hmarkup ⟨fun d hd => ?_, ?_, ?_⟩
    · rw [String.ofList_toList] at hd
      have hbreak := List.all_eq_true.mp hline d hd
      exact ne_of_isBreak ((Bool.not_eq_true' _).mp hbreak)
    · rw [String.ofList_toList]
      intro hnil
      rw [hnil] at hc
      cases hc
    · rw [String.ofList_toList, hc]
      rintro d ⟨⟩
      exact ne_of_isBlank ((Bool.not_eq_true' _).mp hblank)

theorem legible_markup (hc : isBlank c = false) : (markup m (c :: cs)).Legible := by
  unfold markup
  split
  · next hopens => exact legible_comment hopens
  · next hopens =>
    split
    · next k hk => exact legible_marker (List.mem_of_find?_eq_some hk)
    · next hmarker => exact legible_run hc (Bool.eq_false_iff.mpr hopens) hmarker

/-! ### Expressions -/

theorem legible_word (hc : isWordStart c = true) : (word m (c :: cs)).Legible := by
  have hrun : (c :: cs).takeWhile isWordChar = c :: cs.takeWhile isWordChar :=
    List.takeWhile_cons_of_pos (isWordChar_of_isWordStart hc)
  unfold word
  simp only [hrun]
  -- A lone underscore is read by the same rule, and is no word.
  by_cases hus : String.ofList (c :: cs.takeWhile isWordChar) = "_"
  · refine legible_bare ?_
    rw [kind_plain, hus]
    rfl
  · have hkind := Kind.isWord_ofWord hus
    refine ⟨fun h => ?_, fun h => ?_, fun _ => ⟨⟨?_, ?_, hus⟩, rfl⟩⟩
    · rw [kind_plain, Kind.isMarkup_eq_false_of_isWord hkind] at h
      cases h
    · rw [kind_plain] at h
      rw [h] at hkind
      cases hkind
    · exact ⟨c, _, String.toList_ofList, hc⟩
    · rw [content_plain, String.toList_ofList]
      refine List.forall_mem_cons.mpr ⟨isWordChar_of_isWordStart hc, fun d hd => ?_⟩
      exact List.mem_takeWhile_imp hd

theorem legible_slash : (slash m cs).Legible := by
  unfold slash
  simp only
  split
  · next k hk => rcases Kind.eq_of_closer? hk with rfl | rfl | rfl <;> exact legible_bare rfl
  · exact legible_bare rfl

theorem legible_atSign : (atSign m cs).Legible := by
  unfold atSign
  split <;> exact legible_bare rfl

theorem legible_number : (number m cs).Legible := by
  unfold number
  simp only
  split
  · split <;> exact legible_bare rfl
  · exact legible_bare rfl

theorem legible_symbol : (symbol m c cs).Legible := by
  have hsymbols : ∀ s ∈ symbols, s.2.isBare = true := by decide
  unfold symbol
  split
  · next hs => exact legible_bare (hsymbols _ (List.mem_of_find?_eq_some hs))
  · exact legible_bare rfl

theorem legible_expression : (expression m c cs).Legible := by
  unfold expression
  split
  · exact legible_bare rfl
  split
  · exact legible_bare rfl
  split
  · exact legible_slash
  split
  · exact legible_atSign
  split
  · exact legible_number
  split
  · next hc => exact legible_word hc
  · exact legible_symbol

/-! ### All Rules -/

/-- In the mode of a comment its slashes would have been read already. -/
theorem legible_first (hm : m.Settled) (hc : isBlank c = false) : (first m c cs).Legible := by
  unfold first
  split
  · exact legible_markup hc
  · exact legible_markup hc
  · exact legible_markup hc
  · next h => exact absurd h hm.current
  · exact legible_expression

end Lexeme

/-! ## Legible Tokens -/

theorem Mode.side_of_isMarkup {mode : Mode} (h : mode.isMarkup = true) : mode.side = .outside := by
  revert h
  cases mode <;> decide

namespace Scan

theorem next_legible {s : Scan} (h : s.modes.Settled) : s.next.token.Legible := by
  rcases s.next_cases with ⟨-, ht, -⟩ | ⟨c, cs, rest, hc, -, -, ht, -⟩
  · rw [ht]
    exact ⟨nofun, nofun, nofun, nofun⟩
  · have hlegible : (s.lexeme c cs).Legible := Lexeme.legible_first h hc
    have hsound : (s.lexeme c cs).Sound s.modes (c :: cs) :=
      Lexeme.sound_first (Mode.side_of_isMarkup h.saved)
    rw [ht]
    refine ⟨hlegible.markup, hlegible.comment, hlegible.word, fun hk => ?_⟩
    have hnumeral := hsound.numeral
    rw [show (s.lexeme c cs).kind = .integer from hk] at hnumeral
    rw [String.toList_ofList]
    exact hnumeral

theorem legible_tokens {s : Scan} (h : s.modes.Settled) : ∀ t ∈ s.tokens, t.Legible := by
  induction s using steps.induct with
  | case1 s heof =>
    rw [tokens_of_eof heof]
    exact List.forall_mem_singleton.mpr (next_legible h)
  | case2 s hne ih =>
    have hnext : s.next.scan.modes.Settled := by
      rw [(next_obeys h).2]
      exact h.after
    rw [tokens_of_ne_eof hne]
    exact List.forall_mem_cons.mpr ⟨next_legible h, ih hnext⟩

end Scan

theorem legible_tokenize (source : String) : ∀ t ∈ tokenize source, t.Legible :=
  Scan.legible_tokens (s := .ofSource source) Modes.settled_initial

end TemplateSyntax
