import TemplateSyntax.Token.Lexeme.Basic

/-! # What a Lexeme Takes

  Every rule takes a prefix of the characters (`Lexeme.chars_prefix`), and none
  takes nothing (`Lexeme.chars_ne_nil`), which is what makes scanning end.

  Two tables say where a stretch of text ends: the one it looks at while it goes on,
  and the one that the next lexeme is found in. They agree (`Mode.atTextEnd_eq`), so
  text stops just where a comment or a marker is then taken.
-/

namespace TemplateSyntax

/-! ### The Two Tables -/

/-- Text stops in front of the slashes of a comment and the markers of its mode. -/
theorem Mode.textEnds_eq (mode : Mode) :
    mode.textEnds = "//" :: mode.markers.map (·.spelling) := by
  cases mode <;> rfl

/-- Where text stops a comment or a marker begins, and where one begins it stops. -/
theorem Mode.atTextEnd_eq (mode : Mode) (cs : List Char) :
    mode.atTextEnd cs = (Lexeme.opensComment cs || (mode.marker? cs).isSome) := by
  rw [atTextEnd, textEnds_eq, List.any_cons, List.any_map, marker?, List.isSome_find?]
  rfl

namespace Lexeme

theorem endsText_cons (mode : Mode) (c : Char) (cs : List Char) :
    endsText mode (c :: cs) =
      (isBreak c || opensComment (c :: cs) || (mode.marker? (c :: cs)).isSome) := by
  rw [endsText, Mode.atTextEnd_eq, Bool.or_assoc]

/-! ### A Prefix -/

/-- A stretch of text is a prefix of the characters. -/
theorem textRun_prefix (mode : Mode) (cs : List Char) : textRun mode cs <+: cs := by
  induction cs with
  | nil => exact List.prefix_refl _
  | cons c cs ih =>
    unfold textRun
    split
    · exact List.nil_prefix
    · exact List.cons_prefix_cons.mpr ⟨rfl, ih⟩

/-- The body of a string, with the closing quote if there is one, is a prefix of the
    characters behind the opening quote. -/
theorem untilQuote_prefix (quote : Char) (cs : List Char) :
    (untilQuote quote cs).1 ++ (if (untilQuote quote cs).2 then [quote] else []) <+: cs := by
  fun_induction untilQuote quote cs with
  | case1 => simp
  | case2 => simp
  | case3 d cs body ih => simpa [List.cons_prefix_cons] using ih
  | case4 cs => simp
  | case5 c cs _ _ h body ih => simpa [List.cons_prefix_cons] using ih

/-- A marker that is found is a prefix of the characters. -/
theorem spelling_prefix_of_marker? {mode : Mode} {cs : List Char} {k : Marker}
    (h : mode.marker? cs = some k) : k.spelling.toList <+: cs :=
  List.isPrefixOf_iff_prefix.mp (List.find?_some (p := fun k : Marker => k.opens cs) h)

theorem comment_prefix (m : Modes) (cs : List Char) : (comment m cs).chars <+: cs :=
  List.takeWhile_prefix _

theorem markup_prefix (m : Modes) (cs : List Char) : (markup m cs).chars <+: cs := by
  unfold markup
  split
  · exact comment_prefix m cs
  · split
    · rename_i k h; exact spelling_prefix_of_marker? h
    · exact textRun_prefix _ _

theorem symbol_prefix (m : Modes) (c : Char) (cs : List Char) :
    (symbol m c cs).chars <+: c :: cs := by
  unfold symbol
  split
  · rename_i spelling kind h
    exact List.isPrefixOf_iff_prefix.mp
      (List.find?_some (p := fun s : String × Kind => s.1.toList.isPrefixOf (c :: cs)) h)
  · simp

theorem number_prefix (m : Modes) (cs : List Char) : (number m cs).chars <+: cs := by
  unfold number
  have hs := List.takeWhile_append_dropWhile (p := Char.isDigit) (l := cs)
  split
  · rename_i d rest h
    split
    · rw [h] at hs
      rw [chars_plain]
      conv => rhs; rw [← hs]
      exact (List.prefix_append_right_inj _).mpr
        (by simpa [List.cons_prefix_cons] using List.takeWhile_prefix _)
    · exact List.takeWhile_prefix _
  · exact List.takeWhile_prefix _

theorem expression_prefix (m : Modes) (c : Char) (cs : List Char) :
    (expression m c cs).chars <+: c :: cs := by
  unfold expression
  split
  · exact List.cons_prefix_cons.mpr ⟨rfl, untilQuote_prefix c cs⟩
  split
  · simp_all
  split
  · unfold slash
    dsimp only
    split
    · simp_all [List.cons_prefix_cons, List.takeWhile_prefix]
    · simp_all
  split
  · unfold atSign
    split
    · rename_i h
      cases cs <;> simp_all
    · simp_all
  split
  · exact number_prefix m _
  split
  · exact List.takeWhile_prefix _
  · exact symbol_prefix m c cs

/-- A lexeme takes a prefix of the characters. -/
theorem chars_prefix (m : Modes) (c : Char) (cs : List Char) :
    (first m c cs).chars <+: c :: cs := by
  unfold first
  split
  · exact markup_prefix m _
  · exact markup_prefix m _
  · exact markup_prefix m _
  · exact comment_prefix m _
  · exact expression_prefix m c cs

/-! ### Not Nothing -/

theorem spelling_ne_nil {mode : Mode} {k : Marker} (h : k ∈ mode.markers) :
    k.spelling.toList ≠ [] := by
  cases mode <;> simp [Mode.markers] at h <;> rcases h with rfl | rfl | rfl <;> simp

theorem markup_ne_nil (m : Modes) {c : Char} (cs : List Char) (h : isBlank c = false) :
    (markup m (c :: cs)).chars ≠ [] := by
  have hb := isBreak_eq_false h
  unfold markup
  split
  · simp [comment, hb]
  · rename_i hc
    split
    · rename_i k hk
      exact spelling_ne_nil (List.mem_of_find?_eq_some hk)
    · rename_i hk
      simp [textRun, endsText_cons, hb, hc, hk]

theorem symbol_ne_nil (m : Modes) (c : Char) (cs : List Char) :
    (symbol m c cs).chars ≠ [] := by
  unfold symbol
  split
  · rename_i spelling kind h
    have hm : (spelling, kind) ∈ symbols := List.mem_of_find?_eq_some h
    have : ∀ s ∈ symbols, s.1.toList ≠ [] := by decide
    exact this _ hm
  · simp

theorem expression_ne_nil (m : Modes) (c : Char) (cs : List Char) :
    (expression m c cs).chars ≠ [] := by
  unfold expression
  split
  · simp [string]
  split
  · simp
  split
  · unfold slash
    dsimp only
    split <;> simp
  split
  · unfold atSign
    split <;> simp
  split
  · rename_i h
    unfold number
    dsimp only
    split
    · split <;> simp [h]
    · simp [h]
  split
  · rename_i h
    simp [word, isWordChar_of_isWordStart h]
  · exact symbol_ne_nil m c cs

/-- A lexeme takes at least one character. -/
theorem chars_ne_nil (m : Modes) {c : Char} (cs : List Char) (h : isBlank c = false) :
    (first m c cs).chars ≠ [] := by
  have hb := isBreak_eq_false h
  unfold first
  split
  · exact markup_ne_nil m cs h
  · exact markup_ne_nil m cs h
  · exact markup_ne_nil m cs h
  · simp [comment, hb]
  · exact expression_ne_nil m c cs

end Lexeme

end TemplateSyntax
