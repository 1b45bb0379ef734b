import Mathlib.Data.List.Find
import TemplateSyntax.Proofs.Scan.Lexemes

/-! # Lexemes End at Blanks

  Most rules look at a few characters behind the lexeme that they cut off, but none of them
  looks past a blank there. So a lexeme is the same whatever stands behind a blank, even one
  right behind it (`Lexeme.first_append`). The exceptions are a string that is not closed,
  which takes whatever there is, and texts and comments, which take blanks along: only a line
  break ends these for sure.

  Of the two modes only the one in force decides on a lexeme, but for an expression block,
  where the saved one says what an at sign stands for (`Lexeme.alike_first`).
-/

namespace TemplateSyntax

/-! ## In Front of a Character -/

section front

variable {p : Char → Bool} {x : Char} (cs t : List Char)

theorem takeWhile_append_stop (hx : p x = false) :
    (cs ++ x :: t).takeWhile p = cs.takeWhile p := by
  induction cs with
  | nil => rw [List.nil_append, List.takeWhile_cons_of_neg (by rw [hx]; decide), List.takeWhile_nil]
  | cons c cs ih => rw [List.cons_append, List.takeWhile_cons, List.takeWhile_cons, ih]

theorem dropWhile_append_stop (hx : p x = false) :
    (cs ++ x :: t).dropWhile p = cs.dropWhile p ++ x :: t := by
  induction cs with
  | nil =>
    rw [List.nil_append, List.dropWhile_cons_of_neg (by rw [hx]; decide)]
    rfl
  | cons c cs ih =>
    rw [List.cons_append, List.dropWhile_cons, List.dropWhile_cons, ih]
    split <;> rfl

/-- A spelling that lacks the character is found in front of it or not at all. -/
theorem isPrefixOf_append_stop {spelling : List Char} (hx : x ∉ spelling) :
    spelling.isPrefixOf (cs ++ x :: t) = spelling.isPrefixOf cs := by
  induction spelling generalizing cs with
  | nil => rfl
  | cons d spelling ih =>
    have hd : x ≠ d := List.ne_of_not_mem_cons hx
    have hspelling : x ∉ spelling := List.not_mem_of_not_mem_cons hx
    cases cs with
    | nil =>
      have hne : (d == x) = false := beq_eq_false_iff_ne.mpr (Ne.symm hd)
      rw [List.nil_append, List.isPrefixOf_cons_cons, hne]
      rfl
    | cons c cs =>
      rw [List.cons_append, List.isPrefixOf_cons_cons, List.isPrefixOf_cons_cons,
        ih cs hspelling]

end front

/-- What is taken of some characters does not depend on what stands behind them, unless they
    are all taken. -/
theorem takeWhile_append_of_ne {p : Char → Bool} {cs : List Char} (h : cs.takeWhile p ≠ cs)
    (t : List Char) : (cs ++ t).takeWhile p = cs.takeWhile p := by
  have hlength : (cs.takeWhile p).length ≠ cs.length := by
    intro hlength
    exact h ((List.takeWhile_prefix p).eq_of_length hlength)
  rw [List.takeWhile_append, if_neg hlength]

/-- A blank belongs to no class of characters that a rule goes along. -/
theorem class_of_isBlank {x : Char} (hx : isBlank x = true) :
    x.isDigit = false ∧ isWordChar x = false := by
  simp only [isBlank, Bool.or_eq_true, decide_eq_true_eq] at hx
  rcases hx with ((rfl | rfl) | rfl) | rfl <;> decide

/-- A blank stands in no spelling that has none. -/
theorem not_mem_of_isBlank {x : Char} (hx : isBlank x = true) {spelling : List Char}
    (h : spelling.all (!isBlank ·) = true) : x ∉ spelling := by
  intro hmem
  have hnot := List.all_eq_true.mp h x hmem
  rw [hx] at hnot
  cases hnot

/-- The kinds of lexemes that go on to the end of the line unless something ends them. -/
def Kind.runsOn : Kind → Bool
  | comment | text | textCss | textJs => true
  | _ => false

theorem Kind.runsOn_textKind (mode : Mode) : mode.textKind.runsOn = true := by
  cases mode <;> rfl

namespace Lexeme

/-! ## In Front of a Blank -/

/-- A string that is closed does not depend on what stands behind it. -/
theorem untilQuote_append {q : Char} {cs : List Char} (h : (untilQuote q cs).2 = true)
    (r : List Char) : untilQuote q (cs ++ r) = untilQuote q cs := by
  fun_induction untilQuote q cs with
  | case1 => cases h
  | case2 => cases h
  | case3 d cs body ih => simp only [List.cons_append, untilQuote, ih h, body]
  -- The rules for a backslash come first, so those below have to be told that there is none.
  | case4 cs hnil hcons =>
    have hslash : q ≠ '\\' := ne_slash hnil hcons
    rw [List.cons_append, untilQuote, if_pos rfl]
    · exact fun hq => absurd hq hslash
    · exact fun _ _ hq => absurd hq hslash
  | case5 c cs hnil hcons hc body ih =>
    rw [List.cons_append, untilQuote_cons hc (ne_slash hnil hcons), ih h]

theorem string_append {m : Modes} {q : Char} {cs : List Char}
    (h : (string m q cs).complete = true) (r : List Char) :
    string m q (cs ++ r) = string m q cs := by
  unfold string
  rw [untilQuote_append h r]

/-- A comment goes on behind a character, unless this ends the line or the comment has ended
    before. -/
theorem comment_append {x : Char} (m : Modes) (cs t : List Char)
    (hstop : isBreak x = true ∨ (comment m cs).chars ≠ cs) :
    comment m (cs ++ x :: t) = comment m cs := by
  unfold comment
  rcases hstop with hbreak | hne
  · have hstop : (!isBreak x) = false := by
      rw [hbreak]
      rfl
    rw [takeWhile_append_stop cs t hstop]
  · rw [takeWhile_append_of_ne hne]

section blank

variable {x : Char} (hx : isBlank x = true) (m : Modes) (cs t : List Char)
include hx

theorem opensComment_append : opensComment (cs ++ x :: t) = opensComment cs :=
  isPrefixOf_append_stop cs t (not_mem_of_isBlank hx (by decide))

theorem marker?_append (mode : Mode) : mode.marker? (cs ++ x :: t) = mode.marker? cs := by
  have hspellings : ∀ k ∈ mode.markers, k.spelling.toList.all (!isBlank ·) = true := by
    cases mode <;> decide
  have hopens : ∀ k ∈ mode.markers, k.opens (cs ++ x :: t) = k.opens cs := fun k hk =>
    isPrefixOf_append_stop cs t (not_mem_of_isBlank hx (hspellings k hk))
  exact List.find?_congr hopens

theorem endsText_append (mode : Mode) (c : Char) :
    endsText mode (c :: cs ++ x :: t) = endsText mode (c :: cs) := by
  have hcomment := opensComment_append hx (c :: cs) t
  have hmarker := marker?_append hx (c :: cs) t mode
  simp only [List.cons_append] at hcomment hmarker
  simp only [List.cons_append, endsText_cons, hcomment, hmarker]

/-- A stretch of text goes on behind a blank like a comment. -/
theorem textRun_append (mode : Mode) (hstop : isBreak x = true ∨ textRun mode cs ≠ cs) :
    textRun mode (cs ++ x :: t) = textRun mode cs := by
  induction cs with
  | nil =>
    rcases hstop with hbreak | hne
    · simp [textRun, endsText_cons, hbreak]
    · exact absurd rfl hne
  | cons c cs ih =>
    have hends := endsText_append hx cs t mode c
    rw [List.cons_append] at hends ⊢
    rw [textRun, textRun, hends]
    by_cases hc : endsText mode (c :: cs) = true
    · rw [if_pos hc, if_pos hc]
    · rw [if_neg hc, if_neg hc, ih]
      rcases hstop with hbreak | hne
      · exact .inl hbreak
      · right
        intro heq
        rw [textRun, if_neg hc, heq] at hne
        exact hne rfl

theorem markup_append (hstop : isBreak x = true ∨
      ((markup m cs).kind.runsOn = true → (markup m cs).chars ≠ cs)) :
    markup m (cs ++ x :: t) = markup m cs := by
  unfold markup at hstop ⊢
  rw [opensComment_append hx, marker?_append hx]
  split
  · next hcomment =>
    rw [if_pos hcomment] at hstop
    exact comment_append m cs t (hstop.imp_right fun h => h rfl)
  · next hcomment =>
    rw [if_neg hcomment] at hstop
    split
    · rfl
    · next hmarker =>
      rw [hmarker] at hstop
      have hrun := hstop.imp_right fun h => h (Kind.runsOn_textKind _)
      rw [textRun_append hx cs t _ hrun]

theorem symbol_append (c : Char) : symbol m c (cs ++ x :: t) = symbol m c cs := by
  have hspellings : ∀ s ∈ symbols, s.1.toList.all (!isBlank ·) = true := by decide
  have hopens : ∀ s ∈ symbols,
      s.1.toList.isPrefixOf (c :: cs ++ x :: t) = s.1.toList.isPrefixOf (c :: cs) := fun s hs =>
    isPrefixOf_append_stop (c :: cs) t (not_mem_of_isBlank hx (hspellings s hs))
  unfold symbol
  rw [← List.cons_append, List.find?_congr hopens]

/-- A point in front of a blank has no digit behind it, whatever stands behind the blank. -/
theorem number_append : number m (cs ++ x :: t) = number m cs := by
  have hdigit := (class_of_isBlank hx).1
  have hpoint : x ≠ '.' := by
    rintro rfl
    cases hx
  unfold number
  rw [takeWhile_append_stop cs t hdigit, dropWhile_append_stop cs t hdigit]
  -- Behind the digits comes the blank at once, or one character and then the blank, or more.
  rcases cs.dropWhile Char.isDigit with _ | ⟨c, _ | ⟨d, rest⟩⟩
  · simp [hpoint]
  · by_cases hc : c = '.'
    · subst hc
      simp [hdigit]
    · simp [hc]
  · by_cases hc : c = '.'
    · subst hc
      simp only [List.cons_append, takeWhile_append_stop rest t hdigit]
    · simp [hc]

theorem word_append : word m (cs ++ x :: t) = word m cs := by
  unfold word
  rw [takeWhile_append_stop cs t (class_of_isBlank hx).2]

theorem slash_append : slash m (cs ++ x :: t) = slash m cs := by
  unfold slash
  rw [takeWhile_append_stop cs t (class_of_isBlank hx).2]

theorem atSign_append : atSign m (cs ++ x :: t) = atSign m cs := by
  have hhead : (cs ++ x :: t).head? = some '{' ↔ cs.head? = some '{' := by
    cases cs with
    | nil =>
      have hbrace : x ≠ '{' := by
        rintro rfl
        cases hx
      simp [hbrace]
    | cons c cs => exact Iff.rfl
  simp only [atSign, hhead]

theorem expression_append {c : Char} (h : (expression m c cs).complete = true) :
    expression m c (cs ++ x :: t) = expression m c cs := by
  unfold expression at h ⊢
  rw [slash_append hx, atSign_append hx, symbol_append hx, ← List.cons_append,
    number_append hx, word_append hx]
  split
  · next hq =>
    rw [if_pos hq] at h
    exact string_append h _
  · rfl

/-- A lexeme that ends as it should is the same whatever stands behind a blank, as long as
    what takes blanks along is ended by the blank or before it. -/
theorem first_append {c : Char} (h : (first m c cs).complete = true)
    (hstop : isBreak x = true ∨
      ((first m c cs).kind.runsOn = true → (first m c cs).chars ≠ c :: cs)) :
    first m c (cs ++ x :: t) = first m c cs := by
  unfold first at h hstop ⊢
  rw [← List.cons_append]
  split
  · next hm =>
    rw [hm] at hstop
    exact markup_append hx m (c :: cs) t hstop
  · next hm =>
    rw [hm] at hstop
    exact markup_append hx m (c :: cs) t hstop
  · next hm =>
    rw [hm] at hstop
    exact markup_append hx m (c :: cs) t hstop
  · next hm =>
    rw [hm] at hstop
    exact comment_append m (c :: cs) t (hstop.imp_right fun h => h rfl)
  · next hm =>
    rw [hm] at h
    exact expression_append hx m cs t h

end blank

/-! ## Lexemes That End as They Should -/

theorem complete_markup (m : Modes) (cs : List Char) : (markup m cs).complete = true := by
  unfold markup
  split
  · rfl
  · split <;> rfl

theorem complete_slash (m : Modes) (cs : List Char) : (slash m cs).complete = true := by
  unfold slash
  dsimp only
  split <;> rfl

theorem complete_atSign (m : Modes) (cs : List Char) : (atSign m cs).complete = true := by
  unfold atSign
  split <;> rfl

theorem complete_number (m : Modes) (cs : List Char) : (number m cs).complete = true := by
  unfold number
  dsimp only
  split
  · split <;> rfl
  · rfl

theorem complete_symbol (m : Modes) (c : Char) (cs : List Char) :
    (symbol m c cs).complete = true := by
  unfold symbol
  split <;> rfl

/-- In an expression block, only a string may not end as it should. -/
theorem quote_of_open {m : Modes} {c : Char} {cs : List Char}
    (h : (expression m c cs).complete = false) :
    (c = '"' ∨ c = '\'') ∧ (untilQuote c cs).2 = false := by
  unfold expression at h
  split at h
  · next hq => exact ⟨hq, h⟩
  -- No other rule gives a lexeme like this.
  · exfalso
    split at h
    · cases h
    split at h
    · rw [complete_slash] at h
      cases h
    split at h
    · rw [complete_atSign] at h
      cases h
    split at h
    · rw [complete_number] at h
      cases h
    split at h
    · cases h
    · rw [complete_symbol] at h
      cases h

/-- Behind a quote in an expression block comes a string. -/
theorem first_eq_string {m : Modes} {c : Char} (hm : m.current = .expression)
    (hq : c = '"' ∨ c = '\'') (cs : List Char) : first m c cs = string m c cs := by
  rw [first, hm]
  exact if_pos hq

/-- A lexeme that does not end as it should is a string in an expression block. -/
theorem string_of_open {m : Modes} {c : Char} {cs : List Char}
    (h : (first m c cs).complete = false) :
    m.current = .expression ∧ (c = '"' ∨ c = '\'') ∧ (untilQuote c cs).2 = false := by
  cases hm : m.current with
  | text | css | js =>
    have hmarkup : first m c cs = markup m (c :: cs) := by rw [first, hm]
    rw [hmarkup, complete_markup] at h
    cases h
  | comment =>
    have hcomment : first m c cs = comment m (c :: cs) := by rw [first, hm]
    rw [hcomment] at h
    cases h
  | expression =>
    have hexpression : first m c cs = expression m c cs := by rw [first, hm]
    rw [hexpression] at h
    exact ⟨rfl, quote_of_open h⟩

/-- A string that is not closed takes all there is, and stands for all but the quote. -/
theorem string_eq_of_open {m : Modes} {q : Char} {cs : List Char}
    (h : (untilQuote q cs).2 = false) : string m q cs = ⟨.string, q :: cs, cs, m, false⟩ := by
  unfold string
  dsimp only
  rw [h, untilQuote_eq_self h, if_neg Bool.false_ne_true, List.append_nil]

/-- A lexeme that does not end as it should leaves nothing, inside an expression block. -/
theorem inside_of_open {m : Modes} {c : Char} {cs : List Char}
    (h : (first m c cs).complete = false) :
    (first m c cs).chars = c :: cs ∧ (first m c cs).modes.current = .expression := by
  obtain ⟨hm, hq, hopen⟩ := string_of_open h
  rw [first_eq_string hm hq, string_eq_of_open hopen]
  exact ⟨rfl, hm⟩

end Lexeme

/-! ## In Alike Modes -/

/-- Modes that say the same of whatever comes next. In an expression block this takes in
    the mode around it, and anywhere else it does not. -/
structure Modes.Alike (m m' : Modes) : Prop where
  current : m.current = m'.current
  saved : m.current = .expression → m.saved = m'.saved

/-- Entering an expression block saves the mode in force, so no difference is left. -/
theorem Modes.Alike.enter {m m' : Modes} (h : m.Alike m') (mode : Mode) :
    (m.enter mode).Alike (m'.enter mode) := by
  unfold Modes.enter
  split
  · exact ⟨rfl, fun _ => h.current⟩
  · next hne => exact ⟨rfl, fun he => absurd he hne⟩

namespace Lexeme

/-- Lexemes that take and stand for the same, with alike modes behind them. -/
structure Alike (l l' : Lexeme) : Prop where
  kind : l.kind = l'.kind
  chars : l.chars = l'.chars
  content : l.content = l'.content
  modes : l.modes.Alike l'.modes

variable {m m' : Modes}

theorem alike_plain (h : m.Alike m') (k : Kind) (cs : List Char) :
    (plain k cs m).Alike (plain k cs m') :=
  ⟨rfl, rfl, rfl, h⟩

theorem alike_comment (h : m.Alike m') (cs : List Char) : (comment m cs).Alike (comment m' cs) :=
  alike_plain (h.enter .text) _ _

theorem alike_markup (h : m.Alike m') (cs : List Char) : (markup m cs).Alike (markup m' cs) := by
  unfold markup
  rw [h.current]
  split
  · exact alike_comment h cs
  · split
    · next k _ => exact alike_plain (h.enter k.enters) _ _
    · exact alike_plain h _ _

/-- In alike modes the lexemes at the front are alike. -/
theorem alike_first (h : m.Alike m') (c : Char) (cs : List Char) :
    (first m c cs).Alike (first m' c cs) := by
  by_cases he : m.current = .expression
  -- Inside an expression block the modes are the same.
  · have hsame : m = m' := by
      obtain ⟨current, saved⟩ := m
      obtain ⟨current', saved'⟩ := m'
      have hc : current = current' := h.current
      have hs : saved = saved' := h.saved he
      rw [hc, hs]
    rw [hsame]
    exact ⟨rfl, rfl, rfl, rfl, fun _ => rfl⟩
  · unfold first
    rw [← h.current]
    split
    · exact alike_markup h _
    · exact alike_markup h _
    · exact alike_markup h _
    · exact alike_comment h _
    · next hm => exact absurd hm he

end Lexeme

end TemplateSyntax
