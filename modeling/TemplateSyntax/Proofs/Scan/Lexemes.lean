import Mathlib.Data.List.TakeWhile
import TemplateSyntax.Token.Lexeme.Lemmas

/-! # What a Lexeme Is

  Which lexemes the rules give depends on the side of the braces that the scan is on.
  Outside of an expression block there are stretches of markup, comments and opening
  braces; inside there is everything else. A brace leads to the other side and nothing
  else does (`Lexeme.sound_first`).

  A lexeme stands for the characters that it takes, unless it is a string, and a number
  is written in digits, with digits around its point if it has one.
-/

namespace TemplateSyntax

/-! ## The Two Sides of the Braces -/

/-- Outside of an expression block, or inside of one. -/
inductive Side where
  | outside | inside
deriving DecidableEq, Repr

/-- The side that the rules of a mode are for. -/
def Mode.side : Mode → Side
  | .expression => .inside
  | _ => .outside

/-- The side behind a token of a kind. -/
def Kind.leadsTo (side : Side) : Kind → Side
  | .exprStart => .inside
  | .exprEnd => .outside
  | _ => side

/-- Whether tokens of a kind stand on a side. The end of the input is counted out. -/
def Kind.standsOn (side : Side) (k : Kind) : Bool :=
  match k, side with
  | .eof, _ => false
  | .exprStart, _ => true
  | .comment, side => side = .outside
  | k, .outside => k.isMarkup
  | k, .inside => !k.isMarkup

theorem Kind.standsOn_ne_eof {k : Kind} {side : Side} (h : k.standsOn side) : k ≠ .eof := by
  intro hk
  subst hk
  cases side <;> cases h

/-! ## Numerals -/

/-- The characters are digits, at least one. -/
def Digits (cs : List Char) : Prop := cs ≠ [] ∧ ∀ c ∈ cs, c.isDigit

/-- The characters of a token of a kind are those of a number, if the kind is one of
    numbers. -/
def Numeral : Kind → List Char → Prop
  | .integer, cs => Digits cs
  | .float, cs => ∃ whole fraction, cs = whole ++ '.' :: fraction ∧ Digits whole ∧ Digits fraction
  | _, _ => True

/-- The digits at the front of some characters, the first of which is one. -/
theorem digits_takeWhile {c : Char} {cs : List Char} (h : c.isDigit) :
    Digits ((c :: cs).takeWhile Char.isDigit) := by
  refine ⟨?_, fun d hd => List.mem_takeWhile_imp hd⟩
  rw [List.takeWhile_cons_of_pos h]
  exact List.cons_ne_nil _ _

namespace Lexeme

/-! ## Blanks and Quotes -/

theorem ne_of_isBreak {c : Char} (h : isBreak c = false) : c ≠ '\n' ∧ c ≠ '\r' := by
  simpa [isBreak] using h

theorem ne_of_isBlank {c : Char} (h : isBlank c = false) : c ≠ ' ' ∧ c ≠ '\t' := by
  simp only [isBlank, Bool.or_eq_false_iff, decide_eq_false_iff_not] at h
  exact h.1.1

/-- No quote is a backslash, which would take the character behind it along, nor ends a line. -/
theorem ne_of_quote {q : Char} (h : q = '"' ∨ q = '\'') : q ≠ '\\' ∧ '\r' ≠ q ∧ '\n' ≠ q := by
  rcases h with rfl | rfl <;> decide

/-! ## Strings -/

/-- What may stand between quotes: a backslash comes with the character behind it, and
    no other character is a quote. -/
inductive Body (q : Char) : List Char → Prop
  | nil : Body q []
  | plain {c : Char} {cs : List Char} (hq : c ≠ q) (hb : c ≠ '\\') (h : Body q cs) :
      Body q (c :: cs)
  | escaped {d : Char} {cs : List Char} (h : Body q cs) : Body q ('\\' :: d :: cs)

/-- A closing quote is present in the characters behind an opening one. -/
def Closes (q : Char) (cs : List Char) : Prop :=
  ∃ body rest, Body q body ∧ cs = body ++ q :: rest

/-- Behind the rules for a backslash, a character is none. -/
theorem ne_slash {c : Char} {cs : List Char} (hnil : c = '\\' → cs = [] → False)
    (hcons : ∀ d ds, c = '\\' → cs = d :: ds → False) : c ≠ '\\' := by
  intro hc
  cases cs with
  | nil => exact hnil hc rfl
  | cons d ds => exact hcons d ds hc rfl

/-- A character that is neither a quote nor a backslash is cut off alone. -/
theorem untilQuote_cons {q c : Char} (hq : c ≠ q) (hb : c ≠ '\\') (cs : List Char) :
    untilQuote q (c :: cs) = (c :: (untilQuote q cs).1, (untilQuote q cs).2) := by
  rw [untilQuote]
  · exact if_neg hq
  · exact fun h => absurd h hb
  · exact fun _ _ h => absurd h hb

/-- What is cut off in front of a closing quote may stand between quotes. -/
theorem body_untilQuote {q : Char} {cs : List Char} (h : (untilQuote q cs).2 = true) :
    Body q (untilQuote q cs).1 := by
  fun_induction untilQuote q cs with
  | case1 => cases h
  | case2 => cases h
  | case3 d cs body ih => exact .escaped (ih h)
  | case4 cs => exact .nil
  | case5 c cs hnil hcons hc body ih => exact .plain hc (ne_slash hnil hcons) (ih h)

/-- Without a closing quote everything is cut off. -/
theorem untilQuote_eq_self {q : Char} {cs : List Char} (h : (untilQuote q cs).2 = false) :
    (untilQuote q cs).1 = cs := by
  fun_induction untilQuote q cs with
  | case1 => rfl
  | case2 => rfl
  | case3 d cs body ih => rw [ih h]
  | case4 cs => cases h
  | case5 c cs _ _ _ body ih => rw [ih h]

/-- A closing quote that is present is found. -/
theorem untilQuote_of_body {q : Char} {body rest : List Char} (hq : q ≠ '\\')
    (h : Body q body) : untilQuote q (body ++ q :: rest) = (body, true) := by
  induction h with
  | nil =>
    rw [List.nil_append, untilQuote]
    · exact if_pos rfl
    · intro h
      exact absurd h hq
    · intro d cs h
      exact absurd h hq
  | plain hc hb _ ih => rw [List.cons_append, untilQuote_cons hc hb, ih]
  | escaped _ ih => rw [List.cons_append, List.cons_append, untilQuote, ih]

theorem not_closes {q : Char} {cs : List Char} (hq : q ≠ '\\')
    (h : (untilQuote q cs).2 = false) : ¬ Closes q cs := by
  rintro ⟨body, rest, hbody, rfl⟩
  rw [untilQuote_of_body hq hbody] at h
  cases h

/-! ## Sound Lexemes -/

/-- What is true of a lexeme that the rules cut off some characters in some modes. -/
structure Sound (m : Modes) (input : List Char) (l : Lexeme) : Prop where
  stands : l.kind.standsOn m.current.side
  leads : l.modes.current.side = l.kind.leadsTo m.current.side
  saved : l.modes.saved.side = .outside
  numeral : Numeral l.kind l.content
  content : l.kind ≠ .string → l.content = l.chars
  quoted : l.kind = .string → ∃ q cs, (q = '"' ∨ q = '\'') ∧ input = q :: cs ∧ l = string m q cs

variable {m : Modes} {input : List Char}

/-- A lexeme outside that is no brace. -/
theorem sound_outside {k : Kind} {us : List Char} {m' : Modes} (hside : m.current.side = .outside)
    (hm : m'.current.side = .outside) (hs : m'.saved.side = .outside)
    (hk : k = .comment ∨ k.isMarkup) : Sound m input (plain k us m') := by
  have hcases : k.standsOn .outside ∧ k.leadsTo .outside = .outside ∧ Numeral k us ∧
      k ≠ .string := by
    rcases hk with rfl | hk
    · exact ⟨rfl, rfl, trivial, nofun⟩
    · cases k <;> first | exact absurd hk (by decide) | exact ⟨rfl, rfl, trivial, nofun⟩
  obtain ⟨hstands, hleads, hnum, hstr⟩ := hcases
  refine ⟨?_, ?_, hs, hnum, fun _ => rfl, fun h => absurd h hstr⟩
  · rw [hside]
    exact hstands
  · rw [hside]
    exact hm.trans hleads.symm

/-- A lexeme inside that is neither a closing brace nor a string. -/
theorem sound_inside {k : Kind} {us : List Char} (hside : m.current.side = .inside)
    (hs : m.saved.side = .outside) (hk : k.standsOn .inside) (hend : k ≠ .exprEnd)
    (hstr : k ≠ .string) (hnum : Numeral k us) : Sound m input (plain k us m) := by
  refine ⟨?_, ?_, hs, hnum, fun _ => rfl, fun h => absurd h hstr⟩
  · rw [hside]
    exact hk
  · rw [kind_plain, modes_plain, hside]
    cases k <;> first | rfl | exact absurd rfl hend

/-! ## Markup -/

theorem sound_comment {cs : List Char} (hside : m.current.side = .outside)
    (hs : m.saved.side = .outside) : Sound m input (comment m cs) :=
  sound_outside hside rfl hs (.inl rfl)

/-- A marker is an opening brace that enters an expression, or a tag that enters a mode
    of markup. -/
theorem marker_cases {mode : Mode} {k : Marker} (h : k ∈ mode.markers) :
    (k.kind = .exprStart ∧ k.enters = .expression) ∨
    (k.kind.isMarkup ∧ k.enters.side = .outside) := by
  cases mode <;> simp [Mode.markers] at h <;>
    rcases h with rfl | rfl | rfl <;> simp [Kind.isMarkup, Mode.side]

theorem sound_marker {k : Marker} (hside : m.current.side = .outside)
    (hs : m.saved.side = .outside) (hk : k ∈ m.current.markers) :
    Sound m input (plain k.kind k.spelling.toList (m.enter k.enters)) := by
  rcases marker_cases hk with ⟨hkind, henters⟩ | ⟨hkind, henters⟩
  -- The brace saves the mode of markup that the closing brace is to return to.
  · rw [hkind, henters]
    refine ⟨?_, rfl, hside, trivial, fun _ => rfl, nofun⟩
    rw [hside]
    rfl
  · have hne : k.enters ≠ .expression := by
      intro h
      rw [h] at henters
      cases henters
    refine sound_outside hside ?_ ?_ (.inr hkind)
    · rw [Modes.current_enter]
      exact henters
    · rw [Modes.enter, if_neg hne]
      exact hs

theorem sound_markup {cs : List Char} (hside : m.current.side = .outside)
    (hs : m.saved.side = .outside) : Sound m input (markup m cs) := by
  unfold markup
  split
  · exact sound_comment hside hs
  · split
    · next k hk => exact sound_marker hside hs (List.mem_of_find?_eq_some hk)
    · refine sound_outside hside hside hs (.inr ?_)
      cases m.current <;> rfl

/-! ## Expressions -/

/-- The kinds of operators and punctuation marks stand inside and write neither a closing
    brace nor a literal. -/
theorem symbols_stand : ∀ s ∈ symbols, s.2.standsOn .inside ∧ s.2 ≠ .exprEnd ∧ s.2 ≠ .string ∧
    s.2 ≠ .integer ∧ s.2 ≠ .float := by
  decide

section inside

variable (hside : m.current.side = .inside) (hs : m.saved.side = .outside)
include hside hs

theorem sound_string {q : Char} {cs : List Char} (hq : q = '"' ∨ q = '\'') :
    Sound m (q :: cs) (string m q cs) := by
  refine ⟨?_, ?_, hs, trivial, fun h => absurd rfl h, fun _ => ⟨q, cs, hq, rfl, rfl⟩⟩
  · rw [hside]
    rfl
  · exact hside.trans hside.symm

theorem sound_closing : Sound m input (plain .exprEnd ['}'] m.leave) := by
  refine ⟨?_, hs, hs, trivial, fun _ => rfl, nofun⟩
  rw [hside]
  rfl

theorem sound_slash {cs : List Char} : Sound m input (slash m cs) := by
  unfold slash
  simp only
  split
  · next k hk =>
    rcases Kind.eq_of_closer? hk with rfl | rfl | rfl <;>
      exact sound_inside hside hs rfl nofun nofun trivial
  · exact sound_inside hside hs rfl nofun nofun trivial

theorem sound_atSign {cs : List Char} : Sound m input (atSign m cs) := by
  unfold atSign
  split
  · exact sound_inside hside hs rfl nofun nofun trivial
  · exact sound_inside hside hs rfl nofun nofun trivial

theorem sound_number {c : Char} {cs : List Char} (hc : c.isDigit) :
    Sound m input (number m (c :: cs)) := by
  have hwhole : Digits ((c :: cs).takeWhile Char.isDigit) := digits_takeWhile hc
  unfold number
  simp only
  split
  · next d rest _ =>
    split
    · next hd =>
      have hfraction : Digits ((d :: rest).takeWhile Char.isDigit) := digits_takeWhile hd
      rw [List.takeWhile_cons_of_pos hd] at hfraction
      exact sound_inside hside hs rfl nofun nofun ⟨_, _, rfl, hwhole, hfraction⟩
    · exact sound_inside hside hs rfl nofun nofun hwhole
  · exact sound_inside hside hs rfl nofun nofun hwhole

theorem sound_word {cs : List Char} : Sound m input (word m cs) := by
  unfold word Kind.ofWord
  simp only
  split
  · exact sound_inside hside hs rfl nofun nofun trivial
  · unfold Kind.keyword?
    split <;> exact sound_inside hside hs rfl nofun nofun trivial

theorem sound_symbol {c : Char} {cs : List Char} : Sound m input (symbol m c cs) := by
  unfold symbol
  split
  · next spelling k hk =>
    obtain ⟨hstands, hend, hstr, hint, hfloat⟩ :=
      symbols_stand (spelling, k) (List.mem_of_find?_eq_some hk)
    refine sound_inside hside hs hstands hend hstr ?_
    unfold Numeral
    split
    · exact absurd rfl hint
    · exact absurd rfl hfloat
    · trivial
  · exact sound_inside hside hs rfl nofun nofun trivial

theorem sound_expression {c : Char} {cs : List Char} : Sound m (c :: cs) (expression m c cs) := by
  unfold expression
  split
  · next hq => exact sound_string hside hs hq
  split
  · exact sound_closing hside hs
  split
  · exact sound_slash hside hs
  split
  · exact sound_atSign hside hs
  split
  · next hc => exact sound_number hside hs hc
  split
  · exact sound_word hside hs
  · exact sound_symbol hside hs

end inside

/-! ## All Rules -/

/-- The lexeme at the front of some characters is sound, as long as the mode that a
    closing brace returns to is one of markup. -/
theorem sound_first {c : Char} {cs : List Char} (hs : m.saved.side = .outside) :
    Sound m (c :: cs) (first m c cs) := by
  unfold first
  split
  · next hm => exact sound_markup (by rw [hm]; rfl) hs
  · next hm => exact sound_markup (by rw [hm]; rfl) hs
  · next hm => exact sound_markup (by rw [hm]; rfl) hs
  · next hm => exact sound_comment (by rw [hm]; rfl) hs
  · next hm => exact sound_expression (by rw [hm]; rfl) hs

end Lexeme

end TemplateSyntax
