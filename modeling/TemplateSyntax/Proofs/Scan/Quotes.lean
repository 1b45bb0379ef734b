import TemplateSyntax.Proofs.Scan.Local
import TemplateSyntax.Proofs.Scan.Step

/-! # Strings and Their Quotes

  A string ends at the first quote of its kind that no backslash makes an ordinary character
  (`Scan.string_ends_at_quote`). Which ones a backslash does is said by reading the characters
  once from left to right (`endsInEscape`): a backslash that is ordinary itself has no effect on
  the character behind it.
-/

namespace TemplateSyntax

/-! ## Escapes -/

/-- Whether some characters end in a backslash that makes the character behind them ordinary. -/
def endsInEscape (us : List Char) : Bool :=
  us.foldl (fun escaped c => !escaped && c = '\\') false

/-- The quote does not stand among the characters but behind such a backslash. -/
def Unquoted (q : Char) (us : List Char) : Prop :=
  ∀ x y, us = x ++ q :: y → endsInEscape x = true

theorem endsInEscape_concat (us : List Char) (c : Char) :
    endsInEscape (us ++ [c]) = (!endsInEscape us && c = '\\') := by
  rw [endsInEscape, List.foldl_append]
  rfl

/-- What ends in an escape ends in a backslash that is not escaped itself. -/
theorem endsInEscape_iff {us : List Char} :
    endsInEscape us = true ↔ ∃ x, us = x ++ ['\\'] ∧ endsInEscape x = false := by
  rcases List.eq_nil_or_concat us with rfl | ⟨x, c, rfl⟩
  · simp [endsInEscape]
  · simp [endsInEscape_concat, and_comm]

section cons

variable {q c : Char} {cs : List Char}

theorem unquoted_nil : Unquoted q [] := by
  intro x y hxy
  exact absurd hxy.symm (List.append_ne_nil_of_right_ne_nil x (List.cons_ne_nil q y))

/-- In front of the first of the characters there is nothing to escape it. -/
theorem not_unquoted_quote (cs : List Char) : ¬ Unquoted q (q :: cs) := by
  intro h
  exact Bool.false_ne_true (h [] cs rfl)

/-- A backslash is no quote. -/
theorem unquoted_backslash (hq : q ≠ '\\') : Unquoted q ['\\'] := by
  intro x y hxy
  rcases x with _ | ⟨a, x⟩
  · exact absurd (List.cons.inj hxy).1.symm hq
  · have hnil := (List.cons.inj hxy).2.symm
    exact absurd hnil (List.append_ne_nil_of_right_ne_nil x (List.cons_ne_nil q y))

/-- A character that is no backslash escapes nothing. -/
theorem endsInEscape_cons (hc : c ≠ '\\') (cs : List Char) :
    endsInEscape (c :: cs) = endsInEscape cs := by
  simp [endsInEscape, hc]

/-- A backslash is done with the character behind it. -/
theorem endsInEscape_pair (d : Char) (cs : List Char) :
    endsInEscape ('\\' :: d :: cs) = endsInEscape cs := by
  simp [endsInEscape]

/-- Behind a character that is no backslash, the same quotes are escaped as without it. -/
theorem unquoted_cons (hc : c ≠ '\\') : Unquoted q (c :: cs) ↔ c ≠ q ∧ Unquoted q cs := by
  constructor
  · intro h
    constructor
    · rintro rfl
      exact not_unquoted_quote cs h
    · intro x y hxy
      rw [← endsInEscape_cons hc]
      exact h (c :: x) y (by rw [hxy]; rfl)
  · rintro ⟨hq, h⟩ x y hxy
    cases x with
    | nil => exact absurd (List.cons.inj hxy).1 hq
    | cons b x =>
      obtain ⟨rfl, hcs⟩ := List.cons.inj hxy
      rw [endsInEscape_cons hc]
      exact h x y hcs

/-- Behind a backslash and the character that it escapes as well. -/
theorem unquoted_pair {d : Char} (hq : q ≠ '\\') :
    Unquoted q ('\\' :: d :: cs) ↔ Unquoted q cs := by
  constructor
  · intro h x y hxy
    rw [← endsInEscape_pair d]
    exact h ('\\' :: d :: x) y (by rw [hxy]; rfl)
  · intro h x y hxy
    rcases x with _ | ⟨a, _ | ⟨b, x⟩⟩
    · exact absurd (List.cons.inj hxy).1.symm hq
    · rw [← (List.cons.inj hxy).1]
      rfl
    · obtain ⟨hslash, htail⟩ := List.cons.inj hxy
      obtain ⟨rfl, hcs⟩ := List.cons.inj htail
      rw [← hslash, endsInEscape_pair]
      exact h x y hcs

end cons

/-! ## Cutting at a Quote -/

namespace Lexeme

variable {q : Char} {us : List Char}

/-- What may stand between quotes has no quote that is not escaped, and does not end in an
    escape, which would take the closing quote along. -/
theorem body_iff (hq : q ≠ '\\') :
    Body q us ↔ endsInEscape us = false ∧ Unquoted q us := by
  constructor
  · intro h
    induction h with
    | nil => exact ⟨rfl, unquoted_nil⟩
    | plain hc hb _ ih =>
      rw [endsInEscape_cons hb, unquoted_cons hb]
      exact ⟨ih.1, hc, ih.2⟩
    | escaped _ ih =>
      rw [endsInEscape_pair, unquoted_pair hq]
      exact ih
  · rintro ⟨hends, hun⟩
    fun_induction untilQuote q us with
    | case1 => exact .nil
    | case2 => cases hends
    | case3 d cs body ih =>
      rw [endsInEscape_pair] at hends
      rw [unquoted_pair hq] at hun
      exact .escaped (ih hends hun)
    | case4 cs => exact absurd hun (not_unquoted_quote cs)
    | case5 c cs hnil hcons hc body ih =>
      have hb := ne_slash hnil hcons
      rw [endsInEscape_cons hb] at hends
      rw [unquoted_cons hb] at hun
      exact .plain hc hb (ih hends hun.2)

/-- There is no closing quote if every one there is is escaped. -/
theorem untilQuote_snd_eq_false_iff (hq : q ≠ '\\') :
    (untilQuote q us).2 = false ↔ Unquoted q us := by
  fun_induction untilQuote q us with
  | case1 => exact iff_of_true rfl unquoted_nil
  | case2 => exact iff_of_true rfl (unquoted_backslash hq)
  | case3 d cs body ih =>
    rw [unquoted_pair hq]
    exact ih
  | case4 cs => exact iff_of_false (by decide) (not_unquoted_quote cs)
  | case5 c cs hnil hcons hc body ih =>
    rw [unquoted_cons (ne_slash hnil hcons), and_iff_right hc]
    exact ih

/-- A string with its closing quote. -/
theorem string_of_body {m : Modes} {v : List Char} (hq : q ≠ '\\') (h : Body q us) :
    string m q (us ++ q :: v) = ⟨.string, q :: (us ++ [q]), us, m, true⟩ := by
  unfold string
  rw [untilQuote_of_body hq h]
  rfl

end Lexeme

/-! ## Scanning Strings -/

/-- No quote is blank. -/
theorem isBlank_quote {q : Char} (h : q = '"' ∨ q = '\'') : isBlank q = false := by
  rcases h with rfl | rfl <;> decide

namespace Scan

variable {s : Scan} {gap u v w : List Char} {q : Char}

section strings

variable (hm : s.modes.current = .expression) (hgap : ∀ g ∈ gap, isBlank g = true)
  (hq : q = '"' ∨ q = '\'')
include hm hgap hq

/-- A string with a closing quote ends behind it. -/
theorem next_closed (hr : s.rest = gap ++ q :: (u ++ q :: v)) (hends : endsInEscape u = false)
    (hun : Unquoted q u) :
    let stop := s.position.after (gap ++ q :: (u ++ [q]))
    s.next.token = ⟨.string, .between (s.position.after gap) stop, .ofList u⟩ ∧
      s.next.scan = ⟨v, stop, s.modes⟩ := by
  have hslash := (Lexeme.ne_of_quote hq).1
  have hlexeme : s.lexeme q (u ++ q :: v) = ⟨.string, q :: (u ++ [q]), u, s.modes, true⟩ :=
    (Lexeme.first_eq_string hm hq _).trans
      (Lexeme.string_of_body hslash ((Lexeme.body_iff hslash).mpr ⟨hends, hun⟩))
  have hsplit : q :: (u ++ q :: v) = (s.lexeme q (u ++ q :: v)).chars ++ v := by
    rw [hlexeme, List.cons_append, List.append_assoc]
    rfl
  have hnext := next_eq hgap (isBlank_quote hq) hr hsplit
  rw [hlexeme] at hnext
  exact hnext

/-- A string without one ends where the input does. -/
theorem next_unclosed (hr : s.rest = gap ++ q :: w) (hun : Unquoted q w) :
    let stop := s.position.after (gap ++ q :: w)
    s.next.token = ⟨.string, .between (s.position.after gap) stop, .ofList w⟩ ∧
      s.next.scan = ⟨[], stop, s.modes⟩ := by
  have hopen := (Lexeme.untilQuote_snd_eq_false_iff (Lexeme.ne_of_quote hq).1).mpr hun
  have hlexeme : s.lexeme q w = ⟨.string, q :: w, w, s.modes, false⟩ :=
    (Lexeme.first_eq_string hm hq w).trans (Lexeme.string_eq_of_open hopen)
  have hsplit : q :: w = (s.lexeme q w).chars ++ [] := by
    rw [hlexeme, List.append_nil]
  have hnext := next_eq hgap (isBlank_quote hq) hr hsplit
  rw [hlexeme] at hnext
  exact hnext

end strings

/-- Inside an expression block, a quote behind some blanks begins a string. The string ends at
    the first quote of its kind that is not escaped, and stands for what is in front of that
    quote, backslashes included; without such a quote it takes and stands for all that is left.
    So whatever has no quote that is not escaped and does not end in an escape is read back from
    between two quotes, whatever follows. -/
theorem string_ends_at_quote (hm : s.modes.current = .expression)
    (hgap : ∀ g ∈ gap, isBlank g = true) (hq : q = '"' ∨ q = '\'')
    (hr : s.rest = gap ++ q :: w) :
    (∀ u v, w = u ++ q :: v → endsInEscape u = false → Unquoted q u →
      let stop := s.position.after (gap ++ q :: (u ++ [q]))
      s.next.token = ⟨.string, .between (s.position.after gap) stop, .ofList u⟩ ∧
        s.next.scan = ⟨v, stop, s.modes⟩) ∧
    (Unquoted q w →
      let stop := s.position.after s.rest
      s.next.token = ⟨.string, .between (s.position.after gap) stop, .ofList w⟩ ∧
        s.next.scan = ⟨[], stop, s.modes⟩) ∧
    (Unquoted q w ∨ ∃ u v, w = u ++ q :: v ∧ endsInEscape u = false ∧ Unquoted q u) ∧
    ∀ content rest position, Unquoted q content →
      (¬ ∃ x, content = x ++ ['\\'] ∧ endsInEscape x = false) →
      let written : Scan := ⟨q :: (content ++ q :: rest), position, s.modes⟩
      written.next.token.kind = .string ∧ written.next.token.text = .ofList content ∧
        written.next.scan.rest = rest := by
  have hslash := (Lexeme.ne_of_quote hq).1
  constructor
  · rintro u v rfl hends hun
    exact next_closed hm hgap hq hr hends hun
  constructor
  · intro hun
    rw [hr]
    exact next_unclosed hm hgap hq hr hun
  constructor
  · rcases hcut : (Lexeme.untilQuote q w).2 with _ | _
    · exact .inl ((Lexeme.untilQuote_snd_eq_false_iff hslash).mp hcut)
    · have hbody := Lexeme.body_untilQuote hcut
      obtain ⟨v, hv⟩ := Lexeme.untilQuote_prefix q w
      rw [hcut, if_pos rfl, List.append_assoc] at hv
      obtain ⟨hends, hun⟩ := (Lexeme.body_iff hslash).mp hbody
      exact .inr ⟨_, v, hv.symm, hends, hun⟩
  · intro content rest position hun hlast written
    rw [← endsInEscape_iff, Bool.not_eq_true] at hlast
    have hnone : ∀ g ∈ ([] : List Char), isBlank g = true := nofun
    have hnext := next_closed (s := written) hm hnone hq rfl hlast hun
    rw [hnext.1, hnext.2]
    exact ⟨rfl, rfl, rfl⟩

/-- The first string is closed behind the quote that is escaped in it, and the second one is not
    closed, since its last quote is escaped. -/
theorem string_ends_at_quote_escaped :
    let closed : Scan := ⟨" 'it\\'s'+".toList, .start, ⟨.expression, .text⟩⟩
    let opened : Scan := ⟨"\"a\\\"".toList, .start, ⟨.expression, .text⟩⟩
    closed.next.token = ⟨.string, ⟨1, 8, 1, 2⟩, "it\\'s"⟩ ∧ closed.next.scan.rest = ['+'] ∧
      opened.next.token = ⟨.string, ⟨0, 4, 1, 1⟩, "a\\\""⟩ ∧ opened.next.scan.rest = [] := by
  intro closed opened
  have hblank : ∀ g ∈ [' '], isBlank g = true := by
    intro g hg
    rw [List.mem_singleton.mp hg]
    rfl
  have hnone : ∀ g ∈ ([] : List Char), isBlank g = true := nofun
  have hbody : Unquoted '\'' "it\\'s".toList :=
    (Lexeme.untilQuote_snd_eq_false_iff (by decide)).mp (by decide)
  have hclosed := (string_ends_at_quote (s := closed) rfl hblank (.inr rfl) rfl).1
    "it\\'s".toList ['+'] rfl (by decide) hbody
  have hopen : Unquoted '"' "a\\\"".toList :=
    (Lexeme.untilQuote_snd_eq_false_iff (by decide)).mp (by decide)
  have hopened := (string_ends_at_quote (s := opened) rfl hnone (.inl rfl) rfl).2.1 hopen
  exact ⟨hclosed.1, congrArg Scan.rest hclosed.2, hopened.1, congrArg Scan.rest hopened.2⟩

end Scan

end TemplateSyntax
