import Mathlib.Data.List.Forall2
import Mathlib.Data.List.TakeWhile
import TemplateSyntax.Token.Scan

/-! # Steps of a Scan

  One step passes over the blanks ahead and over one lexeme behind them, or finds that
  nothing but blanks is left (`Scan.next_cases`). Whatever is passed over moves the
  position along, so the position is always the one behind the characters before it
  (`Scan.Behind`), through single steps, through all steps up to the end of the input,
  and through any order of pulls.

  Two scans are compared step by step: if they stay related, so do their tokens
  (`Scan.forall₂_tokens`).
-/

namespace TemplateSyntax

namespace Scan

/-! ## One Step -/

/-- The blanks at the front of the characters ahead. -/
def gap (s : Scan) : List Char := s.rest.takeWhile isBlank

theorem isBlank_of_mem_gap {s : Scan} {c : Char} (h : c ∈ s.gap) : isBlank c = true :=
  List.mem_takeWhile_imp h

/-- The lexeme that the characters `c :: cs` behind the gap begin with. -/
def lexeme (s : Scan) (c : Char) (cs : List Char) : Lexeme := .first s.modes c cs

section next

variable {s : Scan} {gap : List Char} (hgap : ∀ g ∈ gap, isBlank g = true)
include hgap

/-- With nothing but blanks ahead the input ends. -/
theorem next_blank (hr : s.rest = gap) :
    s.next.token = .ending (.at (s.position.after gap)) ∧
      s.next.scan = ⟨[], s.position.after gap, s.modes⟩ := by
  have hskip : s.skipBlanks = ⟨[], s.position.after gap, s.modes⟩ := by
    simp only [skipBlanks, hr, List.dropWhile_eq_nil_iff.mpr hgap,
      List.takeWhile_eq_self_iff.mpr hgap]
  have hn : s.next = ⟨.ending (.at (s.position.after gap)),
      ⟨[], s.position.after gap, s.modes⟩, []⟩ := by
    unfold next
    rw [hskip]
  rw [hn]
  exact ⟨rfl, rfl⟩

/-- Behind some blanks a lexeme is taken, and the characters behind it are left. -/
theorem next_eq {c : Char} {cs rest : List Char} (hc : isBlank c = false)
    (hr : s.rest = gap ++ c :: cs) (hl : c :: cs = (s.lexeme c cs).chars ++ rest) :
    s.next.token = ⟨(s.lexeme c cs).kind,
        .between (s.position.after gap) (s.position.after (gap ++ (s.lexeme c cs).chars)),
        .ofList (s.lexeme c cs).content⟩ ∧
      s.next.scan = ⟨rest, s.position.after (gap ++ (s.lexeme c cs).chars),
        (s.lexeme c cs).modes⟩ := by
  have hnot : ¬ isBlank c = true := Bool.eq_false_iff.mp hc
  have hskip : s.skipBlanks = ⟨c :: cs, s.position.after gap, s.modes⟩ := by
    simp only [skipBlanks, hr, List.dropWhile_append_of_pos hgap,
      List.takeWhile_append_of_pos hgap, List.dropWhile_cons_of_neg hnot,
      List.takeWhile_cons_of_neg hnot, List.append_nil]
  have hn : s.next = s.skipBlanks.take (s.lexeme c cs) := by
    unfold next
    rw [hskip]
    rfl
  have hdrop : (c :: cs).drop (s.lexeme c cs).chars.length = rest := by
    conv => lhs; rw [hl]
    exact List.drop_left
  rw [hn, hskip, take, hdrop, ← Position.after_append]
  exact ⟨rfl, rfl⟩

/-- The same but for places, with a lexeme that is known. -/
theorem next_lexeme {c : Char} {cs rest : List Char} {l : Lexeme} (hc : isBlank c = false)
    (hr : s.rest = gap ++ c :: cs) (hlexeme : s.lexeme c cs = l) (hl : c :: cs = l.chars ++ rest) :
    s.next.token.kind = l.kind ∧ s.next.token.text = .ofList l.content ∧
      s.next.scan.rest = rest ∧ s.next.scan.modes = l.modes := by
  subst hlexeme
  obtain ⟨ht, hs⟩ := next_eq hgap hc hr hl
  rw [ht, hs]
  exact ⟨rfl, rfl, rfl, rfl⟩

end next

/-- A step comes to the end of the input, or takes the lexeme behind the gap. -/
theorem next_cases (s : Scan) :
    (s.rest = s.gap ∧ s.next.token = .ending (.at (s.position.after s.gap)) ∧
      s.next.scan = ⟨[], s.position.after s.gap, s.modes⟩) ∨
    ∃ c cs rest, isBlank c = false ∧ s.rest = s.gap ++ (c :: cs) ∧
      c :: cs = (s.lexeme c cs).chars ++ rest ∧
      s.next.token = ⟨(s.lexeme c cs).kind,
        .between (s.position.after s.gap) (s.position.after (s.gap ++ (s.lexeme c cs).chars)),
        .ofList (s.lexeme c cs).content⟩ ∧
      s.next.scan = ⟨rest, s.position.after (s.gap ++ (s.lexeme c cs).chars),
        (s.lexeme c cs).modes⟩ := by
  have hsplit : s.rest = s.gap ++ s.skipBlanks.rest :=
    (List.takeWhile_append_dropWhile (p := isBlank) (l := s.rest)).symm
  have hgap : ∀ g ∈ s.gap, isBlank g = true := fun g => isBlank_of_mem_gap
  rcases hr : s.skipBlanks.rest with _ | ⟨c, cs⟩
  -- Nothing is left behind the gap.
  · rw [hr, List.append_nil] at hsplit
    exact .inl ⟨hsplit, next_blank hgap hsplit⟩
  -- Some lexeme begins behind the gap, and the characters behind it are left.
  · rw [hr] at hsplit
    have hc := isBlank_of_skipBlanks hr
    obtain ⟨rest, hrest⟩ := Lexeme.chars_prefix s.modes c cs
    exact .inr ⟨c, cs, rest, hc, hsplit, hrest.symm, next_eq hgap hc hsplit hrest.symm⟩

/-! ## All Steps -/

theorem tokens_of_eof {s : Scan} (h : s.next.token.kind = .eof) :
    s.tokens = [s.next.token] := by
  rw [tokens, steps, dif_pos h]
  rfl

theorem tokens_of_ne_eof {s : Scan} (h : s.next.token.kind ≠ .eof) :
    s.tokens = s.next.token :: s.next.scan.tokens := by
  rw [tokens, steps, dif_neg h]
  rfl

theorem tokens_ne_nil (s : Scan) : s.tokens ≠ [] := by
  intro hnil
  exact s.steps_ne_nil (List.map_eq_nil_iff.mp hnil)

theorem next_mem_tokens (s : Scan) : s.next.token ∈ s.tokens := by
  by_cases heof : s.next.token.kind = .eof
  · rw [tokens_of_eof heof]
    exact List.mem_cons_self
  · rw [tokens_of_ne_eof heof]
    exact List.mem_cons_self

theorem mem_tokens_of_next {s : Scan} {t : Token} (h : s.next.token.kind ≠ .eof)
    (ht : t ∈ s.next.scan.tokens) : t ∈ s.tokens := by
  rw [tokens_of_ne_eof h]
  exact List.mem_cons_of_mem _ ht

theorem exhausted_of_eof {s : Scan} (h : s.next.token.kind = .eof) :
    s.exhausted = s.next.scan := by
  have hs : s.steps = [s.next] := by rw [steps, dif_pos h]
  simp only [exhausted, hs, List.getLast_singleton]

theorem exhausted_of_ne_eof {s : Scan} (h : s.next.token.kind ≠ .eof) :
    s.exhausted = s.next.scan.exhausted := by
  have hs : s.steps = s.next :: s.next.scan.steps := by rw [steps, dif_neg h]
  simp only [exhausted, hs, List.getLast_cons s.next.scan.steps_ne_nil]

/-! ## Two Scans -/

/-- A step does not depend on the blanks ahead but for places. -/
theorem next_alike {s s' : Scan}
    (hrest : s.rest.dropWhile isBlank = s'.rest.dropWhile isBlank) (hmodes : s.modes = s'.modes) :
    s.next.token.Alike s'.next.token ∧ s.next.scan.rest = s'.next.scan.rest ∧
      s.next.scan.modes = s'.next.scan.modes := by
  have hskip : s.skipBlanks.rest = s'.skipBlanks.rest := hrest
  unfold next
  rw [hskip]
  split
  · exact ⟨⟨rfl, rfl⟩, hskip, hmodes⟩
  · next c cs _ =>
    rw [hmodes]
    refine ⟨⟨rfl, rfl⟩, ?_, rfl⟩
    show s.skipBlanks.rest.drop _ = s'.skipBlanks.rest.drop _
    rw [hskip]

/-- Scans that stay related from step to step have related tokens up to the end of the
    input. -/
theorem forall₂_tokens {R : Scan → Scan → Prop} {T : Token → Token → Prop}
    (hstep : ∀ s s', R s s' → T s.next.token s'.next.token ∧
      s.next.token.kind = s'.next.token.kind ∧
      (s.next.token.kind ≠ .eof → R s.next.scan s'.next.scan))
    {s s' : Scan} (h : R s s') : List.Forall₂ T s.tokens s'.tokens := by
  induction s using steps.induct generalizing s' with
  | case1 s heof =>
    obtain ⟨htoken, hkind, -⟩ := hstep s s' h
    rw [tokens_of_eof heof, tokens_of_eof (hkind.symm.trans heof)]
    exact .cons htoken .nil
  | case2 s hne ih =>
    obtain ⟨htoken, hkind, hscan⟩ := hstep s s' h
    have hne' : s'.next.token.kind ≠ .eof := by
      rw [← hkind]
      exact hne
    rw [tokens_of_ne_eof hne, tokens_of_ne_eof hne']
    exact .cons htoken (ih (hscan hne))

/-! ## The Position -/

/-- Whatever is passed over comes behind the characters passed over before. -/
theorem position_after {s : Scan} {before : List Char}
    (h : s.position = Position.start.after before) (us : List Char) :
    s.position.after us = Position.start.after (before ++ us) := by
  rw [h, Position.after_append]

/-- The scan has the characters `before` of the source behind it. -/
structure Behind (source : String) (before : List Char) (s : Scan) : Prop where
  split : source.toList = before ++ s.rest
  position : s.position = Position.start.after before

theorem behind_ofSource (source : String) : Behind source [] (ofSource source) := ⟨rfl, rfl⟩

variable {source : String} {before : List Char} {s : Scan}

/-- A step leaves the scan behind some more characters. -/
theorem Behind.next (h : Behind source before s) :
    ∃ before', Behind source before' s.next.scan := by
  rcases s.next_cases with ⟨hr, -, hs⟩ | ⟨c, cs, rest, -, hr, hl, -, hs⟩
  · refine ⟨before ++ s.gap, ?_, ?_⟩
    · rw [hs, List.append_nil, h.split]
      exact congrArg (before ++ ·) hr
    · rw [hs]
      exact position_after h.position _
  · refine ⟨before ++ (s.gap ++ (s.lexeme c cs).chars), ?_, ?_⟩
    · rw [hs, h.split, hr]
      simp only [List.append_assoc, ← hl]
    · rw [hs]
      exact position_after h.position _

/-- So do all steps up to the end of the input. -/
theorem Behind.exhausted (h : Behind source before s) :
    ∃ before', Behind source before' s.exhausted := by
  induction s using steps.induct generalizing before with
  | case1 s heof =>
    rw [exhausted_of_eof heof]
    exact h.next
  | case2 s hne ih =>
    rw [exhausted_of_ne_eof hne]
    obtain ⟨before', h'⟩ := h.next
    exact ih h'

/-- And so does every pull. -/
theorem Behind.pull (h : Behind source before s) (p : Pull) :
    ∃ before', Behind source before' (s.pull p).2 := by
  cases p with
  | next => exact h.next
  | all => exact h.exhausted

/-- A token begins at the place behind some characters of the source. -/
theorem Behind.token_start (h : Behind source before s) :
    ∃ u v, source.toList = u ++ v ∧ s.next.token.span.start = (Position.start.after u).offset ∧
      s.next.token.span.line = (Position.start.after u).line ∧
      s.next.token.span.column = (Position.start.after u).column := by
  have hgap := position_after h.position s.gap
  rcases s.next_cases with ⟨hr, ht, -⟩ | ⟨c, cs, rest, -, hr, -, ht, -⟩
  · refine ⟨before ++ s.gap, [], ?_, ?_⟩
    · rw [List.append_nil, h.split]
      exact congrArg (before ++ ·) hr
    · rw [ht, hgap]
      exact ⟨rfl, rfl, rfl⟩
  · refine ⟨before ++ s.gap, c :: cs, ?_, ?_⟩
    · rw [h.split, hr, List.append_assoc]
    · rw [ht, hgap]
      exact ⟨rfl, rfl, rfl⟩

/-- Every token but an ending one takes characters of the source, those of the lexeme that the
    characters behind its place begin with. -/
theorem Behind.next_taken (h : Behind source before s) (hne : s.next.token.kind ≠ .eof) :
    ∃ u c cs v, isBlank c = false ∧ c :: cs = (s.lexeme c cs).chars ++ v ∧
      source.toList = u ++ ((s.lexeme c cs).chars ++ v) ∧
      s.next.token = ⟨(s.lexeme c cs).kind,
        .between (Position.start.after u) (Position.start.after (u ++ (s.lexeme c cs).chars)),
        .ofList (s.lexeme c cs).content⟩ := by
  rcases s.next_cases with ⟨-, ht, -⟩ | ⟨c, cs, v, hc, hr, hl, ht, -⟩
  · rw [ht] at hne
    exact absurd rfl hne
  · refine ⟨before ++ s.gap, c, cs, v, hc, hl, ?_, ?_⟩
    · rw [h.split, hr, ← hl, List.append_assoc]
    · rw [ht, position_after h.position, position_after h.position, List.append_assoc]

/-! ## Any Order of Pulls -/

/-- The tokens that pulls in a row give. -/
def pulled (s : Scan) : List Pull → List Token
  | [] => []
  | p :: ps => (s.pull p).1 ++ (s.pull p).2.pulled ps

end Scan

end TemplateSyntax
