import TemplateSyntax.Proofs.Scan.Schedules
import TemplateSyntax.Proofs.Shape.Tokens

/-! # Scans Come to an End

  Whatever has been pulled of a source text before, the next token either ends the input, and
  then nothing is left ahead, or takes some of the characters ahead
  (`Scan.Behind.ends_or_moves`). No step stands still in between: where a run of text could come
  out empty, its mode has a comment or a marker there, or the end of a line that has been dropped
  as a blank.

  So the end of the input is at most as many steps away as there are characters ahead
  (`Scan.exists_end`), and a source text has at most one token more than characters
  (`Scan.steps_progress`).
-/

namespace TemplateSyntax

namespace Scan

/-! ## One Step -/

/-- The next token ends the input at a place, and nothing is left ahead of the scan there. -/
structure Ends (s : Scan) (stop : Position) : Prop where
  kind : s.next.token.kind = .eof
  span : s.next.token.span = .at stop
  rest : s.next.scan.rest = []
  position : s.next.scan.position = stop

/-- The next token takes a stretch of the source that is not empty, and the scan goes on behind
    it, with fewer characters ahead. -/
structure Moves (s : Scan) : Prop where
  kind : s.next.token.kind ≠ .eof
  span : s.next.token.span.start < s.next.token.span.stop
  behind : s.next.scan.position.offset = s.next.token.span.stop
  taken : ∃ us, us ≠ [] ∧ s.rest = us ++ s.next.scan.rest

section step

variable {source : String} {before : List Char} {s : Scan}

/-- One step ends the input or moves on. -/
theorem Behind.ends_or_moves (h : Behind source before s)
    (hsaved : s.modes.saved.side = .outside) :
    s.Ends (Position.start.after source.toList) ∨ s.Moves := by
  by_cases heof : s.next.token.kind = .eof
  · obtain ⟨hr, ht, hs⟩ := next_of_eof hsaved heof
    have hstop : s.position.after s.gap = Position.start.after source.toList := by
      rw [position_after h.position, h.split]
      exact congrArg (fun cs => Position.start.after (before ++ cs)) hr.symm
    refine .inl ⟨heof, ?_, ?_, ?_⟩
    · rw [ht, hstop]
      rfl
    · rw [hs]
    · rw [hs]
      exact hstop
  · rcases s.next_cases with ⟨-, ht, -⟩ | ⟨c, cs, rest, hc, hr, hl, ht, hs⟩
    · rw [ht] at heof
      exact absurd rfl heof
    · have hne : (s.lexeme c cs).chars ≠ [] := Lexeme.chars_ne_nil s.modes cs hc
      refine .inr ⟨heof, ?_, ?_, s.gap ++ (s.lexeme c cs).chars, ?_, ?_⟩
      · have hpos := byteLength_pos hne
        rw [ht, Position.after_append]
        show (s.position.after s.gap).offset <
          ((s.position.after s.gap).after (s.lexeme c cs).chars).offset
        rw [Position.offset_after _ (s.lexeme c cs).chars]
        omega
      · rw [ht, hs]
        rfl
      · exact List.append_ne_nil_of_right_ne_nil _ hne
      · rw [hs, hr, hl, List.append_assoc]

/-- The modes are settled behind any pulls, as they are between two steps. -/
theorem settled_behindPulls (source : String) (ps : List Pull) :
    ((ofSource source).behindPulls ps).modes.Settled := by
  rw [(pulls_eq_steps (ofSource source) ps).2]
  exact settled_stepped Modes.settled_initial _

theorem Behind.behindPulls (h : Behind source before s) (ps : List Pull) :
    ∃ before', Behind source before' (s.behindPulls ps) := by
  rw [(s.pulls_eq_steps ps).2]
  exact h.stepped _

end step

/-! ## All Steps -/

/-- The end of the input is at most as many steps away as there are characters ahead. The tokens
    up to it are those of one step after the other. -/
theorem exists_end (s : Scan) : ∃ n ≤ s.rest.length,
    (∀ m < n, (s.stepped m).next.token.kind ≠ .eof) ∧ (s.stepped n).next.token.kind = .eof ∧
      s.tokens = s.upcoming (n + 1) := by
  induction s using steps.induct with
  | case1 s heof =>
    refine ⟨0, Nat.zero_le _, fun m hm => absurd hm m.not_lt_zero, heof, ?_⟩
    rw [tokens_of_eof heof]
    rfl
  | case2 s hne ih =>
    obtain ⟨n, hle, hfront, heof, htokens⟩ := ih
    have hlt := rest_next_lt hne
    refine ⟨n + 1, by omega, ?_, heof, ?_⟩
    · intro m hm
      cases m with
      | zero => exact hne
      | succ m => exact hfront m (Nat.lt_of_succ_lt_succ hm)
    · rw [tokens_of_ne_eof hne, htokens, ← upcoming_succ]

theorem length_upcoming (s : Scan) (n : Nat) : (s.upcoming n).length = n := by
  induction n generalizing s with
  | zero => rfl
  | succ n ih => rw [upcoming_succ, List.length_cons, ih]

/-- There is at most one token more than characters ahead. -/
theorem length_tokens_le (s : Scan) : s.tokens.length ≤ s.rest.length + 1 := by
  obtain ⟨n, hle, -, -, htokens⟩ := s.exists_end
  rw [htokens, length_upcoming]
  exact Nat.succ_le_succ hle

/-- Whatever has been pulled of a source text before, the next token ends the input where the
    source ends, or takes characters ahead. To ask for all tokens is to step on up to the end of
    the input, which is no more steps away than there are characters ahead. So a source text has
    at most one token more than characters. -/
theorem steps_progress (source : String) (ps : List Pull) :
    let s := (ofSource source).behindPulls ps
    (s.Ends (Position.start.after source.toList) ∨ s.Moves) ∧
    (∃ n ≤ s.rest.length, (∀ m < n, (s.stepped m).next.token.kind ≠ .eof) ∧
      (s.stepped n).next.token.kind = .eof ∧ (s.pull .all).1 = s.upcoming (n + 1)) ∧
    (tokenize source).length ≤ source.length + 1 := by
  intro s
  obtain ⟨before, hbehind⟩ := (behind_ofSource source).behindPulls ps
  have hsaved : s.modes.saved.side = .outside :=
    Mode.side_of_isMarkup (settled_behindPulls source ps).saved
  constructor
  · exact hbehind.ends_or_moves hsaved
  constructor
  · exact s.exists_end
  · rw [← String.length_toList]
    exact (ofSource source).length_tokens_le

-- A bound that is met: every character is a token of its own, and the ending token comes last.
example : (tokenize "\x7b+\x7d").length = "\x7b+\x7d".length + 1 := by
  decide +kernel

end Scan

end TemplateSyntax
