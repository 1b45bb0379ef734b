import Mathlib.Data.List.DropRight
import TemplateSyntax.Proofs.Scan.Step
import TemplateSyntax.Proofs.Source.Bytes

/-! # Lines and Columns

  A scan keeps line and column up to date character by character. Here they are given
  in closed form: the line is one more than the line feeds before the place, and the
  column one more than the characters behind the last of them. The form holds for every
  token of a source text, in whatever order and however often tokens are pulled.
-/

namespace TemplateSyntax

/-! ## The Closed Form -/

/-- The characters behind the last line feed. -/
def lastLine (cs : List Char) : List Char := cs.rtakeWhile (· ≠ '\n')

/-- A line feed opens a line without characters. -/
theorem lastLine_concat_break (cs : List Char) : lastLine (cs ++ ['\n']) = [] :=
  List.rtakeWhile_concat_neg _ _ _ (by decide)

/-- Every other character stands at the end of its line. -/
theorem lastLine_concat {c : Char} (cs : List Char) (h : c ≠ '\n') :
    lastLine (cs ++ [c]) = lastLine cs ++ [c] :=
  List.rtakeWhile_concat_pos _ _ _ (by simpa using h)

/-- A stretch from the start of a text moves the column behind its last line feed. -/
theorem Position.column_after (cs : List Char) :
    (Position.start.after cs).column = 1 + (lastLine cs).length := by
  induction cs using List.reverseRecOn with
  | nil => rfl
  | append_singleton cs c ih =>
    rw [Position.after_append, Position.after_cons, Position.after_nil]
    by_cases h : c = '\n'
    · subst h
      rw [lastLine_concat_break]
      rfl
    · have hnext : ((Position.start.after cs).next c).column =
          (Position.start.after cs).column + 1 := by
        rw [Position.next, if_neg h]
      rw [hnext, ih, lastLine_concat cs h, List.length_append, List.length_singleton]
      omega

/-! ## Placed Tokens -/

/-- A token begins between two characters, and its line and column are those counted
    off in the characters before it. -/
structure Placed (source : String) (t : Token) : Prop where
  boundary : (String.Pos.Raw.mk t.span.start).IsValid source
  line : t.span.line = 1 + (upTo t.span.start source.toList).count '\n'
  column : t.span.column = 1 + (lastLine (upTo t.span.start source.toList)).length

namespace Scan

variable {source : String} {before : List Char} {s : Scan}

theorem Behind.placed_next (h : Behind source before s) : Placed source s.next.token := by
  obtain ⟨u, v, hsplit, hstart, hline, hcolumn⟩ := h.token_start
  have hoffset : (Position.start.after u).offset = byteLength u := by
    rw [Position.offset_after]
    exact Nat.zero_add _
  rw [hoffset] at hstart
  have hu : upTo s.next.token.span.start source.toList = u := by
    rw [hstart, hsplit, upTo_byteLength]
  refine ⟨?_, ?_, ?_⟩
  · rw [hstart]
    exact isValid_of_split hsplit
  · rw [hline, hu]
    exact Position.line_after _ _
  · rw [hcolumn, hu]
    exact Position.column_after u

theorem Behind.placed_tokens (h : Behind source before s) : ∀ t ∈ s.tokens, Placed source t := by
  induction s using steps.induct generalizing before with
  | case1 s heof =>
    intro t ht
    rw [tokens_of_eof heof, List.mem_singleton] at ht
    rw [ht]
    exact h.placed_next
  | case2 s hne ih =>
    intro t ht
    rw [tokens_of_ne_eof hne, List.mem_cons] at ht
    rcases ht with rfl | ht
    · exact h.placed_next
    · obtain ⟨before', h'⟩ := h.next
      exact ih h' t ht

theorem Behind.placed_pull (h : Behind source before s) (p : Pull) :
    ∀ t ∈ (s.pull p).1, Placed source t := by
  intro t ht
  cases p with
  | next =>
    rw [List.mem_singleton.mp ht]
    exact h.placed_next
  | all => exact h.placed_tokens t ht

/-- Pulls in a row give placed tokens only, for each leaves the scan behind characters of
    the source. -/
theorem Behind.placed_pulled (h : Behind source before s) (ps : List Pull) :
    ∀ t ∈ s.pulled ps, Placed source t := by
  -- Which characters a pull has left behind does not matter to the next one.
  induction ps generalizing s before with
  | nil => simp [pulled]
  | cons p ps ih =>
    intro t ht
    rw [pulled, List.mem_append] at ht
    rcases ht with ht | ht
    · exact h.placed_pull p t ht
    · obtain ⟨before', h'⟩ := h.pull p
      exact ih h' t ht

/-- The line and the column of every token are exact: of all the tokens of a source text,
    and of those that any pulls in a row give, beyond the end of the input as well. -/
theorem tokens_placed (source : String) :
    (∀ t ∈ tokenize source, Placed source t) ∧
    ∀ ps : List Pull, ∀ t ∈ (ofSource source).pulled ps, Placed source t := by
  have h := behind_ofSource source
  constructor
  · exact h.placed_tokens
  · intro ps
    exact h.placed_pulled ps

end Scan

end TemplateSyntax
