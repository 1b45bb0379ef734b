import TemplateSyntax.Proofs.Scan.Discipline
import TemplateSyntax.Proofs.Source.Bytes

/-! # Tiles

  The tokens of a source text and the blanks between them lie side by side and cover
  it, as tiles do (`Tiled`). Each step of a scan lays one tile with the gap in front
  of it (`Scan.tiled`), and what there is to know about the places of tokens is read
  off the row of tiles.
-/

namespace TemplateSyntax

open Lexeme (Body Closes)

/-! ## Rows of Tiles -/

/-- How the text of a token is written in the characters `us` that it takes, with the
    characters `rest` behind them. -/
inductive Written (t : Token) (us rest : List Char) : Prop
  | plain (hk : t.kind ≠ .string) (hus : us = t.text.toList)
  | closed (q : Char) (hk : t.kind = .string) (hq : q = '"' ∨ q = '\'')
      (hbody : Body q t.text.toList) (hus : us = q :: (t.text.toList ++ [q]))
  | unclosed (q : Char) (hk : t.kind = .string) (hq : q = '"' ∨ q = '\'')
      (hopen : ¬ Closes q t.text.toList) (hus : us = q :: t.text.toList) (hrest : rest = [])

/-- The tokens `ts` and the gaps in front of them cover the characters `cs`, which stand
    behind the characters `before`. -/
inductive Tiled : List Char → List Token → List Char → Prop
  | ending {before gap : List Char} (hgap : ∀ c ∈ gap, isBlank c) :
      Tiled before [.ending (.at (Position.start.after (before ++ gap)))] gap
  | token {before gap us rest : List Char} {t : Token} {ts : List Token}
      (hgap : ∀ c ∈ gap, isBlank c) (hkind : t.kind ≠ .eof) (hus : us ≠ [])
      (hspan : t.span = .between (Position.start.after (before ++ gap))
        (Position.start.after (before ++ gap ++ us)))
      (hwritten : Written t us rest) (h : Tiled (before ++ gap ++ us) ts rest) :
      Tiled before (t :: ts) (gap ++ (us ++ rest))

/-! ## Scanning Lays Tiles -/

/-- A sound lexeme is written in the characters that it takes. -/
theorem Lexeme.Sound.written {m : Modes} {l : Lexeme} {rest : List Char} (span : Span)
    (h : Sound m (l.chars ++ rest) l) :
    Written ⟨l.kind, span, .ofList l.content⟩ l.chars rest := by
  by_cases hk : l.kind = .string
  · obtain ⟨q, cs, hq, hin, hl⟩ := h.quoted hk
    have hslash : q ≠ '\\' := (ne_of_quote hq).1
    by_cases hclosed : (untilQuote q cs).2 = true
    · refine .closed q hk hq ?_ ?_
      · rw [hl, String.toList_ofList]
        exact body_untilQuote hclosed
      · rw [hl, String.toList_ofList]
        simp [string, hclosed]
    · rw [Bool.not_eq_true] at hclosed
      have hall := untilQuote_eq_self hclosed
      have hchars : l.chars = q :: cs := by
        rw [hl]
        simp [string, hclosed, hall]
      have hcontent : l.content = cs := by
        rw [hl]
        exact hall
      refine .unclosed q hk hq ?_ ?_ ?_
      · rw [hcontent, String.toList_ofList]
        exact not_closes hslash hclosed
      · rw [hcontent, String.toList_ofList]
        exact hchars
      · rw [hchars] at hin
        exact List.self_eq_append_right.mp hin.symm
  · refine .plain hk ?_
    rw [String.toList_ofList, h.content hk]

namespace Scan

/-- The tokens of a scan cover the characters ahead. -/
theorem tiled {s : Scan} {before : List Char} (hpos : s.position = Position.start.after before)
    (hsaved : s.modes.saved.side = .outside) : Tiled before s.tokens s.rest := by
  -- The induction is on the steps, and each of them lengthens what is behind the scan.
  induction s using steps.induct generalizing before with
  | case1 s heof =>
    obtain ⟨hr, ht, -⟩ := next_of_eof hsaved heof
    rw [tokens_of_eof heof, ht, position_after hpos]
    have hend : Tiled before [.ending (.at (Position.start.after (before ++ s.gap)))] s.gap :=
      .ending fun c => isBlank_of_mem_gap
    rwa [← hr] at hend ⊢
  | case2 s hne ih =>
    rw [tokens_of_ne_eof hne]
    rcases s.next_cases with ⟨-, ht, -⟩ | ⟨c, cs, rest, hc, hr, hl, ht, hs⟩
    · rw [ht] at hne
      exact absurd rfl hne
    · have hsound : (s.lexeme c cs).Sound s.modes (c :: cs) := Lexeme.sound_first hsaved
      have hplace := position_after hpos (s.gap ++ (s.lexeme c cs).chars)
      have hrow : Tiled (before ++ s.gap ++ (s.lexeme c cs).chars) s.next.scan.tokens
          s.next.scan.rest := by
        refine ih ?_ ?_
        · rw [hs, List.append_assoc]
          exact hplace
        · rw [hs]
          exact hsound.saved
      rw [hl] at hsound
      rw [hs] at hrow
      rw [hr, hl]
      refine .token (fun c => isBlank_of_mem_gap) hne (Lexeme.chars_ne_nil _ _ hc) ?_ ?_ ?_
      · rw [ht, position_after hpos s.gap, hplace, List.append_assoc]
      · rw [ht]
        exact hsound.written _
      · rw [hs]
        exact hrow

end Scan

/-- The tokens of a source text cover it. -/
theorem tiled_tokenize (source : String) : Tiled [] (tokenize source) source.toList :=
  Scan.tiled rfl rfl

/-! ## Reading a Row -/

namespace Tiled

variable {before cs : List Char} {ts : List Token}

/-- The last tile is the end of the input, and no other is. -/
theorem eq_concat (h : Tiled before ts cs) :
    ∃ us, ts = us ++ [.ending (.at (Position.start.after (before ++ cs)))] ∧
      ∀ t ∈ us, t.kind ≠ .eof := by
  induction h with
  | ending => exact ⟨[], rfl, nofun⟩
  | @token before gap us rest t ts _ hkind _ _ _ _ ih =>
    obtain ⟨vs, hts, hvs⟩ := ih
    refine ⟨t :: vs, ?_, ?_⟩
    · rw [hts]
      simp only [List.append_assoc, List.cons_append]
    · intro t' ht'
      rcases List.mem_cons.mp ht' with rfl | ht'
      · exact hkind
      · exact hvs t' ht'

/-- A token other than the last is written in some characters of the text. -/
theorem exists_written (h : Tiled before ts cs) :
    ∀ t ∈ ts, t.kind ≠ .eof → ∃ u us v, before ++ cs = u ++ (us ++ v) ∧ us ≠ [] ∧
      t.span = .between (Position.start.after u) (Position.start.after (u ++ us)) ∧
      Written t us v := by
  induction h with
  | ending =>
    intro t ht hne
    rw [List.mem_singleton.mp ht] at hne
    exact absurd rfl hne
  | @token before gap us rest t ts _ _ hus hspan hwritten _ ih =>
    intro t' ht' hne
    rcases List.mem_cons.mp ht' with rfl | ht'
    · exact ⟨before ++ gap, us, rest, by simp, hus, hspan, hwritten⟩
    · obtain ⟨u, us', v, hsplit, hrest⟩ := ih t' ht' hne
      refine ⟨u, us', v, ?_, hrest⟩
      rw [← hsplit]
      simp only [List.append_assoc]

/-- Only the last token ends the input. It stands where the characters end. -/
theorem eq_ending (h : Tiled before ts cs) :
    ∀ t ∈ ts, t.kind = .eof → t = .ending (.at (Position.start.after (before ++ cs))) := by
  induction h with
  | ending =>
    intro t ht _
    exact List.mem_singleton.mp ht
  | @token before gap us rest t ts _ hkind _ _ _ _ ih =>
    intro t' ht' heof
    rcases List.mem_cons.mp ht' with rfl | ht'
    · exact absurd heof hkind
    · rw [ih t' ht' heof]
      simp only [List.append_assoc]

theorem getLast?_eq (h : Tiled before ts cs) :
    ts.getLast? = some (.ending (.at (Position.start.after (before ++ cs)))) := by
  induction h with
  | ending => rfl
  | @token before gap us rest t ts _ _ _ _ _ _ ih =>
    rw [List.getLast?_cons, ih, Option.getD_some]
    simp only [List.append_assoc]

/-- The place where characters begin has their offset. -/
theorem offset_start (cs : List Char) : (Position.start.after cs).offset = byteLength cs := by
  rw [Position.offset_after]
  exact Nat.zero_add _

/-- No token of a row begins in front of it. -/
theorem le_start (h : Tiled before ts cs) : ∀ t ∈ ts, byteLength before ≤ t.span.start := by
  induction h with
  | ending =>
    intro t ht
    rw [List.mem_singleton.mp ht]
    show byteLength _ ≤ (Position.start.after _).offset
    rw [offset_start, byteLength_append]
    omega
  | token _ _ _ hspan _ _ ih =>
    intro t ht
    rcases List.mem_cons.mp ht with rfl | ht
    · rw [hspan]
      show byteLength _ ≤ (Position.start.after _).offset
      rw [offset_start, byteLength_append]
      omega
    · have hle := ih t ht
      simp only [byteLength_append] at hle
      omega

/-- Every token of a row ends where or before the next one begins. -/
theorem pairwise (h : Tiled before ts cs) :
    ts.Pairwise fun t t' => t.span.stop ≤ t'.span.start := by
  induction h with
  | ending => exact List.pairwise_singleton _ _
  | token _ _ _ hspan _ hrow ih =>
    refine List.Pairwise.cons ?_ ih
    intro t' ht'
    rw [hspan]
    show (Position.start.after _).offset ≤ _
    rw [offset_start]
    exact hrow.le_start t' ht'

/-- What lies in no token lies in a gap. -/
theorem exists_gap (h : Tiled before ts cs) {i : Nat} (hle : byteLength before ≤ i)
    (hlt : i < byteLength (before ++ cs))
    (hout : ∀ t ∈ ts, ¬ (t.span.start ≤ i ∧ i < t.span.stop)) :
    ∃ u gap v, before ++ cs = u ++ (gap ++ v) ∧ (∀ c ∈ gap, isBlank c) ∧
      byteLength u ≤ i ∧ i < byteLength (u ++ gap) := by
  induction h with
  | @ending before gap hgap => exact ⟨before, gap, [], by simp, hgap, hle, hlt⟩
  | @token before gap us rest t ts hgap _ _ hspan _ _ ih =>
    -- The offset lies in the gap in front of the tile, or else behind the tile.
    by_cases hg : i < byteLength (before ++ gap)
    · exact ⟨before, gap, us ++ rest, rfl, hgap, hle, hg⟩
    have hbehind : byteLength (before ++ gap ++ us) ≤ i := by
      have hnot := hout t List.mem_cons_self
      rw [hspan] at hnot
      have hnot' : ¬ ((Position.start.after (before ++ gap)).offset ≤ i ∧
          i < (Position.start.after (before ++ gap ++ us)).offset) := hnot
      rw [offset_start, offset_start] at hnot'
      omega
    have heq : before ++ (gap ++ (us ++ rest)) = before ++ gap ++ us ++ rest := by
      simp only [List.append_assoc]
    rw [heq] at hlt ⊢
    exact ih hbehind hlt fun t' ht' => hout t' (List.mem_cons_of_mem t ht')

end Tiled

end TemplateSyntax
