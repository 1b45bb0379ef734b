import TemplateSyntax.Proofs.Parse.Calls
import TemplateSyntax.Proofs.Scan.Coverage
import TemplateSyntax.Proofs.Scan.Lines
import TemplateSyntax.Proofs.Scan.Place

/-! # The Implied End

  Behind tokens that end no input the parser puts an ending token of its own. It has no source
  text to look at, and reckons the place from the last token alone (`Token.stop`): how many
  quotes were written tells by how many bytes the stretch is longer than the text, and the
  characters of the text lead from the opening quote to the closing one. For tokens of a
  source text the place is the true one (`Written.stop_eq`), so the ending token of the
  scanner may be left out as long as no blanks stand in front of it (`ending_implied`).
-/

namespace TemplateSyntax

open Parse

/-! ## Where a Token Ends -/

/-- A quote takes one byte and one column. -/
theorem Position.next_quote {q : Char} (hq : q = '"' ∨ q = '\'') (p : Position) :
    p.next q = Position.below 1 0 ⟨p.offset, p.line, p.column + 1⟩ := by
  have hne : q ≠ '\n' := by rcases hq with rfl | rfl <;> decide
  rw [next, if_neg hne, utf8Size_quote hq]
  rfl

/-- So many quotes are written beside the text of a token, one of them in front of it; the
    line and the column behind the token are those to which they and the text lead. -/
theorem Written.quotes {t : Token} {us rest : List Char} (h : Written t us rest) (p : Position) :
    ∃ quotes, byteLength us = t.text.utf8ByteSize + quotes ∧
      let read := Position.after ⟨p.offset, p.line, p.column + min quotes 1⟩ t.text.toList
      (p.after us).line = read.line ∧ (p.after us).column = read.column + (quotes - 1) := by
  rw [utf8ByteSize_eq]
  cases h with
  | plain hk hus => exact ⟨0, by rw [hus]; rfl, by rw [hus]; rfl, by rw [hus]; rfl⟩
  | closed q hk hq hbody hus =>
    have hbytes : byteLength us = byteLength t.text.toList + 2 := by
      rw [hus, byteLength, byteLength_append, byteLength, byteLength, utf8Size_quote hq]
      omega
    have hafter : p.after us =
        (Position.after ((⟨p.offset, p.line, p.column + 1⟩ : Position).below 1 0)
          t.text.toList).next q := by
      rw [← Position.next_quote hq, hus, Position.after_cons, Position.after_append]
      rfl
    rw [Position.after_below, Position.next_quote hq] at hafter
    exact ⟨2, hbytes, by rw [hafter]; rfl, by rw [hafter]; rfl⟩
  | unclosed q hk hq hopen hus hrest =>
    have hbytes : byteLength us = byteLength t.text.toList + 1 := by
      rw [hus, byteLength, utf8Size_quote hq, Nat.add_comm]
    have hafter : p.after us =
        Position.after ((⟨p.offset, p.line, p.column + 1⟩ : Position).below 1 0)
          t.text.toList := by
      rw [← Position.next_quote hq, hus, Position.after_cons]
    rw [Position.after_below] at hafter
    exact ⟨1, hbytes, by rw [hafter]; rfl, by rw [hafter]; rfl⟩

/-- A token as it is written in a source text ends where it is reckoned to end. -/
theorem Written.stop_eq {t : Token} {us rest : List Char} {p : Position}
    (h : Written t us rest) (hspan : t.span = .between p (p.after us)) :
    t.stop = .at (p.after us) := by
  obtain ⟨quotes, hbytes, hline, hcolumn⟩ := h.quotes p
  have hoffset := Position.offset_after p us
  have hquotes : t.span.stop - t.span.start - t.text.utf8ByteSize = quotes := by
    rw [hspan]
    show (p.after us).offset - p.offset - t.text.utf8ByteSize = quotes
    omega
  unfold Token.stop
  rw [hquotes, hspan]
  show Span.mk _ _ _ _ = Span.mk _ _ (p.after us).line (p.after us).column
  rw [hline, hcolumn]
  rfl

/-! ## The End of Some Tokens -/

/-- The empty stretch at an offset of a source text, its line and its column counted off in
    the characters in front of it. -/
def placeAt (source : String) (offset : Nat) : Span :=
  ⟨offset, offset, 1 + (upTo offset source.toList).count '\n',
    1 + (lastLine (upTo offset source.toList)).length⟩

theorem placeAt_eq {source : String} {u v : List Char} (h : source.toList = u ++ v) :
    placeAt source (Position.start.after u).offset = .at (Position.start.after u) := by
  have hoffset := Tiled.offset_start u
  have hline := Position.line_after .start u
  have hcolumn := Position.column_after u
  show Span.mk _ _ _ _ = Span.mk _ _ (Position.start.after u).line (Position.start.after u).column
  rw [hline, hcolumn, h, hoffset, upTo_byteLength]
  rfl

section tokens

variable {source : String} {ts : List Token} {t : Token}

/-- The stretch of a token of a source text does not end before it begins. -/
theorem Token.ordered_of_mem (ht : t ∈ tokenize source) : t.span.Ordered := by
  have hlossless : Lossless source (tokenize source) := (tiled_tokenize source).lossless
  by_cases heof : t.kind = .eof
  · -- The ending token is empty, and stands where the source text ends.
    obtain ⟨us, e, hus, hends, -, hstart, hstop, -⟩ := hlossless.ending
    rw [hus] at ht
    rcases List.mem_append.mp ht with hmem | hlast
    · exact absurd heof (hends t hmem)
    · rw [List.mem_singleton.mp hlast]
      show e.span.start ≤ e.span.stop
      omega
  · exact (hlossless.nonempty t ht heof).le

/-- A token of a source text ends at the place of its last offset. -/
theorem Token.stop_of_mem (ht : t ∈ tokenize source) (hne : t.kind ≠ .eof) :
    t.stop = placeAt source t.span.stop := by
  obtain ⟨u, us, v, hsplit, -, hspan, hwritten⟩ :=
    (tiled_tokenize source).exists_written t ht hne
  have hsource : source.toList = (u ++ us) ++ v := by rw [List.append_assoc, ← hsplit]; rfl
  have hplace := placeAt_eq hsource
  rw [hspan]
  show t.stop = placeAt source (Position.start.after (u ++ us)).offset
  rw [hplace, Position.after_append]
  apply hwritten.stop_eq
  rw [hspan, Position.after_append]

/-- Behind tokens that end no input stands the token that their last one implies. -/
theorem stored_of_ne_eof (h : ts.getLast? = some t) (hne : t.kind ≠ .eof) :
    stored ts = ts ++ [.ending t.stop] := by
  have hstop : (Cursor.ofTokens ts).stop = t.stop := by
    unfold Cursor.ofTokens
    rw [h]
    exact if_neg hne
  unfold stored
  rw [h, hstop]
  exact if_neg fun heof => hne (of_decide_eq_true heof)

/-- Tokens that are stored alike are parsed alike. -/
theorem parse_of_stored {us : List Token} (h : stored ts = stored us) : parse ts = parse us := by
  have hsame : SameAhead us ts 0 := sameAhead_of_take (by rw [h])
  have hstart : Together us ts 0 (.ofTokens us) (.ofTokens ts) := ⟨0, Nat.zero_le _, rfl, rfl⟩
  exact (program_together hsame hstart).1.symm

/-- Without the ending token of a source text the same tokens are stored if the last of the
    others takes the source to its end. -/
theorem stored_dropLast (h : (tokenize source).dropLast.getLast? = some t)
    (hstop : t.span.stop = source.utf8ByteSize) :
    stored (tokenize source).dropLast = stored (tokenize source) := by
  obtain ⟨us, hus, hends⟩ := (tiled_tokenize source).eq_concat
  have hplace := placeAt_eq (List.append_nil source.toList).symm
  rw [Tiled.offset_start, ← utf8ByteSize_eq, ← hstop] at hplace
  rw [stored_of_last (tiled_tokenize source).getLast?_eq rfl]
  rw [hus, List.dropLast_concat] at h
  have ht : t ∈ us := List.mem_of_getLast? h
  have hmem : t ∈ tokenize source := by rw [hus]; exact List.mem_append_left _ ht
  rw [hus, List.dropLast_concat, stored_of_ne_eof h (hends t ht),
    Token.stop_of_mem hmem (hends t ht), hplace]
  rfl

end tokens

/-- However many tokens of a source text are taken, if the last of them ends no input then the
    ending token that the parser puts behind them stands where that one ends: at its last offset,
    in the line and the column that the characters up to there make up. So to leave out only the
    ending token of the source text changes nothing in what it is parsed to, if no blanks stand
    in front of the end. -/
theorem ending_implied (source : String) :
    (∀ n t, ((tokenize source).take n).getLast? = some t → t.kind ≠ .eof →
      stored ((tokenize source).take n) =
        (tokenize source).take n ++ [.ending ⟨t.span.stop, t.span.stop,
          1 + (upTo t.span.stop source.toList).count '\n',
          1 + (lastLine (upTo t.span.stop source.toList)).length⟩]) ∧
    ((∀ t, (tokenize source).dropLast.getLast? = some t →
        t.span.stop = source.utf8ByteSize) →
      parse (tokenize source).dropLast = parse (tokenize source)) := by
  constructor
  · intro n t ht hne
    have hmem : t ∈ tokenize source := List.mem_of_mem_take (List.mem_of_getLast? ht)
    have hplace := Token.stop_of_mem hmem hne
    rw [stored_of_ne_eof ht hne, hplace]
    rfl
  · intro hstop
    cases hlast : (tokenize source).dropLast.getLast? with
    | some t => exact parse_of_stored (stored_dropLast hlast (hstop t hlast))
    | none =>
      -- There are only blanks, and so the input ends at once wherever it does.
      have hnone := List.getLast?_eq_none_iff.mp hlast
      obtain ⟨us, hus, -⟩ := (tiled_tokenize source).eq_concat
      rw [hnone]
      rw [hus, List.dropLast_concat] at hnone
      rw [hus, hnone]
      exact (program_of_atEnd rfl).1.trans (program_of_atEnd rfl).1.symm

/-- The string is not closed and takes two lines. -/
theorem ending_implied_unclosed :
    let source := "\x7bimport 'a\nbé"
    stored ((tokenize source).take 3) = (tokenize source).take 3 ++ [.ending ⟨14, 14, 2, 3⟩] ∧
      parse (tokenize source).dropLast = parse (tokenize source) := by
  intro source
  obtain ⟨hstored, hparse⟩ := ending_implied source
  constructor
  · have hlast : ((tokenize source).take 3).getLast? =
        some ⟨.string, ⟨8, 14, 1, 9⟩, "a\nbé"⟩ := by decide +kernel
    rw [hstored 3 _ hlast (by decide)]
    decide +kernel
  · apply hparse
    intro t ht
    have hlast : (tokenize source).dropLast.getLast? =
        some ⟨.string, ⟨8, 14, 1, 9⟩, "a\nbé"⟩ := by decide +kernel
    rw [hlast] at ht
    rw [← Option.some.inj ht]
    decide +kernel

end TemplateSyntax
