import Mathlib.Data.List.Infix
import TemplateSyntax.Parse.Program
import TemplateSyntax.Proofs.Parse.Blame
import TemplateSyntax.Proofs.Parse.Spans
import TemplateSyntax.Proofs.Scan.Local

/-! # Line Ends Do Not Matter

  A line may end in a carriage return and a line feed or in the line feed alone (`lineFeeds`).
  Outside of strings both are blanks, and the carriage return is the last character of its line,
  so the column that it takes is nobody's. The tokens are the same, on the same lines and in the
  same columns (`Token.Level`), and so is whatever is read of them (`compile_plainLines`).

  A string holds its characters as they are. It must not contain such an end of a line, between
  its quotes or behind an opening quote that is never closed (`Span.HoldsLineEnd`).
-/

namespace TemplateSyntax

/-! ## Ends of Lines -/

/-- The characters with a line feed alone for each carriage return and line feed. -/
def lineFeeds : List Char → List Char
  | [] => []
  | '\r' :: '\n' :: cs => '\n' :: lineFeeds cs
  | c :: cs => c :: lineFeeds cs

/-- The source text with lines that end in a line feed alone. -/
def plainLines (source : String) : String := .ofList (lineFeeds source.toList)

/-- The stretch takes in a carriage return and the line feed behind it. -/
def Span.HoldsLineEnd (source : String) (s : Span) : Prop :=
  ∃ u v, source.toList = u ++ '\r' :: '\n' :: v ∧
    s.start ≤ byteLength u ∧ byteLength u + 2 ≤ s.stop

instance (source : String) (s : Span) : Decidable (s.HoldsLineEnd source) :=
  decidable_of_iff (∃ n ∈ List.range source.toList.length,
      ['\r', '\n'] <+: source.toList.drop n ∧ s.start ≤ byteLength (source.toList.take n) ∧
        byteLength (source.toList.take n) + 2 ≤ s.stop) <| by
    constructor
    · rintro ⟨n, -, ⟨v, hv⟩, hstart, hstop⟩
      refine ⟨source.toList.take n, v, ?_, hstart, hstop⟩
      exact (List.take_append_drop n _).symm.trans (congrArg (_ ++ ·) hv.symm)
    · rintro ⟨u, v, hsplit, hstart, hstop⟩
      refine ⟨u.length, ?_, ?_⟩
      · rw [hsplit, List.mem_range]
        simp
      · rw [hsplit, List.drop_left, List.take_left]
        exact ⟨List.prefix_append ['\r', '\n'] v, hstart, hstop⟩

/-- No carriage return has a line feed behind it. -/
def Plain (cs : List Char) : Prop := ¬ ['\r', '\n'] <:+: cs

instance (cs : List Char) : Decidable (Plain cs) := inferInstanceAs (Decidable (¬ _))

section lineFeeds

variable {u v cs : List Char} {c : Char}

theorem Plain.within (h : Plain cs) (hu : u <:+: cs) : Plain u :=
  fun hpair => h (hpair.trans hu)

/-- A character in front is not the carriage return of a pair. -/
theorem plain_cons (hpair : ∀ ds, c = '\r' → cs = '\n' :: ds → False) (hu : u <+: cs)
    (h : Plain u) : Plain (c :: u) := by
  intro hinfix
  rcases List.infix_cons_iff.mp hinfix with hprefix | hinfix
  · obtain ⟨hreturn, r, hr⟩ := List.cons_prefix_cons.mp hprefix
    obtain ⟨w, hw⟩ := hu
    refine hpair (r ++ w) hreturn.symm ?_
    rw [← hw, ← hr]
    rfl
  · exact h hinfix

theorem lineFeeds_cons (hc : c ≠ '\r') (cs : List Char) :
    lineFeeds (c :: cs) = c :: lineFeeds cs := by
  rw [lineFeeds]
  exact fun _ hreturn => absurd hreturn hc

/-- An end of a line is never parted by a character that is no line feed. -/
theorem lineFeeds_append (hc : c ≠ '\n') (u cs : List Char) :
    lineFeeds (u ++ c :: cs) = lineFeeds u ++ lineFeeds (c :: cs) := by
  fun_induction lineFeeds u with
  | case1 => rfl
  | case2 u ih => rw [List.cons_append, List.cons_append, lineFeeds, ih, List.cons_append]
  | case3 d u hpair ih =>
    rw [List.cons_append, lineFeeds, ih, List.cons_append]
    intro us hreturn hfeed
    rcases u with _ | ⟨e, u⟩
    · exact hc (List.cons.inj hfeed).1
    · exact hpair u hreturn (by rw [(List.cons.inj hfeed).1])

theorem lineFeeds_eq_self (h : Plain cs) : lineFeeds cs = cs := by
  fun_induction lineFeeds cs with
  | case1 => rfl
  | case2 cs ih => exact absurd (List.prefix_append ['\r', '\n'] cs).isInfix h
  | case3 c cs hpair ih => rw [ih (h.within (List.suffix_cons c cs).isInfix)]

theorem lineFeeds_append_pair (h : Plain u) (v : List Char) :
    lineFeeds (u ++ '\r' :: '\n' :: v) = u ++ '\n' :: lineFeeds v := by
  rw [lineFeeds_append (by decide), lineFeeds_eq_self h, lineFeeds]

theorem mem_of_mem_lineFeeds (h : c ∈ lineFeeds cs) : c ∈ cs := by
  fun_induction lineFeeds cs with
  | case1 => exact h
  | case2 cs ih =>
    rcases List.mem_cons.mp h with rfl | h
    · exact .tail _ (.head _)
    · exact .tail _ (.tail _ (ih h))
  | case3 d cs _ ih =>
    rcases List.mem_cons.mp h with rfl | h
    · exact .head _
    · exact .tail _ (ih h)

/-- Some characters are plain, or plain up to the first end of a line. -/
theorem plain_or_exists_pair (cs : List Char) :
    Plain cs ∨ ∃ u v, cs = u ++ '\r' :: '\n' :: v ∧ Plain u := by
  fun_induction lineFeeds cs with
  | case1 => exact .inl (by decide)
  | case2 cs => exact .inr ⟨[], cs, rfl, by decide⟩
  | case3 c cs hpair ih =>
    rcases ih with hplain | ⟨u, v, rfl, hplain⟩
    · exact .inl (plain_cons hpair (List.prefix_refl cs) hplain)
    · exact .inr ⟨c :: u, v, rfl, plain_cons hpair (List.prefix_append u _) hplain⟩

end lineFeeds

/-! ## Places -/

/-- The places are on one line and in one column. -/
structure Position.Level (p q : Position) : Prop where
  line : p.line = q.line
  column : p.column = q.column

namespace Position.Level

variable {p q : Position}

theorem next (h : p.Level q) (c : Char) : (p.next c).Level (q.next c) := by
  unfold Position.next
  split
  · exact ⟨congrArg (· + 1) h.line, rfl⟩
  · exact ⟨h.line, congrArg (· + 1) h.column⟩

theorem after (h : p.Level q) (cs : List Char) : (p.after cs).Level (q.after cs) := by
  induction cs generalizing p q with
  | nil => exact h
  | cons c cs ih => exact ih (h.next c)

/-- The column that a carriage return takes at the end of its line is given up there. -/
theorem after_lineFeeds (h : p.Level q) (cs : List Char) :
    (p.after cs).Level (q.after (lineFeeds cs)) := by
  fun_induction lineFeeds cs generalizing p q with
  | case1 => exact h
  | case2 cs ih => exact ih ⟨congrArg (· + 1) h.line, rfl⟩
  | case3 c cs _ ih => exact ih (h.next c)

end Position.Level

/-- The tokens have one kind and one text, on one line and in one column. -/
structure Token.Level (t u : Token) : Prop extends Token.Alike t u where
  line : t.span.line = u.span.line
  column : t.span.column = u.span.column

instance (t u : Token) : Decidable (t.Level u) :=
  decidable_of_iff (t.Alike u ∧ t.span.line = u.span.line ∧ t.span.column = u.span.column)
    ⟨fun h => ⟨h.1, h.2.1, h.2.2⟩, fun h => ⟨h.toAlike, h.line, h.column⟩⟩

/-! ## Lexemes -/

namespace Lexeme

variable {m : Modes} {c : Char}

/-- A string that is not closed at the end of a line goes on behind it. -/
theorem untilQuote_through {q : Char} (hq : q = '"' ∨ q = '\'') {u : List Char} (v : List Char)
    (h : (untilQuote q u).2 = false) :
    u ++ ['\r', '\n'] <+: (untilQuote q (u ++ '\r' :: '\n' :: v)).1 := by
  obtain ⟨-, hreturn, hfeed⟩ := ne_of_quote hq
  have hpair : ['\r', '\n'] <+: (untilQuote q ('\r' :: '\n' :: v)).1 := by
    rw [untilQuote_cons hreturn (by decide), untilQuote_cons hfeed (by decide)]
    exact List.prefix_append ['\r', '\n'] _
  fun_induction untilQuote q u with
  | case1 => exact hpair
  -- The backslash takes the carriage return along, and the line feed behind it is plain.
  | case2 =>
    show ['\\', '\r', '\n'] <+: (untilQuote q ('\\' :: '\r' :: '\n' :: v)).1
    rw [untilQuote, untilQuote_cons hfeed (by decide)]
    exact List.prefix_append ['\\', '\r', '\n'] _
  | case3 d cs body ih =>
    show '\\' :: d :: (cs ++ ['\r', '\n']) <+:
      (untilQuote q ('\\' :: d :: (cs ++ '\r' :: '\n' :: v))).1
    rw [untilQuote]
    exact List.cons_prefix_cons.mpr ⟨rfl, List.cons_prefix_cons.mpr ⟨rfl, ih h⟩⟩
  | case4 cs => cases h
  | case5 c cs hnil hcons hc body ih =>
    show c :: (cs ++ ['\r', '\n']) <+: (untilQuote q (c :: (cs ++ '\r' :: '\n' :: v))).1
    rw [untilQuote_cons hc (ne_slash hnil hcons)]
    exact List.cons_prefix_cons.mpr ⟨rfl, ih h⟩

/-- A lexeme is the same with line feeds alone behind its first character, and leaves what it
    left with line feeds alone. -/
theorem first_lineFeeds {cs rest : List Char} (hc : isBlank c = false)
    (hl : c :: cs = (first m c cs).chars ++ rest)
    (hplain : (first m c cs).kind = .string → Plain (first m c cs).content) :
    first m c (lineFeeds cs) = first m c cs ∧
      c :: lineFeeds cs = (first m c cs).chars ++ lineFeeds rest := by
  have hreturn : c ≠ '\r' := (ne_of_isBreak (isBreak_eq_false hc)).2
  have hfront : ∀ us, Plain us → Plain (c :: us) := fun us =>
    plain_cons (fun _ h => absurd h hreturn) (List.prefix_refl us)
  rcases plain_or_exists_pair cs with hcs | ⟨u, v, rfl, hu⟩
  · have hrest : Plain rest := (hfront cs hcs).within (by
      rw [hl]
      exact (List.suffix_append _ rest).isInfix)
    rw [lineFeeds_eq_self hcs, lineFeeds_eq_self hrest]
    exact ⟨rfl, hl⟩
  · by_cases hcomplete : (first m c u).complete = true
    -- The lexeme ends in the first line, which it does not share with what comes behind.
    · have hfirst : first m c (u ++ '\r' :: '\n' :: v) = first m c u :=
        first_append rfl m u ('\n' :: v) hcomplete (.inl rfl)
      have hfirst' : first m c (u ++ '\n' :: lineFeeds v) = first m c u :=
        first_append rfl m u (lineFeeds v) hcomplete (.inl rfl)
      rw [hfirst] at hl ⊢
      rw [lineFeeds_append_pair hu, hfirst']
      obtain ⟨r, hr⟩ := chars_prefix m c u
      have hrest : rest = r ++ '\r' :: '\n' :: v := by
        rw [← List.cons_append, ← hr, List.append_assoc] at hl
        exact (List.append_cancel_left hl).symm
      have hplain' : Plain r := (hfront u hu).within (by
        rw [← hr]
        exact (List.suffix_append _ r).isInfix)
      refine ⟨rfl, ?_⟩
      rw [hrest, lineFeeds_append_pair hplain', ← List.append_assoc, hr, List.cons_append]
    -- A string that is still open at the end of the line goes on behind it.
    · exfalso
      rw [Bool.not_eq_true] at hcomplete
      obtain ⟨hm, hq, hopen⟩ := string_of_open hcomplete
      rw [first_eq_string hm hq] at hplain
      refine hplain rfl ?_
      exact (List.suffix_append u _).isInfix.trans (untilQuote_through hq v hopen).isInfix

end Lexeme

/-! ## Two Scans -/

namespace Scan

/-- The second scan is the first with line feeds alone, on the same line and in the same
    column, and the strings ahead hold no other end of a line. -/
structure Fed (s s' : Scan) : Prop where
  rest : s'.rest = lineFeeds s.rest
  modes : s.modes = s'.modes
  place : s.position.Level s'.position
  plain : ∀ t ∈ s.tokens, t.kind = .string → Plain t.text.toList

variable {s s' : Scan}

/-- Blanks with line feeds alone are blanks. -/
theorem isBlank_lineFeeds {gap : List Char} (hgap : ∀ g ∈ gap, isBlank g = true) :
    ∀ g ∈ lineFeeds gap, isBlank g = true :=
  fun g hg => hgap g (mem_of_mem_lineFeeds hg)

theorem Fed.step (h : Fed s s') :
    s.next.token.Level s'.next.token ∧
      (s.next.token.kind ≠ .eof → Fed s.next.scan s'.next.scan) := by
  have hgap : ∀ g ∈ s.gap, isBlank g = true := fun g => isBlank_of_mem_gap
  have hgap' := isBlank_lineFeeds hgap
  have hplace := h.place.after_lineFeeds s.gap
  rcases s.next_cases with ⟨hr, ht, -⟩ | ⟨c, cs, rest, hc, hr, hl, ht, hs⟩
  · have hr' : s'.rest = lineFeeds s.gap := by rw [h.rest, ← hr]
    obtain ⟨ht', -⟩ := next_blank hgap' hr'
    constructor
    · rw [ht, ht']
      exact ⟨⟨rfl, rfl⟩, hplace.line, hplace.column⟩
    · rw [ht]
      exact fun hne => absurd rfl hne
  · obtain ⟨hfeed, hreturn⟩ := Lexeme.ne_of_isBreak (isBreak_eq_false hc)
    have hr' : s'.rest = lineFeeds s.gap ++ c :: lineFeeds cs := by
      rw [h.rest, hr, lineFeeds_append hfeed, lineFeeds_cons hreturn]
    have hplain : (s.lexeme c cs).kind = .string → Plain (s.lexeme c cs).content := by
      intro hk
      have htext := h.plain _ s.next_mem_tokens
      rw [ht] at htext
      have htext' := htext hk
      rwa [String.toList_ofList] at htext'
    obtain ⟨hlexeme, hl'⟩ := Lexeme.first_lineFeeds hc hl hplain
    have hlexeme' : s'.lexeme c (lineFeeds cs) = s.lexeme c cs := by
      rw [lexeme, ← h.modes]
      exact hlexeme
    obtain ⟨ht', hs'⟩ := next_eq hgap' hc hr' (by rw [hlexeme']; exact hl')
    rw [hlexeme', Position.after_append] at ht' hs'
    rw [Position.after_append] at ht hs
    constructor
    · rw [ht, ht']
      exact ⟨⟨rfl, rfl⟩, hplace.line, hplace.column⟩
    · intro hne
      refine ⟨?_, ?_, ?_, fun t htoken => h.plain t (mem_tokens_of_next hne htoken)⟩
      · rw [hs, hs']
      · rw [hs, hs']
      · rw [hs, hs']
        exact hplace.after _

end Scan

/-! ## Source Texts -/

/-- The text of a string stands in the stretch of its token. -/
theorem plain_text {source : String} {t : Token} (ht : t ∈ tokenize source)
    (hk : t.kind = .string) (h : ¬ t.span.HoldsLineEnd source) : Plain t.text.toList := by
  have hne : t.kind ≠ .eof := by
    rw [hk]
    decide
  obtain ⟨u, us, v, hsplit, -, hspan, hwritten⟩ := (tiled_tokenize source).exists_written t ht hne
  have hus : ∃ q w, us = q :: (t.text.toList ++ w) := by
    cases hwritten with
    | plain hne _ => exact absurd hk hne
    | closed q _ _ _ hus => exact ⟨q, [q], hus⟩
    | unclosed q _ _ _ hus _ => exact ⟨q, [], by rw [hus, List.append_nil]⟩
  obtain ⟨q, w, rfl⟩ := hus
  rintro ⟨a, b, hpair⟩
  refine h ⟨u ++ q :: a, b ++ w ++ v, ?_, ?_, ?_⟩
  · rw [← List.nil_append source.toList, hsplit, ← hpair]
    simp
  · rw [hspan]
    show (Position.start.after u).offset ≤ _
    rw [Tiled.offset_start, byteLength_append]
    omega
  · rw [hspan]
    show _ ≤ (Position.start.after (u ++ q :: (t.text.toList ++ w))).offset
    have hreturn : '\r'.utf8Size = 1 := rfl
    have hfeed : '\n'.utf8Size = 1 := rfl
    rw [Tiled.offset_start, ← hpair]
    simp only [byteLength_append, byteLength, hreturn, hfeed]
    omega

/-- The tokens are the same with line feeds alone, on the same lines and in the same columns. -/
theorem level_tokenize {source : String}
    (h : ∀ t ∈ tokenize source, t.kind = .string → ¬ t.span.HoldsLineEnd source) :
    List.Forall₂ Token.Level (tokenize source) (tokenize (plainLines source)) := by
  have hstart : Scan.Fed (Scan.ofSource source) (Scan.ofSource (plainLines source)) := by
    refine ⟨?_, rfl, ⟨rfl, rfl⟩, fun t ht hk => plain_text ht hk (h t ht hk)⟩
    exact String.toList_ofList
  refine Scan.forall₂_tokens (fun s s' hfed => ?_) hstart
  obtain ⟨hlevel, hnext⟩ := hfed.step
  exact ⟨hlevel, hlevel.kind, hnext⟩

/-- Tokens on the same lines and in the same columns are read alike, and the same errors are
    found in them. -/
theorem parse_of_level {ts us : List Token} (h : List.Forall₂ Token.Level (stored ts)
    (stored us)) : parse ts = parse us := by
  rcases parse_of_alike (h.imp fun _ _ hlevel => hlevel.toAlike) with
    ⟨p, hp, hq⟩ | ⟨k, t, u, cause, ht, hu, he, he'⟩
  · rw [hp, hq]
  · have hlevel := rel_of_getElem? h ht hu
    rw [he, he', ParseError.blaming, ParseError.blaming, hlevel.line, hlevel.column]

/-- A source text with a carriage return in front of line feeds, but not in a string, has the
    same tokens on the same lines and in the same columns as with the line feeds alone, and is
    compiled to the same template or refused with the same error. -/
theorem compile_plainLines {source : String}
    (h : ∀ t ∈ tokenize source, t.kind = .string → ¬ t.span.HoldsLineEnd source) :
    List.Forall₂ Token.Level (tokenize source) (tokenize (plainLines source)) ∧
      compile source = compile (plainLines source) := by
  have hlevel := level_tokenize h
  refine ⟨hlevel, ?_⟩
  have hstored : List.Forall₂ Token.Level (stored (tokenize source))
      (stored (tokenize (plainLines source))) := by
    rw [stored_tokenize, stored_tokenize]
    exact hlevel
  exact parse_of_level hstored

/-- An operand is missing in the third line, behind a string and a comment. -/
theorem compile_plainLines_operand :
    let source := "\x7b\r\r\n'a\nb' +\r\n\x7d // c\r\n"
    let e : ParseError := ⟨.unexpected "\x7d" .expression, 4, 1⟩
    (∀ t ∈ tokenize source, t.kind = .string → ¬ t.span.HoldsLineEnd source) ∧
    List.Forall₂ Token.Level (tokenize source) (tokenize (plainLines source)) ∧
    compile source = .error e ∧ compile (plainLines source) = .error e := by
  intro source e
  have hplain : ∀ t ∈ tokenize source, t.kind = .string → ¬ t.span.HoldsLineEnd source := by
    decide +kernel
  obtain ⟨hlevel, hcompile⟩ := compile_plainLines hplain
  have he : compile source = .error e := by decide +kernel
  exact ⟨hplain, hlevel, he, hcompile.symm.trans he⟩

end TemplateSyntax
