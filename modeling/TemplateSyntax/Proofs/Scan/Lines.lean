import TemplateSyntax.Proofs.Scan.Discipline
import TemplateSyntax.Proofs.Scan.Local
import TemplateSyntax.Proofs.Scan.Tiles

/-! # Scanning Line by Line

  A source text may be scanned in two parts that a line feed divides, as long as no segment
  and no expression block is open at the end of the first part: the tokens of the whole are
  those of the first part, but for its ending token, and then those of the second, as many
  bytes and lines further down as the first part takes (`tokenize_lines`).

  A scan of the whole goes along with one of the first part as far as that goes
  (`Scan.tokens_append`). What is left then is scanned from another place and with another
  saved mode than the second part alone, neither of which matters (`Scan.Below.tokens`).
-/

namespace TemplateSyntax

/-! ## Further Down -/

/-- The place so many bytes and lines further down. -/
def Position.below (bytes lines : Nat) (p : Position) : Position :=
  ⟨p.offset + bytes, p.line + lines, p.column⟩

/-- The stretch so many bytes and lines further down. -/
def Span.below (bytes lines : Nat) (s : Span) : Span :=
  ⟨s.start + bytes, s.stop + bytes, s.line + lines, s.column⟩

/-- The token so many bytes and lines further down. -/
def Token.below (bytes lines : Nat) (t : Token) : Token :=
  { t with span := t.span.below bytes lines }

section below

variable (bytes lines : Nat) (p q : Position)

theorem Span.between_below :
    Span.between (p.below bytes lines) (q.below bytes lines) =
      (Span.between p q).below bytes lines := rfl

theorem Position.next_below (c : Char) :
    (p.below bytes lines).next c = (p.next c).below bytes lines := by
  unfold next below
  split
  · simp only [Nat.add_right_comm]
  · simp only [Nat.add_right_comm]

/-- Places move along together. -/
theorem Position.after_below (cs : List Char) :
    (p.below bytes lines).after cs = (p.after cs).below bytes lines := by
  induction cs generalizing p with
  | nil => rfl
  | cons c cs ih => rw [after_cons, after_cons, next_below, ih]

/-- Behind some characters and a line feed one stands where a source text begins, but for
    the bytes and lines of these. -/
theorem Position.start_below (cs : List Char) :
    (Position.start.after cs).next '\n' =
      Position.start.below (byteLength cs + 1) (cs.count '\n' + 1) := by
  have hoffset := offset_after .start cs
  have hline := line_after .start cs
  have hfeed : '\n'.utf8Size = 1 := rfl
  rw [next, if_pos rfl, hoffset, hline, hfeed]
  rfl

end below

namespace Scan

/-! ## Blanks at the Front -/

section gap

variable {gap : List Char} (hgap : ∀ g ∈ gap, isBlank g = true) (cs : List Char) (p : Position)
  (m : Modes)
include hgap

/-- Blanks at the front only move the place where the rest begins. -/
theorem next_gap : (Scan.mk (gap ++ cs) p m).next = (Scan.mk cs (p.after gap) m).next := by
  have hskip : (Scan.mk (gap ++ cs) p m).skipBlanks = (Scan.mk cs (p.after gap) m).skipBlanks := by
    simp only [skipBlanks, List.dropWhile_append_of_pos hgap, List.takeWhile_append_of_pos hgap,
      Position.after_append]
  unfold next
  rw [hskip]

theorem tokens_gap : (Scan.mk (gap ++ cs) p m).tokens = (Scan.mk cs (p.after gap) m).tokens := by
  have hnext := next_gap hgap cs p m
  by_cases heof : (Scan.mk cs (p.after gap) m).next.token.kind = .eof
  · rw [tokens_of_eof heof, tokens_of_eof (by rw [hnext]; exact heof), hnext]
  · rw [tokens_of_ne_eof heof, tokens_of_ne_eof (by rw [hnext]; exact heof), hnext]

end gap

/-! ## More Characters Behind -/

/-- The scan with more characters behind those ahead. -/
def append (s : Scan) (cs : List Char) : Scan := { s with rest := s.rest ++ cs }

variable {s : Scan} {x : Char}

/-- A step is the same with another line behind those ahead, unless it leaves an expression
    block open at their end. -/
theorem next_append (hx : isBreak x = true) (t : List Char) (hne : s.next.token.kind ≠ .eof) :
    (s.next.scan.rest = [] ∧ s.next.scan.modes.current = .expression) ∨
    ((s.append (x :: t)).next.token = s.next.token ∧
      (s.append (x :: t)).next.scan = s.next.scan.append (x :: t)) := by
  rcases s.next_cases with ⟨-, ht, -⟩ | ⟨c, cs, rest, hc, hr, hl, ht, hs⟩
  · rw [ht] at hne
    exact absurd rfl hne
  · rw [ht, hs]
    by_cases hcomplete : (s.lexeme c cs).complete = true
    -- The lexeme is the same with a break behind the line, and leaves the break alone.
    · right
      have hlexeme : (s.append (x :: t)).lexeme c (cs ++ x :: t) = s.lexeme c cs :=
        Lexeme.first_append (isBlank_of_isBreak hx) s.modes cs t hcomplete (.inl hx)
      have hr' : (s.append (x :: t)).rest = s.gap ++ c :: (cs ++ x :: t) := by
        rw [append, hr, List.append_assoc, List.cons_append]
      have hl' : c :: (cs ++ x :: t) = ((s.append (x :: t)).lexeme c (cs ++ x :: t)).chars ++
          (rest ++ x :: t) := by
        rw [hlexeme, ← List.append_assoc, ← hl, List.cons_append]
      have hnext := next_eq (fun g => isBlank_of_mem_gap) hc hr' hl'
      rw [hlexeme] at hnext
      exact hnext
    -- An open string takes the whole line.
    · left
      rw [Bool.not_eq_true] at hcomplete
      obtain ⟨hall, hinside⟩ := Lexeme.inside_of_open hcomplete
      refine ⟨?_, hinside⟩
      have hrest : c :: cs = c :: cs ++ rest := by
        conv => lhs; rw [hl]
        exact congrArg (· ++ rest) hall
      exact List.self_eq_append_right.mp hrest

/-- Where nothing is left, the modes do not change any more. -/
theorem modes_exhausted {s : Scan} (h : s.rest = []) : s.exhausted.modes = s.modes := by
  obtain ⟨r, p, m⟩ := s
  cases h
  have heof : (Scan.mk [] p m).next.token.kind = .eof := rfl
  rw [exhausted_of_eof heof]
  rfl

/-- A scan of two lines that leaves no expression block open at the end of the first is a
    scan of the first, and one of the second from there on. -/
theorem tokens_append (hx : isBreak x = true) (t : List Char)
    (hsaved : s.modes.saved.side = .outside)
    (hclosed : s.exhausted.modes.current ≠ .expression) :
    (s.append (x :: t)).tokens =
      s.tokens.dropLast ++ (Scan.mk t (s.exhausted.position.next x) s.exhausted.modes).tokens := by
  induction s using steps.induct with
  | case1 s heof =>
    rw [tokens_of_eof heof, exhausted_of_eof heof]
    obtain ⟨hr, -, hs⟩ := next_of_eof hsaved heof
    -- Blanks are left in the first line, and the break behind them is one more.
    have hblank : ∀ g ∈ s.gap ++ [x], isBlank g = true := by
      intro g hg
      rcases List.mem_append.mp hg with hg | hg
      · exact isBlank_of_mem_gap hg
      · rw [List.mem_singleton.mp hg]
        exact isBlank_of_isBreak hx
    have hsplit : s.append (x :: t) = ⟨(s.gap ++ [x]) ++ t, s.position, s.modes⟩ := by
      rw [append, hr, List.append_assoc, List.singleton_append]
    rw [hsplit, tokens_gap hblank, hs, Position.after_append]
    rfl
  | case2 s hne ih =>
    rw [exhausted_of_ne_eof hne] at hclosed ⊢
    rcases next_append hx t hne with ⟨hrest, hinside⟩ | ⟨htoken, hscan⟩
    -- A block that is open with nothing left behind it stays open.
    · rw [modes_exhausted hrest] at hclosed
      exact absurd hinside hclosed
    · have hne' : (s.append (x :: t)).next.token.kind ≠ .eof := by
        rw [htoken]
        exact hne
      have hsaved' := (next_fits hsaved hne).2.2
      rw [tokens_of_ne_eof hne', tokens_of_ne_eof hne, htoken, hscan, ih hsaved' hclosed,
        List.dropLast_cons_of_ne_nil s.next.scan.tokens_ne_nil, List.cons_append]

/-! ## From Another Place -/

/-- A scan of the same characters in alike modes, from a place so many bytes and lines
    further down. -/
structure Below (bytes lines : Nat) (s s' : Scan) : Prop where
  rest : s.rest = s'.rest
  place : s.position = s'.position.below bytes lines
  modes : s.modes.Alike s'.modes

variable {bytes lines : Nat} {s s' : Scan}

/-- A step of the one scan is a step of the other, further down. -/
theorem Below.step (h : Below bytes lines s s') :
    s.next.token = s'.next.token.below bytes lines ∧
      Below bytes lines s.next.scan s'.next.scan := by
  have hrest : s.skipBlanks.rest = s'.skipBlanks.rest := congrArg (List.dropWhile isBlank) h.rest
  have hplace : s.skipBlanks.position = s'.skipBlanks.position.below bytes lines := by
    simp only [skipBlanks, h.rest, h.place, Position.after_below]
  unfold next
  rw [hrest]
  split
  · rw [hplace]
    exact ⟨rfl, hrest, hplace, h.modes⟩
  · next c cs hcs =>
    have hl := Lexeme.alike_first h.modes c cs
    constructor
    · simp only [take, hl.kind, hl.chars, hl.content, hplace, Position.after_below,
        Span.between_below]
      rfl
    · refine ⟨?_, ?_, hl.modes⟩
      · simp only [take, hrest, hl.chars]
      · simp only [take, hplace, hl.chars, Position.after_below]

/-- So are all steps. -/
theorem Below.tokens (h : Below bytes lines s s') :
    s.tokens = s'.tokens.map (Token.below bytes lines) := by
  have hall : List.Forall₂ (fun t t' => t = t'.below bytes lines) s.tokens s'.tokens := by
    refine forall₂_tokens (fun s s' h => ?_) h
    obtain ⟨htoken, hscan⟩ := h.step
    refine ⟨htoken, ?_, fun _ => hscan⟩
    rw [htoken]
    rfl
  rwa [← List.forall₂_eq_eq_eq, List.forall₂_map_right_iff]

/-! ## The End of a Scan -/

/-- Nothing is left where a scan ends. -/
theorem rest_exhausted (hsaved : s.modes.saved.side = .outside) : s.exhausted.rest = [] := by
  induction s using steps.induct with
  | case1 s heof =>
    rw [exhausted_of_eof heof, (next_of_eof hsaved heof).2.2]
  | case2 s hne ih =>
    rw [exhausted_of_ne_eof hne]
    exact ih (next_fits hsaved hne).2.2

/-- A source text is scanned to its end. -/
theorem position_exhausted (source : String) :
    (ofSource source).exhausted.position = Position.start.after source.toList := by
  obtain ⟨before, hsplit, hplace⟩ := (behind_ofSource source).exhausted
  have hrest : (ofSource source).exhausted.rest = [] := rest_exhausted rfl
  rw [hrest, List.append_nil] at hsplit
  rw [hplace, hsplit]

end Scan

/-- A source text in two parts with a line feed between them, the first of which ends in
    plain markup, has the tokens of the first part in front of the ending token, and then
    those of the second part, further down by the bytes and lines of the first. -/
theorem tokenize_lines {s : String} (t : String)
    (h : (Scan.ofSource s).exhausted.modes.current = .text) :
    ∃ ts, tokenize s = ts ++ [.ending (.at (Position.start.after s.toList))] ∧
      (∀ u ∈ ts, u.kind ≠ .eof) ∧
      tokenize (s ++ "\n" ++ t) =
        ts ++ (tokenize t).map (Token.below (s.utf8ByteSize + 1) (s.toList.count '\n' + 1)) := by
  obtain ⟨ts, hts, hne⟩ := (tiled_tokenize s).eq_concat
  rw [List.nil_append] at hts
  refine ⟨ts, hts, hne, ?_⟩
  have hclosed : (Scan.ofSource s).exhausted.modes.current ≠ .expression := by
    rw [h]
    decide
  have hwhole : Scan.ofSource (s ++ "\n" ++ t) = (Scan.ofSource s).append ('\n' :: t.toList) := by
    have hlist : (s ++ "\n" ++ t).toList = s.toList ++ '\n' :: t.toList := by
      simp [String.toList_append]
    rw [Scan.ofSource, hlist]
    rfl
  -- The second line begins further down, and the saved mode there is of no use in markup.
  have hbelow : Scan.Below (s.utf8ByteSize + 1) (s.toList.count '\n' + 1)
      ⟨t.toList, (Scan.ofSource s).exhausted.position.next '\n',
        (Scan.ofSource s).exhausted.modes⟩ (Scan.ofSource t) := by
    refine ⟨rfl, ?_, h, fun he => absurd he hclosed⟩
    rw [Scan.position_exhausted, Position.start_below, utf8ByteSize_eq]
    rfl
  have hfirst : (Scan.ofSource s).tokens.dropLast = ts := by
    show (tokenize s).dropLast = ts
    rw [hts, List.dropLast_concat]
  calc tokenize (s ++ "\n" ++ t)
      = ((Scan.ofSource s).append ('\n' :: t.toList)).tokens := by rw [tokenize, hwhole]
    _ = (Scan.ofSource s).tokens.dropLast ++ (Scan.mk t.toList
          ((Scan.ofSource s).exhausted.position.next '\n')
          (Scan.ofSource s).exhausted.modes).tokens :=
        Scan.tokens_append rfl t.toList rfl hclosed
    _ = ts ++ (tokenize t).map (Token.below (s.utf8ByteSize + 1) (s.toList.count '\n' + 1)) := by
        rw [hfirst, hbelow.tokens]
        rfl

/-- Behind a style segment with a block in it, the second line is scanned as markup, though
    the mode that the block returned to is still saved. -/
theorem tokenize_lines_style :
    let s := "<style>@\x7ba\x7d\n</style>b"
    let t := "\x7b c @ \x7d"
    (Scan.ofSource s).exhausted.modes = ⟨.text, .css⟩ ∧
    ∃ ts, tokenize s = ts ++ [.ending (.at (Position.start.after s.toList))] ∧
      (∀ u ∈ ts, u.kind ≠ .eof) ∧
      tokenize (s ++ "\n" ++ t) = ts ++ (tokenize t).map (Token.below 22 2) := by
  intro s t
  have hmodes : (Scan.ofSource s).exhausted.modes = ⟨.text, .css⟩ := by decide +kernel
  have hbytes : s.utf8ByteSize + 1 = 22 := by decide +kernel
  have hfeeds : s.toList.count '\n' + 1 = 2 := by decide +kernel
  have hmarkup : (Scan.ofSource s).exhausted.modes.current = .text := by rw [hmodes]
  have hlines := tokenize_lines t hmarkup
  rw [hbytes, hfeeds] at hlines
  exact ⟨hmodes, hlines⟩

end TemplateSyntax
