import Mathlib.Data.List.Infix
import TemplateSyntax.Proofs.Scan.Cut
import TemplateSyntax.Proofs.Scan.Lines

/-! # More Input Behind

  When a source text is written on at its end, its tokens stay what they are, but for the last
  two in front of the end (`tokenize_extend`).

  A lexeme that has other characters behind it is ended by them, and mostly for good. Two rules
  look further. A point behind digits goes on with them if a digit follows, and a slash may
  close a block together with the word behind it; both the point and the word may be cut short
  by the end of the input. If something is left behind the next lexeme as well, they are not
  (`Lexeme.Followed`), and then nothing that is written behind the input changes the lexeme
  (`Lexeme.first_extend`).
-/

namespace TemplateSyntax

/-! ## Runs and Spellings -/

section runs

variable {p : Char → Bool} {cs z : List Char}

/-- What is left behind a run is what it stops at. -/
theorem eq_dropWhile (h : cs = cs.takeWhile p ++ z) : cs.dropWhile p = z := by
  have hsplit := List.takeWhile_append_dropWhile (p := p) (l := cs)
  exact List.append_cancel_left (hsplit.trans h)

/-- A run that stops at some characters stops there whatever comes behind these. -/
theorem run_extend (h : cs.dropWhile p ≠ []) (b : List Char) :
    (cs ++ b).takeWhile p = cs.takeWhile p ∧ (cs ++ b).dropWhile p = cs.dropWhile p ++ b := by
  constructor
  · apply takeWhile_append_of_ne
    intro hall
    exact h (List.dropWhile_eq_nil_iff.mpr (List.takeWhile_eq_self_iff.mp hall))
  · rw [List.dropWhile_append, if_neg (mt List.isEmpty_iff.mp h)]

/-- A spelling is looked for in as many characters as it has. -/
theorem isPrefixOf_extend {w u : List Char} (h : w.length ≤ u.length) (b : List Char) :
    w.isPrefixOf (u ++ b) = w.isPrefixOf u := by
  rw [Bool.eq_iff_iff, List.isPrefixOf_iff_prefix, List.isPrefixOf_iff_prefix]
  constructor
  · intro hw
    exact List.prefix_of_prefix_length_le hw (List.prefix_append u b) h
  · intro hw
    exact hw.trans (List.prefix_append u b)

end runs

/-! ## Where a Stretch of Text Ends -/

namespace Lexeme

section text

variable {mode : Mode} {c : Char} {cs u z : List Char}

theorem endsText_cons_iff : endsText mode (c :: cs) = true ↔
    isBreak c = true ∨ ∃ w ∈ mode.textEnds, w.toList <+: c :: cs := by
  simp only [endsText, Mode.atTextEnd, Bool.or_eq_true, List.any_eq_true,
    List.isPrefixOf_iff_prefix]

/-- No such spelling begins within another one. -/
theorem endsText_of_suffix {w : String} {q : List Char} (hw : w ∈ mode.textEnds)
    (hq : q <:+ w.toList.tail) (hne : q ≠ []) : endsText mode q = false := by
  have hall : ∀ w ∈ mode.textEnds, ∀ q ∈ w.toList.tail.tails, q ≠ [] →
      endsText mode q = false := by
    cases mode <;> decide
  exact hall w hw q ((List.mem_tails _ _).mpr hq) hne

/-- Where a stretch of text goes on, with the characters behind it in view that end it, it goes
    on whatever is behind these. -/
theorem endsText_inside (h : endsText mode (c :: (cs ++ z)) = false) (hz : z ≠ [])
    (hends : endsText mode z = true) (b : List Char) :
    endsText mode (c :: (cs ++ z) ++ b) = false := by
  rw [Bool.eq_false_iff] at h ⊢
  intro hnew
  rcases endsText_cons_iff.mp hnew with hbreak | ⟨w, hw, hprefix⟩
  · exact h (endsText_cons_iff.mpr (.inl hbreak))
  -- The spelling goes on behind the characters in view, and so what ends the text is within it.
  rcases List.prefix_or_prefix_of_prefix hprefix (List.prefix_append (c :: (cs ++ z)) b) with
    hshort | ⟨r, hr⟩
  · exact h (endsText_cons_iff.mpr (.inr ⟨w, hw, hshort⟩))
  · have hsuffix : z ++ r <:+ w.toList.tail := by
      refine ⟨cs, ?_⟩
      rw [← hr, List.cons_append, List.tail_cons, List.append_assoc]
    have hnot := endsText_of_suffix hw hsuffix (List.append_ne_nil_of_left_ne_nil hz r)
    rw [endsText_extend hends hz r] at hnot
    cases hnot

/-- A stretch of text that ends in front of some characters ends there whatever comes behind
    these. -/
theorem textRun_extend (h : u = textRun mode u ++ z) (hz : z ≠ []) (b : List Char) :
    textRun mode (u ++ b) = textRun mode u := by
  have hends : endsText mode z = true := endsText_of_textRun h
  induction u with
  | nil => exact absurd (List.append_eq_nil_iff.mp h.symm).2 hz
  | cons c cs ih =>
    rw [List.cons_append, textRun, textRun]
    by_cases hc : endsText mode (c :: cs) = true
    · have hnew : endsText mode (c :: (cs ++ b)) = true :=
        endsText_extend hc (List.cons_ne_nil c cs) b
      rw [if_pos hc, if_pos hnew]
    · rw [textRun, if_neg hc] at h
      have hcs : cs = textRun mode cs ++ z := (List.cons.inj h).2
      have hnew : endsText mode (c :: (cs ++ b)) = false := by
        have hgoes : endsText mode (c :: (textRun mode cs ++ z)) = false := by
          rw [← hcs]
          exact Bool.eq_false_iff.mpr hc
        have hinside := endsText_inside hgoes hz hends b
        rwa [← hcs] at hinside
      rw [if_neg hc, hnew, if_neg Bool.false_ne_true, ih hcs]

/-- No marker of a mode begins another one. -/
theorem marker_eq_of_prefix {k k' : Marker} (hk : k ∈ mode.markers) (hk' : k' ∈ mode.markers)
    (h : k.spelling.toList <+: k'.spelling.toList) : k = k' := by
  have hall : ∀ k ∈ mode.markers, ∀ k' ∈ mode.markers,
      k.spelling.toList <+: k'.spelling.toList → k = k' := by
    cases mode <;> decide
  exact hall k hk k' hk' h

theorem marker?_extend {k : Marker} (h : mode.marker? u = some k) (b : List Char) :
    mode.marker? (u ++ b) = some k := by
  rw [← h]
  refine (find?_eq_of_imp (fun _ hopens => isPrefixOf_append hopens b) ?_).symm
  intro k' hk'
  have hspelling := spelling_prefix_of_marker? h
  have hspelling' : k'.spelling.toList <+: u ++ b := spelling_prefix_of_marker? hk'
  have hmem : k ∈ mode.markers := List.mem_of_find?_eq_some h
  have hmem' : k' ∈ mode.markers := List.mem_of_find?_eq_some hk'
  rcases List.prefix_or_prefix_of_prefix hspelling' (List.prefix_append u b) with hshort | hlong
  · exact List.isPrefixOf_iff_prefix.mpr hshort
  · have hsame := marker_eq_of_prefix hmem hmem' (hspelling.trans hlong)
    rw [← hsame]
    exact List.isPrefixOf_iff_prefix.mpr hspelling

end text

/-! ## Rule by Rule -/

/-- Some of the characters are left behind the lexeme that they begin with, if they begin with
    one. -/
def Followed (m : Modes) (z : List Char) : Prop :=
  z ≠ [] ∧ ∀ d ds, z = d :: ds → isBlank d = false → (first m d ds).chars ≠ d :: ds

section rules

variable {m : Modes} {c : Char} {cs y z : List Char}

theorem comment_extend (h : cs = (comment m cs).chars ++ z) (hz : z ≠ []) (b : List Char) :
    comment m (cs ++ b) = comment m cs := by
  have hrest : cs.dropWhile (!isBreak ·) = z := eq_dropWhile h
  unfold comment
  rw [(run_extend (hrest ▸ hz) b).1]

/-- A marker is no beginning of a comment, nor of another marker, whatever comes behind what is
    left behind it. -/
theorem markup_marker_extend {k : Marker} (hcomment : ¬ opensComment (c :: cs) = true)
    (hk : m.current.marker? (c :: cs) = some k) (h : c :: cs = k.spelling.toList ++ z)
    (hz : z ≠ []) (b : List Char) : markup m (c :: cs ++ b) = markup m (c :: cs) := by
  have hlong : "//".toList.length ≤ (c :: cs).length := by
    have hspelling := List.length_pos_iff.mpr (spelling_ne_nil (List.mem_of_find?_eq_some hk))
    have hrest := List.length_pos_iff.mpr hz
    rw [h, List.length_append]
    show 2 ≤ _
    omega
  have hcomment' : ¬ opensComment (c :: cs ++ b) = true := by
    rw [opensComment, isPrefixOf_extend hlong]
    exact hcomment
  rw [markup, if_neg hcomment', marker?_extend hk, markup, if_neg hcomment, hk]

/-- Nothing ends a stretch of text at once, and so neither a comment nor a marker does later. -/
theorem markup_text_extend (hgoes : endsText m.current (c :: cs) = false)
    (h : c :: cs = textRun m.current (c :: cs) ++ z) (hz : z ≠ []) (b : List Char) :
    markup m (c :: cs ++ b) = plain m.current.textKind (textRun m.current (c :: cs)) m := by
  have hgoes' : endsText m.current (c :: cs ++ b) = false := by
    have hrun := h
    rw [textRun, if_neg (Bool.eq_false_iff.mp hgoes)] at hrun
    have htail : cs = textRun m.current cs ++ z := (List.cons.inj hrun).2
    rw [htail] at hgoes ⊢
    exact endsText_inside hgoes hz (endsText_of_textRun h) b
  simp only [List.cons_append, endsText_cons, Bool.or_eq_false_iff, Option.isSome_eq_false_iff,
    Option.isNone_iff_eq_none] at hgoes'
  obtain ⟨⟨-, hcomment⟩, hnone⟩ := hgoes'
  rw [← List.cons_append] at hcomment hnone
  rw [markup, hcomment, if_neg Bool.false_ne_true, hnone, textRun_extend h hz]

theorem markup_extend (hc : isBlank c = false) (h : c :: cs = (markup m (c :: cs)).chars ++ z)
    (hz : z ≠ []) (b : List Char) : markup m (c :: cs ++ b) = markup m (c :: cs) := by
  by_cases hcomment : opensComment (c :: cs) = true
  · have hcomment' : opensComment (c :: cs ++ b) = true := isPrefixOf_append hcomment b
    have hmarkup : markup m (c :: cs) = comment m (c :: cs) := if_pos hcomment
    rw [hmarkup] at h ⊢
    rw [markup, if_pos hcomment', comment_extend h hz]
  cases hk : m.current.marker? (c :: cs) with
  | some k =>
    rw [markup, if_neg hcomment, hk] at h
    exact markup_marker_extend hcomment hk h hz b
  | none =>
    have hmarkup : markup m (c :: cs) =
        plain m.current.textKind (textRun m.current (c :: cs)) m := by
      rw [markup, if_neg hcomment, hk]
    have hgoes : endsText m.current (c :: cs) = false := by
      simp only [endsText_cons, isBreak_eq_false hc, Bool.eq_false_iff.mpr hcomment, hk,
        Option.isSome_none, Bool.or_false]
    rw [hmarkup] at h ⊢
    exact markup_text_extend hgoes h hz b

theorem modes_number (m : Modes) (cs : List Char) : (number m cs).modes = m := by
  unfold number
  dsimp only
  split
  · split <;> rfl
  · rfl

/-- Digits that are not followed by a point and a digit are not so later, unless a point is all
    that is left behind them. -/
theorem not_pointed_extend (h : ∀ d rest, ¬ Pointed cs d rest)
    (hrest : cs.dropWhile Char.isDigit = z) (hz : z ≠ []) (hpoint : z ≠ ['.']) (b : List Char) :
    ∀ d rest, ¬ Pointed (cs ++ b) d rest := by
  rintro d rest ⟨hpointed, hd⟩
  rw [(run_extend (hrest ▸ hz) b).2, hrest] at hpointed
  rcases z with _ | ⟨x, _ | ⟨e, ds⟩⟩
  · exact hz rfl
  · exact hpoint (by rw [(List.cons.inj hpointed).1])
  · obtain ⟨rfl, htail⟩ := List.cons.inj hpointed
    obtain ⟨rfl, -⟩ := List.cons.inj htail
    exact h e ds ⟨hrest, hd⟩

/-- A number may go on behind a point, unless something stands behind this. -/
theorem number_extend (h : cs = (number m cs).chars ++ z) (hz : z ≠ []) (hpoint : z ≠ ['.'])
    (b : List Char) : number m (cs ++ b) = number m cs := by
  by_cases hexists : ∃ d rest, Pointed cs d rest
  · obtain ⟨d, rest, hd⟩ := hexists
    have hne : cs.dropWhile Char.isDigit ≠ [] := by
      rw [hd.1]
      exact List.cons_ne_nil _ _
    have hfraction : rest.dropWhile Char.isDigit = z := by
      have hsplit := List.takeWhile_append_dropWhile (p := Char.isDigit) (l := cs)
      rw [number_of_pointed hd, chars_plain] at h
      have hwhole := hsplit.trans h
      rw [hd.1, List.append_assoc] at hwhole
      apply eq_dropWhile
      simpa using List.append_cancel_left hwhole
    obtain ⟨htake, hdrop⟩ := run_extend hne b
    have hd' : Pointed (cs ++ b) d (rest ++ b) := by
      refine ⟨?_, hd.2⟩
      rw [hdrop, hd.1]
      rfl
    rw [number_of_pointed hd', number_of_pointed hd, htake, (run_extend (hfraction ▸ hz) b).1]
  · have hnot : ∀ d rest, ¬ Pointed cs d rest := fun d rest hd => hexists ⟨d, rest, hd⟩
    rw [number_of_not_pointed hnot, chars_plain] at h
    have hrest : cs.dropWhile Char.isDigit = z := eq_dropWhile h
    have hnot' : ∀ d rest, ¬ Pointed (cs ++ b) d rest := not_pointed_extend hnot hrest hz hpoint b
    rw [number_of_not_pointed hnot', number_of_not_pointed hnot, (run_extend (hrest ▸ hz) b).1]

theorem word_extend (h : cs = (word m cs).chars ++ z) (hz : z ≠ []) (b : List Char) :
    word m (cs ++ b) = word m cs := by
  have hrest : cs.dropWhile isWordChar = z := eq_dropWhile h
  unfold word
  rw [(run_extend (hrest ▸ hz) b).1]

/-- Characters of a word at the end of the input become no word that closes a block, if they do not
    all belong to the next lexeme: such a word is an identifier for itself. -/
theorem closer?_extend (hm : m.current = .expression) (hall : y.takeWhile isWordChar = y)
    (hy : Followed m y) (b : List Char) :
    Kind.closer? (.ofList ((y ++ b).takeWhile isWordChar)) = none := by
  rw [Option.eq_none_iff_forall_ne_some]
  intro k hk
  obtain ⟨d, ds, hword, hd⟩ := exists_head_of_closer? hk
  obtain ⟨e, es, rfl⟩ := List.exists_cons_of_ne_nil hy.1
  obtain rfl : d = e := by
    have hstart : isWordChar e = true := List.takeWhile_eq_self_iff.mp hall e (by simp)
    rw [List.cons_append, List.takeWhile_cons_of_pos hstart] at hword
    exact (List.cons.inj hword).1.symm
  have hfirst : first m d es = word m (d :: es) := by
    rw [first, hm]
    rcases hd with rfl | rfl | rfl <;> rfl
  have hblank : isBlank d = false := by rcases hd with rfl | rfl | rfl <;> rfl
  apply hy.2 d es rfl hblank
  rw [hfirst]
  exact hall

/-- A slash waits for the end of the word behind it, if that may become one that closes a
    block. -/
theorem slash_extend (hm : m.current = .expression) (h : '/' :: y = (slash m y).chars ++ z)
    (hz : Followed (slash m y).modes z) (b : List Char) : slash m (y ++ b) = slash m y := by
  by_cases hrun : y.dropWhile isWordChar = []
  · have hall : y.takeWhile isWordChar = y := by
      rw [List.takeWhile_eq_self_iff]
      exact List.dropWhile_eq_nil_iff.mp hrun
    cases hk : Kind.closer? (.ofList y) with
    | some k =>
      simp only [slash, hall, hk, chars_plain] at h
      exact absurd (List.self_eq_append_right.mp h) hz.1
    | none =>
      have hslash : slash m y = plain .division ['/'] m := by
        simp only [slash, hall, hk]
      rw [hslash] at h hz ⊢
      obtain rfl : y = z := (List.cons.inj h).2
      simp only [slash, closer?_extend hm hall hz b]
  · unfold slash
    rw [(run_extend hrun b).1]

theorem atSign_extend (hy : y ≠ []) (b : List Char) : atSign m (y ++ b) = atSign m y := by
  obtain ⟨d, ds, rfl⟩ := List.exists_cons_of_ne_nil hy
  rfl

theorem symbol_extend (hy : y ≠ []) (b : List Char) : symbol m c (y ++ b) = symbol m c y := by
  have hshort : ∀ x ∈ symbols, x.1.toList.length ≤ 2 := by decide
  have hlong : 2 ≤ (c :: y).length := by
    have := List.length_pos_iff.mpr hy
    simp only [List.length_cons]
    omega
  have hsame : ∀ x ∈ symbols,
      x.1.toList.isPrefixOf (c :: y ++ b) = x.1.toList.isPrefixOf (c :: y) :=
    fun x hx => isPrefixOf_extend (Nat.le_trans (hshort x hx) hlong) b
  unfold symbol
  rw [← List.cons_append, List.find?_congr hsame]

/-- A lexeme of an expression block waits for what it may go on with. -/
theorem expression_extend (hm : m.current = .expression)
    (h : c :: y = (expression m c y).chars ++ z) (hz : Followed (expression m c y).modes z)
    (b : List Char) : expression m c (y ++ b) = expression m c y := by
  have hcomplete : (expression m c y).complete = true := by
    rw [← Bool.not_eq_false]
    intro hopen
    have hfirst : first m c y = expression m c y := by rw [first, hm]
    rw [← hfirst] at h hopen
    rw [(inside_of_open hopen).1] at h
    exact hz.1 (List.self_eq_append_right.mp h)
  have hy : y ≠ [] := by
    rintro rfl
    have hchars := List.length_pos_iff.mpr (expression_ne_nil m c [])
    have hrest := List.length_pos_iff.mpr hz.1
    have hlength := congrArg List.length h
    simp only [List.length_append, List.length_cons, List.length_nil] at hlength
    omega
  unfold expression at hcomplete h hz ⊢
  split
  · next hq =>
    rw [if_pos hq] at hcomplete
    exact string_append hcomplete b
  next hq =>
  split
  · rfl
  next hbrace =>
  rw [if_neg hq, if_neg hbrace] at h hz
  split
  · next hslash =>
    rw [if_pos hslash] at h hz
    rw [hslash] at h
    exact slash_extend hm h hz b
  next hslash =>
  rw [if_neg hslash] at h hz
  split
  · exact atSign_extend hy b
  next hat =>
  rw [if_neg hat] at h hz
  split
  · next hd =>
    rw [if_pos hd] at h hz
    have hpoint : z ≠ ['.'] := by
      rintro rfl
      rw [modes_number] at hz
      apply hz.2 '.' [] rfl rfl
      rw [first, hm]
      rfl
    exact number_extend h hz.1 hpoint b
  next hd =>
  rw [if_neg hd] at h hz
  split
  · next hw =>
    rw [if_pos hw] at h
    exact word_extend h hz.1 b
  · exact symbol_extend hy b

end rules

/-! ## All Rules -/

/-- A lexeme with something left behind it and behind the next one is the same whatever is written
    behind the characters. -/
theorem first_extend {m : Modes} {c : Char} {y z : List Char} (hc : isBlank c = false)
    (h : c :: y = (first m c y).chars ++ z) (hz : Followed (first m c y).modes z)
    (b : List Char) : first m c (y ++ b) = first m c y := by
  cases hm : m.current with
  | text | css | js =>
    have hfirst : ∀ ds, first m c ds = markup m (c :: ds) := by
      intro ds
      rw [first, hm]
    rw [hfirst] at h
    rw [hfirst, hfirst]
    exact markup_extend hc h hz.1 b
  | comment =>
    have hfirst : ∀ ds, first m c ds = comment m (c :: ds) := by
      intro ds
      rw [first, hm]
    rw [hfirst] at h
    rw [hfirst, hfirst]
    exact comment_extend h hz.1 b
  | expression =>
    have hfirst : ∀ ds, first m c ds = expression m c ds := by
      intro ds
      rw [first, hm]
    rw [hfirst] at h hz
    rw [hfirst, hfirst]
    exact expression_extend hm h hz b

end Lexeme

/-! ## Scans -/

namespace Scan

variable {s : Scan}

/-- Where a further token comes, something is left. -/
theorem rest_ne_nil (h : s.next.token.kind ≠ .eof) : s.rest ≠ [] := by
  obtain ⟨r, p, m⟩ := s
  rintro rfl
  exact h rfl

/-- Two further tokens come only if something is left behind the lexeme of the first. -/
theorem followed (h : s.next.token.kind ≠ .eof) (h' : s.next.scan.next.token.kind ≠ .eof) :
    Lexeme.Followed s.modes s.rest := by
  refine ⟨rest_ne_nil h, ?_⟩
  intro d ds hr hd hall
  rcases s.next_cases with ⟨-, ht, -⟩ | ⟨c, cs, rest, hc, hsplit, hl, -, hs⟩
  · rw [ht] at h
    exact h rfl
  · have hgap : s.gap = [] := by
      rw [gap, hr]
      exact List.takeWhile_cons_of_neg (Bool.eq_false_iff.mp hd)
    rw [hgap, hr] at hsplit
    obtain ⟨rfl, rfl⟩ := List.cons.inj hsplit
    have hrest := rest_ne_nil h'
    rw [hs] at hrest
    rw [lexeme, hall] at hl
    exact hrest (List.self_eq_append_right.mp hl)

/-- A step in front of two further tokens is the same whatever is written behind the input. -/
theorem next_extend (h₁ : s.next.token.kind ≠ .eof) (h₂ : s.next.scan.next.token.kind ≠ .eof)
    (h₃ : s.next.scan.next.scan.next.token.kind ≠ .eof) (b : List Char) :
    (s.append b).next.token = s.next.token ∧ (s.append b).next.scan = s.next.scan.append b := by
  have hfollowed := followed h₂ h₃
  rcases s.next_cases with ⟨-, ht, -⟩ | ⟨c, cs, rest, hc, hr, hl, ht, hs⟩
  · rw [ht] at h₁
    exact absurd rfl h₁
  · rw [hs] at hfollowed
    have hlexeme : (s.append b).lexeme c (cs ++ b) = s.lexeme c cs :=
      Lexeme.first_extend hc hl hfollowed b
    have hr' : (s.append b).rest = s.gap ++ c :: (cs ++ b) := by
      rw [append, hr, List.append_assoc, List.cons_append]
    have hl' : c :: (cs ++ b) = ((s.append b).lexeme c (cs ++ b)).chars ++ (rest ++ b) := by
      rw [hlexeme, ← List.append_assoc, ← hl, List.cons_append]
    have hnext := next_eq (fun g => isBlank_of_mem_gap) hc hr' hl'
    rw [hlexeme] at hnext
    rw [ht, hs]
    exact hnext

theorem next_ne_eof (h : 2 ≤ s.tokens.length) : s.next.token.kind ≠ .eof := by
  intro heof
  rw [tokens_of_eof heof] at h
  simp at h

/-- A scan gives the same tokens whatever is written behind the input, but for the last three. -/
theorem tokens_extend (s : Scan) (b : List Char) :
    s.tokens.take (s.tokens.length - 3) <+: (s.append b).tokens := by
  induction s using steps.induct with
  | case1 s heof =>
    rw [tokens_of_eof heof]
    exact List.nil_prefix
  | case2 s hne ih =>
    rw [tokens_of_ne_eof hne]
    by_cases hmany : 3 ≤ s.next.scan.tokens.length
    · have h₂ : s.next.scan.next.token.kind ≠ .eof := next_ne_eof (by omega)
      have h₃ : s.next.scan.next.scan.next.token.kind ≠ .eof := by
        rw [tokens_of_ne_eof h₂, List.length_cons] at hmany
        exact next_ne_eof (by omega)
      obtain ⟨htoken, hscan⟩ := next_extend hne h₂ h₃ b
      have hne' : (s.append b).next.token.kind ≠ .eof := by
        rw [htoken]
        exact hne
      rw [tokens_of_ne_eof hne', htoken, hscan, List.length_cons, Nat.succ_sub hmany,
        List.take_succ_cons]
      exact List.cons_prefix_cons.mpr ⟨rfl, ih⟩
    -- The token is one of the last three itself.
    · have hzero : (s.next.token :: s.next.scan.tokens).length - 3 = 0 := by
        rw [List.length_cons]
        omega
      rw [hzero]
      exact List.nil_prefix

end Scan

/-- What is written behind a source text leaves all tokens in front of its end as they are, places
    included, but for the last two of them, if there are so many. -/
theorem tokenize_extend (s t : String) :
    ∃ ts, tokenize s = ts ++ [.ending (.at (Position.start.after s.toList))] ∧
      (∀ u ∈ ts, u.kind ≠ .eof) ∧ ts.take (ts.length - 2) <+: tokenize (s ++ t) := by
  obtain ⟨ts, hts, hne⟩ := (tiled_tokenize s).eq_concat
  rw [List.nil_append] at hts
  refine ⟨ts, hts, hne, ?_⟩
  have hwhole : Scan.ofSource (s ++ t) = (Scan.ofSource s).append t.toList := by
    rw [Scan.ofSource, String.toList_append]
    rfl
  have hprefix := Scan.tokens_extend (Scan.ofSource s) t.toList
  have hkept : (tokenize s).take ((tokenize s).length - 3) = ts.take (ts.length - 2) := by
    rw [hts, List.length_append, List.length_singleton]
    exact List.take_append_of_le_length (by omega)
  rw [← hwhole] at hprefix
  rw [← hkept]
  exact hprefix

-- A number that a digit behind its point goes on with, and a slash that comes to close a block: of
-- each both tokens are changed.
example : (tokenize "\x7b1.").map (·.kind) = [.exprStart, .integer, .period, .eof] ∧
    (tokenize "\x7b1.5").map (·.kind) = [.exprStart, .float, .eof] ∧
    (tokenize "\x7b/fo").map (·.kind) = [.exprStart, .division, .identifier, .eof] ∧
    (tokenize "\x7b/for").map (·.kind) = [.exprStart, .forEnd, .eof] := by
  decide +kernel

end TemplateSyntax
