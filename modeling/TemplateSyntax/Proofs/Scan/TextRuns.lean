import TemplateSyntax.Proofs.Scan.Automaton
import TemplateSyntax.Proofs.Scan.Cut
import TemplateSyntax.Proofs.Scan.Tiles

/-! # Runs of Text

  A token of text runs from a character that is not blank to the first place where its mode has
  something else to do, and not a character further (`ExactText`). What a mode looks for is said
  here by a list of spellings alone (`Mode.stops`), the two slashes of a comment among them.

  So where a source has nothing of that kind, its tokens are its lines without their indentation
  (`pieces`).
-/

namespace TemplateSyntax

/-! ## Where Text Stops -/

/-- The spellings that end a run of text in a mode. -/
def Mode.stops : Mode → List String
  | .text => ["//", "<script>", "<style>", "\x7b"]
  | .css => ["//", "</style>", "@\x7b"]
  | .js => ["//", "</script>", "@\x7b"]
  | .comment | .expression => []

/-- The characters begin with a spelling that ends a run of text. -/
def Mode.StopsAt (m : Mode) (cs : List Char) : Prop := ∃ w ∈ m.stops, w.toList <+: cs

/-- The kinds of tokens of text. -/
def Kind.isText (k : Kind) : Prop := k = .text ∨ k = .textCss ∨ k = .textJs

instance (k : Kind) : Decidable k.isText :=
  inferInstanceAs (Decidable (k = .text ∨ k = .textCss ∨ k = .textJs))

section markup

variable {mode : Mode} (h : mode.isMarkup = true)
include h

/-- The stops of a mode of markup are what its text is scanned for. -/
theorem Mode.stopsAt_iff {cs : List Char} : mode.StopsAt cs ↔ mode.atTextEnd cs = true := by
  have htable : mode.stops = mode.textEnds := by
    cases mode with
    | text | css | js => rfl
    | comment | expression => cases h
  simp only [StopsAt, htable, atTextEnd, List.any_eq_true, List.isPrefixOf_iff_prefix]

/-- A run of text ends at the end of a line or of the input, and at the stops of its mode. -/
theorem Lexeme.endsText_iff {cs : List Char} :
    endsText mode cs = true ↔ (∀ c ∈ cs.head?, isBreak c = true) ∨ mode.StopsAt cs := by
  rw [Mode.stopsAt_iff h]
  cases cs with
  | nil => simp [endsText]
  | cons c cs => simp [endsText]

end markup

/-! ## What a Run Takes -/

/-- The characters `us` are a run of text in front of the characters `v`: there is something that
    ends it there, and there is none at its own characters. -/
structure Mode.Runs (m : Mode) (us v : List Char) : Prop where
  nonempty : us ≠ []
  free : ∀ x y, us = x ++ y → y ≠ [] → Lexeme.endsText m (y ++ v) = false
  ends : Lexeme.endsText m v = true

/-- No line ends within a run. -/
theorem Mode.Runs.unbroken {m : Mode} {us v : List Char} (h : m.Runs us v) :
    ∀ c ∈ us, isBreak c = false := by
  intro c hc
  obtain ⟨x, y, hxy⟩ := List.append_of_mem hc
  have hgoes := h.free x (c :: y) hxy (List.cons_ne_nil c y)
  simp only [Lexeme.endsText, List.cons_append, Bool.or_eq_false_iff] at hgoes
  exact hgoes.1

/-- What is taken of characters that begin with no blank does not begin with one. -/
theorem isBlank_head {c : Char} {cs us v : List Char} (hc : isBlank c = false)
    (h : c :: cs = us ++ v) : ∀ d ∈ us.head?, isBlank d = false := by
  cases us with
  | nil => nofun
  | cons a us =>
    intro d hd
    rw [← Option.some.inj hd, ← (List.cons.inj h).1]
    exact hc

namespace Lexeme

/-- In the midst of a run nothing ends it. -/
theorem not_endsText_of_textRun {mode : Mode} {cs u v w : List Char}
    (h : textRun mode cs = u ++ v) (hcs : cs = u ++ (v ++ w)) (hv : v ≠ []) :
    endsText mode (v ++ w) = false := by
  induction u generalizing cs with
  | nil =>
    rw [← Bool.not_eq_true]
    intro hends
    rw [List.nil_append] at h hcs
    have hnone : textRun mode cs = [] := by
      obtain ⟨c, v, rfl⟩ := List.exists_cons_of_ne_nil hv
      rw [hcs, List.cons_append, textRun, ← List.cons_append, if_pos hends]
    exact hv (h.symm.trans hnone)
  | cons c u ih =>
    rw [hcs, List.cons_append, List.cons_append, textRun] at h
    split at h
    · cases h
    · exact ih (List.cons.inj h).2 rfl

/-- The characters that a stretch of text takes are a run. -/
theorem runs_textRun {mode : Mode} {cs us v : List Char} (hus : textRun mode cs = us)
    (hcs : cs = us ++ v) (hne : us ≠ []) : mode.Runs us v where
  nonempty := hne
  free := by
    intro x y hxy hy
    refine not_endsText_of_textRun (hus.trans hxy) ?_ hy
    rw [hcs, hxy, List.append_assoc]
  ends := by
    apply endsText_of_textRun (u := cs)
    rw [hus]
    exact hcs

variable {m : Modes}

/-- A lexeme of markup that is text is a run. -/
theorem markup_eq_run {cs : List Char} (hk : (markup m cs).kind.isText) :
    markup m cs = plain m.current.textKind (textRun m.current cs) m := by
  have htags : ∀ mode : Mode, ∀ k ∈ mode.markers, ¬ k.kind.isText := by
    intro mode
    cases mode <;> decide
  unfold markup at hk ⊢
  split at hk
  · have hnot : ¬ Kind.isText .comment := by decide
    exact absurd hk hnot
  · next hcomment =>
    rw [if_neg hcomment]
    split at hk
    · next k hmarker => exact absurd hk (htags _ k (List.mem_of_find?_eq_some hmarker))
    · next hnone => rfl

/-- Between two steps, text is scanned by the modes of markup alone, each of which has its own
    kind. -/
theorem first_eq_run {c : Char} {cs : List Char} (h : m.Settled)
    (hk : (first m c cs).kind.isText) :
    m.current.isMarkup = true ∧
      first m c cs = plain m.current.textKind (textRun m.current (c :: cs)) m := by
  unfold first at hk ⊢
  split at hk
  · next hm => exact ⟨by rw [hm]; rfl, markup_eq_run hk⟩
  · next hm => exact ⟨by rw [hm]; rfl, markup_eq_run hk⟩
  · next hm => exact ⟨by rw [hm]; rfl, markup_eq_run hk⟩
  · next hm => exact absurd hm h.current
  · next hm =>
    have hobeys : (expression m c cs).Obeys m := obeys_expression hm
    have hnot : ∀ k ∈ Mode.expression.kinds, ¬ k.isText := by decide
    have hkind := hobeys.allowed
    rw [hm] at hkind
    exact absurd hk (hnot _ hkind)

/-- Where nothing stops it, markup is text. -/
theorem first_eq_text {c : Char} {cs : List Char} (hm : m.current = .text)
    (hstops : ¬ Mode.text.StopsAt (c :: cs)) :
    first m c cs = plain .text (textRun .text (c :: cs)) m := by
  have hmarkup : Mode.text.isMarkup = true := rfl
  rw [Mode.stopsAt_iff hmarkup, Mode.atTextEnd_eq, Bool.or_eq_true, not_or, Bool.not_eq_true,
    Bool.not_eq_true, Option.isSome_eq_false_iff, Option.isNone_iff_eq_none] at hstops
  obtain ⟨hcomment, hmarker⟩ := hstops
  unfold first
  rw [hm]
  show markup m (c :: cs) = _
  rw [markup, hcomment, hm, hmarker]
  rfl

end Lexeme

/-! ## Exact Runs -/

/-- A token is a run of text in a mode, from the first character of the run to the place in front
    of what ends it. -/
structure ExactText (source : String) (m : Mode) (t : Token) : Prop where
  mode : m.isMarkup = true
  kind : t.kind = m.textKind
  text : t.text.toByteArray = slice source t.span.start t.span.stop
  nonempty : t.text ≠ ""
  unbroken : ∀ c ∈ t.text.toList, c ≠ '\n' ∧ c ≠ '\r'
  unindented : ∀ c ∈ t.text.toList.head?, c ≠ ' ' ∧ c ≠ '\t'
  /-- Nothing stops the run at any of its characters. -/
  free : ∀ u v, source.toList = u ++ v → t.span.start ≤ byteLength u →
    byteLength u < t.span.stop → ¬ m.StopsAt v
  /-- Behind the run the line or the input ends, or the mode has a stop. -/
  stops : ∃ u v, source.toList = u ++ v ∧ byteLength u = t.span.stop ∧
    ((∀ c ∈ v.head?, c = '\n' ∨ c = '\r') ∨ m.StopsAt v)

/-- A run in a source, with the characters `u` in front of it and `v` behind, is exact. -/
theorem Mode.Runs.exactText {source : String} {m : Mode} {u us v : List Char}
    (hm : m.isMarkup = true) (h : m.Runs us v) (hsplit : source.toList = u ++ (us ++ v))
    (hfirst : ∀ c ∈ us.head?, isBlank c = false) :
    ExactText source m ⟨m.textKind, .between (Position.start.after u)
      (Position.start.after (u ++ us)), .ofList us⟩ := by
  have hstart := Tiled.offset_start u
  have hstop := Tiled.offset_start (u ++ us)
  have htext : (String.ofList us).toList = us := String.toList_ofList
  constructor
  case mode => exact hm
  case kind => rfl
  case text =>
    show (String.ofList us).toByteArray = slice source (Position.offset _) (Position.offset _)
    rw [hstart, hstop, slice_eq_of_split hsplit, ← String.utf8Encode_toList, htext]
  case nonempty =>
    intro hnil
    have hempty := congrArg String.toList hnil
    rw [htext] at hempty
    exact h.nonempty hempty
  case unbroken =>
    intro c hc
    rw [htext] at hc
    exact Lexeme.ne_of_isBreak (h.unbroken c hc)
  case unindented =>
    intro c hc
    rw [htext] at hc
    exact Lexeme.ne_of_isBlank (hfirst c hc)
  case free =>
    intro x y hxy hle hlt hat
    replace hle : (Position.start.after u).offset ≤ byteLength x := hle
    replace hlt : byteLength x < (Position.start.after (u ++ us)).offset := hlt
    rw [hstart] at hle
    rw [hstop] at hlt
    -- The place lies within the run, so the characters behind it are some of the run and `v`.
    obtain ⟨x, rfl⟩ := prefix_of_byteLength_le ⟨_, hsplit.symm⟩ ⟨y, hxy.symm⟩ hle
    rw [byteLength_append, byteLength_append] at hlt
    rw [hsplit, List.append_assoc] at hxy
    have hrest : us ++ v = x ++ y := List.append_cancel_left hxy
    obtain ⟨z, rfl⟩ := prefix_of_byteLength_le (w := us ++ v) ⟨y, hrest.symm⟩ ⟨v, rfl⟩ (by omega)
    rw [List.append_assoc] at hrest
    have hy : z ++ v = y := List.append_cancel_left hrest
    have hne : z ≠ [] := by
      intro hnil
      rw [hnil, List.append_nil] at hlt
      omega
    have hgoes := h.free x z rfl hne
    rw [hy, (Lexeme.endsText_iff hm).mpr (.inr hat)] at hgoes
    cases hgoes
  case stops =>
    have hends := (Lexeme.endsText_iff hm).mp h.ends
    refine ⟨u ++ us, v, by rw [hsplit, List.append_assoc], hstop.symm, ?_⟩
    refine hends.imp_left fun hline c hc => ?_
    have hbreak := hline c hc
    simpa [isBreak] using hbreak

/-- A step that gives a token of text gives a run. -/
theorem Scan.Behind.exactText_next {source : String} {before : List Char} {s : Scan}
    (h : Behind source before s) (hm : s.modes.Settled) (hk : s.next.token.kind.isText) :
    ExactText source s.modes.current s.next.token := by
  have hne : s.next.token.kind ≠ .eof := by
    intro heof
    rw [heof] at hk
    revert hk
    decide
  obtain ⟨u, c, cs, v, hc, hl, hsplit, ht⟩ := h.next_taken hne
  rw [ht] at hk
  obtain ⟨hmarkup, hrun⟩ := Lexeme.first_eq_run hm hk
  have htaken : (s.lexeme c cs).chars ≠ [] := Lexeme.chars_ne_nil s.modes cs hc
  generalize hus : Lexeme.textRun s.modes.current (c :: cs) = us at hrun
  have hlexeme : s.lexeme c cs = .plain s.modes.current.textKind us s.modes := hrun
  rw [hlexeme, Lexeme.chars_plain] at htaken hl hsplit
  rw [ht, hlexeme]
  exact (Lexeme.runs_textRun hus hl htaken).exactText hmarkup hsplit (isBlank_head hc hl)

/-! ## Nothing but Text -/

/-- The characters that indent a line. -/
def isIndent (c : Char) : Bool := c = ' ' || c = '\t'

/-- The lines of some characters without their indentation, and without those that have nothing
    else. -/
def pieces (cs : List Char) : List (List Char) :=
  ((cs.splitOnP isBreak).map (·.dropWhile isIndent)).filter (· ≠ [])

section pieces

variable {us v : List Char} {c : Char}

theorem pieces_nil : pieces [] = [] := rfl

/-- The lines in front of the end of a line are apart from those behind it. -/
theorem pieces_append_break (hc : isBreak c = true) (us v : List Char) :
    pieces (us ++ c :: v) = pieces us ++ pieces v := by
  rw [pieces, List.splitOnP_append_cons us v hc, List.map_append, List.filter_append]
  rfl

/-- No blank begins a line. -/
theorem pieces_cons_blank (hc : isBlank c = true) (cs : List Char) :
    pieces (c :: cs) = pieces cs := by
  by_cases hbreak : isBreak c = true
  · have happ := pieces_append_break hbreak [] cs
    rw [pieces_nil] at happ
    exact happ
  · have hindent : isIndent c = true := by
      simp only [isBlank, isBreak, isIndent, Bool.or_eq_true, decide_eq_true_eq] at hc hbreak ⊢
      tauto
    obtain ⟨l, ls, hsplit⟩ := List.exists_cons_of_ne_nil (List.splitOnP_ne_nil isBreak cs)
    rw [pieces, List.splitOnP_cons_eq_if_modifyHead, if_neg hbreak, pieces, hsplit,
      List.modifyHead_cons, List.map_cons, List.map_cons, List.dropWhile_cons_of_pos hindent]

theorem pieces_append_blanks {gap : List Char} (hgap : ∀ g ∈ gap, isBlank g = true)
    (cs : List Char) : pieces (gap ++ cs) = pieces cs := by
  induction gap with
  | nil => rfl
  | cons g gap ih =>
    rw [List.cons_append, pieces_cons_blank (hgap g List.mem_cons_self)]
    exact ih fun g' hg' => hgap g' (List.mem_cons_of_mem g hg')

/-- A run of text that goes on to the end of its line is one piece. -/
theorem pieces_run (hne : us ≠ []) (hus : ∀ c ∈ us, isBreak c = false)
    (hfirst : ∀ c ∈ us.head?, isBlank c = false) (hv : ∀ c ∈ v.head?, isBreak c = true) :
    pieces (us ++ v) = us :: pieces v := by
  have hrun : pieces us = [us] := by
    obtain ⟨c, cs, rfl⟩ := List.exists_cons_of_ne_nil hne
    have hindent : ¬ isIndent c = true := by
      have hblank := Lexeme.ne_of_isBlank (hfirst c rfl)
      simp [isIndent, hblank]
    rw [pieces, List.splitOnP_eq_singleton hus, List.map_singleton,
      List.dropWhile_cons_of_neg hindent]
    rfl
  cases v with
  | nil => rw [List.append_nil, hrun, pieces_nil]
  | cons b v =>
    have hb : isBreak b = true := hv b rfl
    rw [pieces_append_break hb, hrun, pieces_cons_blank (isBlank_of_isBreak hb)]
    rfl

end pieces

namespace Scan

/-- A step gives the next line as text, or there is none left. -/
theorem next_unstopped {s : Scan} (hm : s.modes.current = .text)
    (hfree : ∀ w ∈ Mode.text.stops, ¬ w.toList <:+: s.rest) :
    (s.next.token.kind = .eof ∧ s.next.token.text = "" ∧ pieces s.rest = []) ∨
    ∃ us, s.next.token.kind = .text ∧ s.next.token.text = .ofList us ∧
      pieces s.rest = us :: pieces s.next.scan.rest ∧ s.next.scan.rest <:+ s.rest ∧
      s.next.scan.modes = s.modes := by
  have hgap : ∀ g ∈ s.gap, isBlank g = true := fun g => isBlank_of_mem_gap
  rcases s.next_cases with ⟨hr, ht, -⟩ | ⟨c, cs, v, hc, hr, hl, ht, hs⟩
  · left
    rw [ht, hr]
    refine ⟨rfl, rfl, ?_⟩
    have hblank := pieces_append_blanks hgap []
    rw [List.append_nil, pieces_nil] at hblank
    exact hblank
  · right
    -- Neither the first character of the run nor any behind it begins a stop.
    have hnone : ∀ x y, s.rest = x ++ y → ¬ Mode.text.StopsAt y := by
      rintro x y hxy ⟨w, hw, hprefix⟩
      apply hfree w hw
      rw [hxy]
      exact hprefix.isInfix.trans (List.suffix_append x y).isInfix
    have hrun := Lexeme.first_eq_text hm (hnone _ _ hr)
    have htaken : (s.lexeme c cs).chars ≠ [] := Lexeme.chars_ne_nil s.modes cs hc
    generalize hus : Lexeme.textRun .text (c :: cs) = us at hrun
    have hlexeme : s.lexeme c cs = .plain .text us s.modes := hrun
    rw [hlexeme, Lexeme.chars_plain] at htaken hl
    rw [hlexeme] at ht hs
    have hruns : Mode.text.Runs us v := Lexeme.runs_textRun hus hl htaken
    have hsplit : s.rest = (s.gap ++ us) ++ v := by rw [hr, hl, List.append_assoc]
    have hline : ∀ d ∈ v.head?, isBreak d = true :=
      ((Lexeme.endsText_iff rfl).mp hruns.ends).resolve_right (hnone _ v hsplit)
    refine ⟨us, by rw [ht]; rfl, by rw [ht]; rfl, ?_, ?_, by rw [hs]; rfl⟩
    · rw [hs, hr, pieces_append_blanks hgap, hl]
      exact pieces_run htaken hruns.unbroken (isBlank_head hc hl) hline
    · rw [hs, hsplit]
      exact List.suffix_append _ v

/-- From a place in markup behind which nothing stops text, the tokens are the lines. -/
theorem tokens_unstopped {s : Scan} (hm : s.modes.current = .text)
    (hfree : ∀ w ∈ Mode.text.stops, ¬ w.toList <:+: s.rest) :
    s.tokens.map (fun t => (t.kind, t.text)) =
      (pieces s.rest).map (fun us => (.text, .ofList us)) ++ [(.eof, "")] := by
  induction s using steps.induct with
  | case1 s heof =>
    rcases next_unstopped hm hfree with ⟨-, htext, hpieces⟩ | ⟨us, hkind, -⟩
    · rw [tokens_of_eof heof, hpieces, List.map_singleton, heof, htext]
      rfl
    · rw [heof] at hkind
      cases hkind
  | case2 s hne ih =>
    rcases next_unstopped hm hfree with ⟨heof, -⟩ | ⟨us, hkind, htext, hpieces, hsuffix, hmodes⟩
    · exact absurd heof hne
    · have hbehind : ∀ w ∈ Mode.text.stops, ¬ w.toList <:+: s.next.scan.rest := by
        intro w hw hinside
        exact hfree w hw (hinside.trans hsuffix.isInfix)
      have hrest := ih (by rw [hmodes]; exact hm) hbehind
      rw [tokens_of_ne_eof hne, List.map_cons, hrest, hpieces, hkind, htext]
      rfl

end Scan

/-- Every token of text is an exact run of the mode that it is scanned in: it begins behind the
    blanks, and ends at the first line end or stop of its mode. So a source without any stops is
    scanned as its lines without their indentation, each of which is one text. -/
theorem text_runs_exact (source : String) :
    (∀ n, ((Scan.ofSource source).stepped n).next.token.kind.isText →
      ExactText source ((Scan.ofSource source).stepped n).modes.current
        ((Scan.ofSource source).stepped n).next.token) ∧
    (∀ t ∈ tokenize source, ∃ n, t = ((Scan.ofSource source).stepped n).next.token) ∧
    ((∀ w ∈ Mode.text.stops, ¬ w.toList <:+: source.toList) →
      (tokenize source).map (fun t => (t.kind, t.text)) =
        (pieces source.toList).map (fun us => (.text, .ofList us)) ++ [(.eof, "")]) := by
  constructor
  · intro n hk
    obtain ⟨before, hbehind⟩ := (Scan.behind_ofSource source).stepped n
    exact hbehind.exactText_next (Scan.settled_stepped Modes.settled_initial n) hk
  constructor
  · intro t ht
    exact Scan.exists_stepped ht
  · intro hfree
    exact Scan.tokens_unstopped rfl hfree

/-- Of two lines the indentation is left out and the spaces at the end are kept; a style stops
    its text in front of the tag that closes it. -/
theorem text_runs_exact_style :
    let lines := "  a b \r\n\t \n\tc"
    let style := "<style>a < b</style>"
    (∀ w ∈ Mode.text.stops, ¬ w.toList <:+: lines.toList) ∧
    (tokenize lines).map (fun t => (t.kind, t.text)) =
      [(.text, "a b "), (.text, "c"), (.eof, "")] ∧
    ((Scan.ofSource style).stepped 1).next.token = ⟨.textCss, ⟨7, 12, 1, 8⟩, "a < b"⟩ ∧
    ExactText style .css ⟨.textCss, ⟨7, 12, 1, 8⟩, "a < b"⟩ := by
  intro lines style
  have hfree : ∀ w ∈ Mode.text.stops, ¬ w.toList <:+: lines.toList := by decide +kernel
  have hpieces : pieces lines.toList = ["a b ".toList, "c".toList] := by decide +kernel
  have hlines := (text_runs_exact lines).2.2 hfree
  rw [hpieces] at hlines
  have hmode : ((Scan.ofSource style).stepped 1).modes.current = .css := by decide +kernel
  have htoken : ((Scan.ofSource style).stepped 1).next.token =
      ⟨.textCss, ⟨7, 12, 1, 8⟩, "a < b"⟩ := by
    decide +kernel
  have hexact := (text_runs_exact style).1 1 (by rw [htoken]; decide)
  rw [hmode, htoken] at hexact
  exact ⟨hfree, hlines, htoken, hexact⟩

end TemplateSyntax
