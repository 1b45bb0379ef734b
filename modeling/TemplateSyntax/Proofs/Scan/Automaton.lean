import TemplateSyntax.Proofs.Scan.Step

/-! # The Automaton of Modes

  The mode behind a token can be told from the mode in front of it, the saved mode and
  the kind of the token (`Modes.after`); no character of the source is needed. So the
  modes of a scan are a fold over the tokens that it has given, and each token is of one
  of the few kinds that the mode in force has (`Mode.kinds`).

  A comment has a mode of its own, but it is entered and left inside one step. Between
  steps the mode is never that one, and the saved mode is always one of markup
  (`Modes.Settled`).
-/

namespace TemplateSyntax

/-! ## The Automaton -/

/-- The modes that an expression block may stand in. -/
def Mode.isMarkup : Mode → Bool
  | .text | .css | .js => true
  | .comment | .expression => false

/-- The kinds of the tokens that are scanned in a mode. -/
def Mode.kinds : Mode → List Kind
  | .text => [.text, .comment, .jsStart, .cssStart, .exprStart, .eof]
  | .css => [.textCss, .comment, .cssEnd, .exprStart, .eof]
  | .js => [.textJs, .comment, .jsEnd, .exprStart, .eof]
  | .comment => [.comment, .eof]
  | .expression =>
    [.exprStart, .exprEnd, .forEnd, .ifEnd, .switchEnd, .forStart, .forIn, .ifStart, .elseStart,
      .switchStart, .caseStart, .defaultStart, .importStart, .plus, .minus, .multiplication,
      .division, .equal, .notEqual, .lessThan, .greaterThan, .lessEqual, .greaterEqual,
      .logicalAnd, .logicalOr, .exclamation, .questionMark, .lParen, .rParen, .lBracket,
      .rBracket, .underscore, .comma, .period, .colon, .boolean, .string, .integer, .float,
      .identifier, .null, .undefined, .invalid, .eof]

/-- No text, comment or tag of a segment stands in an expression block, and everything
    else does. -/
theorem Mode.mem_kinds_expression {k : Kind} :
    k ∈ Mode.expression.kinds ↔ k.isMarkup = false ∧ k ≠ .comment := by
  cases k <;> decide

/-- The modes behind a token of a kind. -/
def Modes.after (m : Modes) : Kind → Modes
  | .jsStart => { m with current := .js }
  | .cssStart => { m with current := .css }
  | .jsEnd | .cssEnd | .comment => { m with current := .text }
  | .exprStart => if m.current = .expression then m else ⟨.expression, m.current⟩
  | .exprEnd => { m with current := m.saved }
  | _ => m

/-- The modes behind some tokens. -/
def Modes.afterAll (m : Modes) (ts : List Token) : Modes :=
  ts.foldl (fun m t => m.after t.kind) m

/-- What is true of the modes between two steps. -/
structure Modes.Settled (m : Modes) : Prop where
  current : m.current ≠ .comment
  saved : m.saved.isMarkup = true

theorem Modes.settled_initial : Modes.initial.Settled := ⟨nofun, rfl⟩

theorem Mode.isMarkup_of_ne {mode : Mode} (hc : mode ≠ .comment) (he : mode ≠ .expression) :
    mode.isMarkup = true := by
  cases mode <;> first | rfl | contradiction

/-- Whatever kind of token comes, the modes behind it are settled. -/
theorem Modes.Settled.after {m : Modes} {k : Kind} (h : m.Settled) : (m.after k).Settled := by
  unfold Modes.after
  split
  · exact ⟨nofun, h.saved⟩
  · exact ⟨nofun, h.saved⟩
  · exact ⟨nofun, h.saved⟩
  · exact ⟨nofun, h.saved⟩
  · exact ⟨nofun, h.saved⟩
  · split
    · exact h
    · next hne => exact ⟨nofun, Mode.isMarkup_of_ne h.current hne⟩
  · constructor
    · intro hc
      have hs := h.saved
      simp only at hc
      rw [hc] at hs
      cases hs
    · exact h.saved
  · exact h

/-- Inside an expression block only the closing brace changes the modes. -/
theorem Modes.after_of_expression {m : Modes} {k : Kind} (hm : m.current = .expression)
    (hk : k ∈ Mode.expression.kinds) (he : k ≠ .exprEnd) : m.after k = m := by
  cases k <;> first | rfl | exact absurd rfl he | exact absurd hk (by decide) | exact if_pos hm

/-! ## Lexemes Obey the Automaton -/

namespace Lexeme

/-- A lexeme is of a kind that the mode has, and the automaton tells the modes behind it. -/
structure Obeys (m : Modes) (l : Lexeme) : Prop where
  allowed : l.kind ∈ m.current.kinds
  modes : l.modes = m.after l.kind

variable {m : Modes}

/-! ### Markup -/

theorem obeys_comment {cs : List Char} (hm : m.current ≠ .expression) : Obeys m (comment m cs) := by
  constructor
  · show Kind.comment ∈ m.current.kinds
    revert hm
    cases m.current <;> decide
  · rfl

/-- A marker of a mode is of a kind that the mode has. -/
theorem kind_mem_of_mem_markers {mode : Mode} : ∀ k ∈ mode.markers, k.kind ∈ mode.kinds := by
  cases mode <;> decide

/-- A marker enters the mode that the automaton has for its kind. -/
theorem obeys_marker {k : Marker} (hk : k ∈ m.current.markers) :
    Obeys m (plain k.kind k.spelling.toList (m.enter k.enters)) := by
  constructor
  · exact kind_mem_of_mem_markers k hk
  · show m.enter k.enters = m.after k.kind
    obtain ⟨current, saved⟩ := m
    cases current <;> simp only [Mode.markers, List.mem_cons, List.not_mem_nil, or_false] at hk
    · rcases hk with rfl | rfl | rfl <;> rfl
    · rcases hk with rfl | rfl <;> rfl
    · rcases hk with rfl | rfl <;> rfl

/-- A mode of markup has the kind of the text in it. -/
theorem textKind_mem {mode : Mode} (h : mode.isMarkup = true) : mode.textKind ∈ mode.kinds := by
  revert h
  cases mode <;> decide

/-- Text between two markers changes nothing. -/
theorem obeys_text {us : List Char} (hm : m.current.isMarkup = true) :
    Obeys m (plain m.current.textKind us m) := by
  constructor
  · exact textKind_mem hm
  · show m = m.after m.current.textKind
    cases m.current <;> rfl

theorem obeys_markup {cs : List Char} (hm : m.current.isMarkup = true) :
    Obeys m (markup m cs) := by
  have hne : m.current ≠ .expression := by
    intro he
    rw [he] at hm
    cases hm
  unfold markup
  split
  · exact obeys_comment hne
  · split
    · next k hk => exact obeys_marker (List.mem_of_find?_eq_some hk)
    · exact obeys_text hm

/-! ### Expressions -/

section expression

variable (hm : m.current = .expression)
include hm

/-- What is no closing brace and belongs to an expression changes nothing. -/
theorem obeys_plain {k : Kind} {us : List Char} (hk : k ∈ Mode.expression.kinds)
    (he : k ≠ .exprEnd) : Obeys m (plain k us m) := by
  constructor
  · show k ∈ m.current.kinds
    rw [hm]
    exact hk
  · exact (Modes.after_of_expression hm hk he).symm

theorem obeys_string {q : Char} {cs : List Char} : Obeys m (string m q cs) := by
  constructor
  · show Kind.string ∈ m.current.kinds
    rw [hm]
    decide
  · rfl

theorem obeys_closing : Obeys m (plain .exprEnd ['}'] m.leave) := by
  constructor
  · show Kind.exprEnd ∈ m.current.kinds
    rw [hm]
    decide
  · rfl

theorem obeys_slash {cs : List Char} : Obeys m (slash m cs) := by
  unfold slash
  simp only
  split
  · next k hk =>
    rcases Kind.eq_of_closer? hk with rfl | rfl | rfl <;> exact obeys_plain hm (by decide) nofun
  · exact obeys_plain hm (by decide) nofun

theorem obeys_atSign {cs : List Char} : Obeys m (atSign m cs) := by
  unfold atSign
  split
  · exact obeys_plain hm (by decide) nofun
  · exact obeys_plain hm (by decide) nofun

theorem obeys_number {cs : List Char} : Obeys m (number m cs) := by
  unfold number
  simp only
  split
  · split
    · exact obeys_plain hm (by decide) nofun
    · exact obeys_plain hm (by decide) nofun
  · exact obeys_plain hm (by decide) nofun

theorem obeys_word {cs : List Char} : Obeys m (word m cs) := by
  unfold word Kind.ofWord
  simp only
  split
  · exact obeys_plain hm (by decide) nofun
  · unfold Kind.keyword?
    split <;> exact obeys_plain hm (by decide) nofun

/-- The table of operators and punctuation marks has no kind but those of expressions. -/
theorem obeys_symbol {c : Char} {cs : List Char} : Obeys m (symbol m c cs) := by
  have htable : ∀ s ∈ symbols, s.2 ∈ Mode.expression.kinds ∧ s.2 ≠ .exprEnd := by decide
  unfold symbol
  split
  · next spelling k hk =>
    obtain ⟨hkind, hend⟩ := htable (spelling, k) (List.mem_of_find?_eq_some hk)
    exact obeys_plain hm hkind hend
  · exact obeys_plain hm (by decide) nofun

theorem obeys_expression {c : Char} {cs : List Char} : Obeys m (expression m c cs) := by
  unfold expression
  split
  · exact obeys_string hm
  split
  · exact obeys_closing hm
  split
  · exact obeys_slash hm
  split
  · exact obeys_atSign hm
  split
  · exact obeys_number hm
  split
  · exact obeys_word hm
  · exact obeys_symbol hm

end expression

/-- Whatever is cut off between two steps obeys the automaton. -/
theorem obeys_first {c : Char} {cs : List Char} (h : m.Settled) : Obeys m (first m c cs) := by
  unfold first
  split
  · next hm => exact obeys_markup (by rw [hm]; rfl)
  · next hm => exact obeys_markup (by rw [hm]; rfl)
  · next hm => exact obeys_markup (by rw [hm]; rfl)
  · next hm => exact absurd hm h.current
  · next hm => exact obeys_expression hm

end Lexeme

/-! ## Runs of a Scan -/

namespace Scan

/-- One step obeys the automaton, the ending token included, which every mode has and
    which changes nothing. -/
theorem next_obeys {s : Scan} (h : s.modes.Settled) :
    s.next.token.kind ∈ s.modes.current.kinds ∧
      s.next.scan.modes = s.modes.after s.next.token.kind := by
  rcases s.next_cases with ⟨-, ht, hs⟩ | ⟨c, cs, rest, -, -, -, ht, hs⟩
  · rw [ht, hs]
    constructor
    · show Kind.eof ∈ s.modes.current.kinds
      cases s.modes.current <;> decide
    · rfl
  · rw [ht, hs]
    have hobeys : (s.lexeme c cs).Obeys s.modes := Lexeme.obeys_first h
    exact ⟨hobeys.allowed, hobeys.modes⟩

/-- The scan behind so many steps. -/
def stepped (s : Scan) : Nat → Scan
  | 0 => s
  | n + 1 => s.next.scan.stepped n

/-- The tokens of so many steps. -/
def upcoming (s : Scan) (n : Nat) : List Token :=
  s.pulled (.replicate n .next)

theorem upcoming_succ (s : Scan) (n : Nat) :
    s.upcoming (n + 1) = s.next.token :: s.next.scan.upcoming n := rfl

/-- However many steps are taken, the modes stay settled. -/
theorem settled_stepped {s : Scan} (h : s.modes.Settled) (n : Nat) :
    (s.stepped n).modes.Settled := by
  induction n generalizing s with
  | zero => exact h
  | succ n ih =>
    apply ih
    rw [(next_obeys h).2]
    exact h.after

/-- The scan behind any number of steps has characters of the source behind it. -/
theorem Behind.stepped {source : String} {before : List Char} {s : Scan}
    (h : Behind source before s) (n : Nat) : ∃ before', Behind source before' (s.stepped n) := by
  induction n generalizing s before with
  | zero => exact ⟨before, h⟩
  | succ n ih =>
    obtain ⟨before', h'⟩ := h.next
    exact ih h'

/-- Every token of a source text is that of some step. -/
theorem exists_stepped {s : Scan} {t : Token} (ht : t ∈ s.tokens) :
    ∃ n, t = (s.stepped n).next.token := by
  induction s using steps.induct with
  | case1 s heof =>
    rw [tokens_of_eof heof, List.mem_singleton] at ht
    exact ⟨0, ht⟩
  | case2 s hne ih =>
    rw [tokens_of_ne_eof hne, List.mem_cons] at ht
    rcases ht with rfl | ht
    · exact ⟨0, rfl⟩
    · obtain ⟨n, hn⟩ := ih ht
      exact ⟨n + 1, hn⟩

/-- The modes behind some steps are those that the automaton computes from their tokens. -/
theorem modes_stepped {s : Scan} (h : s.modes.Settled) (n : Nat) :
    (s.stepped n).modes = s.modes.afterAll (s.upcoming n) := by
  induction n generalizing s with
  | zero => rfl
  | succ n ih =>
    have hnext := (next_obeys h).2
    have hsettled : s.next.scan.modes.Settled := by
      rw [hnext]
      exact h.after
    show (s.next.scan.stepped n).modes = _
    rw [ih hsettled, hnext]
    rfl

/-- As long as an expression block is not closed, it stays open, and the mode that it was
    opened in stays saved. -/
theorem modes_stepped_of_open {s : Scan} (h : s.modes.Settled)
    (hm : s.modes.current = .expression) {n : Nat}
    (hn : ∀ t ∈ s.upcoming n, t.kind ≠ .exprEnd) : (s.stepped n).modes = s.modes := by
  induction n generalizing s with
  | zero => rfl
  | succ n ih =>
    rw [upcoming_succ] at hn
    obtain ⟨hallowed, hnext⟩ := next_obeys h
    -- Not even a further opening brace changes the saved mode.
    have hsame : s.next.scan.modes = s.modes := by
      rw [hnext]
      rw [hm] at hallowed
      exact Modes.after_of_expression hm hallowed (hn _ List.mem_cons_self)
    show (s.next.scan.stepped n).modes = s.modes
    rw [← hsame]
    apply ih
    · rw [hsame]
      exact h
    · rw [hsame]
      exact hm
    · intro t ht
      exact hn t (List.mem_cons_of_mem _ ht)

/-- A block opened in a mode of markup returns to it, however many tokens later it is
    closed. -/
theorem returns {s : Scan} (h : s.modes.Settled) (hm : s.modes.current.isMarkup = true)
    (hk : s.next.token.kind = .exprStart) {n : Nat}
    (hn : ∀ t ∈ s.next.scan.upcoming n, t.kind ≠ .exprEnd) :
    (s.stepped (n + 1)).modes = ⟨.expression, s.modes.current⟩ ∧
      ((s.stepped (n + 1)).next.token.kind = .exprEnd →
        (s.stepped (n + 1)).next.scan.modes.current = s.modes.current) := by
  have hnext : s.next.scan.modes = ⟨.expression, s.modes.current⟩ := by
    rw [(next_obeys h).2, hk]
    show (if s.modes.current = .expression then s.modes else _) = _
    rw [if_neg]
    intro he
    rw [he] at hm
    cases hm
  have hsettled : s.next.scan.modes.Settled := settled_stepped h 1
  have hopen : (s.stepped (n + 1)).modes = ⟨.expression, s.modes.current⟩ := by
    rw [← hnext]
    exact modes_stepped_of_open hsettled (by rw [hnext]) hn
  constructor
  · exact hopen
  · intro hend
    rw [(next_obeys (settled_stepped h (n + 1))).2, hend, hopen]
    rfl

/-- Behind any number of steps over a source text, the modes are settled, the next token
    is of a kind that the mode in force has, and the automaton tells the modes behind it.
    So it computes all modes from the tokens, and the closing brace of an expression block
    returns to the mode that the block was opened in. -/
theorem modes_follow_automaton (source : String) (n : Nat) :
    let s := (ofSource source).stepped n
    s.modes.Settled ∧
    s.next.token.kind ∈ s.modes.current.kinds ∧
    (s.modes.current = .expression →
      s.next.token.kind.isMarkup = false ∧ s.next.token.kind ≠ .comment) ∧
    s.next.scan.modes = s.modes.after s.next.token.kind ∧
    s.modes = Modes.initial.afterAll ((ofSource source).upcoming n) ∧
    ∀ d, s.modes.current.isMarkup = true → s.next.token.kind = .exprStart →
      (∀ t ∈ s.next.scan.upcoming d, t.kind ≠ .exprEnd) →
      (s.stepped (d + 1)).modes = ⟨.expression, s.modes.current⟩ ∧
        ((s.stepped (d + 1)).next.token.kind = .exprEnd →
          (s.stepped (d + 1)).next.scan.modes.current = s.modes.current) := by
  intro s
  have hinitial : (ofSource source).modes.Settled := Modes.settled_initial
  have hsettled : s.modes.Settled := settled_stepped hinitial n
  obtain ⟨hallowed, hnext⟩ := next_obeys hsettled
  constructor
  · exact hsettled
  constructor
  · exact hallowed
  constructor
  · intro hm
    rw [hm] at hallowed
    exact Mode.mem_kinds_expression.mp hallowed
  constructor
  · exact hnext
  constructor
  · exact modes_stepped hinitial n
  · intro d hm hk hn
    exact returns hsettled hm hk hn

/-- Behind a style tag, some text and the brace of a block, the name in the block is read
    and its closing brace returns to the style. -/
theorem modes_follow_automaton_style :
    let s := (ofSource "<style>a@\x7bb\x7d").stepped 2
    s.modes = ⟨.css, .text⟩ ∧ s.next.token.kind = .exprStart ∧
    (∀ t ∈ s.next.scan.upcoming 1, t.kind ≠ .exprEnd) ∧
    (s.stepped 2).next.token.kind = .exprEnd ∧
    (s.stepped 2).next.scan.modes.current = .css := by
  have hrule := modes_follow_automaton "<style>a@\x7bb\x7d" 2
  have hmodes : ((ofSource "<style>a@\x7bb\x7d").stepped 2).modes = ⟨.css, .text⟩ := by
    decide +kernel
  have hbrace : ((ofSource "<style>a@\x7bb\x7d").stepped 2).next.token.kind = .exprStart := by
    decide +kernel
  have hinside : ∀ t ∈ ((ofSource "<style>a@\x7bb\x7d").stepped 2).next.scan.upcoming 1,
      t.kind ≠ .exprEnd := by
    decide +kernel
  have hend : (((ofSource "<style>a@\x7bb\x7d").stepped 2).stepped 2).next.token.kind =
      .exprEnd := by
    decide +kernel
  obtain ⟨-, -, -, -, -, hblock⟩ := hrule
  have hback := (hblock 1 (by rw [hmodes]; rfl) hbrace hinside).2 hend
  rw [hmodes] at hback
  exact ⟨hmodes, hbrace, hinside, hend, hback⟩

end Scan

end TemplateSyntax
