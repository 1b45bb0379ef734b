import TemplateSyntax.Proofs.Grammar.Nodes.Exact
import TemplateSyntax.Proofs.Parse.Built.Ahead

/-! # Parsers Come to an End

  A parser of the grammar that reads something has got further, and one that fails stops no
  earlier than it was started, wherever this was (`Parse.Progresses`). What is read is written by
  some tokens, as the grammar has nothing that is written by none; and no parser goes back, for it
  is put together from single steps.

  The same holds of each round of a loop. So a loop that is run round after round, with no regard
  to how much a round reads, comes to an end (`Parse.Terminates`): it has no more rounds that read
  something than there are tokens ahead.
-/

namespace TemplateSyntax

open Parse Grammar

namespace Parse

variable {α β : Type} {movable start : Kind → Prop} {c c' : Cursor}

/-! ## Progress -/

/-- Started at the cursor, the parser moves over some tokens if it reads something, and does not
    go back if it fails. -/
structure ProgressesAt (p : Parse α) (c : Cursor) : Prop where
  reads {a : α} {c' : Cursor} (h : Reads p c a c') : ∃ u, u ≠ [] ∧ c.Spans u c'
  fails {e : ParseError} {c' : Cursor} (h : Fails p c e c') : ∃ u, c.Spans u c'

/-- The same, wherever the parser is started. -/
def Progresses (p : Parse α) : Prop := ∀ c, ProgressesAt p c

theorem ProgressesAt.length_lt {p : Parse α} {a : α} (h : ProgressesAt p c)
    (ha : Reads p c a c') : c'.ahead.length < c.ahead.length := by
  obtain ⟨u, hne, hu⟩ := h.reads ha
  exact hu.length_lt hne

/-- A parser that is put together from single steps cannot go back, so all that is left to know
    is how far it gets when it reads something. -/
theorem Built.progressesAt {p : Parse α} (hp : Built movable start p)
    (hc : start c.current.kind)
    (hreads : ∀ a c', Reads p c a c' → ∃ u, u ≠ [] ∧ c.Spans u c') : ProgressesAt p c := by
  constructor
  · intro a c' h
    exact hreads a c' h
  · intro e c' h
    obtain ⟨-, rfl⟩ := h
    exact hp.spans c hc

/-- What a parser reads is written by the tokens it has moved over, and if nothing is written by
    no tokens it has moved over some. -/
theorem Built.progresses {p : Parse α} {D : List Token → α → Prop}
    (hp : Built movable (fun _ => True) p) (hs : SoundFor p D)
    (hne : ∀ u a, D u a → u ≠ []) : Progresses p := by
  intro c
  apply hp.progressesAt trivial
  intro a c' h
  obtain ⟨u, hu, ha⟩ := hs c a c' h
  exact ⟨u, hne u a ha, hu⟩

/-! ### Sequencing -/

/-- A parser progresses if its first part does. -/
theorem ProgressesAt.bind {p : Parse α} {f : α → Parse β} (hp : ProgressesAt p c)
    (movable : Kind → Prop) (hf : ∀ a, Built movable (fun _ => True) (f a)) :
    ProgressesAt (p >>= f) c := by
  have hrest : ∀ a (c₁ : Cursor), ∃ v, c₁.Spans v (f a c₁).cursor := fun a c₁ =>
    (hf a).spans c₁ trivial
  constructor
  · intro b c' h
    obtain ⟨a, c₁, ha, -, rfl⟩ := reads_bind.mp h
    obtain ⟨u, hne, hu⟩ := hp.reads ha
    obtain ⟨v, hv⟩ := hrest a c₁
    exact ⟨u ++ v, List.append_ne_nil_of_left_ne_nil hne v, hu.trans hv⟩
  · intro e c' h
    rcases fails_bind.mp h with he | ⟨a, c₁, ha, -, rfl⟩
    · exact hp.fails he
    · obtain ⟨u, -, hu⟩ := hp.reads ha
      obtain ⟨v, hv⟩ := hrest a c₁
      exact ⟨u ++ v, hu.trans hv⟩

/-- So does one that progresses behind whatever it reads first. -/
theorem progressesAt_bind_of_reads {p : Parse α} {f : α → Parse β} {a : α} {c₁ : Cursor}
    {u : List Token} (ha : Reads p c a c₁) (hu : c.Spans u c₁) (hf : ProgressesAt (f a) c₁) :
    ProgressesAt (p >>= f) c := by
  constructor
  · intro b c' h
    obtain ⟨a', c₁', ha', hb⟩ := reads_bind.mp h
    obtain ⟨rfl, rfl⟩ := ha.unique ha'
    obtain ⟨v, hne, hv⟩ := hf.reads hb
    exact ⟨u ++ v, List.append_ne_nil_of_right_ne_nil u hne, hu.trans hv⟩
  · intro e c' h
    rcases fails_bind.mp h with he | ⟨a', c₁', ha', he⟩
    · exact absurd (ha.1.symm.trans he.1) nofun
    · obtain ⟨rfl, rfl⟩ := ha.unique ha'
      obtain ⟨v, hv⟩ := hf.fails he
      exact ⟨u ++ v, hu.trans hv⟩

/-- A look at the current token changes nothing. -/
theorem progressesAt_look {f : Token → Parse α} (hf : ProgressesAt (f c.current) c) :
    ProgressesAt (current >>= f) c :=
  progressesAt_bind_of_reads (reads_current.mpr ⟨rfl, rfl⟩) c.spans_refl hf

/-! ### Single Tokens -/

theorem progressesAt_advance (hc : c.current.kind ≠ .eof) : ProgressesAt advance c := by
  constructor
  · intro t c' h
    obtain ⟨-, rfl⟩ := reads_advance.mp h
    exact ⟨_, List.cons_ne_nil _ _, Cursor.spans_advance hc⟩
  · intro e c' h
    exact absurd h not_fails_advance

theorem progressesAt_fail {cause : Cause} : ProgressesAt (fail cause : Parse α) c := by
  constructor
  · intro a c' h
    exact absurd h not_reads_fail
  · intro e c' h
    obtain ⟨-, rfl⟩ := fails_fail.mp h
    exact ⟨[], Cursor.spans_refl _⟩

theorem progressesAt_unexpected {x : Expected} : ProgressesAt (unexpected x : Parse α) c := by
  constructor
  · intro a c' h
    exact absurd h not_reads_unexpected
  · intro e c' h
    obtain ⟨-, rfl⟩ := fails_unexpected.mp h
    exact ⟨[], Cursor.spans_refl _⟩

/-! ## Loops -/

/-- A run of a loop from a cursor, with so many rounds that read something: round after round,
    whether it reads anything or not, until none is selected or one fails. -/
inductive Run (select : Cursor → Option (Parse α)) : Nat → Cursor → Outcome (List α) → Prop
  | done {c : Cursor} (hs : select c = none) : Run select 0 c ⟨.ok [], c, []⟩
  | failed {c c' : Cursor} {item e notes} (hs : select c = some item)
      (hi : item c = ⟨.error e, c', notes⟩) : Run select 0 c ⟨.error e, c', notes⟩
  | round {c c' : Cursor} {item a notes k o} (hs : select c = some item)
      (hi : item c = ⟨.ok a, c', notes⟩) (rest : Run select k c' o) :
      Run select (k + 1) c ⟨o.result.map (a :: ·), o.cursor, notes ++ o.notes⟩

/-- Each round of the loop gets further or fails. The loop ends by itself, with no more rounds
    that read something than there are tokens ahead, so it needs no guard against others. -/
structure Terminates (select : Cursor → Option (Parse α)) : Prop where
  round (c : Cursor) {item : Parse α} (hs : select c = some item) : ProgressesAt item c
  run (c : Cursor) : ∃ k ≤ c.ahead.length, Run select k c (many select c)

/-- A loop terminates if each of its rounds progresses. -/
theorem terminates_of_rounds {select : Cursor → Option (Parse α)}
    (h : ∀ c item, select c = some item → ProgressesAt item c) : Terminates select := by
  refine ⟨h, ?_⟩
  intro c
  -- Every round but the last leaves fewer tokens ahead.
  induction hn : c.ahead.length using Nat.strongRecOn generalizing c with
  | _ n ih =>
    cases hs : select c with
    | none =>
      rw [many_none hs]
      exact ⟨0, Nat.zero_le _, .done hs⟩
    | some item =>
      rcases hi : item c with ⟨e | a, c', notes⟩
      · rw [many_error hs hi]
        exact ⟨0, Nat.zero_le _, .failed hs hi⟩
      · have hread : Reads item c a c' := ⟨by rw [hi], by rw [hi]⟩
        have hlt := (h c item hs).length_lt hread
        obtain ⟨k, hk, hrest⟩ := ih _ (hn ▸ hlt) c' rfl
        rw [many_ok hs hi hlt]
        exact ⟨k + 1, by omega, .round hs hi hrest⟩

/-- A loop up to a word terminates if its items progress where there are any. -/
theorem terminates_upTo {words : List Kind} {x : Expected} {item : Parse α}
    (h : ∀ c : Cursor, ¬ c.atBlock words = true → c.current.kind ≠ .eof → ProgressesAt item c) :
    Terminates (Grammar.upTo words x item) := by
  apply terminates_of_rounds
  intro c p hs
  unfold Grammar.upTo at hs
  split at hs
  · cases hs
  · next hword =>
    split at hs
    · cases hs
      exact progressesAt_unexpected
    · next hend =>
      cases hs
      exact h c hword fun hk => hend (decide_eq_true hk)

end Parse

/-! ## Expressions -/

section grammar

variable {m : Nat} {n : Nested} (hs : SoundNodes m n) (hb : n.Built)

/-- Tokens of which one is the first are not none. -/
theorem ne_nil_of_first {u : List Token} {P : Token → Prop}
    (h : ∃ t v, u = t :: v ∧ P t) : u ≠ [] := by
  obtain ⟨t, v, rfl, -⟩ := h
  exact List.cons_ne_nil t v

section expressions

include hs hb

theorem progresses_expression : Progresses n.expression :=
  hb.expression.progresses hs.expression fun _ _ h => ne_nil_of_first h.first

theorem progresses_primary : Progresses (primary n) :=
  (built_primary hb).progresses (sound_primary hs.toSoundNested) fun _ _ h =>
    ne_nil_of_first h.first

theorem progresses_unary : Progresses (unary n) :=
  (built_unary hb).progresses (sound_unary hs.toSoundNested) fun _ _ h =>
    ne_nil_of_first h.first

end expressions

/-! ### Loops -/

include hb

/-- A round begins with the operator that has selected it. -/
theorem terminates_operations (ops : List BinaryOp) (ls : List (List BinaryOp)) :
    Terminates fun c => (operatorOf? ops c.current.kind).map
      (operation · (ls.foldr leftAssociative (unary n))) := by
  apply terminates_of_rounds
  intro c item h
  obtain ⟨op, hop, rfl⟩ := Option.map_eq_some_iff.mp h
  have hk : c.current.kind ≠ .eof := (operatorOf?_eq_some_iff.mp hop).1 ▸ op.kind_ne_eof
  refine (progressesAt_advance hk).bind Kind.StaysInside fun _ => ?_
  exact .bind (built_levels (built_unary hb) ls) fun _ => .pure _

/-- A suffix begins with the token that has selected it. -/
theorem progressesAt_suffix {c : Cursor} {item : Parse Suffix}
    (h : suffix? n c.current.kind = some item) : ProgressesAt item c := by
  have hadvance : ∀ {k : Kind}, c.current.kind = k → k ≠ .eof → ProgressesAt advance c :=
    fun hk hne => progressesAt_advance (hk ▸ hne)
  unfold suffix? at h
  split at h <;> cases h
  · next hk =>
    refine (hadvance hk nofun).bind Kind.StaysInside fun _ => ?_
    refine built_look fun t _ => built_cond (fun hword => ?_) fun _ => built_unexpected
    exact .bind (built_advance (Kind.stays_of_isWord hword .inside)) fun _ => .pure _
  · next hk =>
    refine (hadvance hk nofun).bind Kind.StaysInside fun _ => .bind hb.expression fun _ => ?_
    exact .bind (built_expect (by decide)) fun _ => .pure _
  · next hk =>
    refine (hadvance hk nofun).bind Kind.StaysInside fun _ => .bind (built_arguments hb) fun _ => ?_
    exact .bind (built_expect (by decide)) fun _ => .pure _

theorem terminates_suffixes : Terminates fun c => suffix? n c.current.kind :=
  terminates_of_rounds fun _ _ h => progressesAt_suffix hb h

/-- A further expression begins with the comma that has selected it. -/
theorem terminates_expressions :
    Terminates fun c => if c.isAt .comma then some (furtherExpression n) else none := by
  apply terminates_of_rounds
  intro c item h
  split at h <;> cases h
  next hcomma =>
  have hk : c.current.kind ≠ .eof := by
    rw [show c.current.kind = .comma from of_decide_eq_true hcomma]
    decide
  exact (progressesAt_advance hk).bind Kind.StaysInside fun _ => hb.expression

/-! ## Blocks -/

include hs

theorem progresses_node : Progresses (node n) := by
  intro c
  by_cases hk : c.current.kind = .eof
  -- A node cannot begin where the input ends.
  · apply progressesAt_look
    rw [hk]
    exact progressesAt_fail
  · apply (built_node hb).progressesAt hk
    intro x c' h
    obtain ⟨u, hu, hx⟩ := sound_node hs h
    exact ⟨u, hx.ne_nil, hu⟩

theorem progresses_ifBlock : Progresses (ifBlock n) := by
  have hsound : SoundFor (ifBlock n) (Condition m) := by
    intro c b c' h
    obtain ⟨u, hu, hd, -⟩ := sound_ifBlock hs h
    exact ⟨u, hu, hd⟩
  exact (built_ifBlock hb).progresses hsound fun _ _ h => ne_nil_of_first h.first

/-- A condition that closes itself. -/
theorem progresses_closedIfBlock :
    Progresses (do let b ← ifBlock n; closing .ifEnd; return Node.ifBlock b) := by
  intro c
  refine (progresses_ifBlock hs hb c).bind (· ≠ .eof) fun _ => ?_
  exact .bind (built_closing (by decide)) fun _ => .pure _

theorem progresses_alternate : Progresses (alternate n) := by
  have hsound : SoundFor (alternate n) (Branch m) := by
    intro c a c' h
    obtain ⟨u, hu, hd, -⟩ := sound_alternate hs h
    exact ⟨u, hu, hd⟩
  exact (built_alternate hb).progresses hsound fun _ _ h => ne_nil_of_first h.first

theorem progresses_switchBlock : Progresses (switchBlock n) :=
  (built_switchBlock hb).progresses (fun _ _ _ h => sound_switchBlock hs h) fun _ _ h =>
    ne_nil_of_first h.first

theorem progresses_forBlock : Progresses (forBlock n) :=
  (built_forBlock hb).progresses (fun _ _ _ h => sound_forBlock hs h) fun _ _ h =>
    ne_nil_of_first h.first

omit hs hb in
theorem progresses_importFile : Progresses importFile :=
  built_importFile.progresses (fun _ _ _ h => sound_importFile (n := 0) h) fun _ _ h =>
    ne_nil_of_first h.first

theorem progresses_interpolation : Progresses (interpolation n) := by
  intro c
  apply progressesAt_look
  split
  · next hk =>
    have hne : c.current.kind ≠ .eof := by
      rw [hk]
      decide
    exact (progressesAt_advance hne).bind Kind.StaysInside fun _ => .pure _
  · refine (progresses_expression hs hb c).bind (· ≠ .eof) fun _ => ?_
    exact .bind (built_expect (by decide)) fun _ => .pure _

/-- Whatever is moved over as the opening brace, what follows gets further. -/
theorem progresses_block : Progresses (block n) := by
  intro c
  obtain ⟨u, hu⟩ := c.exists_spans_advance
  refine progressesAt_bind_of_reads (reads_following.mpr ⟨rfl, rfl⟩) c.spans_refl ?_
  refine progressesAt_bind_of_reads (reads_advance.mpr ⟨rfl, rfl⟩) hu ?_
  split
  · exact progresses_closedIfBlock hs hb _
  · exact (progresses_alternate hs hb _).bind (· ≠ .eof) fun _ => .pure _
  · exact progresses_switchBlock hs hb _
  · exact progresses_forBlock hs hb _
  · exact progresses_importFile _
  · exact progresses_interpolation hs hb _

/-! ### Loops -/

/-- Nodes up to the end of the input. -/
theorem terminates_nodes : Terminates fun c => if c.atEnd then none else some (node n) := by
  apply terminates_of_rounds
  intro c item h
  split at h <;> cases h
  exact progresses_node hs hb c

/-- Nodes up to a word. -/
theorem terminates_nodesUntil (words : List Kind) (x : Expected) :
    Terminates (Grammar.upTo words x (node n)) :=
  terminates_upTo fun c _ _ => progresses_node hs hb c

/-- A part of a switch block is read, or a token is passed over, which ends no input. -/
theorem terminates_switchParts :
    Terminates (Grammar.upTo [.switchEnd] .endOfSwitch (caseOrSkip n)) := by
  apply terminates_upTo
  intro c hword hk
  have hnot : ¬ AtBrace [.switchEnd] c.ahead := mt (Cursor.atBlock_iff (by decide)).mpr hword
  apply (built_caseOrSkip hb).progressesAt hk
  intro x c' h
  rcases sound_caseOrSkip hs h hnot with ⟨-, part, u, -, hu, hpart, -⟩ | ⟨-, -, rfl⟩
  · exact ⟨u, hpart.ne_nil, hu⟩
  · exact ⟨_, List.cons_ne_nil _ _, Cursor.spans_advance hk⟩

end grammar

/-! ## Programs -/

/-- The parsers of nodes, blocks and expressions get further or fail, and do not go back. -/
structure Nested.AllProgress (n : Nested) : Prop where
  node : Progresses (Parse.node n)
  block : Progresses (Parse.block n)
  ifBlock : Progresses (Parse.ifBlock n)
  closedIfBlock : Progresses do
    let b ← Parse.ifBlock n
    closing .ifEnd
    return Node.ifBlock b
  alternate : Progresses (Parse.alternate n)
  switchBlock : Progresses (Parse.switchBlock n)
  forBlock : Progresses (Parse.forBlock n)
  expression : Progresses n.expression
  unary : Progresses (Parse.unary n)
  primary : Progresses (Parse.primary n)

/-- The loops of nodes, blocks and expressions come to an end. -/
structure Nested.AllTerminate (n : Nested) : Prop where
  /-- Nodes up to the end of the input. -/
  nodes : Terminates fun c => if c.atEnd then none else some (node n)
  /-- Nodes up to a word. -/
  nodesUntil (words : List Kind) (x : Expected) : Terminates (Grammar.upTo words x (node n))
  /-- The parts of a switch block, and the tokens that are passed over between them. -/
  switchParts : Terminates (Grammar.upTo [.switchEnd] .endOfSwitch (caseOrSkip n))
  /-- The operators of a level, whatever the tighter levels are. -/
  operations (ops : List BinaryOp) (ls : List (List BinaryOp)) : Terminates fun c =>
    (operatorOf? ops c.current.kind).map (operation · (ls.foldr leftAssociative (unary n)))
  suffixes : Terminates fun c => suffix? n c.current.kind
  /-- Expressions with commas between them. -/
  expressions :
    Terminates fun c => if c.isAt .comma then some (furtherExpression n) else none

variable {m : Nat} {n : Nested}

theorem allProgress (hs : SoundNodes m n) (hb : n.Built) : n.AllProgress where
  node := progresses_node hs hb
  block := progresses_block hs hb
  ifBlock := progresses_ifBlock hs hb
  closedIfBlock := progresses_closedIfBlock hs hb
  alternate := progresses_alternate hs hb
  switchBlock := progresses_switchBlock hs hb
  forBlock := progresses_forBlock hs hb
  expression := progresses_expression hs hb
  unary := progresses_unary hs hb
  primary := progresses_primary hs hb

theorem allTerminate (hs : SoundNodes m n) (hb : n.Built) : n.AllTerminate where
  nodes := terminates_nodes hs hb
  nodesUntil := terminates_nodesUntil hs hb
  switchParts := terminates_switchParts hs hb
  operations := terminates_operations hb
  suffixes := terminates_suffixes hb
  expressions := terminates_expressions hb

/-- With any number of levels left, wherever they are started, the parsers of nodes, blocks and
    expressions progress, and their loops terminate. So a template is what the loop of its nodes
    ends with, after no more rounds than there are tokens. -/
theorem parsing_terminates (limit left : Nat) :
    (Nested.within limit left).AllProgress ∧ (Nested.within limit left).AllTerminate ∧
    ∀ ts, ∃ k ≤ ts.length, ∃ o,
      Run (fun c => if c.atEnd then none else
          some (node (Nested.within nestingLimit nestingLimit))) k (.ofTokens ts) o ∧
        parse ts = o.result.map Program.mk := by
  have hsound := soundNodes_within limit left
  have hbuilt := built_within limit left
  constructor
  · exact allProgress hsound hbuilt
  constructor
  · exact allTerminate hsound hbuilt
  · intro ts
    have hloop := terminates_nodes (soundNodes_within nestingLimit nestingLimit)
      (built_within nestingLimit nestingLimit)
    obtain ⟨k, hk, hrun⟩ := hloop.run (.ofTokens ts)
    exact ⟨k, hk, _, hrun, parse_eq_nodes ts⟩

end TemplateSyntax
