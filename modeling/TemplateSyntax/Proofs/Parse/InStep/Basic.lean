import TemplateSyntax.Proofs.Parse.Lawful.Block

/-! # Parsers in Step

  Two parsers are in step if, started at cursors that are alike, they read the same and stop
  at cursors that are alike, or fail for the same cause and blame tokens that are alike
  (`Parse.InStep`). Cursors are alike in whatever way one likes, as long as the tokens at
  them have the same kind and the same text and the cursors behind these are alike again
  (`Alike`). The first parser may also give up with an error that is excused, and then
  nothing is said of the second.

  Pairs of parsers in step compose as parsers do, one rule for each way. A rule never moves
  over the ending token, and never looks behind it.
-/

namespace TemplateSyntax

open Parse

/-! ## Cursors -/

/-- Cursors that stay alike while they move over tokens, up to the end of the input. -/
structure Alike (R : Cursor → Cursor → Prop) : Prop where
  kind {c d : Cursor} (h : R c d) : c.current.kind = d.current.kind
  text {c d : Cursor} (h : R c d) : c.current.text = d.current.text
  advance {c d : Cursor} (h : R c d) (hk : c.current.kind ≠ .eof) : R c.advance d.advance
  /-- Both of them have come further, or neither has. -/
  further {c c' d d' : Cursor} (h : R c d) (h' : R c' d') :
    c'.ahead.length < c.ahead.length ↔ d'.ahead.length < d.ahead.length

section cursors

variable {R : Cursor → Cursor → Prop} (hR : Alike R) {c d : Cursor}
include hR

theorem Alike.isAt (h : R c d) (k : Kind) : c.isAt k = d.isAt k := by
  simp only [Cursor.isAt, hR.kind h]

theorem Alike.atEnd (h : R c d) : c.atEnd = d.atEnd := hR.isAt h .eof

theorem Alike.following (h : R c d) (hk : c.current.kind ≠ .eof) :
    c.following.kind = d.following.kind := by
  have hnext := hR.kind (hR.advance h hk)
  simpa only [Cursor.current_advance] using hnext

/-- The word behind a brace is looked at only if there is a brace. -/
theorem Alike.atBlock (h : R c d) (words : List Kind) : c.atBlock words = d.atBlock words := by
  unfold Cursor.atBlock
  rw [hR.isAt h]
  by_cases hk : d.isAt .exprStart = true
  · have hbrace : c.current.kind ≠ .eof := by
      rw [hR.kind h, show d.current.kind = .exprStart from of_decide_eq_true hk]
      decide
    rw [hR.following h hbrace]
  · rw [Bool.not_eq_true] at hk
    rw [hk, Bool.false_and, Bool.false_and]

end cursors

/-! ## Errors -/

/-- The cause fits the token at which parsing stops. -/
def Cause.Fits (t : Token) : Cause → Prop
  | .tooDeep _ => True
  | .badInteger _ _ | .badDecimal _ _ => False
  | .unknown kind text => t.kind.beginsNode = false ∧ kind = t.kind ∧ text = t.text
  | .unexpected found _ => t.kind ≠ .eof ∧ found = t.text
  | .ended _ => t.kind = .eof

/-- The cause fits a number that parsing stops behind. -/
def Cause.FitsNumber (t : Token) : Cause → Prop
  | .badInteger text fault =>
    t.kind = .integer ∧ text = t.text ∧ Integer.read t.text = .error fault
  | .badDecimal text fault => t.kind = .float ∧ text = t.text ∧ Decimal.read t.text = .error fault
  | _ => False

theorem Cause.FitsNumber.ne_eof {t : Token} {cause : Cause} (h : cause.FitsNumber t) :
    t.kind ≠ .eof := by
  cases cause with
  | badInteger => exact h.1 ▸ nofun
  | badDecimal => exact h.1 ▸ nofun
  | _ => exact h.elim

/-- Two errors with one cause, for which tokens that are alike are at fault: those where the
    parsers stop, or numbers that they stop behind. -/
inductive Blamed (R : Cursor → Cursor → Prop) :
    ParseError → Cursor → ParseError → Cursor → Prop
  | here {c d : Cursor} {cause : Cause} (h : R c d) (hc : cause.Fits c.current) :
      Blamed R (.blaming c.current cause) c (.blaming d.current cause) d
  | number {c d : Cursor} {cause : Cause} (h : R c d) (hc : cause.FitsNumber c.current) :
      Blamed R (.blaming c.current cause) c.advance (.blaming d.current cause) d.advance

/-- Cursors at which parsing stops for one cause are alike. -/
theorem Blamed.alike {R : Cursor → Cursor → Prop} (hR : Alike R) {e e' : ParseError}
    {c d : Cursor} (h : Blamed R e c e' d) : R c d := by
  cases h with
  | here h _ => exact h
  | number h hc => exact hR.advance h hc.ne_eof

/-- The errors are the same if the tokens at the cursors are. -/
theorem Blamed.eq {R : Cursor → Cursor → Prop} (hR : ∀ {c d}, R c d → c.current = d.current)
    {e e' : ParseError} {c d : Cursor} (h : Blamed R e c e' d) : e = e' := by
  cases h with
  | here h _ => rw [hR h]
  | number h _ => rw [hR h]

namespace Parse

variable {α β γ δ : Type} {R : Cursor → Cursor → Prop} {excused : ParseError → Prop}
  {pre pre' : Cursor → Cursor → Prop}

/-! ## Two Runs -/

/-- Started where `pre` holds, both parsers read something and stop where `post` holds of it,
    or both fail and blame tokens that are alike, or the first one fails and is excused. -/
def InStep (R : Cursor → Cursor → Prop) (excused : ParseError → Prop)
    (pre : Cursor → Cursor → Prop) (p : Parse α) (q : Parse β)
    (post : α → β → Cursor → Cursor → Prop) : Prop :=
  ∀ c d, pre c d →
    (∃ a b c' d', Reads p c a c' ∧ Reads q d b d' ∧ post a b c' d') ∨
    (∃ e e' c' d', Fails p c e c' ∧ Fails q d e' d' ∧ Blamed R e c' e' d') ∨
    ∃ e c', Fails p c e c' ∧ excused e

/-- The same is read, and the cursors are alike. -/
def Same (R : Cursor → Cursor → Prop) (a b : α) (c d : Cursor) : Prop := a = b ∧ R c d

/-- The tokens that are read have one kind and one text, and the cursors are alike. -/
def Like (R : Cursor → Cursor → Prop) (t u : Token) (c d : Cursor) : Prop :=
  t.kind = u.kind ∧ t.text = u.text ∧ R c d

/-- The cursors stand behind tokens that are alike, with one text. -/
def Behind (R : Cursor → Cursor → Prop) (t u : Token) (c d : Cursor) : Prop :=
  t.text = u.text ∧ ∃ c₀ d₀, R c₀ d₀ ∧ t = c₀.current ∧ u = d₀.current ∧ c = c₀.advance ∧
    d = d₀.advance

theorem InStep.of_pre {p : Parse α} {q : Parse β} {post : α → β → Cursor → Cursor → Prop}
    (h : InStep R excused pre p q post) (hpre : ∀ c d, pre' c d → pre c d) :
    InStep R excused pre' p q post :=
  fun c d hcd => h c d (hpre c d hcd)

/-- Parsers that are started where the current tokens have been looked at. -/
theorem InStep.looked {p : Parse α} {q : Parse β} {post : α → β → Cursor → Cursor → Prop}
    (h : InStep R excused pre p q post) {t u : Token}
    (hpre : ∀ c d, pre' c d → c.current = t → pre c d) :
    InStep R excused (fun c d => pre' c d ∧ c.current = t ∧ d.current = u) p q post :=
  h.of_pre fun c d hcd => hpre c d hcd.1 hcd.2.1

theorem InStep.startAt {p : Parse α} {q : Parse β} {post : α → β → Cursor → Cursor → Prop}
    (h : InStep R excused pre p q post) {c d : Cursor} (hcd : pre c d) :
    InStep R excused (fun c' d' => c' = c ∧ d' = d) p q post := by
  refine h.of_pre ?_
  rintro c d ⟨rfl, rfl⟩
  exact hcd

/-- What one side reads, the other side reads as well. -/
theorem InStep.reads {p : Parse α} {q : Parse β} {post : α → β → Cursor → Cursor → Prop}
    (h : InStep R excused pre p q post) {c d c' : Cursor} (hcd : pre c d) {a : α}
    (ha : Reads p c a c') : ∃ b d', Reads q d b d' ∧ post a b c' d' := by
  rcases h c d hcd with ⟨a₁, b, c₁, d', ha₁, hb, hpost⟩ | ⟨e, e', c₁, d', he, -, -⟩ |
    ⟨e, c₁, he, -⟩
  · obtain ⟨rfl, rfl⟩ := ha.unique ha₁
    exact ⟨b, d', hb, hpost⟩
  · exact absurd (ha.1.symm.trans he.1) nofun
  · exact absurd (ha.1.symm.trans he.1) nofun

/-- If one side fails and nothing is excused, the other one fails for the same cause. -/
theorem InStep.fails {p : Parse α} {q : Parse β} {post : α → β → Cursor → Cursor → Prop}
    (h : InStep R (fun _ => False) pre p q post) {c d c' : Cursor} (hcd : pre c d)
    {e : ParseError} (he : Fails p c e c') :
    ∃ e' d', Fails q d e' d' ∧ Blamed R e c' e' d' := by
  rcases h c d hcd with ⟨a, b, c₁, d', ha, -, -⟩ | ⟨e₁, e', c₁, d', he₁, he', hblamed⟩ |
    ⟨e₁, c₁, -, hfalse⟩
  · exact absurd (he.1.symm.trans ha.1) nofun
  · obtain ⟨he, rfl⟩ := he
    obtain ⟨he₁, rfl⟩ := he₁
    obtain rfl : e = e₁ := Except.error.inj (he.symm.trans he₁)
    exact ⟨e', d', he', hblamed⟩
  · exact hfalse.elim

/-! ### Sequencing -/

theorem inStep_pure {a : α} {b : β} {post : α → β → Cursor → Cursor → Prop}
    (h : ∀ c d, pre c d → post a b c d) :
    InStep R excused pre (pure a) (pure b) post := by
  intro c d hcd
  exact .inl ⟨a, b, c, d, reads_pure.mpr ⟨rfl, rfl⟩, reads_pure.mpr ⟨rfl, rfl⟩, h c d hcd⟩

theorem inStep_done {a : α} : InStep R excused R (pure a) (pure a) (Same R) :=
  inStep_pure fun _ _ hcd => ⟨rfl, hcd⟩

/-- What the first parsers leave, the second ones start from. -/
theorem inStep_bind {p : Parse α} {q : Parse β} {f : α → Parse γ} {g : β → Parse δ}
    {mid : α → β → Cursor → Cursor → Prop} {post : γ → δ → Cursor → Cursor → Prop}
    (hp : InStep R excused pre p q mid)
    (hf : ∀ a b, InStep R excused (mid a b) (f a) (g b) post) :
    InStep R excused pre (p >>= f) (q >>= g) post := by
  intro c d hcd
  rcases hp c d hcd with ⟨a, b, c₁, d₁, ha, hb, hmid⟩ | ⟨e, e', c₁, d₁, he, he', hblamed⟩ |
    ⟨e, c₁, he, hexcused⟩
  -- The second parsers are run only if the first ones have read something.
  · rcases hf a b c₁ d₁ hmid with ⟨x, y, c', d', hx, hy, hpost⟩ |
      ⟨e, e', c', d', he, he', hblamed⟩ | ⟨e, c', he, hexcused⟩
    · exact .inl ⟨x, y, c', d', reads_bind.mpr ⟨a, c₁, ha, hx⟩, reads_bind.mpr ⟨b, d₁, hb, hy⟩,
        hpost⟩
    · exact .inr (.inl ⟨e, e', c', d', fails_bind.mpr (.inr ⟨a, c₁, ha, he⟩),
        fails_bind.mpr (.inr ⟨b, d₁, hb, he'⟩), hblamed⟩)
    · exact .inr (.inr ⟨e, c', fails_bind.mpr (.inr ⟨a, c₁, ha, he⟩), hexcused⟩)
  · exact .inr (.inl ⟨e, e', c₁, d₁, fails_bind.mpr (.inl he), fails_bind.mpr (.inl he'),
      hblamed⟩)
  · exact .inr (.inr ⟨e, c₁, fails_bind.mpr (.inl he), hexcused⟩)

/-- What both parsers have read does not have to be told apart behind them. -/
theorem inStep_bind_same {p q : Parse α} {f : α → Parse γ} {g : α → Parse δ}
    {post : γ → δ → Cursor → Cursor → Prop} (hp : InStep R excused pre p q (Same R))
    (hf : ∀ a, InStep R excused R (f a) (g a) post) :
    InStep R excused pre (p >>= f) (q >>= g) post := by
  refine inStep_bind hp fun a b => ?_
  rintro c d ⟨rfl, hcd⟩
  exact hf a c d hcd

theorem inStep_bind_like {p q : Parse Token} {f : Token → Parse γ} {g : Token → Parse δ}
    {post : γ → δ → Cursor → Cursor → Prop} (hp : InStep R excused pre p q (Like R))
    (hf : ∀ t u, t.kind = u.kind → t.text = u.text → InStep R excused R (f t) (g u) post) :
    InStep R excused pre (p >>= f) (q >>= g) post := by
  refine inStep_bind hp fun t u => ?_
  rintro c d ⟨hkind, htext, hcd⟩
  exact hf t u hkind htext c d hcd

theorem inStep_map {p q : Parse α} {f : α → β} (hp : InStep R excused pre p q (Same R)) :
    InStep R excused pre (f <$> p) (f <$> q) (Same R) := by
  rw [map_eq_pure_bind, map_eq_pure_bind]
  exact inStep_bind_same hp fun _ => inStep_done

/-- Parsers that something known to both sides chooses, each from two. -/
theorem inStep_cond {b : Prop} [Decidable b] {p p' : Parse α} {q q' : Parse β}
    {post : α → β → Cursor → Cursor → Prop} (hp : b → InStep R excused pre p q post)
    (hq : ¬ b → InStep R excused pre p' q' post) :
    InStep R excused pre (if b then p else p') (if b then q else q') post := by
  by_cases hb : b
  · rw [if_pos hb, if_pos hb]
    exact hp hb
  · rw [if_neg hb, if_neg hb]
    exact hq hb

/-- Parsers that the cursors choose, each from two. -/
theorem inStep_branch {b b' : Cursor → Bool} {p p' : Parse α} {q q' : Parse β}
    {post : α → β → Cursor → Cursor → Prop} (hb : ∀ c d, pre c d → b c = b' d)
    (hp : InStep R excused (fun c d => pre c d ∧ b c = true) p q post)
    (hq : InStep R excused (fun c d => pre c d ∧ b c = false) p' q' post) :
    InStep R excused pre (branch b p p') (branch b' q q') post := by
  intro c d hcd
  have hsame := hb c d hcd
  cases hc : b c with
  | true =>
    simp only [Reads, Fails, branch_of_true hc, branch_of_true (hsame.symm.trans hc)]
    exact hp c d ⟨hcd, hc⟩
  | false =>
    simp only [Reads, Fails, branch_of_false hc, branch_of_false (hsame.symm.trans hc)]
    exact hq c d ⟨hcd, hc⟩

/-! ### Single Tokens -/

section tokens

variable (hR : Alike R)
include hR

/-- A look at the current tokens. -/
theorem inStep_look {f : Token → Parse γ} {g : Token → Parse δ}
    {post : γ → δ → Cursor → Cursor → Prop} (hpre : ∀ c d, pre c d → R c d)
    (hf : ∀ t u, t.kind = u.kind → t.text = u.text →
      InStep R excused (fun c d => pre c d ∧ c.current = t ∧ d.current = u) (f t) (g u) post) :
    InStep R excused pre (current >>= f) (current >>= g) post := by
  have hlook : InStep R excused pre current current
      (fun t u c d => pre c d ∧ c.current = t ∧ d.current = u) := by
    intro c d hcd
    exact .inl ⟨_, _, c, d, reads_current.mpr ⟨rfl, rfl⟩, reads_current.mpr ⟨rfl, rfl⟩, hcd, rfl,
      rfl⟩
  refine inStep_bind hlook fun t u => ?_
  rintro c d ⟨hcd, rfl, rfl⟩
  exact hf _ _ (hR.kind (hpre c d hcd)) (hR.text (hpre c d hcd)) c d ⟨hcd, rfl, rfl⟩

/-- A look at the tokens behind the current ones, which do not end the input. -/
theorem inStep_lookBehind {f : Token → Parse γ} {g : Token → Parse δ}
    {post : γ → δ → Cursor → Cursor → Prop}
    (hpre : ∀ c d, pre c d → R c d ∧ c.current.kind ≠ .eof)
    (hf : ∀ t u, t.kind = u.kind → InStep R excused pre (f t) (g u) post) :
    InStep R excused pre (following >>= f) (following >>= g) post := by
  have hlook : InStep R excused pre following following
      (fun t u c d => pre c d ∧ c.following = t ∧ d.following = u) := by
    intro c d hcd
    exact .inl ⟨_, _, c, d, reads_following.mpr ⟨rfl, rfl⟩, reads_following.mpr ⟨rfl, rfl⟩, hcd,
      rfl, rfl⟩
  refine inStep_bind hlook fun t u => ?_
  rintro c d ⟨hcd, rfl, rfl⟩
  obtain ⟨hcur, hk⟩ := hpre c d hcd
  exact hf _ _ (hR.following hcur hk) c d hcd

/-- Both move over a token that does not end the input. -/
theorem inStep_advance :
    InStep R excused (fun c d => R c d ∧ c.current.kind ≠ .eof) advance advance (Like R) := by
  rintro c d ⟨hcd, hk⟩
  exact .inl ⟨_, _, _, _, reads_advance.mpr ⟨rfl, rfl⟩, reads_advance.mpr ⟨rfl, rfl⟩,
    hR.kind hcd, hR.text hcd, hR.advance hcd hk⟩

/-- Both move over tokens that have been looked at. -/
theorem inStep_advance_looked {t u : Token} (ht : t.kind ≠ .eof) :
    InStep R excused (fun c d => R c d ∧ c.current = t ∧ d.current = u) advance advance
      (Like R) := by
  refine (inStep_advance hR).looked fun c d hcd hcurrent => ⟨hcd, ?_⟩
  rw [hcurrent]
  exact ht

/-- Tokens of a known kind are read, and kept in mind. -/
theorem inStep_read {k : Kind} :
    InStep R excused (fun c d => R c d ∧ c.current.kind = k) advance advance
      (fun t u c d => t.kind = k ∧ Behind R t u c d) := by
  rintro c d ⟨hcd, hk⟩
  exact .inl ⟨_, _, _, _, reads_advance.mpr ⟨rfl, rfl⟩, reads_advance.mpr ⟨rfl, rfl⟩, hk,
    hR.text hcd, c, d, hcd, rfl, rfl, rfl, rfl⟩

theorem Behind.alike {t u : Token} {c d : Cursor} (h : Behind R t u c d) (hk : t.kind ≠ .eof) :
    R c d := by
  obtain ⟨-, c₀, d₀, hcd, rfl, rfl, rfl, rfl⟩ := h
  exact hR.advance hcd hk

omit hR in
/-- Both complain of the number behind which they stand. -/
theorem inStep_reject {x : Cause} {t u : Token} {post : α → β → Cursor → Cursor → Prop}
    (hfits : x.FitsNumber t) :
    InStep R excused (Behind R t u) (reject (.blaming t x)) (reject (.blaming u x)) post := by
  rintro c d ⟨-, c₀, d₀, hcd, rfl, rfl, rfl, rfl⟩
  exact .inr (.inl ⟨_, _, _, _, fails_reject.mpr ⟨rfl, rfl⟩, fails_reject.mpr ⟨rfl, rfl⟩,
    .number hcd hfits⟩)

omit hR in
theorem inStep_report {x y : ParseNote} :
    InStep R excused R (report x) (report y) (Same R) := by
  intro c d hcd
  exact .inl ⟨(), (), c, d, reads_report.mpr rfl, reads_report.mpr rfl, rfl, hcd⟩

omit hR in
/-- Both fail for a cause that fits the current token. -/
theorem inStep_fail {x y : Cause} {post : α → β → Cursor → Cursor → Prop}
    (h : ∀ c d, pre c d → R c d ∧ x.Fits c.current ∧ x = y) :
    InStep R excused pre (fail x) (fail y) post := by
  intro c d hcd
  obtain ⟨hcur, hfits, rfl⟩ := h c d hcd
  exact .inr (.inl ⟨_, _, c, d, fails_fail.mpr ⟨rfl, rfl⟩, fails_fail.mpr ⟨rfl, rfl⟩,
    .here hcur hfits⟩)

theorem inStep_unexpected {x : Expected} {post : α → β → Cursor → Cursor → Prop} :
    InStep R excused R (unexpected x) (unexpected x) post := by
  intro c d hcd
  have hfits : Cause.Fits c.current
      (if c.atEnd then .ended x else .unexpected c.current.text x) := by
    by_cases hend : c.atEnd = true
    · have hkind : c.current.kind = .eof := of_decide_eq_true hend
      rw [if_pos hend]
      exact hkind
    · have hkind : c.current.kind ≠ .eof := fun hk => hend (decide_eq_true hk)
      rw [if_neg hend]
      exact ⟨hkind, rfl⟩
  refine .inr (.inl ⟨_, _, c, d, fails_unexpected.mpr ⟨rfl, rfl⟩, fails_unexpected.mpr ⟨rfl, rfl⟩,
    ?_⟩)
  rw [← hR.atEnd hcd, ← hR.text hcd]
  exact .here hcd hfits

/-- A token is read on both sides, or on neither. -/
theorem inStep_expect {k : Kind} (hk : k ≠ .eof) :
    InStep R excused R (expect k) (expect k) (Like R) := by
  refine inStep_branch (fun c d hcd => hR.isAt hcd k) ?_ ?_
  · refine (inStep_advance hR).of_pre fun c d hcd => ⟨hcd.1, ?_⟩
    rw [show c.current.kind = k from of_decide_eq_true hcd.2]
    exact hk
  · exact (inStep_unexpected hR).of_pre fun _ _ hcd => hcd.1

/-! ### Repetition -/

/-- Loops are in step if each of their rounds is. -/
theorem inStep_many {select select' : Cursor → Option (Parse α)}
    (h : ∀ c d, R c d → (select c = none ∧ select' d = none) ∨
      ∃ p q, select c = some p ∧ select' d = some q ∧
        InStep R excused (fun c' d' => c' = c ∧ d' = d) p q (Same R)) :
    InStep R excused R (many select) (many select') (Same R) := by
  intro c d hcd
  -- Every round but the last leaves fewer tokens ahead, on both sides or on neither.
  induction hn : c.ahead.length using Nat.strongRecOn generalizing c d with
  | _ n ih =>
    rcases h c d hcd with ⟨hc, hd⟩ | ⟨p, q, hc, hd, hround⟩
    · exact .inl ⟨[], [], c, d, (Rounds.done hc).reads, (Rounds.done hd).reads, rfl, hcd⟩
    · rcases hround c d ⟨rfl, rfl⟩ with ⟨a, b, c₁, d₁, ha, hb, rfl, hcd₁⟩ |
        ⟨e, e', c₁, d₁, he, he', hblamed⟩ | ⟨e, c₁, he, hexcused⟩
      · by_cases hlt : c₁.ahead.length < c.ahead.length
        · have hlt' := (hR.further hcd hcd₁).mp hlt
          rcases ih _ (hn ▸ hlt) c₁ d₁ hcd₁ rfl with ⟨as, bs, c', d', has, hbs, rfl, hcd'⟩ |
            ⟨e, e', c', d', he, he', hblamed⟩ | ⟨e, c', he, hexcused⟩
          · exact .inl ⟨a :: as, a :: as, c', d', (Rounds.round hc ha hlt has.rounds).reads,
              (Rounds.round hd hb hlt' hbs.rounds).reads, rfl, hcd'⟩
          · exact .inr (.inl ⟨e, e', c', d', he.many_later hc ha hlt,
              he'.many_later hd hb hlt', hblamed⟩)
          · exact .inr (.inr ⟨e, c', he.many_later hc ha hlt, hexcused⟩)
        -- A round that moves over nothing is the last one on both sides.
        · have hlt' := mt (hR.further hcd hcd₁).mpr hlt
          exact .inl ⟨[a], [a], c₁, d₁, (Rounds.stalled hc ha hlt).reads,
            (Rounds.stalled hd hb hlt').reads, rfl, hcd₁⟩
      · exact .inr (.inl ⟨e, e', c₁, d₁, he.many_first hc, he'.many_first hd, hblamed⟩)
      · exact .inr (.inr ⟨e, c₁, he.many_first hc, hexcused⟩)

end tokens

end Parse

end TemplateSyntax
