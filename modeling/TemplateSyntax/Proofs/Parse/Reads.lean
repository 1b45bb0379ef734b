import TemplateSyntax.Parse.Basic

/-! # What a Parser Reads

  A parser that succeeds takes a cursor to a value and to the cursor behind what it
  read (`Parse.Reads`). One that fails takes it to an error and to the cursor where
  it stopped (`Parse.Fails`). Notes are left out: no parser looks at them.

  Each way of composing parsers has one equivalence here for what the whole reads and
  one for how it fails. A loop reads what its rounds read in turn (`Parse.Rounds`).
-/

namespace TemplateSyntax

namespace Cursor

/-- The tokens `u` stand between `c` and `c'`. -/
def Spans (c : Cursor) (u : List Token) (c' : Cursor) : Prop :=
  c.ahead = u ++ c'.ahead ∧ c'.stop = c.stop

theorem spans_refl (c : Cursor) : c.Spans [] c := ⟨rfl, rfl⟩

theorem Spans.trans {c c₁ c₂ : Cursor} {u v : List Token}
    (h₁ : c.Spans u c₁) (h₂ : c₁.Spans v c₂) : c.Spans (u ++ v) c₂ := by
  obtain ⟨hu, hs₁⟩ := h₁
  obtain ⟨hv, hs₂⟩ := h₂
  exact ⟨by rw [hu, hv, List.append_assoc], hs₂.trans hs₁⟩

/-- A token that is no end of the input is one of those ahead. -/
theorem ahead_eq_cons {c : Cursor} (h : c.current.kind ≠ .eof) :
    c.ahead = c.current :: c.advance.ahead := by
  obtain ⟨ts, s⟩ := c
  cases ts with
  | nil => exact absurd rfl h
  | cons t ts => rfl

/-- Where some tokens stand between two cursors, fewer are left at the second. -/
theorem Spans.length_lt {c c' : Cursor} {u : List Token} (h : c.Spans u c') (hu : u ≠ []) :
    c'.ahead.length < c.ahead.length := by
  have hpos := List.length_pos_iff.mpr hu
  rw [h.1, List.length_append]
  omega

theorem spans_advance {c : Cursor} (h : c.current.kind ≠ .eof) :
    c.Spans [c.current] c.advance :=
  ⟨ahead_eq_cons h, rfl⟩

/-- A step over a token of a kind that is no end of the input. -/
theorem spans_advance_of_kind {c : Cursor} {k : Kind} (h : c.current.kind = k) (hk : k ≠ .eof) :
    c.Spans [c.current] c.advance :=
  spans_advance (h ▸ hk)

theorem Spans.step {c c' : Cursor} {u : List Token} {k : Kind} (h : c.Spans u c')
    (hc : c'.current.kind = k) (hk : k ≠ .eof) : c.Spans (u ++ [c'.current]) c'.advance :=
  h.trans (spans_advance_of_kind hc hk)

end Cursor

namespace Parse

variable {α β : Type}

/-- The parser reads a value at `c` and stops at `c'`. -/
def Reads (p : Parse α) (c : Cursor) (a : α) (c' : Cursor) : Prop :=
  (p c).result = .ok a ∧ (p c).cursor = c'

/-- The parser fails when it is started at `c`, and stops at `c'`. -/
def Fails (p : Parse α) (c : Cursor) (e : ParseError) (c' : Cursor) : Prop :=
  (p c).result = .error e ∧ (p c).cursor = c'

/-- A parser reads one value and stops at one cursor. -/
theorem Reads.unique {p : Parse α} {c c₁ c₂ : Cursor} {a b : α}
    (h₁ : Reads p c a c₁) (h₂ : Reads p c b c₂) : a = b ∧ c₁ = c₂ := by
  obtain ⟨ha, hc₁⟩ := h₁
  obtain ⟨hb, hc₂⟩ := h₂
  exact ⟨Except.ok.inj (ha.symm.trans hb), hc₁.symm.trans hc₂⟩

theorem Reads.outcome {p : Parse α} {c c' : Cursor} {a : α} (h : Reads p c a c') :
    ∃ notes, p c = ⟨.ok a, c', notes⟩ := by
  obtain ⟨ha, hc⟩ := h
  rcases hp : p c with ⟨r, c₁, notes⟩
  rw [hp] at ha hc
  exact ⟨notes, by rw [← ha, ← hc]⟩

theorem Fails.outcome {p : Parse α} {c c' : Cursor} {e : ParseError} (h : Fails p c e c') :
    ∃ notes, p c = ⟨.error e, c', notes⟩ := by
  obtain ⟨he, hc⟩ := h
  rcases hp : p c with ⟨r, c₁, notes⟩
  rw [hp] at he hc
  exact ⟨notes, by rw [← he, ← hc]⟩

/-! ### Sequencing -/

@[simp] theorem reads_pure {a b : α} {c c' : Cursor} :
    Reads (pure a) c b c' ↔ b = a ∧ c' = c := by
  simp only [Reads, pure_apply, Except.ok.injEq]
  exact and_congr eq_comm eq_comm

@[simp] theorem not_fails_pure {a : α} {c c' : Cursor} {e : ParseError} :
    ¬ Fails (pure a : Parse α) c e c' := by
  simp [Fails, pure_apply]

@[simp] theorem reads_bind {p : Parse α} {f : α → Parse β} {c c' : Cursor} {b : β} :
    Reads (p >>= f) c b c' ↔ ∃ a c₁, Reads p c a c₁ ∧ Reads (f a) c₁ b c' := by
  rcases h : p c with ⟨e | a, c₁, notes⟩
  · simp [Reads, bind_error h, h]
  · have hp : Reads p c a c₁ := ⟨by rw [h], by rw [h]⟩
    have hf : Reads (p >>= f) c b c' ↔ Reads (f a) c₁ b c' := by simp [Reads, bind_ok h]
    rw [hf]
    constructor
    · intro hr
      exact ⟨a, c₁, hp, hr⟩
    · rintro ⟨a', c₁', hp', hr⟩
      obtain ⟨rfl, rfl⟩ := hp.unique hp'
      exact hr

@[simp] theorem fails_bind {p : Parse α} {f : α → Parse β} {c c' : Cursor} {e : ParseError} :
    Fails (p >>= f) c e c' ↔ Fails p c e c' ∨ ∃ a c₁, Reads p c a c₁ ∧ Fails (f a) c₁ e c' := by
  rcases h : p c with ⟨e' | a, c₁, notes⟩
  · simp [Fails, Reads, bind_error h, h]
  · have hp : Reads p c a c₁ := ⟨by rw [h], by rw [h]⟩
    have hn : ¬ Fails p c e c' := by simp [Fails, h]
    have hf : Fails (p >>= f) c e c' ↔ Fails (f a) c₁ e c' := by simp [Fails, bind_ok h]
    rw [hf]
    constructor
    · intro hr
      exact .inr ⟨a, c₁, hp, hr⟩
    · rintro (hr | ⟨a', c₁', hp', hr⟩)
      · exact absurd hr hn
      · obtain ⟨rfl, rfl⟩ := hp.unique hp'
        exact hr

@[simp] theorem reads_map {p : Parse α} {f : α → β} {c c' : Cursor} {b : β} :
    Reads (f <$> p) c b c' ↔ ∃ a, Reads p c a c' ∧ b = f a := by
  rw [map_eq_pure_bind]
  simp only [reads_bind, reads_pure]
  constructor
  · rintro ⟨a, c₁, ha, hb, rfl⟩
    exact ⟨a, ha, hb⟩
  · rintro ⟨a, ha, hb⟩
    exact ⟨a, c', ha, hb, rfl⟩

@[simp] theorem fails_map {p : Parse α} {f : α → β} {c c' : Cursor} {e : ParseError} :
    Fails (f <$> p) c e c' ↔ Fails p c e c' := by
  rw [map_eq_pure_bind]
  simp only [fails_bind, not_fails_pure, and_false, exists_false, or_false]

/-! ### Single Tokens -/

@[simp] theorem reads_current {c c' : Cursor} {t : Token} :
    Reads current c t c' ↔ t = c.current ∧ c' = c := by
  simp only [Reads, current, Except.ok.injEq]
  exact and_congr eq_comm eq_comm

@[simp] theorem reads_following {c c' : Cursor} {t : Token} :
    Reads following c t c' ↔ t = c.following ∧ c' = c := by
  simp only [Reads, following, Except.ok.injEq]
  exact and_congr eq_comm eq_comm

@[simp] theorem reads_advance {c c' : Cursor} {t : Token} :
    Reads advance c t c' ↔ t = c.current ∧ c' = c.advance := by
  simp only [Reads, advance, Except.ok.injEq]
  exact and_congr eq_comm eq_comm

@[simp] theorem reads_report {note : ParseNote} {c c' : Cursor} {u : Unit} :
    Reads (report note) c u c' ↔ c' = c := by
  simp only [Reads, report, true_and]
  exact eq_comm

@[simp] theorem not_fails_current {c c' : Cursor} {e : ParseError} : ¬ Fails current c e c' := by
  simp [Fails, current]

@[simp] theorem not_fails_following {c c' : Cursor} {e : ParseError} :
    ¬ Fails following c e c' := by
  simp [Fails, following]

@[simp] theorem not_fails_advance {c c' : Cursor} {e : ParseError} : ¬ Fails advance c e c' := by
  simp [Fails, advance]

@[simp] theorem not_fails_report {note : ParseNote} {c c' : Cursor} {e : ParseError} :
    ¬ Fails (report note) c e c' := by
  simp [Fails, report]

@[simp] theorem not_reads_reject {r : ParseError} {c c' : Cursor} {a : α} :
    ¬ Reads (reject r) c a c' := by
  simp [Reads, reject]

@[simp] theorem fails_reject {r e : ParseError} {c c' : Cursor} :
    Fails (reject r : Parse α) c e c' ↔ e = r ∧ c' = c := by
  simp only [Fails, reject, Except.error.injEq]
  exact and_congr eq_comm eq_comm

@[simp] theorem not_reads_fail {cause : Cause} {c c' : Cursor} {a : α} :
    ¬ Reads (fail cause) c a c' := by
  simp [Reads, fail]

@[simp] theorem fails_fail {cause : Cause} {c c' : Cursor} {e : ParseError} :
    Fails (fail cause : Parse α) c e c' ↔ e = .blaming c.current cause ∧ c' = c := by
  simp only [Fails, fail, Except.error.injEq]
  exact and_congr eq_comm eq_comm

theorem reads_branch {isSuch : Cursor → Bool} {p q : Parse α} {c c' : Cursor} {a : α} :
    Reads (branch isSuch p q) c a c' ↔ if isSuch c then Reads p c a c' else Reads q c a c' := by
  unfold Reads
  cases h : isSuch c with
  | true => rw [branch_of_true h, if_pos rfl]
  | false => rw [branch_of_false h, if_neg Bool.false_ne_true]

theorem fails_branch {isSuch : Cursor → Bool} {p q : Parse α} {c c' : Cursor} {e : ParseError} :
    Fails (branch isSuch p q) c e c' ↔ if isSuch c then Fails p c e c' else Fails q c e c' := by
  unfold Fails
  cases h : isSuch c with
  | true => rw [branch_of_true h, if_pos rfl]
  | false => rw [branch_of_false h, if_neg Bool.false_ne_true]

@[simp] theorem not_reads_unexpected {x : Expected} {c c' : Cursor} {a : α} :
    ¬ Reads (unexpected x) c a c' := by
  rw [unexpected, reads_branch]
  split <;> simp

/-- What an unexpected token is blamed for. -/
theorem fails_unexpected {x : Expected} {c c' : Cursor} {e : ParseError} :
    Fails (unexpected x : Parse α) c e c' ↔
      e = .blaming c.current
        (if c.atEnd then .ended x else .unexpected c.current.text x) ∧ c' = c := by
  rw [unexpected, fails_branch]
  split
  · exact fails_fail
  · show Fails (fail (.unexpected c.current.text x) : Parse α) c e c' ↔ _
    exact fails_fail

@[simp] theorem reads_expect {k : Kind} {c c' : Cursor} {t : Token} :
    Reads (expect k) c t c' ↔ c.current.kind = k ∧ t = c.current ∧ c' = c.advance := by
  rw [expect, reads_branch]
  by_cases h : c.current.kind = k <;> simp [Cursor.isAt, h]

@[simp] theorem fails_expect {k : Kind} {c c' : Cursor} {e : ParseError} :
    Fails (expect k) c e c' ↔
      c.current.kind ≠ k ∧ Fails (unexpected (.token k) : Parse Token) c e c' := by
  rw [expect, fails_branch]
  by_cases h : c.current.kind = k <;> simp [Cursor.isAt, h]

/-! ### Repetition -/

/-- The rounds of a loop from `c` to `c'` and what they read. A round that reads
    nothing is the last. -/
inductive Rounds (select : Cursor → Option (Parse α)) : Cursor → List α → Cursor → Prop where
  | done {c} (hs : select c = none) : Rounds select c [] c
  | round {c c₁ c' item a as} (hs : select c = some item) (hi : Reads item c a c₁)
      (hlt : c₁.ahead.length < c.ahead.length) (rest : Rounds select c₁ as c') :
      Rounds select c (a :: as) c'
  | stalled {c c' item a} (hs : select c = some item) (hi : Reads item c a c')
      (hge : ¬ c'.ahead.length < c.ahead.length) : Rounds select c [a] c'

theorem Rounds.reads {select : Cursor → Option (Parse α)} {c c' : Cursor} {as : List α}
    (h : Rounds select c as c') : Reads (many select) c as c' := by
  induction h with
  | done hs => simp [Reads, many_none hs]
  | round hs hi hlt rest ih =>
    obtain ⟨notes, hrun⟩ := hi.outcome
    obtain ⟨hr, hc⟩ := ih
    simp [Reads, many_ok hs hrun hlt, hr, hc, Except.map]
  | stalled hs hi hge =>
    obtain ⟨notes, hrun⟩ := hi.outcome
    rw [Reads, many_stalled hs hrun hge]
    exact ⟨rfl, rfl⟩

/-- What holds of no rounds and is kept by one more in front holds of every loop. -/
theorem Rounds.fold {select : Cursor → Option (Parse α)} {P : Cursor → List α → Cursor → Prop}
    (nil : ∀ c, P c [] c)
    (cons : ∀ c c₁ c' item a as, select c = some item → Reads item c a c₁ → P c₁ as c' →
      P c (a :: as) c')
    {c c' : Cursor} {as : List α} (h : Rounds select c as c') : P c as c' := by
  induction h with
  | done hs => exact nil _
  | round hs hi hlt rest ih => exact cons _ _ _ _ _ _ hs hi ih
  | stalled hs hi hge => exact cons _ _ _ _ _ _ hs hi (nil _)

/-- The same for a loop whose rounds all read something. Such a loop stops only where nothing
    is selected. -/
theorem Rounds.fold_stop {select : Cursor → Option (Parse α)}
    {P : Cursor → List α → Cursor → Prop}
    (less : ∀ c c₁ item a, select c = some item → Reads item c a c₁ →
      c₁.ahead.length < c.ahead.length)
    (nil : ∀ c, select c = none → P c [] c)
    (cons : ∀ c c₁ c' item a as, select c = some item → Reads item c a c₁ → P c₁ as c' →
      P c (a :: as) c')
    {c c' : Cursor} {as : List α} (h : Rounds select c as c') : P c as c' := by
  induction h with
  | done hs => exact nil _ hs
  | round hs hi hlt rest ih => exact cons _ _ _ _ _ _ hs hi ih
  | stalled hs hi hge => exact absurd (less _ _ _ _ hs hi) hge

/-- A loop reads what its rounds read. -/
theorem Reads.rounds {select : Cursor → Option (Parse α)} {c c' : Cursor} {as : List α}
    (h : Reads (many select) c as c') : Rounds select c as c' := by
  -- Every round but the last leaves fewer tokens ahead.
  induction hn : c.ahead.length using Nat.strongRecOn generalizing c as with
  | _ n ih =>
    obtain ⟨hr, hc⟩ := h
    cases hs : select c with
    | none =>
      rw [many_none hs] at hr hc
      cases hr
      cases hc
      exact .done hs
    | some item =>
      rcases hi : item c with ⟨e | a, c₁, notes⟩
      · rw [many_error hs hi] at hr
        cases hr
      · have hread : Reads item c a c₁ := ⟨by rw [hi], by rw [hi]⟩
        by_cases hlt : c₁.ahead.length < c.ahead.length
        · rw [many_ok hs hi hlt] at hr hc
          cases hrest : (many select c₁).result with
          | error e => simp [hrest, Except.map] at hr
          | ok as' =>
            simp only [hrest, Except.map, Except.ok.injEq] at hr
            subst hr
            exact .round hs hread hlt (ih _ (hn ▸ hlt) ⟨hrest, hc⟩ rfl)
        · rw [many_stalled hs hi hlt] at hr hc
          cases hr
          cases hc
          exact .stalled hs hread hlt

/-- A loop fails in its first round, or behind it. -/
theorem Fails.round {select : Cursor → Option (Parse α)} {c c' : Cursor} {e : ParseError}
    (h : Fails (many select) c e c') :
    ∃ item, select c = some item ∧ (Fails item c e c' ∨ ∃ a c₁, Reads item c a c₁ ∧
      c₁.ahead.length < c.ahead.length ∧ Fails (many select) c₁ e c') := by
  obtain ⟨hr, hc⟩ := h
  cases hs : select c with
  | none =>
    rw [many_none hs] at hr
    cases hr
  | some item =>
    refine ⟨item, rfl, ?_⟩
    rcases hi : item c with ⟨e₁ | a, c₁, notes⟩
    · rw [many_error hs hi] at hr hc
      cases hr
      exact .inl ⟨by rw [hi], by rw [hi]; exact hc⟩
    · by_cases hlt : c₁.ahead.length < c.ahead.length
      · rw [many_ok hs hi hlt] at hr hc
        refine .inr ⟨a, c₁, ⟨by rw [hi], by rw [hi]⟩, hlt, ?_, hc⟩
        cases hrest : (many select c₁).result with
        | error e₂ =>
          simp only [hrest, Except.map, Except.error.injEq] at hr
          rw [hr]
        | ok as => simp [hrest, Except.map] at hr
      · rw [many_stalled hs hi hlt] at hr
        cases hr

/-- A loop whose first round fails does so as well. -/
theorem Fails.many_first {select : Cursor → Option (Parse α)} {item : Parse α}
    {c c' : Cursor} {e : ParseError} (hs : select c = some item) (hi : Fails item c e c') :
    Fails (many select) c e c' := by
  obtain ⟨notes, hrun⟩ := hi.outcome
  rw [Fails, many_error hs hrun]
  exact ⟨rfl, rfl⟩

/-- So does a loop whose rounds behind the first one fail. -/
theorem Fails.many_later {select : Cursor → Option (Parse α)} {item : Parse α}
    {c c₁ c' : Cursor} {a : α} {e : ParseError} (hs : select c = some item)
    (hi : Reads item c a c₁) (hlt : c₁.ahead.length < c.ahead.length)
    (hrest : Fails (many select) c₁ e c') : Fails (many select) c e c' := by
  obtain ⟨notes, hrun⟩ := hi.outcome
  obtain ⟨he, hc⟩ := hrest
  rw [Fails, many_ok hs hrun hlt, he]
  exact ⟨rfl, hc⟩

end Parse

end TemplateSyntax
