import TemplateSyntax.Proofs.Parse.Reads

/-! # Contracts of Parsers

  A contract says where a parser may be started, where it stops when it has read
  something, and which errors it may fail with (`Parse.Meets`). Contracts compose as
  parsers do, one rule for each way; a loop keeps whatever each of its rounds keeps.
-/

namespace TemplateSyntax.Parse

variable {α β : Type} {pre pre' : Cursor → Prop} {post post' : α → Cursor → Prop}
  {err err' : ParseError → Prop}

/-- Started where `pre` holds, the parser stops where `post` holds of what it read, or
    fails with an error of which `err` holds. -/
def Meets (pre : Cursor → Prop) (p : Parse α) (post : α → Cursor → Prop)
    (err : ParseError → Prop) : Prop :=
  ∀ c, pre c → (∀ a c', Reads p c a c' → post a c') ∧ ∀ e c', Fails p c e c' → err e

/-! ### Weaker Contracts -/

/-- A contract for more cursors, fewer outcomes and fewer errors. -/
theorem Meets.weaken {p : Parse α} (h : Meets pre p post err) (hpre : ∀ c, pre' c → pre c)
    (hpost : ∀ a c, post a c → post' a c) (herr : ∀ e, err e → err' e) :
    Meets pre' p post' err' := by
  intro c hc
  obtain ⟨hreads, hfails⟩ := h c (hpre c hc)
  exact ⟨fun a c' hr => hpost a c' (hreads a c' hr), fun e c' hf => herr e (hfails e c' hf)⟩

theorem Meets.of_pre {p : Parse α} (h : Meets pre p post err) (hpre : ∀ c, pre' c → pre c) :
    Meets pre' p post err :=
  h.weaken hpre (fun _ _ hp => hp) (fun _ he => he)

/-- A contract may be proved for each cursor by itself. -/
theorem meets_of_forall {p : Parse α} (h : ∀ c, pre c → Meets (· = c) p post err) :
    Meets pre p post err :=
  fun c hc => h c hc c rfl

/-- A contract at one of the cursors that it is for. -/
theorem Meets.startAt {p : Parse α} (h : Meets pre p post err) {c : Cursor} (hc : pre c) :
    Meets (· = c) p post err := by
  intro c' hc'
  rw [hc']
  exact h c hc

/-- Whatever holds of no cursor is a contract of every parser. -/
theorem meets_of_false {p : Parse α} (h : ∀ c, ¬ pre c) : Meets pre p post err :=
  fun c hc => absurd hc (h c)

/-! ### Sequencing -/

theorem meets_pure {a : α} (h : ∀ c, pre c → post a c) : Meets pre (pure a) post err := by
  intro c hc
  refine ⟨fun a' c' hr => ?_, fun e c' hf => absurd hf not_fails_pure⟩
  obtain ⟨rfl, rfl⟩ := reads_pure.mp hr
  exact h _ hc

/-- What the first parser leaves, the second one starts from. -/
theorem meets_bind {p : Parse α} {f : α → Parse β} {mid : α → Cursor → Prop}
    {post : β → Cursor → Prop} (hp : Meets pre p mid err)
    (hf : ∀ a, Meets (mid a) (f a) post err) : Meets pre (p >>= f) post err := by
  intro c hc
  obtain ⟨hreads, hfails⟩ := hp c hc
  refine ⟨fun b c' hr => ?_, fun e c' hfail => ?_⟩
  · obtain ⟨a, c₁, ha, hb⟩ := reads_bind.mp hr
    exact (hf a c₁ (hreads a c₁ ha)).1 b c' hb
  · rcases fails_bind.mp hfail with he | ⟨a, c₁, ha, he⟩
    · exact hfails e c' he
    · exact (hf a c₁ (hreads a c₁ ha)).2 e c' he

theorem meets_map {p : Parse α} {f : α → β} {post : β → Cursor → Prop}
    (h : Meets pre p (fun a => post (f a)) err) : Meets pre (f <$> p) post err := by
  intro c hc
  obtain ⟨hreads, hfails⟩ := h c hc
  refine ⟨fun b c' hr => ?_, fun e c' hfail => hfails e c' (fails_map.mp hfail)⟩
  obtain ⟨a, ha, rfl⟩ := reads_map.mp hr
  exact hreads a c' ha

/-- A parser that the cursor chooses between two. -/
theorem meets_branch {b : Cursor → Bool} {p q : Parse α}
    (hp : Meets (fun c => pre c ∧ b c = true) p post err)
    (hq : Meets (fun c => pre c ∧ b c = false) q post err) :
    Meets pre (branch b p q) post err := by
  intro c hc
  cases hb : b c with
  | true =>
    simp only [Reads, Fails, branch_of_true hb]
    exact hp c ⟨hc, hb⟩
  | false =>
    simp only [Reads, Fails, branch_of_false hb]
    exact hq c ⟨hc, hb⟩

/-! ### Single Tokens -/

theorem meets_current : Meets pre current (fun t c => pre c ∧ c.current = t) err := by
  intro c hc
  refine ⟨fun t c' hr => ?_, fun e c' hf => absurd hf not_fails_current⟩
  obtain ⟨rfl, rfl⟩ := reads_current.mp hr
  exact ⟨hc, rfl⟩

theorem meets_following : Meets pre following (fun _ => pre) err := by
  intro c hc
  refine ⟨fun t c' hr => ?_, fun e c' hf => absurd hf not_fails_following⟩
  obtain ⟨rfl, rfl⟩ := reads_following.mp hr
  exact hc

theorem meets_advance {post : Token → Cursor → Prop}
    (h : ∀ c, pre c → post c.current c.advance) : Meets pre advance post err := by
  intro c hc
  refine ⟨fun t c' hr => ?_, fun e c' hf => absurd hf not_fails_advance⟩
  obtain ⟨rfl, rfl⟩ := reads_advance.mp hr
  exact h c hc

theorem meets_report {note : ParseNote} : Meets pre (report note) (fun _ => pre) err := by
  intro c hc
  refine ⟨fun t c' hr => ?_, fun e c' hf => absurd hf not_fails_report⟩
  rw [reads_report.mp hr]
  exact hc

theorem meets_reject {e : ParseError} (h : ∀ c, pre c → err e) :
    Meets pre (reject e : Parse α) post err := by
  intro c hc
  refine ⟨fun a c' hr => absurd hr not_reads_reject, fun e' c' hf => ?_⟩
  rw [(fails_reject.mp hf).1]
  exact h c hc

theorem meets_fail {cause : Cause} (h : ∀ c, pre c → err (.blaming c.current cause)) :
    Meets pre (fail cause : Parse α) post err := by
  intro c hc
  refine ⟨fun a c' hr => absurd hr not_reads_fail, fun e c' hf => ?_⟩
  rw [(fails_fail.mp hf).1]
  exact h c hc

/-- An unexpected token is the only thing that this parser complains of. -/
theorem meets_unexpected {x : Expected}
    (h : ∀ t cause, (∃ found, cause = .unexpected found x) ∨ cause = .ended x →
      err (.blaming t cause)) : Meets pre (unexpected x : Parse α) post err := by
  intro c hc
  refine ⟨fun a c' hr => absurd hr not_reads_unexpected, fun e c' hf => ?_⟩
  rw [(fails_unexpected.mp hf).1]
  refine h _ _ ?_
  split
  · exact .inr rfl
  · exact .inl ⟨_, rfl⟩

theorem meets_expect {kind : Kind} {post : Token → Cursor → Prop}
    (hreads : ∀ c, pre c → c.current.kind = kind → post c.current c.advance)
    (hfails : ∀ t cause, (∃ found, cause = .unexpected found (.token kind)) ∨
      cause = .ended (.token kind) → err (.blaming t cause)) :
    Meets pre (expect kind) post err := by
  intro c hc
  refine ⟨fun t c' hr => ?_, fun e c' hf => ?_⟩
  · obtain ⟨hk, rfl, rfl⟩ := reads_expect.mp hr
    exact hreads c hc hk
  · have hunexpected : Meets pre (unexpected (.token kind)) post err := meets_unexpected hfails
    exact (hunexpected c hc).2 e c' (fails_expect.mp hf).2

/-! ### Repetition -/

/-- A loop keeps what each of its rounds keeps, and fails as one of them does. -/
theorem meets_many {select : Cursor → Option (Parse α)} {inv : Cursor → Prop}
    (h : ∀ c item, inv c → select c = some item → Meets (· = c) item (fun _ => inv) err) :
    Meets inv (many select) (fun _ => inv) err := by
  intro c hc
  refine ⟨fun as c' hr => ?_, fun e c' hf => ?_⟩
  · have hkeep : inv c → inv c' :=
      hr.rounds.fold (P := fun c _ c' => inv c → inv c') (fun _ hinv => hinv)
        fun c₁ c₂ _ item a _ hs hi hrest hinv => hrest ((h c₁ item hinv hs c₁ rfl).1 a c₂ hi)
    exact hkeep hc
  · -- The rounds before the one that fails leave less and less ahead.
    induction hn : c.ahead.length using Nat.strongRecOn generalizing c with
    | _ n ih =>
      obtain ⟨item, hs, hfail | ⟨a, c₁, hread, hlt, hfail⟩⟩ := hf.round
      · exact (h c item hc hs c rfl).2 e c' hfail
      · have hinv : inv c₁ := (h c item hc hs c rfl).1 a c₁ hread
        exact ih c₁.ahead.length (hn ▸ hlt) c₁ hinv hfail rfl

end TemplateSyntax.Parse
