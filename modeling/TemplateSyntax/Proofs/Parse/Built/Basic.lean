import TemplateSyntax.Proofs.Parse.Reads

/-! # Parsers Put Together from Single Tokens

  The parsers of the grammar are put together from a few single steps. They look at the current
  token and behind it, move over it, report it, or fail there (`Parse.Built`). What holds of the
  single steps and of all ways of composing parsers therefore holds of every parser, by induction
  over how it is put together.

  A parser is built to move over tokens of some kinds only, and it does not look behind any other
  token either. What is known of the token that it is started at is told as well, for a parser
  that moves over a token without a look at it relies on whoever has looked.
-/

namespace TemplateSyntax

/-- The same token is at both cursors, and if it is one to be moved over the same token is
    behind it. -/
structure Cursor.LooksLike (movable : Kind → Prop) (c d : Cursor) : Prop where
  current : c.current = d.current
  following (h : movable c.current.kind) : c.following = d.following

section cursors

variable {movable : Kind → Prop} {c d : Cursor}

theorem Cursor.LooksLike.isAt (h : c.LooksLike movable d) (k : Kind) : c.isAt k = d.isAt k := by
  rw [Cursor.isAt, Cursor.isAt, h.current]

/-- The word behind a brace is looked at only if there is a brace. -/
theorem Cursor.LooksLike.atBlock (h : c.LooksLike movable d) (hbrace : movable .exprStart)
    (words : List Kind) : c.atBlock words = d.atBlock words := by
  unfold Cursor.atBlock
  rw [← h.isAt]
  by_cases hk : c.current.kind = .exprStart
  · rw [h.following (hk ▸ hbrace)]
  · have hat : c.isAt .exprStart = false := decide_eq_false hk
    rw [hat, Bool.false_and, Bool.false_and]

end cursors

/-- A number that cannot be read is at fault. -/
def Cause.isNumeral : Cause → Bool
  | .badInteger _ _ | .badDecimal _ _ => true
  | _ => false

namespace Parse

/-- The parser is put together from single steps and moves over tokens of the kinds `movable` only,
    if it is started at a token of the kinds `start`. -/
inductive Built (movable : Kind → Prop) : {α : Type} → (start : Kind → Prop) → Parse α → Prop
  | pure {α : Type} {start : Kind → Prop} (a : α) : Built movable start (pure a)
  | bind {α β : Type} {start : Kind → Prop} {p : Parse α} {f : α → Parse β}
      (hp : Built movable start p) (hf : ∀ a, Built movable (fun _ => True) (f a)) :
      Built movable start (p >>= f)
  | advance {start : Kind → Prop} (h : ∀ k, start k → movable k) : Built movable start advance
  | skipped {start : Kind → Prop} (t : Token) : Built movable start (report (.skipped t))
  | fail {α : Type} {start : Kind → Prop} {cause : Cause} (h : cause.isNumeral = false) :
      Built movable start (fail cause : Parse α)
  | reject {α : Type} {start : Kind → Prop} {e : ParseError} (h : e.cause.isNumeral = true) :
      Built movable start (reject e : Parse α)
  /-- A choice by a look at the current token and behind it. -/
  | choose {α : Type} {start : Kind → Prop} {f : Cursor → Parse α}
      (hlook : ∀ c d, start c.current.kind → c.LooksLike movable d → f c = f d)
      (h : ∀ c, start c.current.kind → Built movable (· = c.current.kind) (f c)) :
      Built movable start (fun c => f c c)
  | many {α : Type} {start : Kind → Prop} {select : Cursor → Option (Parse α)}
      (hlook : ∀ c d, c.LooksLike movable d → select c = select d)
      (h : ∀ c item, select c = some item → Built movable (· = c.current.kind) item) :
      Built movable start (many select)

section built

variable {α β : Type} {movable movable' start start' : Kind → Prop} {c d : Cursor}

/-- A parser that relies on less, and may move over more. -/
theorem Built.weaken {p : Parse α} (h : Built movable start p) (hstart : ∀ k, start' k → start k)
    (hmovable : ∀ k, movable k → movable' k) : Built movable' start' p := by
  have hlooks : ∀ {c d : Cursor}, c.LooksLike movable' d → c.LooksLike movable d :=
    fun hcd => ⟨hcd.current, fun hk => hcd.following (hmovable _ hk)⟩
  induction h generalizing start' with
  | pure a => exact .pure a
  | bind _ _ ihp ihf => exact .bind (ihp hstart) fun a => ihf a fun _ h => h
  | advance h => exact .advance fun k hk => hmovable k (h k (hstart k hk))
  | skipped t => exact .skipped t
  | fail h => exact .fail h
  | reject h => exact .reject h
  | choose hlook _ ih =>
    apply Built.choose
    · intro c d hc hcd
      exact hlook c d (hstart _ hc) (hlooks hcd)
    · intro c hc
      exact ih c (hstart _ hc) fun _ h => h
  | many hlook _ ih =>
    apply Built.many
    · intro c d hcd
      exact hlook c d (hlooks hcd)
    · intro c item hs
      exact ih c item hs fun _ h => h

theorem Built.of_start {p : Parse α} (h : Built movable start p)
    (hstart : ∀ k, start' k → start k) : Built movable start' p :=
  h.weaken hstart fun _ hk => hk

/-! ## Looks at Tokens -/

theorem built_look {f : Token → Parse α}
    (hf : ∀ t, start t.kind → Built movable (· = t.kind) (f t)) :
    Built movable start (current >>= f) :=
  .choose (f := fun c => f c.current) (fun _ _ _ hcd => by rw [hcd.current])
    fun c hc => hf c.current hc

/-- A look behind a token that may be moved over. -/
theorem built_lookBehind {f : Token → Parse α} (hmovable : ∀ k, start k → movable k)
    (hf : ∀ t, Built movable start (f t)) : Built movable start (following >>= f) := by
  apply Built.choose (f := fun c => f c.following)
  · intro c d hc hcd
    rw [hcd.following (hmovable _ hc)]
  · intro c hc
    refine (hf c.following).of_start ?_
    rintro k rfl
    exact hc

/-- One of two parsers, as something that is known says. -/
theorem built_cond {b : Prop} [Decidable b] {p q : Parse α} (hp : b → Built movable start p)
    (hq : ¬ b → Built movable start q) : Built movable start (if b then p else q) := by
  by_cases hb : b
  · rw [if_pos hb]
    exact hp hb
  · rw [if_neg hb]
    exact hq hb

/-- One of two parsers, as the cursor says. -/
theorem built_branch {b : Cursor → Bool} {p q : Parse α}
    (hb : ∀ c d, c.LooksLike movable d → b c = b d)
    (hp : ∀ c, start c.current.kind → b c = true → Built movable (· = c.current.kind) p)
    (hq : Built movable start q) : Built movable start (branch b p q) := by
  have heq : branch b p q = fun c => (if b c then p else q) c := by
    funext c
    split
    · next hbc => exact branch_of_true hbc
    · next hbc => exact branch_of_false (Bool.eq_false_iff.mpr hbc)
  rw [heq]
  apply Built.choose
  · intro c d _ hcd
    rw [hb c d hcd]
  · intro c hc
    refine built_cond (hp c hc) fun _ => hq.of_start ?_
    rintro k rfl
    exact hc

/-! ## Single Tokens -/

theorem built_unexpected {x : Expected} : Built movable start (unexpected x : Parse α) :=
  built_branch (fun _ _ hcd => hcd.isAt .eof) (fun _ _ _ => .fail rfl)
    (built_look fun _ _ => .fail rfl)

theorem built_expect {k : Kind} (hk : movable k) : Built movable start (expect k) := by
  apply built_branch
  · intro c d hcd
    exact hcd.isAt k
  · intro c _ hat
    apply Built.advance
    rintro _ rfl
    rw [show c.current.kind = k from of_decide_eq_true hat]
    exact hk
  · exact built_unexpected

theorem built_map {p : Parse α} {f : α → β} (hp : Built movable start p) :
    Built movable start (f <$> p) := by
  rw [map_eq_pure_bind]
  exact .bind hp fun a => .pure (f a)

/-- Rows up to a brace with one of some words, or to an error where the input ends. -/
theorem built_until {p : Parse α} (words : List Kind) (x : Expected) (hbrace : movable .exprStart)
    (hp : Built movable (· ≠ .eof) p) :
    Built movable start (many fun c =>
      if c.atBlock words then none else if c.atEnd then some (unexpected x) else some p) := by
  apply Built.many
  · intro c d hcd
    rw [hcd.atBlock hbrace, Cursor.atEnd, Cursor.atEnd, hcd.isAt]
  · intro c item hs
    split at hs
    · cases hs
    split at hs <;> cases hs
    · exact built_unexpected
    · next hend =>
      refine hp.of_start ?_
      rintro _ rfl hk
      exact hend (decide_eq_true hk)

end built

/-! ## Loops -/

/-- Induction over the rounds of a loop. A round that fails is the last one, and so is a round
    that moves over nothing. -/
theorem many_along {α : Type} (select : Cursor → Option (Parse α))
    {motive : Cursor → Outcome (List α) → Prop}
    (done : ∀ c, select c = none → motive c ⟨.ok [], c, []⟩)
    (error : ∀ c item e c' notes, select c = some item → item c = ⟨.error e, c', notes⟩ →
      motive c ⟨.error e, c', notes⟩)
    (stalled : ∀ c item a c' notes, select c = some item → item c = ⟨.ok a, c', notes⟩ →
      motive c ⟨.ok [a], c', notes⟩)
    (round : ∀ c item a c' notes, select c = some item → item c = ⟨.ok a, c', notes⟩ →
      motive c' (many select c') → motive c ⟨(many select c').result.map (a :: ·),
        (many select c').cursor, notes ++ (many select c').notes⟩)
    (c : Cursor) : motive c (many select c) := by
  induction hn : c.ahead.length using Nat.strongRecOn generalizing c with
  | _ n ih =>
    cases hs : select c with
    | none =>
      rw [many_none hs]
      exact done c hs
    | some item =>
      rcases hi : item c with ⟨e | a, c', notes⟩
      · rw [many_error hs hi]
        exact error c item e c' notes hs hi
      · by_cases hlt : c'.ahead.length < c.ahead.length
        · rw [many_ok hs hi hlt]
          exact round c item a c' notes hs hi (ih _ (hn ▸ hlt) c' rfl)
        · rw [many_stalled hs hi hlt]
          exact stalled c item a c' notes hs hi

end Parse

end TemplateSyntax
