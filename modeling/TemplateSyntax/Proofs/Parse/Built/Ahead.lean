import TemplateSyntax.Proofs.Parse.Built.Block

/-! # How Far Parsers Get

  A parser never goes back: whether it reads something or fails, it stops among the tokens ahead
  of it (`Parse.Built.spans`). And it never gets past a token of a kind that it does not move over.
  Such a token is a wall: what the parser does in front of it, errors included, is the same
  whatever stands behind (`Parse.Built.walled`).
-/

namespace TemplateSyntax

/-- The tokens that a step moves over, which are none behind the last one. -/
theorem Cursor.exists_spans_advance (c : Cursor) : ∃ u, c.Spans u c.advance := by
  obtain ⟨ts, s⟩ := c
  cases ts with
  | nil => exact ⟨[], rfl, rfl⟩
  | cons t ts => exact ⟨[t], rfl, rfl⟩

namespace Parse

variable {α β : Type} {movable start : Kind → Prop}

/-! ## Nothing Is Read Again -/

theorem Built.spans {p : Parse α} (hp : Built movable start p) (c : Cursor)
    (hc : start c.current.kind) : ∃ u, c.Spans u (p c).cursor := by
  induction hp generalizing c with
  | pure => exact ⟨[], c.spans_refl⟩
  | @bind _ _ _ p f _ _ ihp ihf =>
    obtain ⟨u, hu⟩ := ihp c hc
    rcases hrun : p c with ⟨e | a, c', notes⟩
    · rw [hrun] at hu
      rw [bind_error hrun]
      exact ⟨u, hu⟩
    · rw [hrun] at hu
      rw [bind_ok hrun]
      obtain ⟨v, hv⟩ := ihf a c' trivial
      exact ⟨u ++ v, hu.trans hv⟩
  | advance => exact c.exists_spans_advance
  | skipped => exact ⟨[], c.spans_refl⟩
  | fail => exact ⟨[], c.spans_refl⟩
  | reject => exact ⟨[], c.spans_refl⟩
  | choose _ _ ih => exact ih c hc c rfl
  | @many _ _ select _ _ ih =>
    clear hc
    have hround : ∀ {c item result c' notes}, select c = some item →
        item c = ⟨result, c', notes⟩ → ∃ u, c.Spans u c' := by
      intro c item result c' notes hs hi
      have hitem := ih c item hs c rfl
      rwa [hi] at hitem
    induction c using many_along select with
    | done c hs => exact ⟨[], c.spans_refl⟩
    | error c item e c' notes hs hi => exact hround hs hi
    | stalled c item a c' notes hs hi => exact hround hs hi
    | round c item a c' notes hs hi ihrest =>
      obtain ⟨u, hu⟩ := hround hs hi
      obtain ⟨v, hv⟩ := ihrest
      exact ⟨u ++ v, hu.trans hv⟩

/-- What is left ahead are the last ones of the tokens. -/
theorem Built.exists_rest {p : Parse α} (hp : Built movable start p) (ts : List Token) (s : Span)
    (hstart : start (Cursor.mk ts s).current.kind) :
    ∃ rest, rest <:+ ts ∧ (p ⟨ts, s⟩).cursor = ⟨rest, s⟩ := by
  obtain ⟨u, hu, hstop⟩ := hp.spans ⟨ts, s⟩ hstart
  exact ⟨_, ⟨u, hu.symm⟩, congrArg (Cursor.mk _) hstop⟩

/-! ## Walls -/

/-- In front of the token `t`, with the tokens `h` before it, the parser stops among these with
    one outcome, whatever stands behind `t`. -/
def Walled (t : Token) (p : Parse α) (h : List Token) : Prop :=
  ∃ result h' notes, h' <:+ h ∧ ∀ r s, p ⟨h ++ t :: r, s⟩ = ⟨result, ⟨h' ++ t :: r, s⟩, notes⟩

section walled

variable {t : Token} {h : List Token}

/-- In front of a token that is not moved over, all that may be looked at stands before what is
    behind it. -/
theorem looksLike_of_wall (ht : ¬ movable t.kind) (h r r' : List Token) (s s' : Span) :
    Cursor.LooksLike movable ⟨h ++ t :: r, s⟩ ⟨h ++ t :: r', s'⟩ := by
  rcases h with _ | ⟨u, _ | ⟨v, h⟩⟩
  · exact ⟨rfl, fun hmovable => absurd hmovable ht⟩
  · exact ⟨rfl, fun _ => rfl⟩
  · exact ⟨rfl, fun _ => rfl⟩

theorem walled_bind {p : Parse α} {f : α → Parse β} (hp : Walled t p h)
    (hf : ∀ a h', h' <:+ h → Walled t (f a) h') : Walled t (p >>= f) h := by
  obtain ⟨result, h', notes, hsuffix, hrun⟩ := hp
  cases result with
  | error e => exact ⟨.error e, h', notes, hsuffix, fun r s => bind_error (hrun r s)⟩
  | ok a =>
    obtain ⟨result, h'', notes', hsuffix', hrun'⟩ := hf a h' hsuffix
    refine ⟨result, h'', notes ++ notes', hsuffix'.trans hsuffix, fun r s => ?_⟩
    rw [bind_ok (hrun r s), hrun' r s]

/-- A loop whose rounds do not get past a token does not either. -/
theorem walled_many {select : Cursor → Option (Parse α)}
    (hlook : ∀ h r r' s s', select ⟨h ++ t :: r, s⟩ = select ⟨h ++ t :: r', s'⟩)
    (hitem : ∀ h item, (∀ r s, select ⟨h ++ t :: r, s⟩ = some item) → Walled t item h)
    (h : List Token) : Walled t (many select) h := by
  induction hn : h.length using Nat.strongRecOn generalizing h with
  | _ n ih =>
    cases hs : select ⟨h ++ t :: [], t.span⟩ with
    | none =>
      refine ⟨.ok [], h, [], List.suffix_rfl, fun r s => ?_⟩
      exact many_none ((hlook h r [] s t.span).trans hs)
    | some item =>
      have hsome : ∀ r s, select ⟨h ++ t :: r, s⟩ = some item := fun r s =>
        (hlook h r [] s t.span).trans hs
      obtain ⟨result, h', notes, hsuffix, hrun⟩ := hitem h item hsome
      cases result with
      | error e =>
        exact ⟨.error e, h', notes, hsuffix, fun r s => many_error (hsome r s) (hrun r s)⟩
      | ok a =>
        by_cases hlt : h'.length < h.length
        · obtain ⟨rest, h'', notes', hsuffix', hrun'⟩ := ih h'.length (hn ▸ hlt) h' rfl
          refine ⟨rest.map (a :: ·), h'', notes ++ notes', hsuffix'.trans hsuffix, fun r s => ?_⟩
          have hless : (h' ++ t :: r).length < (h ++ t :: r).length := by
            simpa using hlt
          rw [many_ok (hsome r s) (hrun r s) hless, hrun' r s]
        -- A round that moves over nothing is the last one, with whatever tokens behind.
        · refine ⟨.ok [a], h', notes, hsuffix, fun r s => ?_⟩
          have hless : ¬ (h' ++ t :: r).length < (h ++ t :: r).length := by
            simpa using hlt
          exact many_stalled (hsome r s) (hrun r s) hless

theorem Built.walled {p : Parse α} (hp : Built movable start p) (ht : ¬ movable t.kind)
    (h : List Token) (hstart : start (Cursor.mk (h ++ [t]) t.span).current.kind) :
    Walled t p h := by
  induction hp generalizing h with
  | pure a => exact ⟨.ok a, h, [], List.suffix_rfl, fun _ _ => rfl⟩
  | bind _ _ ihp ihf => exact walled_bind (ihp h hstart) fun a h' _ => ihf a h' trivial
  | advance hmovable =>
    cases h with
    | nil => exact absurd (hmovable _ hstart) ht
    | cons u h => exact ⟨.ok u, h, [], List.suffix_cons u h, fun _ _ => rfl⟩
  | skipped u => exact ⟨.ok (), h, [.skipped u], List.suffix_rfl, fun _ _ => rfl⟩
  | @fail _ _ cause =>
    -- The token to blame is the first one of those before the wall, or the wall itself.
    let e := ParseError.blaming (Cursor.mk (h ++ [t]) t.span).current cause
    refine ⟨.error e, h, [.failed e], List.suffix_rfl, fun r s => ?_⟩
    rw [fail_apply, (looksLike_of_wall ht h r [] s t.span).current]
  | @reject _ _ e => exact ⟨.error e, h, [], List.suffix_rfl, fun _ _ => rfl⟩
  | @choose _ _ f hlook _ ih =>
    obtain ⟨result, h', notes, hsuffix, hrun⟩ := ih ⟨h ++ [t], t.span⟩ hstart h rfl
    refine ⟨result, h', notes, hsuffix, fun r s => ?_⟩
    have hsame : f ⟨h ++ [t], t.span⟩ = f ⟨h ++ t :: r, s⟩ :=
      hlook _ _ hstart (looksLike_of_wall ht h [] r t.span s)
    exact (congrFun hsame.symm _).trans (hrun r s)
  | many hlook _ ih =>
    apply walled_many
    · intro h r r' s s'
      exact hlook _ _ (looksLike_of_wall ht h r r' s s')
    · intro h item hs
      exact ih _ item (hs [] t.span) h rfl

end walled

end Parse

end TemplateSyntax
