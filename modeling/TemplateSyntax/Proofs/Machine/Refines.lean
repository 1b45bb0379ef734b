import TemplateSyntax.Parse.Program
import TemplateSyntax.Proofs.Machine.Related

/-! # The Machine Refines the Parsers

  Whatever a program of the machine comes to, as many nested calls are open behind it as were
  before it (`Machine.KeepsDepth`). With the counter at some depth, the machine does what the
  parser does that has the rest of the levels left (`Machine.Refines`), and it never runs out
  of the stack.

  Where it complains of nesting, the calls that are open and the depth at which it was started
  make up the limit. They have begun at different tokens, one behind the other, for no nested
  call makes another one before it has read a token (`Machine.Guarded`).
-/

namespace TemplateSyntax.Machine

variable {α β : Type} {limit depth : Nat}

/-! ## Runs -/

theorem bind_none {p : Machine α} {f : α → Machine β} {s : State} (h : p s = none) :
    (p >>= f) s = none := by
  show andThen p f s = _
  rw [andThen, h]

theorem bind_error {p : Machine α} {f : α → Machine β} {s s' : State} {e : Failure}
    {notes : List ParseNote} (h : p s = some ⟨.error e, s', notes⟩) :
    (p >>= f) s = some ⟨.error e, s', notes⟩ := by
  show andThen p f s = _
  rw [andThen, h]

theorem bind_ok {p : Machine α} {f : α → Machine β} {s s' : State} {a : α}
    {notes : List ParseNote} (h : p s = some ⟨.ok a, s', notes⟩) :
    (p >>= f) s = (f a s').map fun o => ⟨o.result, o.state, notes ++ o.notes⟩ := by
  show andThen p f s = _
  rw [andThen, h]

section rounds

variable {select : Cursor → Option (Machine α)} {item : Machine α} {s s' : State}

theorem rounds_done (hs : select s.cursor = none) : rounds select s = some ⟨.ok [], s, []⟩ := by
  rw [rounds, hs]

theorem rounds_none (hs : select s.cursor = some item) (hi : item s = none) :
    rounds select s = none := by
  rw [rounds, hs]
  simp only [hi]

theorem rounds_error {e : Failure} {notes : List ParseNote} (hs : select s.cursor = some item)
    (hi : item s = some ⟨.error e, s', notes⟩) :
    rounds select s = some ⟨.error e, s', notes⟩ := by
  rw [rounds, hs]
  simp only [hi]

theorem rounds_ok {a : α} {notes : List ParseNote} (hs : select s.cursor = some item)
    (hi : item s = some ⟨.ok a, s', notes⟩)
    (hlt : s'.cursor.ahead.length < s.cursor.ahead.length) :
    rounds select s = (rounds select s').map fun o =>
      ⟨o.result.map (a :: ·), o.state, notes ++ o.notes⟩ := by
  rw [rounds, hs]
  simp only [hi, dif_pos hlt]

theorem rounds_stalled {a : α} {notes : List ParseNote} (hs : select s.cursor = some item)
    (hi : item s = some ⟨.ok a, s', notes⟩)
    (hge : ¬ s'.cursor.ahead.length < s.cursor.ahead.length) :
    rounds select s = some ⟨.ok [a], s', notes⟩ := by
  rw [rounds, hs]
  simp only [hi, dif_neg hge]

end rounds

/-! ## The Counter -/

/-- Whatever the program answers, and in whatever state it is started, as many nested calls are
    open behind it as before it. -/
def KeepsDepth (p : Machine α) : Prop := ∀ s o, p s = some o → o.state.depth = s.depth

theorem keepsDepth_pure (a : α) : KeepsDepth (pure a) := by
  intro s o ho
  cases ho
  rfl

theorem keepsDepth_bind {p : Machine α} {f : α → Machine β} (hp : KeepsDepth p)
    (hf : ∀ a, KeepsDepth (f a)) : KeepsDepth (p >>= f) := by
  intro s o ho
  rcases h : p s with _ | ⟨e | a, s', notes⟩
  · rw [bind_none h] at ho
    cases ho
  · rw [bind_error h] at ho
    cases ho
    exact hp s _ h
  · rw [bind_ok h] at ho
    obtain ⟨o', ho', rfl⟩ := Option.map_eq_some_iff.mp ho
    exact (hf a s' o' ho').trans (hp s _ h)

theorem keepsDepth_branch {isSuch : Cursor → Bool} {p q : Machine α} (hp : KeepsDepth p)
    (hq : KeepsDepth q) : KeepsDepth (Parsing.branch isSuch p q) := by
  intro s o ho
  by_cases hs : isSuch s.cursor = true
  · exact hp s o ((if_pos hs).symm.trans ho)
  · exact hq s o ((if_neg hs).symm.trans ho)

theorem keepsDepth_rounds {select : Cursor → Option (Machine α)}
    (h : ∀ c item, select c = some item → KeepsDepth item) : KeepsDepth (rounds select) := by
  intro s o ho
  -- Every round but the last leaves fewer tokens ahead.
  induction hn : s.cursor.ahead.length using Nat.strongRecOn generalizing s o with
  | _ n ih =>
    cases hs : select s.cursor with
    | none =>
      rw [rounds_done hs] at ho
      cases ho
      rfl
    | some item =>
      have hitem := h s.cursor item hs
      rcases hi : item s with _ | ⟨e | a, s', notes⟩
      · rw [rounds_none hs hi] at ho
        cases ho
      · rw [rounds_error hs hi] at ho
        cases ho
        exact hitem s _ hi
      · by_cases hlt : s'.cursor.ahead.length < s.cursor.ahead.length
        · rw [rounds_ok hs hi hlt] at ho
          obtain ⟨o', ho', rfl⟩ := Option.map_eq_some_iff.mp ho
          exact (ih _ (hn ▸ hlt) s' o' ho' rfl).trans (hitem s _ hi)
        · rw [rounds_stalled hs hi hlt] at ho
          cases ho
          exact hitem s _ hi

/-- No operation touches the counter, whatever there is on the other side. -/
theorem keeps_keepsDepth :
    Parsing.Keeps (P := Parse) (Q := Machine) (fun _ _ q => KeepsDepth q)
      (fun _ _ q => KeepsDepth q) where
  weaken hp := hp
  pure := keepsDepth_pure
  bind := keepsDepth_bind
  map f hp := keepsDepth_bind hp fun a => keepsDepth_pure (f a)
  current s o ho := by cases ho; rfl
  report note s o ho := by cases ho; rfl
  reject _ s o ho := by cases ho; rfl
  branch _ := keepsDepth_branch
  many := @fun _ select _ h => by
    apply keepsDepth_rounds
    intro c item hitem
    have hc := h c
    rw [hitem] at hc
    generalize select c = selected at hc
    cases hc with
    | some hkeeps => exact hkeeps
  advance s o ho := by cases ho; rfl
  fail _ s o ho := by cases ho; rfl
  first := keepsDepth_bind
  look hf := keepsDepth_bind (fun s o ho => by cases ho; rfl) hf
  lookBehind hf := keepsDepth_bind (fun s o ho => by cases ho; rfl) hf
  either _ := keepsDepth_branch

/-- A nested call counts down again what it has counted up, also on the way out of an error. -/
theorem keepsDepth_nested {p : Machine α} (hp : KeepsDepth p) (limit : Nat) (callee : Callee) :
    KeepsDepth (nested limit callee p) := by
  intro s o ho
  unfold nested at ho
  split at ho
  · cases ho
    rfl
  · obtain ⟨o', ho', rfl⟩ := Option.map_eq_some_iff.mp ho
    have hkeeps : o'.state.depth = s.depth + 1 := hp _ o' ho'
    show o'.state.depth - 1 = s.depth
    omega

theorem keepsDepth_calls (limit frames : Nat) (n : Nested) :
    n.Related (fun _ _ q => KeepsDepth q) (calls limit frames) := by
  induction frames with
  | zero => exact ⟨nofun, nofun, nofun, nofun⟩
  | succ frames ih =>
    constructor
    · exact keepsDepth_nested (Parse.guarded_conditional keeps_keepsDepth ih) _ _
    · exact keepsDepth_nested (Parse.guarded_unary keeps_keepsDepth ih) _ _
    · exact keepsDepth_nested (Parse.guarded_block keeps_keepsDepth ih) _ _
    · exact keepsDepth_nested (Parse.guarded_alternate keeps_keepsDepth ih) _ _

theorem keepsDepth_programWithin (limit : Nat) : KeepsDepth (programWithin limit) :=
  Parse.related_programOf keeps_keepsDepth (keepsDepth_calls limit _ (.within 0 0))

/-! ## Open Calls -/

/-- The calls have begun at tokens from `c` on, each behind the token of the one before it, and
    none of them behind `stop`. -/
def InTurn (stop : Cursor) : Cursor → List OpenCall → Prop
  | c, [] => stop.ahead <:+ c.ahead
  | c, call :: calls =>
    ∃ c₁ : Cursor, c₁.ahead <:+ c.ahead ∧ call.token = c₁.current ∧ InTurn stop c₁.advance calls

theorem InTurn.mono {stop c c₁ : Cursor} {calls : List OpenCall} (h : InTurn stop c₁ calls)
    (hc : c₁.ahead <:+ c.ahead) : InTurn stop c calls := by
  cases calls with
  | nil => exact List.IsSuffix.trans h hc
  | cons call calls =>
    obtain ⟨c₂, hc₂, htoken, hrest⟩ := h
    exact ⟨c₂, hc₂.trans hc, htoken, hrest⟩

/-- The tokens where the calls have begun are some of those ahead, in front of what is left. -/
theorem InTurn.sublist {stop c : Cursor} {calls : List OpenCall} (h : InTurn stop c calls)
    (hstop : stop.ahead ≠ []) : (calls.map OpenCall.token ++ stop.ahead).Sublist c.ahead := by
  induction calls generalizing c with
  | nil => exact List.IsSuffix.sublist h
  | cons call calls ih =>
    obtain ⟨⟨ts, s⟩, hc₁, htoken, hrest⟩ := h
    have hsub := ih hrest
    cases ts with
    | nil =>
      have hnone := List.append_eq_nil_iff.mp (List.sublist_nil.mp hsub)
      exact absurd hnone.2 hstop
    | cons t ts =>
      have hall : (call.token :: (calls.map OpenCall.token ++ stop.ahead)).Sublist (t :: ts) :=
        htoken ▸ hsub.cons_cons t
      exact hall.trans hc₁.sublist

/-! ## Refinement -/

/-- The machine, started at some depth, has come to the same result as a parser. It has not gone
    back in front of `start` if it has read something. If it complains of nesting, it does so of
    the token where it has stopped, and with as many calls open as there were levels left. -/
inductive Agrees (limit depth : Nat) (start stop : Cursor) :
    Except ParseError α → Except Failure α → Prop
  | ok (a : α) (h : stop.ahead <:+ start.ahead) : Agrees limit depth start stop (.ok a) (.ok a)
  | error {e : ParseError} {calls : List OpenCall}
      (h : e.cause.isNesting = true → calls.length + depth = limit ∧ InTurn stop start calls ∧
        e = .blaming stop.current (.tooDeep limit)) :
      Agrees limit depth start stop (.error e) (.error ⟨e, calls⟩)

section agrees

variable {start start' stop : Cursor} {x : Except ParseError α} {y : Except Failure α}

theorem Agrees.mono (h : Agrees limit depth start' stop x y)
    (hstart : start'.ahead <:+ start.ahead) : Agrees limit depth start stop x y := by
  cases h with
  | ok a hstop => exact .ok a (hstop.trans hstart)
  | error hdeep =>
    refine .error fun he => ?_
    obtain ⟨hlength, hturn, hblamed⟩ := hdeep he
    exact ⟨hlength, hturn.mono hstart, hblamed⟩

theorem Agrees.map (h : Agrees limit depth start stop x y) (f : α → β) :
    Agrees limit depth start stop (x.map f) (y.map f) := by
  cases h with
  | ok a hstop => exact .ok _ hstop
  | error hdeep => exact .error hdeep

/-- Without its open calls, the result of the machine is that of the parser. -/
theorem Agrees.outcome (h : Agrees limit depth start stop x y) :
    y.mapError Failure.error = x := by
  cases h with
  | ok a hstop => rfl
  | error hdeep => rfl

/-- An error that does not complain of nesting. -/
theorem Agrees.other {e : ParseError} {calls : List OpenCall} (he : e.cause.isNesting = false) :
    Agrees limit depth start stop (.error e : Except ParseError α) (.error ⟨e, calls⟩) :=
  .error fun h => absurd (he.symm.trans h) Bool.false_ne_true

/-- Behind a nested call one more call has been open, which has begun in front of the others. -/
theorem Agrees.leave {c : Cursor} (h : Agrees limit (depth + 1) c.advance stop x y)
    (callee : Callee) : Agrees limit depth c stop x
      (y.mapError fun f => { f with calls := ⟨callee, c.current⟩ :: f.calls }) := by
  cases h with
  | ok a hstop => exact .ok a (hstop.trans (List.tail_suffix c.ahead))
  | @error e calls hdeep =>
    refine .error fun he => ?_
    obtain ⟨hlength, hturn, hblamed⟩ := hdeep he
    show calls.length + 1 + depth = limit ∧ _
    exact ⟨by omega, ⟨c, List.suffix_rfl, rfl, hturn⟩, hblamed⟩

end agrees

/-- Started with the cursor at `c`, the machine answers what the parser does there, and stops
    where it does, at the same depth. -/
def AnswersAt (limit depth : Nat) (start c : Cursor) (p : Parse α) (q : Machine α) : Prop :=
  ∃ r, q ⟨c, depth⟩ = some ⟨r, ⟨(p c).cursor, depth⟩, (p c).notes⟩ ∧
    Agrees limit depth start (p c).cursor (p c).result r

/-- Started at the depth, wherever its cursor stands, the machine does what the parser does. -/
def Refines (limit depth : Nat) (α : Type) (p : Parse α) (q : Machine α) : Prop :=
  ∀ c, AnswersAt limit depth c c p q

/-- The machine does what the parser does, and reads a token before it makes a nested call. -/
def Guarded (limit depth : Nat) (α : Type) (p : Parse α) (q : Machine α) : Prop :=
  ∀ c, AnswersAt limit depth c.advance c p q

theorem AnswersAt.bind {start c : Cursor} {p : Parse α} {q : Machine α} {f : α → Parse β}
    {g : α → Machine β} (hp : AnswersAt limit depth start c p q)
    (hf : ∀ a, Refines limit depth β (f a) (g a)) :
    AnswersAt limit depth start c (p >>= f) (q >>= g) := by
  obtain ⟨r, hq, hr⟩ := hp
  rcases hrun : p c with ⟨result, c', notes⟩
  rw [hrun] at hq hr
  unfold AnswersAt
  cases hr with
  | ok a hstop =>
    obtain ⟨r', hq', hr'⟩ := hf a c'
    rw [Parse.bind_ok hrun, bind_ok hq, hq']
    exact ⟨r', rfl, hr'.mono hstop⟩
  | error hdeep =>
    rw [Parse.bind_error hrun, bind_error hq]
    exact ⟨_, rfl, .error hdeep⟩

/-- Behind something that is only looked at, the cursor stands where it stood. -/
theorem AnswersAt.look {start c : Cursor} {p : Parse Token} {q : Machine Token} {t : Token}
    {f : Token → Parse α} {g : Token → Machine α} (hp : p c = ⟨.ok t, c, []⟩)
    (hq : q ⟨c, depth⟩ = some ⟨.ok t, ⟨c, depth⟩, []⟩)
    (h : AnswersAt limit depth start c (f t) (g t)) :
    AnswersAt limit depth start c (p >>= f) (q >>= g) := by
  obtain ⟨r, hg, hr⟩ := h
  refine ⟨r, ?_, ?_⟩
  · rw [Parse.bind_ok hp, bind_ok hq, hg]
    rfl
  · rw [Parse.bind_ok hp]
    exact hr

theorem AnswersAt.branch {start c : Cursor} {isSuch : Cursor → Bool} {p p' : Parse α}
    {q q' : Machine α} (hp : AnswersAt limit depth start c p q)
    (hp' : AnswersAt limit depth start c p' q') :
    AnswersAt limit depth start c (Parsing.branch isSuch p p') (Parsing.branch isSuch q q') := by
  unfold AnswersAt
  cases hs : isSuch c with
  | true =>
    obtain ⟨r, hq, hr⟩ := hp
    rw [Parse.branch_of_true hs]
    exact ⟨r, (if_pos hs).trans hq, hr⟩
  | false =>
    obtain ⟨r, hq, hr⟩ := hp'
    rw [Parse.branch_of_false hs]
    exact ⟨r, (if_neg (Bool.eq_false_iff.mp hs)).trans hq, hr⟩

theorem refines_pure (a : α) : Refines limit depth α (pure a) (pure a) :=
  fun _ => ⟨.ok a, rfl, .ok a List.suffix_rfl⟩

theorem refines_many {select : Cursor → Option (Parse α)} {select' : Cursor → Option (Machine α)}
    (h : ∀ c, Option.Rel (Refines limit depth α) (select c) (select' c)) :
    Refines limit depth (List α) (Parsing.many select) (Parsing.many select') := by
  intro c
  show ∃ r, rounds select' ⟨c, depth⟩ = _ ∧ _
  -- Both loops have the same rounds, and every round but the last leaves fewer tokens ahead.
  induction hn : c.ahead.length using Nat.strongRecOn generalizing c with
  | _ n ih =>
    have hc := h c
    rcases hs : select c with _ | item <;> rcases hs' : select' c with _ | item' <;>
      rw [hs, hs'] at hc <;> cases hc
    · rw [Parse.many_none hs, rounds_done hs']
      exact ⟨_, rfl, .ok [] List.suffix_rfl⟩
    next hitem =>
    obtain ⟨r, hq, hr⟩ := hitem c
    rcases hrun : item c with ⟨result, c', notes⟩
    rw [hrun] at hq hr
    cases hr with
    | ok a hstop =>
      by_cases hlt : c'.ahead.length < c.ahead.length
      · obtain ⟨r', hq', hr'⟩ := ih _ (hn ▸ hlt) c' rfl
        rw [Parse.many_ok hs hrun hlt, rounds_ok hs' hq hlt, hq']
        exact ⟨_, rfl, (hr'.mono hstop).map _⟩
      · rw [Parse.many_stalled hs hrun hlt, rounds_stalled hs' hq hlt]
        exact ⟨_, rfl, .ok _ hstop⟩
    | error hdeep =>
      rw [Parse.many_error hs hrun, rounds_error hs' hq]
      exact ⟨_, rfl, .error hdeep⟩

/-- Every operation of the machine does what that of the parsers does. -/
theorem keeps_refines (limit depth : Nat) :
    Parsing.Keeps (Refines limit depth) (Guarded limit depth) where
  weaken hp c := by
    obtain ⟨r, hq, hr⟩ := hp c
    exact ⟨r, hq, hr.mono (List.tail_suffix c.ahead)⟩
  pure := refines_pure
  bind hp hf c := (hp c).bind hf
  map f hp c := (hp c).bind fun a => refines_pure (f a)
  current _ := ⟨_, rfl, .ok _ List.suffix_rfl⟩
  report _ _ := ⟨_, rfl, .ok _ List.suffix_rfl⟩
  reject he _ := ⟨_, rfl, .other he⟩
  branch _ hp hp' c := (hp c).branch (hp' c)
  many := refines_many
  advance _ := ⟨_, rfl, .ok _ List.suffix_rfl⟩
  fail hcause _ := ⟨_, rfl, .other hcause⟩
  first hp hf c := (hp c).bind hf
  look hf c := .look rfl rfl (hf _ c)
  lookBehind hf c := .look rfl rfl (hf _ c)
  either _ hp hp' c := (hp c).branch (hp' c)

/-! ## Nested Calls -/

/-- At the limit a nested call is refused, and no call is open but those outside. -/
theorem refines_refused (q : Machine α) (callee : Callee) :
    Refines limit limit α (Parse.fail (.tooDeep limit)) (nested limit callee q) := by
  intro c
  refine ⟨.error ⟨.blaming c.current (.tooDeep limit), []⟩, ?_, ?_⟩
  · exact if_pos (Nat.le_refl limit)
  · exact .error fun _ => ⟨Nat.zero_add limit, List.suffix_rfl, rfl⟩

/-- Below the limit a nested call takes one level, and gives it back. -/
theorem refines_nested (hlt : depth < limit) {p : Parse α} {q : Machine α} (callee : Callee)
    (h : Guarded limit (depth + 1) α p q) : Refines limit depth α p (nested limit callee q) := by
  intro c
  obtain ⟨r, hq, hr⟩ := h c
  have hrun : nested limit callee q ⟨c, depth⟩ =
      (q ⟨c, depth + 1⟩).map (Answer.leave ⟨callee, c.current⟩) := if_neg (Nat.not_le.mpr hlt)
  unfold AnswersAt
  rw [hrun, hq]
  exact ⟨_, rfl, hr.leave callee⟩

/-- The levels that are left and the depth make up the limit. As long as there are more frames
    than levels left, the stack is no bound. -/
theorem refines_calls {frames left : Nat} (hlimit : left + depth = limit)
    (hframes : left < frames) :
    (Nested.within limit left).Related (Refines limit depth) (calls limit frames) := by
  obtain ⟨frames, rfl⟩ : ∃ k, frames = k + 1 := ⟨frames - 1, by omega⟩
  induction left generalizing frames depth with
  | zero =>
    -- The counter is at the limit, and every call is refused.
    obtain rfl : depth = limit := by omega
    exact ⟨refines_refused _ _, refines_refused _ _, refines_refused _ _, refines_refused _ _⟩
  | succ left ih =>
    -- A call takes one level and one frame, so there are still more of these inside it.
    obtain ⟨frames, rfl⟩ : ∃ k, frames = k + 1 := ⟨frames - 1, by omega⟩
    have hlt : depth < limit := by omega
    have hinner : (Nested.within limit left).Related (Refines limit (depth + 1))
        (calls limit (frames + 1)) := ih (by omega) frames (by omega)
    have hkeeps := keeps_refines limit (depth + 1)
    constructor
    · exact refines_nested hlt _ (Parse.guarded_conditional hkeeps hinner)
    · exact refines_nested hlt _ (Parse.guarded_unary hkeeps hinner)
    · exact refines_nested hlt _ (Parse.guarded_block hkeeps hinner)
    · exact refines_nested hlt _ (Parse.guarded_alternate hkeeps hinner)

theorem refines_programWithin (limit : Nat) :
    Refines limit 0 Program (Parse.programWithin limit) (programWithin limit) := by
  have hcalls : (Nested.within limit limit).Related (Refines limit 0) (calls limit (limit + 1)) :=
    refines_calls (Nat.add_zero limit) (Nat.lt_succ_self limit)
  exact Parse.related_programOf (keeps_refines limit 0) hcalls

end TemplateSyntax.Machine
