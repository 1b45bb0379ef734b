import TemplateSyntax.Parse.Parsing

/-! # Parsers

  A parser takes a cursor to a value or an error, to the cursor behind what it read,
  and to notes of what is worth reporting. After an error the cursor stays where
  parsing stopped, so that another parser can go on from there.

  Parsers are composed by the operations of a lawful monad and by `many`, which
  repeats what the cursor selects and is the only loop. A loop ends when nothing is
  selected; it also ends after a round that read nothing, which no parser of the
  grammar does.
-/

namespace TemplateSyntax

/-- What a parser answers. -/
structure Outcome (α : Type) where
  result : Except ParseError α
  cursor : Cursor
  notes : List ParseNote

/-- A parser of values of a type. -/
def Parse (α : Type) : Type := Cursor → Outcome α

namespace Parse

variable {α β : Type}

/-! ### Operations -/

/-- Run one parser, then the one its value selects, from the cursor it leaves. -/
def andThen (p : Parse α) (f : α → Parse β) : Parse β := fun c =>
  match p c with
  | ⟨.ok a, c', notes⟩ =>
    let o := f a c'
    ⟨o.result, o.cursor, notes ++ o.notes⟩
  | ⟨.error e, c', notes⟩ => ⟨.error e, c', notes⟩

/-- Run the parser that the cursor selects, again and again, until it selects none. -/
def rounds (select : Cursor → Option (Parse α)) : Parse (List α) := fun c =>
  match select c with
  | none => ⟨.ok [], c, []⟩
  | some item =>
    match item c with
    | ⟨.error e, c', notes⟩ => ⟨.error e, c', notes⟩
    | ⟨.ok a, c', notes⟩ =>
      if _h : c'.ahead.length < c.ahead.length then
        let o := rounds select c'
        ⟨o.result.map (a :: ·), o.cursor, notes ++ o.notes⟩
      else ⟨.ok [a], c', notes⟩
termination_by c => c.ahead.length

instance : Parsing Parse where
  pure a := fun c => ⟨.ok a, c, []⟩
  bind := andThen
  current := fun c => ⟨.ok c.current, c, []⟩
  following := fun c => ⟨.ok c.following, c, []⟩
  advance := fun c => ⟨.ok c.current, c.advance, []⟩
  report note := fun c => ⟨.ok (), c, [note]⟩
  reject e := fun c => ⟨.error e, c, []⟩
  fail cause := fun c =>
    let e := ParseError.blaming c.current cause
    ⟨.error e, c, [.failed e]⟩
  branch isSuch p q := fun c => if isSuch c then p c else q c
  many := rounds

/-! ### Sequencing -/

theorem pure_apply (a : α) (c : Cursor) : (pure a : Parse α) c = ⟨.ok a, c, []⟩ := rfl

theorem bind_ok {p : Parse α} {f : α → Parse β} {c c' : Cursor} {a : α}
    {notes : List ParseNote} (h : p c = ⟨.ok a, c', notes⟩) :
    (p >>= f) c = ⟨(f a c').result, (f a c').cursor, notes ++ (f a c').notes⟩ := by
  show andThen p f c = _
  simp [andThen, h]

theorem bind_error {p : Parse α} {f : α → Parse β} {c c' : Cursor} {e : ParseError}
    {notes : List ParseNote} (h : p c = ⟨.error e, c', notes⟩) :
    (p >>= f) c = ⟨.error e, c', notes⟩ := by
  show andThen p f c = _
  simp [andThen, h]

instance : LawfulMonad Parse :=
  LawfulMonad.mk' Parse
    (fun p => by
      funext c
      rcases h : p c with ⟨_ | a, c', notes⟩
      · exact bind_error h
      · exact (bind_ok h).trans (by simp [Function.comp]))
    (fun a f => by
      funext c
      exact (bind_ok (pure_apply a c)).trans (by simp))
    (fun p f g => by
      funext c
      rcases h : p c with ⟨_ | a, c', notes⟩
      · rw [bind_error h, bind_error (bind_error h)]
      · rw [bind_ok h]
        rcases h₁ : f a c' with ⟨_ | b, c₁, notes₁⟩
        · rw [bind_error h₁]
          exact bind_error ((bind_ok h).trans (by rw [h₁]))
        · rw [bind_ok h₁]
          exact (bind_ok ((bind_ok h).trans (by rw [h₁]))).trans (by simp))

/-! ### Single Tokens -/

theorem fail_apply (cause : Cause) (c : Cursor) : (fail cause : Parse α) c =
    ⟨.error (.blaming c.current cause), c, [.failed (.blaming c.current cause)]⟩ := rfl

theorem branch_of_true {isSuch : Cursor → Bool} {p q : Parse α} {c : Cursor}
    (h : isSuch c = true) : branch isSuch p q c = p c :=
  if_pos h

theorem branch_of_false {isSuch : Cursor → Bool} {p q : Parse α} {c : Cursor}
    (h : isSuch c = false) : branch isSuch p q c = q c :=
  if_neg (Bool.eq_false_iff.mp h)

theorem expect_of_kind {k : Kind} {c : Cursor} (h : c.current.kind = k) :
    (expect k : Parse Token) c = ⟨.ok c.current, c.advance, []⟩ :=
  branch_of_true (decide_eq_true h)

/-! ### Repetition -/

theorem many_none {select : Cursor → Option (Parse α)} {c : Cursor}
    (h : select c = none) : many select c = ⟨.ok [], c, []⟩ := by
  show rounds select c = _
  rw [rounds, h]

theorem many_error {select : Cursor → Option (Parse α)} {item : Parse α}
    {c c' : Cursor} {e : ParseError} {notes : List ParseNote}
    (hs : select c = some item) (hi : item c = ⟨.error e, c', notes⟩) :
    many select c = ⟨.error e, c', notes⟩ := by
  show rounds select c = _
  rw [rounds, hs]
  simp [hi]

/-- A round that reads something is followed by the rounds from where it stopped. -/
theorem many_ok {select : Cursor → Option (Parse α)} {item : Parse α}
    {c c' : Cursor} {a : α} {notes : List ParseNote}
    (hs : select c = some item) (hi : item c = ⟨.ok a, c', notes⟩)
    (hlt : c'.ahead.length < c.ahead.length) :
    many select c = ⟨(many select c').result.map (a :: ·), (many select c').cursor,
      notes ++ (many select c').notes⟩ := by
  show rounds select c = _
  rw [rounds, hs]
  simp only [hi, dif_pos hlt]
  rfl

/-- A round that reads nothing is the last. -/
theorem many_stalled {select : Cursor → Option (Parse α)} {item : Parse α}
    {c c' : Cursor} {a : α} {notes : List ParseNote}
    (hs : select c = some item) (hi : item c = ⟨.ok a, c', notes⟩)
    (hge : ¬ c'.ahead.length < c.ahead.length) : many select c = ⟨.ok [a], c', notes⟩ := by
  show rounds select c = _
  rw [rounds, hs]
  simp only [hi, dif_neg hge]

end Parse

end TemplateSyntax
