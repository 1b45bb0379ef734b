import TemplateSyntax.Proofs.Nesting.Basic
import TemplateSyntax.Proofs.Parse.InStep.Program
import TemplateSyntax.Tree.Equal

/-! # The Limit of Nesting

  A limit of nesting rejects what is nested deeper and does nothing else. Whatever is read with
  one limit, or refused for another cause than its nesting, is read or refused in the same way
  with a higher limit (`programWithin_eq_of_le`), and what is read is not nested deeper than the
  limit allows (`nesting_le_of_programWithin`).
-/

namespace TemplateSyntax

open Parse

/-! ## Two Limits -/

/-- The error of a limit that does not suffice. -/
def ParseError.HitsLimit (limit : Nat) (e : ParseError) : Prop := e.cause = .tooDeep limit

theorem alike_eq : Alike (· = ·) where
  kind h := by rw [h]
  text h := by rw [h]
  advance h _ := by rw [h]
  further h h' := by rw [h, h']

section levels

variable {α : Type} {R pre : Cursor → Cursor → Prop} {limit limit' left left' : Nat}

/-- A parser with no level left is excused, whatever the other side does. -/
theorem inStep_tooDeep {q : Parse α} {post : α → α → Cursor → Cursor → Prop} :
    InStep R (ParseError.HitsLimit limit) pre (fail (.tooDeep limit)) q post := by
  intro c d _
  exact .inr (.inr ⟨_, c, fails_fail.mpr ⟨rfl, rfl⟩, rfl⟩)

/-- Nested parts are in step with nested parts that have as many levels left, or more. -/
theorem inStep_within_of_le (hR : Alike R) (hle : left ≤ left') :
    (Nested.within limit left).InStep R (ParseError.HitsLimit limit)
      (Nested.within limit' left') := by
  induction left generalizing left' with
  | zero => exact ⟨inStep_tooDeep, inStep_tooDeep, inStep_tooDeep, inStep_tooDeep⟩
  | succ left ih =>
    obtain ⟨more, rfl⟩ := Nat.exists_eq_add_of_le' hle
    have hinner := ih (Nat.le_add_left left more)
    exact ⟨inStep_conditional hR hinner, inStep_unary hR hinner, inStep_block hR hinner,
      inStep_alternate hR hinner⟩

end levels

/-- Where the lower limit is not to blame, a higher one makes no difference. -/
theorem programWithin_eq_of_le {limit limit' : Nat} (hle : limit ≤ limit') {c : Cursor}
    (h : ∀ e, (programWithin limit c).result = .error e → ¬ e.HitsLimit limit) :
    (programWithin limit' c).result = (programWithin limit c).result := by
  have hstep : InStep (· = ·) (ParseError.HitsLimit limit) (· = ·) (programWithin limit)
      (programWithin limit') (Same (· = ·)) :=
    inStep_programWithin alike_eq (inStep_within_of_le alike_eq hle)
  rcases hstep c c rfl with ⟨p, q, c', d', hp, hq, rfl, -⟩ | ⟨e, e', c', d', he, he', hblamed⟩ |
    ⟨e, c', he, hlimit⟩
  · rw [hp.1, hq.1]
  · rw [he.1, he'.1, hblamed.eq (congrArg Cursor.current)]
  · exact absurd hlimit (h e he.1)

/-! ## What Is Read -/

/-- A template that is read is not nested deeper than the limit. -/
theorem nesting_le_of_programWithin {limit : Nat} {c : Cursor} {p : Program}
    (h : (programWithin limit c).result = .ok p) : p.nesting ≤ limit := by
  obtain ⟨u, -, hbody, -⟩ := Grammar.body_of_programWithin h
  exact hbody.nesting_le

/-- A limit of nesting only ever rejects. A higher limit gives the same template or the same
    error, unless the lower one is what is complained of; and in a template that is read, no
    part lies deeper than the limit, which is 64 levels. -/
theorem limit_only_rejects :
    (∀ ts limit limit', limit ≤ limit' →
      (∀ e, (programWithin limit (.ofTokens ts)).result = .error e → e.cause ≠ .tooDeep limit) →
      (programWithin limit' (.ofTokens ts)).result =
        (programWithin limit (.ofTokens ts)).result) ∧
    ∀ ts p, parse ts = .ok p → p.nesting ≤ 64 := by
  refine ⟨fun ts limit limit' hle h => programWithin_eq_of_le hle h, fun ts p h => ?_⟩
  have hle : p.nesting ≤ nestingLimit := nesting_le_of_programWithin h
  exact hle

/-- A name behind two operators takes four levels: one for the braces, one for the expression
    between them and one for each operand. Three levels are too few for it, and more than four
    make no difference. -/
theorem limit_only_rejects_operands :
    let ts := tokenize "\x7b!!a\x7d"
    let p : Program := ⟨[.interpolation (.unary .not (.unary .not (.identifier "a")))]⟩
    (programWithin 3 (.ofTokens ts)).result = .error ⟨.tooDeep 3, 1, 4⟩ ∧
      (programWithin 4 (.ofTokens ts)).result = .ok p ∧
      (programWithin 64 (.ofTokens ts)).result = .ok p ∧ p.nesting = 4 ∧ p.nesting ≤ 64 := by
  intro ts p
  have hfew : (programWithin 3 (.ofTokens ts)).result = .error ⟨.tooDeep 3, 1, 4⟩ := by
    decide +kernel
  have hread : (programWithin 4 (.ofTokens ts)).result = .ok p := by decide +kernel
  have hlimit : ∀ e, (programWithin 4 (.ofTokens ts)).result = .error e → e.cause ≠ .tooDeep 4 := by
    intro e he
    rw [hread] at he
    cases he
  have hmore : (programWithin 64 (.ofTokens ts)).result = .ok p := by
    rw [limit_only_rejects.1 ts 4 64 (by decide) hlimit, hread]
  exact ⟨hfew, hread, hmore, by decide +kernel, limit_only_rejects.2 ts p hmore⟩

end TemplateSyntax
