import TemplateSyntax.Parse.Program
import TemplateSyntax.Proofs.Parse.InStep.Block

/-! # Programs in Step

  From cursors that are alike one template is read, or the same error is met, whatever
  number of levels nested parts may have (`inStep_within`, `inStep_program`).
-/

namespace TemplateSyntax

open Parse

variable {R : Cursor → Cursor → Prop} {excused : ParseError → Prop} {n m : Nested}

section inStep

variable (hR : Alike R)
include hR

/-- With no level left both sides complain of nesting; with one more they are in step over
    those below. -/
theorem inStep_within (limit left : Nat) :
    (Nested.within limit left).InStep R excused (Nested.within limit left) := by
  induction left with
  | zero =>
    have hdeep : ∀ {α : Type}, InStep R excused R (fail (.tooDeep limit) : Parse α)
        (fail (.tooDeep limit)) (Same R) :=
      inStep_fail fun _ _ hcd => ⟨hcd, trivial, rfl⟩
    exact ⟨hdeep, hdeep, hdeep.of_pre fun _ _ h => h.1, hdeep⟩
  | succ left ih =>
    exact ⟨inStep_conditional hR ih, inStep_unary hR ih, inStep_block hR ih,
      inStep_alternate hR ih⟩

theorem inStep_nodes (hn : n.InStep R excused m) :
    InStep R excused R (nodes n) (nodes m) (Same R) := by
  refine inStep_many hR fun c d hcd => ?_
  rw [← hR.atEnd hcd]
  by_cases hend : c.atEnd = true
  · rw [if_pos hend, if_pos hend]
    exact .inl ⟨rfl, rfl⟩
  · rw [if_neg hend, if_neg hend]
    have hne : c.current.kind ≠ .eof := fun hk => hend (decide_eq_true hk)
    exact .inr ⟨_, _, rfl, rfl, (inStep_node hR hn).startAt ⟨hcd, hne⟩⟩

/-- Templates are read in step, whatever limits the two sides have, if nested parts are. -/
theorem inStep_programWithin {limit limit' : Nat}
    (hn : (Nested.within limit limit).InStep R excused (Nested.within limit' limit')) :
    InStep R excused R (programWithin limit) (programWithin limit') (Same R) := by
  refine inStep_bind_same (inStep_nodes hR hn) fun _ => ?_
  exact inStep_bind_same inStep_report fun _ => inStep_done

theorem inStep_program : InStep R excused R program program (Same R) :=
  inStep_programWithin hR (inStep_within hR _ _)

end inStep

end TemplateSyntax
