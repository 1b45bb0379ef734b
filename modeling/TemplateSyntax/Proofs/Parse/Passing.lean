import Mathlib.Data.List.Chain
import TemplateSyntax.Proofs.Grammar.Nodes.Complete
import TemplateSyntax.Proofs.Parse.Built.Ahead

/-! # What Stands Before the First Case

  Between the header of a switch block and its first case any tokens may stand, opened and closed
  blocks, parts of blocks and other headers among them. They are passed over one by one, so they
  change neither what is read nor the error that is met, nor where parsing stops
  (`switchBlock_passable`).

  This holds behind every header that ends with its closing brace. Whether the parser gets through
  the header is for the tokens in front of that brace to say (`reads_switchHeader_of_conditional`,
  `fails_switchHeader_of_not`), for no expression reaches over a brace.
-/

namespace TemplateSyntax

open Parse Grammar

/-- Tokens that may be passed over in front of whatever comes next: the input does not end among
    them, no brace is in front of a word of a case, and none is the last of them. -/
structure Passable (j : List Token) : Prop where
  goesOn : ∀ t ∈ j, t.kind ≠ .eof
  noCase : j.IsChain fun t u => t.kind = .exprStart → u.kind ∉ caseEnds
  closed : ∀ t ∈ j.getLast?, t.kind ≠ .exprStart

section passable

variable {t : Token} {j : List Token}

theorem Passable.tail (h : Passable (t :: j)) : Passable j := by
  refine ⟨fun u hu => h.goesOn u (List.mem_cons_of_mem t hu), h.noCase.tail, fun u hu => ?_⟩
  apply h.closed u
  cases j with
  | nil => cases hu
  | cons v j => exact hu

/-- No brace with a word of a case is the first of such tokens, not even with what comes behind
    them in sight. -/
theorem Passable.not_atBrace (h : Passable (t :: j)) (r : List Token) :
    ¬ AtBrace caseEnds (t :: (j ++ r)) := by
  intro hat
  cases j with
  | nil => exact h.closed t rfl hat.brace
  | cons u j => exact (List.isChain_cons_cons.mp h.noCase).1 hat.1 hat.2

end passable

/-- Two runs with one result that stop at one cursor. What they report may differ. -/
structure SameRun {α : Type} (o o' : Outcome α) : Prop where
  result : o.result = o'.result
  cursor : o.cursor = o'.cursor

section switch

variable {n : Nested} {j : List Token}

/-! ## Behind the Header -/

/-- A token that is passed over adds no case. -/
theorem filterMap_none_cons (result : Except ParseError (List (Option Case))) :
    (result.map (none :: ·)).map (·.filterMap id) = result.map (·.filterMap id) := by
  cases result <;> rfl

/-- The same cases are read, and the loop stops at the same place. -/
theorem switchParts_passable (hj : Passable j) (r : List Token) (s : Span) :
    (switchParts n ⟨j ++ r, s⟩).result.map (·.filterMap id) =
        (switchParts n ⟨r, s⟩).result.map (·.filterMap id) ∧
      (switchParts n ⟨j ++ r, s⟩).cursor = (switchParts n ⟨r, s⟩).cursor := by
  induction j with
  | nil => exact ⟨rfl, rfl⟩
  | cons t j ih =>
    have hnot : ¬ AtBrace caseEnds (t :: (j ++ r)) := hj.not_atBrace r
    have hswitch : ¬ AtBrace [.switchEnd] (t :: (j ++ r)) := fun hat =>
      hnot (hat.of_word (by decide))
    have hselect : Grammar.upTo [.switchEnd] .endOfSwitch (caseOrSkip n) ⟨t :: (j ++ r), s⟩ =
        some (caseOrSkip n) :=
      upTo_of_not (by decide) hswitch (hj.goesOn t List.mem_cons_self)
    have hread : Reads (caseOrSkip n) ⟨t :: (j ++ r), s⟩ none ⟨j ++ r, s⟩ :=
      (reads_caseOrSkip_of_not hnot).mpr ⟨rfl, rfl⟩
    obtain ⟨notes, hrun⟩ := hread.outcome
    have hloop : switchParts n ⟨t :: (j ++ r), s⟩ = _ :=
      many_ok hselect hrun (Nat.lt_succ_self _)
    obtain ⟨hresult, hcursor⟩ := ih hj.tail
    rw [List.cons_append, hloop]
    exact ⟨(filterMap_none_cons _).trans hresult, hcursor⟩

/-- A switch block behind its header. -/
def switchRest (n : Nested) (test : Expr) : Parse Node := do
  let cases ← switchParts n
  closing .switchEnd
  return .switchBlock test (cases.filterMap id)

theorem built_switchRest (hn : n.Built) (test : Expr) :
    Built (· ≠ .eof) (fun _ => True) (switchRest n test) := by
  refine .bind (built_until _ _ (by decide) (built_caseOrSkip hn)) fun _ => ?_
  exact .bind (built_closing (by decide)) fun _ => .pure _

theorem switchRest_passable (hj : Passable j) (test : Expr) (r : List Token) (s : Span) :
    SameRun (switchRest n test ⟨j ++ r, s⟩) (switchRest n test ⟨r, s⟩) := by
  obtain ⟨hresult, hcursor⟩ := switchParts_passable (n := n) hj r s
  unfold switchRest
  rcases hlong : switchParts n ⟨j ++ r, s⟩ with ⟨e | cases, c, notes⟩ <;>
    rcases hshort : switchParts n ⟨r, s⟩ with ⟨e' | cases', c', notes'⟩ <;>
    rw [hlong, hshort] at hresult hcursor <;> cases hcursor
  · rw [bind_error hlong, bind_error hshort]
    cases hresult
    exact ⟨rfl, rfl⟩
  · cases hresult
  · cases hresult
  -- The cases that have been read are the same but for the tokens that have been passed over.
  · have hcases : cases.filterMap id = cases'.filterMap id := Except.ok.inj hresult
    rw [bind_ok hlong, bind_ok hshort, hcases]
    exact ⟨rfl, rfl⟩

end switch

/-! ## Headers -/

section header

/-- The header of a switch block up to its closing brace. -/
def switchTest (n : Nested) : Parse Expr := do
  let _ ← expect .switchStart
  n.expression

theorem switchHeader_eq (n : Nested) :
    switchHeader n = (do
      let e ← switchTest n
      let _ ← expect .exprEnd
      return e) := by
  simp [switchHeader, switchTest]

theorem built_switchTest {n : Nested} (hn : n.Built) :
    Built Kind.StaysInside (fun _ => True) (switchTest n) :=
  .bind (built_expect (by decide)) fun _ => hn.expression

/-- A token of another kind is at fault whatever stands behind it. -/
theorem fails_expect_of_ne {t : Token} {k : Kind} (h : t.kind ≠ k) :
    ∃ e, ∀ r s, Fails (expect k) ⟨t :: r, s⟩ e ⟨t :: r, s⟩ := by
  let expected := Expected.token k
  let cause := if decide (t.kind = .eof) then Cause.ended expected else .unexpected t.text expected
  refine ⟨.blaming t cause, fun r s => ?_⟩
  exact fails_expect.mpr ⟨h, fails_unexpected.mpr ⟨rfl, rfl⟩⟩

variable {word close : Token} {test : List Token} (hword : word.kind = .switchStart)
  (hclose : close.kind = .exprEnd) (limit left : Nat)
include hword hclose

theorem reads_switchHeader_of_conditional {e : Expr} (he : Conditional left test e)
    (r : List Token) (s : Span) :
    Reads (switchHeader (.within limit left)) ⟨word :: (test ++ close :: r), s⟩ e ⟨r, s⟩ := by
  have hread := complete_header (completeNodes_within limit left) (r := r) (s := s) he hclose
  simp only [switchHeader, reads_bind, reads_expect, reads_pure]
  exact ⟨word, _, ⟨hword, rfl, rfl⟩, e, _, hread, close, _, ⟨hclose, rfl, rfl⟩, rfl, rfl⟩

/-- Where there is no expression in front of the closing brace, the header fails in front of this
    brace or at it, and what stands behind is not looked at. -/
theorem fails_switchHeader_of_not (htest : ∀ t ∈ test, t.kind ≠ .exprEnd)
    (hnot : ¬ ∃ e, Conditional left test e) :
    ∃ e front, front <:+ word :: test ∧ ∀ r s,
      Fails (switchHeader (.within limit left)) ⟨word :: (test ++ close :: r), s⟩ e
        ⟨front ++ close :: r, s⟩ := by
  have hwall : ¬ close.kind.StaysInside := by
    rw [hclose]
    decide
  obtain ⟨result, front, notes, hsuffix, hrun⟩ :=
    (built_switchTest (built_within limit left)).walled hwall (word :: test) trivial
  rw [switchHeader_eq]
  cases result with
  | error e =>
    refine ⟨e, front, hsuffix, fun r s => fails_bind.mpr (.inl ?_)⟩
    exact ⟨congrArg Outcome.result (hrun r s), congrArg Outcome.cursor (hrun r s)⟩
  | ok e =>
    have hread : ∀ r s, Reads (switchTest (.within limit left))
        ⟨word :: (test ++ close :: r), s⟩ e ⟨front ++ close :: r, s⟩ := fun r s =>
      ⟨congrArg Outcome.result (hrun r s), congrArg Outcome.cursor (hrun r s)⟩
    cases front with
    | nil =>
      -- All tokens in front of the brace have been read, so they write an expression.
      obtain ⟨_, c, hc, he⟩ := reads_bind.mp (hread [] close.span)
      obtain ⟨-, -, rfl⟩ := reads_expect.mp hc
      obtain ⟨u, hu, hd⟩ := sound_expression limit left _ _ _ he
      have htokens : test = u := List.append_cancel_right hu.1
      exact absurd ⟨e, htokens ▸ hd⟩ hnot
    | cons t front =>
      -- The expression ends in front of another token, which is no closing brace.
      have hne : t.kind ≠ .exprEnd := by
        rcases List.mem_cons.mp (hsuffix.mem List.mem_cons_self) with rfl | hmem
        · rw [hword]
          decide
        · exact htest t hmem
      obtain ⟨e', hfails⟩ := fails_expect_of_ne hne
      refine ⟨e', t :: front, hsuffix, fun r s => fails_bind.mpr (.inr ⟨e, _, hread r s, ?_⟩)⟩
      exact fails_bind.mpr (.inl (hfails (front ++ close :: r) s))

/-! ## Switch Blocks -/

/-- Behind a header that is read the rest of the block is. -/
theorem switchBlock_of_header {e : Expr} (he : Conditional left test e) (r : List Token)
    (s : Span) :
    SameRun (switchBlock (Nested.within limit left) ⟨word :: (test ++ close :: r), s⟩)
      (switchRest (.within limit left) e ⟨r, s⟩) := by
  obtain ⟨notes, hread⟩ :=
    (reads_switchHeader_of_conditional hword hclose limit left he r s).outcome
  have hrun : switchBlock (Nested.within limit left) ⟨word :: (test ++ close :: r), s⟩ = _ :=
    (congrFun (switchBlock_eq _) _).trans (bind_ok hread)
  rw [hrun]
  exact ⟨rfl, rfl⟩

omit hword hclose in
/-- A header that fails is all that a block comes to. -/
theorem fails_switchBlock_of_header {c c' : Cursor} {e : ParseError} {n : Nested}
    (h : Fails (switchHeader n) c e c') : Fails (switchBlock n) c e c' := by
  rw [switchBlock_eq]
  exact fails_bind.mpr (.inl h)

/-- Tokens between the header of a switch block and what follows change nothing. If an expression
    stands in the header, the same block is read of what follows or the same error is met there,
    and parsing stops at the same token of it. If not, the header is at fault, and parsing stops
    at the same token of the header. -/
theorem switchBlock_passable {j : List Token} (htest : ∀ t ∈ test, t.kind ≠ .exprEnd)
    (hj : Passable j) (r : List Token) (s : Span) :
    let block := switchBlock (Nested.within limit left)
    let long := block ⟨word :: (test ++ close :: (j ++ r)), s⟩
    let short := block ⟨word :: (test ++ close :: r), s⟩
    long.result = short.result ∧
      ((∃ e, Conditional left test e) → ∃ rest, rest <:+ r ∧
        long.cursor = ⟨rest, s⟩ ∧ short.cursor = ⟨rest, s⟩) ∧
      ((¬ ∃ e, Conditional left test e) → ∃ e front, front <:+ word :: test ∧
        long.result = .error e ∧ long.cursor = ⟨front ++ close :: (j ++ r), s⟩ ∧
          short.cursor = ⟨front ++ close :: r, s⟩) := by
  intro block long short
  by_cases hexpr : ∃ e, Conditional left test e
  · obtain ⟨e, he⟩ := hexpr
    have hlong : SameRun long _ := switchBlock_of_header hword hclose limit left he (j ++ r) s
    have hshort : SameRun short _ := switchBlock_of_header hword hclose limit left he r s
    have hrest : SameRun (switchRest (.within limit left) e ⟨j ++ r, s⟩) _ :=
      switchRest_passable hj e r s
    refine ⟨?_, fun _ => ?_, fun hnot => absurd ⟨e, he⟩ hnot⟩
    · rw [hlong.result, hrest.result, hshort.result]
    · obtain ⟨rest, hsuffix, hstop⟩ :=
        (built_switchRest (built_within limit left) e).exists_rest r s trivial
      have hshort' : short.cursor = ⟨rest, s⟩ := hshort.cursor.trans hstop
      have hlong' : long.cursor = ⟨rest, s⟩ := (hlong.cursor.trans hrest.cursor).trans hstop
      exact ⟨rest, hsuffix, hlong', hshort'⟩
  · obtain ⟨e, front, hsuffix, hfails⟩ :=
      fails_switchHeader_of_not hword hclose limit left htest hexpr
    obtain ⟨hlong, hlong'⟩ := fails_switchBlock_of_header (hfails (j ++ r) s)
    obtain ⟨hshort, hshort'⟩ := fails_switchBlock_of_header (hfails r s)
    refine ⟨hlong.trans hshort.symm, fun h => absurd h hexpr, fun _ => ?_⟩
    exact ⟨e, front, hsuffix, hlong, hlong', hshort'⟩

end header

/-- Markup, a block that is opened and one that is closed, and another header. Behind them the
    block is read up to the end of the input. -/
theorem switchBlock_passable_unbalanced :
    let j := [.text, .exprStart, .ifStart, .identifier, .exprEnd, .exprStart, .exprStart,
      .switchStart, .identifier, .exprEnd, .exprStart, .forEnd, .exprEnd].map sample
    let r := [.exprStart, .caseStart, .string, .exprEnd, .text, .exprStart, .switchEnd, .exprEnd,
      .eof].map sample
    let header := [.switchStart, .identifier, .exprEnd].map sample
    let long := switchBlock (Nested.within 2 2) ⟨header ++ (j ++ r), .at .start⟩
    let short := switchBlock (Nested.within 2 2) ⟨header ++ r, .at .start⟩
    Passable j ∧ long.result = short.result ∧
      long.cursor = ⟨[sample .eof], .at .start⟩ ∧ short.cursor = ⟨[sample .eof], .at .start⟩ := by
  intro j r header long short
  have hword : (sample .switchStart).kind = .switchStart := rfl
  have hclose : (sample .exprEnd).kind = .exprEnd := rfl
  have htest : ∀ t ∈ [sample .identifier], t.kind ≠ .exprEnd := by decide
  have hj : Passable j := ⟨by decide, by decide, by decide⟩
  have hname : Binary 6 1 [sample .identifier] (.identifier (sample .identifier).text) :=
    .tighter (.unary (.primary (.chain (.head (t := sample .identifier) rfl))))
  have hbinary : Binary 1 1 [sample .identifier] (.identifier (sample .identifier).text) :=
    hname.loosen (by decide)
  have hexpr : ∃ e, Conditional 2 [sample .identifier] e := ⟨_, .single hbinary⟩
  obtain ⟨hresult, hplace, -⟩ :=
    switchBlock_passable hword hclose 2 2 htest hj r (.at .start)
  obtain ⟨rest, -, hlong, hshort⟩ := hplace hexpr
  have hend : short.cursor = ⟨[sample .eof], .at .start⟩ := by decide +kernel
  exact ⟨hj, hresult, hlong.trans (hshort.symm.trans hend), hend⟩

end TemplateSyntax
