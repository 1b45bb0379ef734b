import TemplateSyntax.Proofs.Parse.Lawful.Expression

/-! # Headers

  A block that holds nodes is its header with the loops of nodes behind it, as the
  equations of this module say. A header begins inside, behind the opening brace, and
  ends outside, behind the closing one.
-/

namespace TemplateSyntax

namespace Parse

/-! ## Headers of Blocks -/

/-- The header of a condition behind its opening brace. -/
def ifHeader (n : Nested) : Parse Expr := do
  let _ ← expect .ifStart
  let condition ← n.expression
  let _ ← expect .exprEnd
  return condition

/-- The header of an alternate that makes no further condition. -/
def elseHeader : Parse Unit := do
  let _ ← expect .elseStart
  let _ ← expect .exprEnd

/-- The header of an alternate that makes a further condition. -/
def elseIfHeader (n : Nested) : Parse Expr := do
  let _ ← expect .elseStart
  ifHeader n

/-- The header of a switch block behind its opening brace. -/
def switchHeader (n : Nested) : Parse Expr := do
  let _ ← expect .switchStart
  let test ← n.expression
  let _ ← expect .exprEnd
  return test

/-- The header of a case, from its opening brace. -/
def caseHeader (n : Nested) : Parse (List Expr) := do
  let _ ← advance
  let _ ← expect .caseStart
  let values ← expressions n
  let _ ← expect .exprEnd
  return values

/-- The header of the part for all other values, from its opening brace. -/
def defaultHeader : Parse Unit := do
  let _ ← advance
  let _ ← expect .defaultStart
  let _ ← expect .exprEnd

/-- The header of a loop behind its opening brace. -/
def forHeader (n : Nested) : Parse (String × Option String × Expr) := do
  let _ ← expect .forStart
  let iterator ← expect .identifier
  let index ← counter?
  let _ ← expect .forIn
  let iterable ← n.expression
  let _ ← expect .exprEnd
  return (iterator.text, index, iterable)

/-- The parts of a switch block, up to the brace that closes it. -/
def switchParts (n : Nested) : Parse (List (Option Case)) :=
  many fun c =>
    if c.atBlock [.switchEnd] then none
    else if c.atEnd then some (unexpected .endOfSwitch)
    else some (caseOrSkip n)

/-! ## Blocks as Headers and Loops -/

theorem ifBlock_eq (n : Nested) :
    ifBlock n = (do
      let condition ← ifHeader n
      let consequent ← nodesUntil n [.elseStart, .ifEnd] .endOfIf
      let alternate ← alternate? n
      return ⟨condition, consequent, alternate⟩) := by
  simp [ifBlock, ifHeader]

/-- The token behind the word says which header an alternate has. -/
theorem alternate_eq (n : Nested) :
    alternate n = (do
      let t ← following
      if t.kind = .ifStart then
        let condition ← elseIfHeader n
        let consequent ← nodesUntil n [.elseStart, .ifEnd] .endOfIf
        let alternate ← alternate? n
        return .elseIf ⟨condition, consequent, alternate⟩
      else
        elseHeader
        return .otherwise (← nodesUntil n [.ifEnd] .endOfIf)) := by
  funext c
  have hlook : (following : Parse Token) c = ⟨.ok c.following, c, []⟩ := rfl
  rw [bind_ok hlook]
  by_cases hk : c.current.kind = .elseStart
  · have hword := expect_of_kind hk
    have hcurrent : (current : Parse Token) c.advance = ⟨.ok c.following, c.advance, []⟩ := rfl
    by_cases hif : c.following.kind = .ifStart
    · simp [alternate, elseIfHeader, ifBlock_eq, bind_ok hword, bind_ok hcurrent, hif]
    · simp [alternate, elseHeader, bind_ok hword, bind_ok hcurrent, hif]
  -- Without the word there is no alternate, whatever stands behind it.
  · have hfails := fails_expect.mpr ⟨hk, fails_unexpected.mpr ⟨rfl, rfl⟩⟩
    obtain ⟨notes, hword⟩ := hfails.outcome
    by_cases hif : c.following.kind = .ifStart
    · simp [alternate, elseIfHeader, bind_error hword, hif]
    · simp [alternate, elseHeader, bind_error hword, hif]

theorem switchBlock_eq (n : Nested) :
    switchBlock n = (do
      let test ← switchHeader n
      let cases ← switchParts n
      closing .switchEnd
      return .switchBlock test (cases.filterMap id)) := by
  simp [switchBlock, switchHeader, switchParts]

theorem case_eq (n : Nested) :
    case n = (do
      let values ← caseHeader n
      return .case values (← nodesUntil n caseEnds .endOfSwitch)) := by
  simp [case, caseHeader]

theorem defaultCase_eq (n : Nested) :
    defaultCase n = (do
      defaultHeader
      return .default (← nodesUntil n caseEnds .endOfSwitch)) := by
  simp [defaultCase, defaultHeader]

theorem forBlock_eq (n : Nested) :
    forBlock n = (do
      let (iterator, index, iterable) ← forHeader n
      let body ← nodesUntil n [.forEnd] .endOfFor
      closing .forEnd
      return .forBlock iterator index iterable body) := by
  simp [forBlock, forHeader]

end Parse

open Parse

/-! ## Lawful Headers -/

section lawful

variable {ts : List Token} {n : Nested}

theorem lawful_elseHeader :
    Meets (Cursor.Stands ts .inside) elseHeader
      (fun _ => Cursor.Stands ts .outside) (Lawful ts) := by
  refine meets_bind (stands_expect nofun) fun _ => ?_
  refine meets_bind (stands_expect nofun) fun _ => ?_
  exact stands_pure

theorem lawful_defaultHeader :
    Meets (fun c => (∃ s, c.Stands ts s) ∧ c.current.kind = .exprStart) defaultHeader
      (fun _ => Cursor.Stands ts .outside) (Lawful ts) := by
  refine meets_bind stands_brace fun _ => ?_
  refine meets_bind (stands_expect nofun) fun _ => ?_
  refine meets_bind (stands_expect nofun) fun _ => ?_
  exact stands_pure

theorem lawful_counter? :
    Meets (Cursor.Stands ts .inside) counter?
      (fun _ => Cursor.Stands ts .inside) (Lawful ts) := by
  refine meets_bind meets_current fun t => ?_
  split
  · next hk =>
    have hstays : t.kind ≠ .eof ∧ t.kind.leadsTo .inside = .inside := by
      rw [hk]
      exact ⟨nofun, rfl⟩
    refine meets_bind (stands_advance_current hstays) fun _ => ?_
    refine meets_bind (stands_expect nofun) fun _ => ?_
    exact stands_pure
  · exact (stands_pure).of_pre fun _ hc => hc.1

section nested

variable (hn : n.Lawful ts)
include hn

theorem lawful_ifHeader :
    Meets (Cursor.Stands ts .inside) (ifHeader n)
      (fun _ => Cursor.Stands ts .outside) (Lawful ts) := by
  refine meets_bind (stands_expect nofun) fun _ => ?_
  refine meets_bind hn.expression fun _ => ?_
  refine meets_bind (stands_expect nofun) fun _ => ?_
  exact stands_pure

theorem lawful_elseIfHeader :
    Meets (Cursor.Stands ts .inside) (elseIfHeader n)
      (fun _ => Cursor.Stands ts .outside) (Lawful ts) := by
  refine meets_bind (stands_expect nofun) fun _ => ?_
  exact lawful_ifHeader hn

theorem lawful_switchHeader :
    Meets (Cursor.Stands ts .inside) (switchHeader n)
      (fun _ => Cursor.Stands ts .outside) (Lawful ts) := by
  refine meets_bind (stands_expect nofun) fun _ => ?_
  refine meets_bind hn.expression fun _ => ?_
  refine meets_bind (stands_expect nofun) fun _ => ?_
  exact stands_pure

/-- A case begins at its brace, on whichever side this stands. -/
theorem lawful_caseHeader :
    Meets (fun c => (∃ s, c.Stands ts s) ∧ c.current.kind = .exprStart) (caseHeader n)
      (fun _ => Cursor.Stands ts .outside) (Lawful ts) := by
  refine meets_bind stands_brace fun _ => ?_
  refine meets_bind (stands_expect nofun) fun _ => ?_
  refine meets_bind (lawful_expressions hn) fun _ => ?_
  refine meets_bind (stands_expect nofun) fun _ => ?_
  exact stands_pure

theorem lawful_forHeader :
    Meets (Cursor.Stands ts .inside) (forHeader n)
      (fun _ => Cursor.Stands ts .outside) (Lawful ts) := by
  refine meets_bind (stands_expect nofun) fun _ => ?_
  refine meets_bind (stands_expect nofun) fun _ => ?_
  refine meets_bind lawful_counter? fun _ => ?_
  refine meets_bind (stands_expect nofun) fun _ => ?_
  refine meets_bind hn.expression fun _ => ?_
  refine meets_bind (stands_expect nofun) fun _ => ?_
  exact stands_pure

end nested

end lawful

end TemplateSyntax
