import Mathlib.Order.Monotone.Basic
import TemplateSyntax.Proofs.Grammar.Nodes.Sound
import TemplateSyntax.Proofs.Machine.Refines
import TemplateSyntax.Proofs.Parse.Stored

/-! # One Template After Another

  The machine may be called again and again, each time in the state that the call before it has
  left, whether that one read a template or failed. No nested call is open then, however deep
  the error arose (`Machine.stateAfter_eq`). So nothing but the cursor is handed on: every call
  does what a parser does that is started afresh on the tokens that are left
  (`calls_start_afresh`), with all levels of nesting.
-/

namespace TemplateSyntax

open Parse

/-- The cursor after so many calls. -/
def Parse.afterCalls (c : Cursor) : Nat → Cursor
  | 0 => c
  | count + 1 => (Parse.program (afterCalls c count)).cursor

/-- How many tokens are behind the cursor after so many calls. -/
def positionAfter (ts : List Token) (count : Nat) : Nat :=
  ts.length - (afterCalls (.ofTokens ts) count).ahead.length

/-! ## Calls of the Machine -/

namespace Machine

/-- The state that so many calls leave, each started in the state that the one before it has
    left. -/
def stateAfter (s : State) : Nat → Option State
  | 0 => some s
  | count + 1 => (stateAfter s count).bind fun s => (program s).map Answer.state

theorem keepsDepth_program : KeepsDepth program := keepsDepth_programWithin nestingLimit

/-- A call that is made while no nested call is open does what the parser does, and none is open
    behind it. -/
theorem program_eq (c : Cursor) : ∃ o, program ⟨c, 0⟩ = some o ∧
    o.outcome = (Parse.program c).result ∧ o.state = ⟨(Parse.program c).cursor, 0⟩ := by
  obtain ⟨r, hrun, hagrees⟩ := refines_programWithin nestingLimit c
  exact ⟨_, hrun, hagrees.outcome, rfl⟩

theorem stateAfter_eq (c : Cursor) (n : Nat) : stateAfter ⟨c, 0⟩ n = some ⟨afterCalls c n, 0⟩ := by
  induction n with
  | zero => rfl
  | succ n ih =>
    obtain ⟨o, hrun, -, hstate⟩ := program_eq (afterCalls c n)
    rw [stateAfter, ih, Option.bind_some, hrun, Option.map_some, hstate]
    rfl

end Machine

/-! ## Calls in a Row -/

theorem afterCalls_program (c : Cursor) (n : Nat) :
    afterCalls (program c).cursor n = afterCalls c (n + 1) := by
  induction n with
  | zero => rfl
  | succ n ih =>
    rw [afterCalls, ih]
    rfl

/-- A call that leaves the cursor where it is leaves it there for good. -/
theorem afterCalls_of_stay {c : Cursor} {n m : Nat} (hnm : n ≤ m)
    (h : (program (afterCalls c n)).cursor = afterCalls c n) : afterCalls c m = afterCalls c n := by
  induction hnm with
  | refl => rfl
  | step _ ih =>
    rw [afterCalls, ih]
    exact h

theorem programs_eq_map (c : Cursor) (count : Nat) :
    programs c count = (List.range count).map fun n => (program (afterCalls c n)).result := by
  induction count generalizing c with
  | zero => rfl
  | succ count ih =>
    obtain ⟨o, hrun, houtcome, hstate⟩ := Machine.program_eq c
    have hprograms : programs c (count + 1) = o.outcome :: programs (program c).cursor count := by
      unfold programs
      rw [Machine.programs, hrun, List.map_cons, hstate]
    rw [hprograms, houtcome, ih, List.range_succ_eq_map, List.map_cons, List.map_map]
    congr 1
    refine List.map_congr_left fun n _ => ?_
    rw [afterCalls_program]
    rfl

section calls

variable {ts us : List Token} {j k n m : Nat}

/-! ## One Call on Two Lists -/

theorem program_together (h : SameAhead ts us j) {c d : Cursor} (hcd : Together ts us j c d) :
    (program c).result = (program d).result ∧
      Together ts us j (program c).cursor (program d).cursor := by
  -- Nothing is excused, for both sides have the same limit of nesting.
  have hstep : InStep (Together ts us j) (fun _ => False) (Together ts us j) program program
      (Same (Together ts us j)) := inStep_program (alike_together h)
  cases hc : (program c).result with
  | ok p =>
    obtain ⟨p', d', ⟨hd, rfl⟩, rfl, hcursors⟩ := hstep.reads hcd ⟨hc, rfl⟩
    exact ⟨hd.symm, hcursors⟩
  | error e =>
    obtain ⟨e', d', ⟨hd, rfl⟩, hblamed⟩ := hstep.fails hcd ⟨hc, rfl⟩
    rw [hd, hblamed.eq fun hcd => hcd.current h]
    exact ⟨rfl, hblamed.alike (alike_together h)⟩

/-- A call at a position is a call of a fresh parser on the tokens that are left, and never
    goes back. -/
theorem program_behind (hk : k ≤ firstEnd ts) :
    (program (.behind ts k)).result = parse ((stored ts).drop k) ∧
      ∃ i, k ≤ i ∧ i ≤ firstEnd ts ∧ (program (.behind ts k)).cursor = .behind ts i := by
  have hsame := sameAhead_drop hk
  have hends := hsame.ends
  have hstart : Together ts ((stored ts).drop k) k (.behind ts k)
      (.ofTokens ((stored ts).drop k)) := ⟨0, Nat.zero_le _, rfl, rfl⟩
  obtain ⟨hresult, i, hi, hcursor, -⟩ := program_together hsame hstart
  exact ⟨hresult, k + i, by omega, by omega, hcursor⟩

/-! ## Positions Between Calls -/

theorem afterCalls_eq_behind (ts : List Token) (n : Nat) :
    positionAfter ts n ≤ firstEnd ts ∧
      afterCalls (.ofTokens ts) n = .behind ts (positionAfter ts n) := by
  have hexists : ∃ k ≤ firstEnd ts, afterCalls (.ofTokens ts) n = .behind ts k := by
    induction n with
    | zero => exact ⟨0, Nat.zero_le _, rfl⟩
    | succ n ih =>
      obtain ⟨k, hk, hcursor⟩ := ih
      obtain ⟨-, i, -, hi, hnext⟩ := program_behind hk
      exact ⟨i, hi, by rw [afterCalls, hcursor, hnext]⟩
  obtain ⟨k, hk, hcursor⟩ := hexists
  have hle := firstEnd_le ts
  have hposition : positionAfter ts n = k := by
    rw [positionAfter, hcursor]
    simp only [Cursor.behind, List.length_drop]
    omega
  rw [hposition]
  exact ⟨hk, hcursor⟩

/-- A call gives what the tokens from its position on are parsed to. -/
theorem result_afterCalls (ts : List Token) (n : Nat) :
    (program (afterCalls (.ofTokens ts) n)).result =
      parse ((stored ts).drop (positionAfter ts n)) := by
  obtain ⟨hk, hcursor⟩ := afterCalls_eq_behind ts n
  rw [hcursor]
  exact (program_behind hk).1

theorem positionAfter_le_succ (ts : List Token) (n : Nat) :
    positionAfter ts n ≤ positionAfter ts (n + 1) := by
  obtain ⟨hk, hcursor⟩ := afterCalls_eq_behind ts n
  obtain ⟨-, i, hle, hi, hnext⟩ := program_behind hk
  obtain ⟨hk', hcursor'⟩ := afterCalls_eq_behind ts (n + 1)
  rw [afterCalls, hcursor, hnext] at hcursor'
  rw [← Cursor.behind_inj hi hk' hcursor']
  exact hle

theorem monotone_positionAfter (ts : List Token) : Monotone (positionAfter ts) :=
  monotone_nat_of_le_succ (positionAfter_le_succ ts)

/-- Calls on lists that agree up to their first ending tokens. -/
theorem together_afterCalls (h : SameAhead ts us 0) (n : Nat) :
    Together ts us 0 (afterCalls (.ofTokens ts) n) (afterCalls (.ofTokens us) n) := by
  induction n with
  | zero => exact ⟨0, Nat.zero_le _, rfl, rfl⟩
  | succ n ih => exact (program_together h ih).2

theorem positionAfter_eq (h : SameAhead ts us 0) (n : Nat) :
    positionAfter us n = positionAfter ts n := by
  obtain ⟨k, hk, hts, hus⟩ := together_afterCalls h n
  obtain ⟨hk', hts'⟩ := afterCalls_eq_behind ts n
  obtain ⟨hk'', hus'⟩ := afterCalls_eq_behind us n
  have hends := h.ends
  rw [Cursor.behind_inj hk'' hk (hus'.symm.trans hus),
    Cursor.behind_inj hk' (by omega) (hts'.symm.trans hts), Nat.zero_add]

/-! ## Calls That Change Nothing -/

theorem program_of_atEnd {c : Cursor} (h : c.atEnd = true) : Reads program c ⟨[]⟩ c := by
  have hnone : nodes (Nested.within nestingLimit nestingLimit) c = ⟨.ok [], c, []⟩ :=
    many_none (if_pos h)
  refine reads_bind.mpr ⟨[], c, ⟨by rw [hnone], by rw [hnone]⟩, ?_⟩
  exact reads_bind.mpr ⟨(), c, reads_report.mpr rfl, reads_pure.mpr ⟨rfl, rfl⟩⟩

/-- A template is read to the end of the input. -/
theorem atEnd_of_program {c c' : Cursor} {p : Program} (h : Reads program c p c') :
    c'.atEnd = true := by
  obtain ⟨xs, c₁, hnodes, hrest⟩ := reads_bind.mp h
  obtain ⟨_, c₂, hreport, hpure⟩ := reads_bind.mp hrest
  obtain ⟨-, -, -, hend⟩ := Grammar.sound_nodes hnodes
  rw [(reads_pure.mp hpure).2, reads_report.mp hreport]
  exact hend

/-- A token that begins no node is unknown where a node is looked for. -/
theorem program_of_unknown {c : Cursor} (h : c.current.kind.beginsNode = false) :
    Fails program c (.blaming c.current (.unknown c.current.kind c.current.text)) c := by
  simp only [Kind.beginsNode, Bool.or_eq_false_iff, decide_eq_false_iff_not] at h
  obtain ⟨⟨⟨hmarkup, hcomment⟩, hbrace⟩, hend⟩ := h
  have hnode : Fails (node (Nested.within nestingLimit nestingLimit)) c
      (.blaming c.current (.unknown c.current.kind c.current.text)) c := by
    refine fails_bind.mpr (.inr ⟨c.current, c, reads_current.mpr ⟨rfl, rfl⟩, ?_⟩)
    rw [if_neg (Bool.eq_false_iff.mp hmarkup)]
    split
    · next hk => exact absurd hk hcomment
    · next hk => exact absurd hk hbrace
    · exact fails_fail.mpr ⟨rfl, rfl⟩
  exact fails_bind.mpr (.inl (hnode.many_first (if_neg fun he => hend (of_decide_eq_true he))))

/-! ## Every Call Starts Afresh -/

/-- Behind a template the input has ended. -/
theorem parse_after_ok {p : Program} (hnm : n < m)
    (h : parse ((stored ts).drop (positionAfter ts n)) = .ok p) :
    parse ((stored ts).drop (positionAfter ts m)) = .ok ⟨[]⟩ := by
  have hread : Reads program (afterCalls (.ofTokens ts) n) p (afterCalls (.ofTokens ts) (n + 1)) :=
    ⟨(result_afterCalls ts n).trans h, rfl⟩
  have hagain := program_of_atEnd (atEnd_of_program hread)
  rw [← result_afterCalls, afterCalls_of_stay (Nat.succ_le_of_lt hnm) hagain.2]
  exact hagain.1

/-- At a token that begins no node every call fails. -/
theorem parse_after_unknown {e : ParseError} {kind : Kind} {text : String} (hnm : n < m)
    (he : e.cause = .unknown kind text)
    (h : parse ((stored ts).drop (positionAfter ts n)) = .error e) :
    parse ((stored ts).drop (positionAfter ts m)) = .error e := by
  have hfail : Fails program (afterCalls (.ofTokens ts) n) e
      (afterCalls (.ofTokens ts) (n + 1)) := ⟨(result_afterCalls ts n).trans h, rfl⟩
  -- A call in step with itself tells where it stops: at the very token that is unknown.
  have hagain : Fails program (afterCalls (.ofTokens ts) (n + 1)) e
      (afterCalls (.ofTokens ts) (n + 1)) := by
    have hsame := sameAhead_refl ts
    obtain ⟨e', d', -, hblamed⟩ := InStep.fails (inStep_program (alike_together hsame))
      (together_afterCalls hsame n) hfail
    generalize afterCalls (.ofTokens ts) (n + 1) = c at hblamed ⊢
    cases hblamed with
    | @here c d cause hcd hc =>
      obtain rfl : cause = .unknown kind text := he
      obtain ⟨hbegins, rfl, rfl⟩ := hc
      exact program_of_unknown hbegins
    | @number c d cause hcd hc =>
      obtain rfl : cause = .unknown kind text := he
      exact hc.elim
  rw [← result_afterCalls, afterCalls_of_stay (Nat.succ_le_of_lt hnm) hagain.2]
  exact hagain.1

end calls

/-- Whatever the calls before it came to, no nested call is open when a call is made, and it does
    what a parser does that is started afresh on the stored tokens from the cursor on. The cursor
    never goes back and never passes the first ending token, and no token behind that one has a
    say in anything. Behind a template that has been read nothing is left, and an unknown token
    stays unknown. -/
theorem calls_start_afresh (ts : List Token) :
    Machine.KeepsDepth Machine.program ∧
    (∀ n, Machine.stateAfter (.start ts) n = some ⟨.behind ts (positionAfter ts n), 0⟩ ∧
      positionAfter ts n ≤ firstEnd ts) ∧
    positionAfter ts 0 = 0 ∧ Monotone (positionAfter ts) ∧
    (∀ count, programs (.ofTokens ts) count =
      (List.range count).map fun n => parse ((stored ts).drop (positionAfter ts n))) ∧
    (∀ us, (stored us).take (firstEnd ts + 1) = (stored ts).take (firstEnd ts + 1) →
      ∀ n, programs (.ofTokens us) n = programs (.ofTokens ts) n ∧
        positionAfter us n = positionAfter ts n) ∧
    (∀ n m p, n < m → parse ((stored ts).drop (positionAfter ts n)) = .ok p →
      parse ((stored ts).drop (positionAfter ts m)) = .ok ⟨[]⟩) ∧
    (∀ n m e kind text, n < m → e.cause = .unknown kind text →
      parse ((stored ts).drop (positionAfter ts n)) = .error e →
      parse ((stored ts).drop (positionAfter ts m)) = .error e) := by
  refine ⟨Machine.keepsDepth_program, fun n => ?_, Nat.sub_self _, monotone_positionAfter ts,
    fun count => ?_, fun us hus n => ?_, fun _ _ _ => parse_after_ok,
    fun _ _ _ _ _ => parse_after_unknown⟩
  · obtain ⟨hle, hcursor⟩ := afterCalls_eq_behind ts n
    rw [← hcursor]
    exact ⟨Machine.stateAfter_eq _ n, hle⟩
  · rw [programs_eq_map]
    exact List.map_congr_left fun n _ => result_afterCalls ts n
  · have hsame := sameAhead_of_take hus
    refine ⟨?_, positionAfter_eq hsame n⟩
    rw [programs_eq_map, programs_eq_map]
    refine List.map_congr_left fun i _ => ?_
    exact (program_together hsame (together_afterCalls hsame i)).1.symm

end TemplateSyntax
