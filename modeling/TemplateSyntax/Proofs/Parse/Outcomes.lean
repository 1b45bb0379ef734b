import TemplateSyntax.Log
import TemplateSyntax.Proofs.Parse.Built.Block
import TemplateSyntax.Proofs.Parse.Faults

/-! # What Is Logged of an Outcome

  A parser that fails reports its error once, when it meets it, and whatever stands around it only
  passes it on. So the error that a template has is the last thing that is reported, and no other
  one is (`Parse.Built.logged`). The errors of numbers are left out: nothing is reported of them.

  The log of a source text therefore has one record of what the scanner has found, and behind the
  tokens that are passed over one record of the outcome, unless an integer literal is too large
  (`outcome_logged`). Then the log ends without any (`outcome_not_logged`).
-/

namespace TemplateSyntax

namespace Parse

variable {α β : Type}

/-! ## Parsers -/

/-- What is reported of a result: its error, unless a number is at fault. -/
def reported : Except ParseError α → List ParseNote
  | .ok _ => []
  | .error e => if e.cause.isNumeral then [] else [.failed e]

/-- Behind some tokens that have been passed over the result is reported, and nothing else. -/
def Logged (o : Outcome α) : Prop :=
  ∃ passed : List Token, o.notes = passed.map .skipped ++ reported o.result

theorem logged_ok {a : α} {c : Cursor} : Logged ⟨.ok a, c, []⟩ := ⟨[], rfl⟩

/-- An error is reported in the same way whatever was to be read. -/
theorem Logged.error {e : ParseError} {c c' : Cursor} {notes : List ParseNote}
    (h : Logged (⟨.error e, c, notes⟩ : Outcome α)) :
    Logged (⟨.error e, c', notes⟩ : Outcome β) := h

/-- What has been read successfully adds nothing but tokens that have been passed over. -/
theorem Logged.behind {a : α} {c : Cursor} {notes : List ParseNote} {o : Outcome β}
    (h : Logged ⟨.ok a, c, notes⟩) (ho : Logged o) :
    Logged ⟨o.result, o.cursor, notes ++ o.notes⟩ := by
  obtain ⟨passed, hnotes⟩ := h
  obtain ⟨passed', hnotes'⟩ := ho
  refine ⟨passed ++ passed', ?_⟩
  simp only [reported, List.append_nil] at hnotes
  rw [hnotes, hnotes', List.map_append, List.append_assoc]

theorem Logged.map {f : α → β} {o : Outcome α} (h : Logged o) :
    Logged ⟨o.result.map f, o.cursor, o.notes⟩ := by
  obtain ⟨passed, hnotes⟩ := h
  refine ⟨passed, hnotes.trans ?_⟩
  cases o.result <;> rfl

theorem Built.logged {movable start : Kind → Prop} {p : Parse α} (hp : Built movable start p)
    (c : Cursor) (hc : start c.current.kind) : Logged (p c) := by
  induction hp generalizing c with
  | pure => exact logged_ok
  | @bind _ _ _ p f _ _ ihp ihf =>
    have hfirst := ihp c hc
    rcases hrun : p c with ⟨e | a, c', notes⟩ <;> rw [hrun] at hfirst
    · rw [bind_error hrun]
      exact hfirst.error
    · rw [bind_ok hrun]
      exact hfirst.behind (ihf a c' trivial)
  | advance => exact logged_ok
  | skipped t => exact ⟨[t], rfl⟩
  | fail h => exact ⟨[], by simp [Parse.fail, reported, ParseError.blaming, h]⟩
  | reject h => exact ⟨[], by simp [Parse.reject, reported, h]⟩
  | choose _ _ ih => exact ih c hc c rfl
  | @many _ _ select _ _ ih =>
    clear hc
    have hround : ∀ {c item o}, select c = some item → item c = o → Logged o := by
      rintro c item _ hs rfl
      exact ih c item hs c rfl
    induction c using many_along select with
    | done => exact logged_ok
    | error c item e c' notes hs hi => exact (hround hs hi).error
    | stalled c item a c' notes hs hi => exact hround hs hi
    | round c item a c' notes hs hi ihrest => exact (hround hs hi).behind ihrest.map

/-- What is reported of a template: the number of its nodes, or its error. -/
def outcomeNotes : Except ParseError Program → List ParseNote
  | .ok p => [.parsed p.body.length]
  | .error e => if e.cause.isNumeral then [] else [.failed e]

/-- The outcome is reported behind all tokens that have been passed over. -/
theorem notes_program (c : Cursor) : ∃ passed : List Token,
    (program c).notes = passed.map .skipped ++ outcomeNotes (program c).result := by
  have hbuilt : Built (· ≠ .eof) (fun _ => True)
      (nodes (Nested.within nestingLimit nestingLimit)) :=
    built_nodes (built_within nestingLimit nestingLimit)
  obtain ⟨passed, hnotes⟩ := hbuilt.logged c trivial
  refine ⟨passed, ?_⟩
  rcases hrun : nodes (Nested.within nestingLimit nestingLimit) c with ⟨e | body, c', notes⟩
  · have hprogram : program c = ⟨.error e, c', notes⟩ := bind_error hrun
    rw [hrun] at hnotes
    rw [hprogram]
    exact hnotes
  · have hprogram : program c = ⟨.ok ⟨body⟩, c', notes ++ [.parsed body.length]⟩ := bind_ok hrun
    rw [hrun] at hnotes
    rw [hprogram]
    simpa [reported, outcomeNotes] using hnotes

end Parse

open Parse

/-! ## Records -/

/-- The record of how many tokens have been scanned. -/
def LogRecord.IsCount (r : LogRecord) : Prop :=
  ∃ count : Nat, r = scannerRecord .debug ("scanned " ++ toString count ++ " tokens")

/-- The record of a template that has been read, or of an error. -/
def LogRecord.IsOutcome (r : LogRecord) : Prop :=
  (∃ count, r = (ParseNote.parsed count).record) ∨ ∃ e, r = (ParseNote.failed e).record

/-- The record of a token that has been passed over. -/
def LogRecord.IsPassed (r : LogRecord) : Prop := ∃ t, r = (ParseNote.skipped t).record

/-- The record of a string that is not closed. -/
def LogRecord.IsUnclosed (r : LogRecord) : Prop :=
  ∃ place, r = (ScanNote.unterminated place).record

/-- How a message begins. -/
def LogRecord.initial (r : LogRecord) : Option Char := r.message.toList.head?

theorem LogRecord.IsPassed.initial {r : LogRecord} (h : r.IsPassed) : r.initial = some 's' := by
  obtain ⟨t, rfl⟩ := h
  simp [LogRecord.initial, ParseNote.record, parserRecord]

theorem LogRecord.IsOutcome.initial {r : LogRecord} (h : r.IsOutcome) :
    r.initial = some 'p' ∨ r.initial = some 'I' ∨ r.initial = some 'U' := by
  rcases h with ⟨count, rfl⟩ | ⟨e, rfl⟩
  · simp [LogRecord.initial, ParseNote.record, parserRecord]
  · cases hcause : e.cause <;>
      simp [LogRecord.initial, ParseNote.record, parserRecord, ParseError.message, hcause]

theorem LogRecord.IsOutcome.target {r : LogRecord} (h : r.IsOutcome) :
    r.target = "nano::parser" := by
  rcases h with ⟨count, rfl⟩ | ⟨e, rfl⟩
  · rfl
  · rfl

/-- A token that has been passed over is not taken for an outcome, nor for a count of tokens. -/
theorem LogRecord.IsPassed.not_outcome {r : LogRecord} (h : r.IsPassed) :
    ¬ r.IsOutcome ∧ ¬ r.IsCount := by
  constructor
  · intro ho
    have hinitial := ho.initial
    rw [h.initial] at hinitial
    revert hinitial
    decide
  · rintro ⟨count, hcount⟩
    obtain ⟨t, rfl⟩ := h
    have htarget : "nano::parser" = "nano::scanner" := congrArg LogRecord.target hcount
    revert htarget
    decide

/-- Neither is a string that is not closed. -/
theorem LogRecord.IsUnclosed.not_outcome {r : LogRecord} (h : r.IsUnclosed) :
    ¬ r.IsOutcome ∧ ¬ r.IsCount := by
  obtain ⟨place, rfl⟩ := h
  constructor
  · intro ho
    have htarget : "nano::scanner" = "nano::parser" := ho.target
    revert htarget
    decide
  · rintro ⟨count, hcount⟩
    have hinitial := congrArg LogRecord.initial hcount
    simp [LogRecord.initial, ScanNote.record, scannerRecord] at hinitial

/-! ## Logs -/

/-- Changes of the mode are only traced. -/
theorem isUnclosed_of_shown {notes : List ScanNote} {r : LogRecord}
    (h : r ∈ (notes.map ScanNote.record).filter (·.isShownAt (some .debug))) : r.IsUnclosed := by
  obtain ⟨hr, hshown⟩ := List.mem_filter.mp h
  obtain ⟨note, -, rfl⟩ := List.mem_map.mp hr
  cases note with
  | modeChange old new place => exact absurd hshown Bool.false_ne_true
  | unterminated place => exact ⟨place, rfl⟩

/-- The parser reports nothing that is only traced. -/
theorem filter_shown_parseNotes (notes : List ParseNote) :
    (notes.map ParseNote.record).filter (·.isShownAt (some .debug)) =
      notes.map ParseNote.record := by
  rw [List.filter_eq_self]
  intro r hr
  obtain ⟨note, -, rfl⟩ := List.mem_map.mp hr
  cases note <;> rfl

/-- The log of every source text has one record of how many tokens there are. In front of it are
    strings that are not closed, and behind it tokens that are passed over and then the outcome as
    the last record of all. Only of an integer literal that is too large there is no record. -/
theorem outcome_logged (source : String) : ∃ unclosed passed : List LogRecord,
    (compileLog source).filter (·.isShownAt (some .debug)) =
      unclosed ++ scannerRecord .debug
        ("scanned " ++ toString (tokenize source).length ++ " tokens") ::
          (passed ++ (outcomeNotes (compile source)).map ParseNote.record) ∧
    (∀ r ∈ unclosed, r.IsUnclosed ∧ ¬ r.IsOutcome ∧ ¬ r.IsCount) ∧
    (∀ r ∈ passed, r.IsPassed ∧ ¬ r.IsOutcome ∧ ¬ r.IsCount) ∧
    ∀ e, compile source = .error e → e.cause.isNumeral = true →
      ∃ t ∈ tokenize source, t.kind = .integer ∧ Integer.maxValue < digitsValue t.text.toList ∧
        e = .blaming t (.badInteger t.text .tooLarge) := by
  obtain ⟨tokens, hnotes⟩ := notes_program (.ofTokens (tokenize source))
  refine ⟨((Scan.ofSource source).notes.map ScanNote.record).filter (·.isShownAt (some .debug)),
    tokens.map (ParseNote.record ∘ .skipped), ?_, ?_, ?_, ?_⟩
  · have hresult : (program (.ofTokens (tokenize source))).result = compile source := rfl
    rw [compileLog, tokenizeLog, List.filter_append, List.filter_append, filter_shown_parseNotes,
      hnotes, hresult, List.map_append, List.map_map, List.append_assoc]
    rfl
  · intro r hr
    have hunclosed := isUnclosed_of_shown hr
    exact ⟨hunclosed, hunclosed.not_outcome⟩
  · intro r hr
    obtain ⟨t, -, rfl⟩ := List.mem_map.mp hr
    have hpassed : ((ParseNote.record ∘ .skipped) t).IsPassed := ⟨t, rfl⟩
    exact ⟨hpassed, hpassed.not_outcome⟩
  · intro e he hnumeral
    have hlawful := lawful_of_compile he
    unfold Lawful at hlawful
    cases hcause : e.cause with
    | badInteger text fault =>
      rw [hcause] at hlawful
      exact hlawful
    | badDecimal text fault =>
      rw [hcause] at hlawful
      exact hlawful.elim
    | _ =>
      rw [hcause] at hnumeral
      cases hnumeral

/-- Of this error there is no record. -/
theorem outcome_not_logged :
    let source := "\x7b9223372036854775808\x7d"
    let records := (compileLog source).filter (·.isShownAt (some .debug))
    compile source = .error ⟨.badInteger "9223372036854775808" .tooLarge, 1, 2⟩ ∧
      records = [scannerRecord .debug "scanned 4 tokens"] ∧ ∀ r ∈ records, ¬ r.IsOutcome := by
  intro source records
  have herror : compile source = .error ⟨.badInteger "9223372036854775808" .tooLarge, 1, 2⟩ := by
    decide +kernel
  have hrecords : records = [scannerRecord .debug "scanned 4 tokens"] := by decide +kernel
  refine ⟨herror, hrecords, fun r hr ho => ?_⟩
  rw [hrecords, List.mem_singleton] at hr
  subst hr
  have htarget : "nano::scanner" = "nano::parser" := ho.target
  revert htarget
  decide

end TemplateSyntax
