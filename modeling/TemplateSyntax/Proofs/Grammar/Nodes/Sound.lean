import TemplateSyntax.Proofs.Grammar.Nodes.Basic
import TemplateSyntax.Parse.Program
import TemplateSyntax.Proofs.Grammar.Sound

/-! # Nodes That Are Read Are Written

  Whatever the parser of nodes reads is written, in the sense of the grammar, by the tokens
  that it has passed over (`sound_nodes`).

  A loop of nodes stops in front of a brace with one of its words, so the parser knows what
  stands behind the nodes it has read. That is what the grammar asks for at the end of a
  branch, which closes nothing.
-/

namespace TemplateSyntax

open Parse

namespace Grammar

/-- The parsers of nested parts are sound with `n` levels. -/
structure SoundNodes (n : Nat) (inner : Nested) : Prop extends SoundNested n inner where
  block : ∀ c x c', c.current.kind = .exprStart → Reads inner.block c x c' →
    ∃ u, c.Spans u c' ∧ Item n u x c'.ahead
  alternate : ∀ c a c', Reads inner.alternate c a c' →
    ∃ m u, n = m + 1 ∧ c.Spans u c' ∧ Branch m u a ∧ AtBrace [.ifEnd] c'.ahead

variable {n : Nat} {inner : Nested} {c c' : Cursor}

/-! ## Loops up to a Word -/

section upTo

variable {α : Type} {words : List Kind} {x : Expected} {item : Parse α}

/-- What a loop up to a brace with one of the words reads at a cursor. -/
def upTo (words : List Kind) (x : Expected) (item : Parse α) (c : Cursor) : Option (Parse α) :=
  if c.atBlock words then none
  else if c.atEnd then some (unexpected x)
  else some item

/-- The loop stops in front of one of its words, and nowhere else. -/
theorem upTo_eq_none_iff (heof : .eof ∉ words) :
    upTo words x item c = none ↔ AtBrace words c.ahead := by
  rw [← Cursor.atBlock_iff heof]
  unfold upTo
  constructor
  · intro h
    by_cases hb : c.atBlock words = true
    · exact hb
    · rw [if_neg hb] at h
      split at h <;> cases h
  · intro hb
    exact if_pos hb

/-- A round that reads something reads an item, in front of none of the words. -/
theorem reads_upTo {p : Parse α} {y : α} (heof : .eof ∉ words) (hp : upTo words x item c = some p)
    (h : Reads p c y c') : ¬ AtBrace words c.ahead ∧ c.current.kind ≠ .eof ∧ Reads item c y c' := by
  unfold upTo at hp
  split at hp
  · cases hp
  · next hb =>
    rw [Cursor.atBlock_iff heof] at hb
    split at hp
    · cases hp
      exact absurd h not_reads_unexpected
    · next hend =>
      cases hp
      exact ⟨hb, fun he => hend (decide_eq_true he), h⟩

theorem upTo_of_not {t : Token} {ts : List Token} {s : Span} (heof : .eof ∉ words)
    (hw : ¬ AtBrace words (t :: ts)) (ht : t.kind ≠ .eof) :
    upTo words x item ⟨t :: ts, s⟩ = some item := by
  have hb : ¬ (Cursor.mk (t :: ts) s).atBlock words = true := by
    rw [Cursor.atBlock_iff heof]
    exact hw
  have hend : ¬ (Cursor.mk (t :: ts) s).atEnd = true := by
    intro hend
    exact ht (of_decide_eq_true hend)
  rw [upTo, if_neg hb, if_neg hend]

end upTo

/-! ## Nodes -/

theorem sound_node (hn : SoundNodes n inner) {x : Node} (h : Reads (node inner) c x c') :
    ∃ u, c.Spans u c' ∧ Item n u x c'.ahead := by
  simp only [node, reads_bind, reads_current] at h
  obtain ⟨_, c, ⟨rfl, rfl⟩, h⟩ := h
  split at h
  · next hk =>
    simp only [leaf, reads_bind, reads_advance, reads_pure] at h
    obtain ⟨_, _, ⟨rfl, rfl⟩, rfl, rfl⟩ := h
    have hend : c.current.kind ≠ .eof := by
      intro he
      rw [he] at hk
      cases hk
    exact ⟨_, Cursor.spans_advance hend, .piece (.text hk)⟩
  · split at h
    · next hk =>
      simp only [leaf, reads_bind, reads_advance, reads_pure] at h
      obtain ⟨_, _, ⟨rfl, rfl⟩, rfl, rfl⟩ := h
      exact ⟨_, Cursor.spans_advance_of_kind hk (by decide), .piece (.comment hk)⟩
    · next hk => exact hn.block _ _ _ hk h
    · exact absurd h not_reads_fail

/-- A row of nodes that a loop reads. The loop stands in front of no brace with one of the
    words when it reads a node, and goes on where `{/if` stands unless this is what ends it. -/
theorem sound_row (hn : SoundNodes n inner) {words : List Kind}
    {select : Cursor → Option (Parse Node)}
    (hitem : ∀ c item x c', select c = some item → Reads item c x c' →
      ¬ AtBrace words c.ahead ∧ Reads (node inner) c x c')
    (hstop : ∀ c, select c = none → AtBrace [.ifEnd] c.ahead →
      .elseStart ∈ words ∨ words = [.ifEnd])
    {xs : List Node} (h : Reads (many select) c xs c') :
    ∃ u, c.Spans u c' ∧ Body n words u xs ∧ select c' = none := by
  have hprogress : ∀ c c₁ item x, select c = some item → Reads item c x c₁ →
      c₁.ahead.length < c.ahead.length := by
    intro c c₁ item x hs hi
    obtain ⟨u, hu, hx⟩ := sound_node hn (hitem c item x c₁ hs hi).2
    exact hu.length_lt hx.ne_nil
  refine h.rounds.fold_stop (P := fun c xs c' => ∃ u, c.Spans u c' ∧ Body n words u xs ∧
    select c' = none) hprogress ?_ ?_
  · intro c hs
    exact ⟨[], c.spans_refl, .nil, hs⟩
  · intro c c₁ c' item x xs hs hi ih
    obtain ⟨hwords, hread⟩ := hitem c item x c₁ hs hi
    obtain ⟨u, hu, hx⟩ := sound_node hn hread
    obtain ⟨v, hv, hbody, hnone⟩ := ih
    rw [hu.1] at hwords
    have hstart : ¬ AtBrace words u := by
      intro hw
      exact hwords (hw.append _)
    cases hx with
    | piece hx => exact ⟨u ++ v, hu.trans hv, .cons hx hstart hbody, hnone⟩
    | @stray m u a r t ht hb hr =>
      -- Behind a stray branch stands a closing brace, so no further node is read there.
      have hempty : v = [] ∧ xs = [] := by
        rw [hv.1] at hr
        cases hbody with
        | nil => exact ⟨rfl, rfl⟩
        | cons hy _ _ =>
          rw [List.append_assoc] at hr
          exact absurd hr ((Item.piece (r := c'.ahead) hy).not_atBrace_ifEnd _)
        | stray _ ht' hb' =>
          obtain ⟨w, v, rfl, hw⟩ := hb'.first
          have hk : w.kind = .ifEnd := List.mem_singleton.mp hr.2
          rw [hk] at hw
          cases hw
      obtain ⟨rfl, rfl⟩ := hempty
      have hbehind : AtBrace [.ifEnd] c'.ahead := by
        rw [hv.1] at hr
        exact hr
      rcases hstop c' hnone hbehind with helse | rfl
      · obtain ⟨w, v, rfl, hw⟩ := hb.first
        exact absurd ⟨ht, by rw [hw]; exact helse⟩ hstart
      · refine ⟨_, hu.trans hv, ?_, hnone⟩
        rw [List.append_nil]
        exact .stray rfl ht hb

theorem sound_nodesUntil (hn : SoundNodes n inner) {words : List Kind} {x : Expected}
    (hwords : words = [.elseStart, .ifEnd] ∨ words = [.ifEnd] ∨ words = caseEnds ∨
      words = [.forEnd])
    {xs : List Node} (h : Reads (nodesUntil inner words x) c xs c') :
    ∃ u, c.Spans u c' ∧ Body n words u xs ∧ AtBrace words c'.ahead := by
  have heof : .eof ∉ words := by
    rcases hwords with rfl | rfl | rfl | rfl <;> decide
  have hif : .ifEnd ∈ words → .elseStart ∈ words ∨ words = [.ifEnd] := by
    rcases hwords with rfl | rfl | rfl | rfl <;> decide
  have hitem : ∀ c item y c', upTo words x (node inner) c = some item → Reads item c y c' →
      ¬ AtBrace words c.ahead ∧ Reads (node inner) c y c' := by
    intro c item y c' hs hi
    obtain ⟨hw, -, hread⟩ := reads_upTo heof hs hi
    exact ⟨hw, hread⟩
  have hstop : ∀ c, upTo words x (node inner) c = none → AtBrace [.ifEnd] c.ahead →
      .elseStart ∈ words ∨ words = [.ifEnd] := by
    intro c hs hr
    exact hif (((upTo_eq_none_iff heof).mp hs).mem hr)
  obtain ⟨u, hu, hbody, hnone⟩ := sound_row hn hitem hstop h
  exact ⟨u, hu, hbody, (upTo_eq_none_iff heof).mp hnone⟩

/-! ## Choices of the Cursor -/

theorem reads_alternate?_of_else {x : Option Alternate} (h : c.atBlock [.elseStart] = true) :
    Reads (alternate? inner) c x c' ↔ ∃ a, Reads inner.alternate c.advance a c' ∧ x = some a := by
  rw [alternate?, reads_branch, if_pos h]
  simp only [reads_bind, reads_advance, reads_pure]
  constructor
  · rintro ⟨_, _, ⟨rfl, rfl⟩, a, c₁, ha, rfl, rfl⟩
    exact ⟨a, ha, rfl⟩
  · rintro ⟨a, ha, rfl⟩
    exact ⟨_, _, ⟨rfl, rfl⟩, a, c', ha, rfl, rfl⟩

theorem reads_alternate?_of_none {x : Option Alternate} (h : ¬ c.atBlock [.elseStart] = true) :
    Reads (alternate? inner) c x c' ↔ x = none ∧ c' = c := by
  rw [alternate?, reads_branch, if_neg h]
  exact reads_pure

theorem reads_caseOrSkip_of_case {x : Option Case} (h : c.atBlock [.caseStart] = true) :
    Reads (caseOrSkip inner) c x c' ↔ ∃ part, Reads (case inner) c part c' ∧ x = some part := by
  rw [caseOrSkip, reads_branch, if_pos h]
  exact reads_map

theorem reads_caseOrSkip_of_default {x : Option Case} (h : c.atBlock [.defaultStart] = true)
    (hcase : ¬ c.atBlock [.caseStart] = true) :
    Reads (caseOrSkip inner) c x c' ↔
      ∃ part, Reads (defaultCase inner) c part c' ∧ x = some part := by
  rw [caseOrSkip, reads_branch, if_neg hcase, reads_branch, if_pos h]
  exact reads_map

theorem reads_caseOrSkip_of_none {x : Option Case} (hcase : ¬ c.atBlock [.caseStart] = true)
    (hdefault : ¬ c.atBlock [.defaultStart] = true) :
    Reads (caseOrSkip inner) c x c' ↔ x = none ∧ c' = c.advance := by
  rw [caseOrSkip, reads_branch, if_neg hcase, reads_branch, if_neg hdefault]
  simp only [skip, reads_bind, reads_advance]
  constructor
  · rintro ⟨_, _, ⟨rfl, rfl⟩, h⟩
    split at h
    · exact reads_pure.mp h
    · simp only [reads_bind, reads_report, reads_pure] at h
      obtain ⟨_, _, rfl, rfl, rfl⟩ := h
      exact ⟨rfl, rfl⟩
  · rintro ⟨rfl, rfl⟩
    refine ⟨_, _, ⟨rfl, rfl⟩, ?_⟩
    split
    · exact reads_pure.mpr ⟨rfl, rfl⟩
    · simp only [reads_bind, reads_report, reads_pure]
      exact ⟨(), _, rfl, trivial, rfl⟩

/-- Where no word of a case stands, one token is passed over. -/
theorem reads_caseOrSkip_of_not {x : Option Case} (h : ¬ AtBrace caseEnds c.ahead) :
    Reads (caseOrSkip inner) c x c' ↔ x = none ∧ c' = c.advance := by
  apply reads_caseOrSkip_of_none
  · rw [Cursor.atBlock_eq_false h (by decide) (by decide)]
    decide
  · rw [Cursor.atBlock_eq_false h (by decide) (by decide)]
    decide

/-! ## Conditions -/

theorem sound_closing {word : Kind} (hw : word ≠ .eof) {u : Unit}
    (h : Reads (closing word) c u c') : ∃ u, c.Spans u c' ∧ Closing word u := by
  simp only [closing, reads_bind, reads_expect, reads_pure] at h
  obtain ⟨_, _, ⟨ha, rfl, rfl⟩, _, _, ⟨hb, rfl, rfl⟩, _, _, ⟨hc, rfl, rfl⟩, -, rfl⟩ := h
  have hspan := ((Cursor.spans_advance_of_kind ha (by decide)).step hb hw).step hc (by decide)
  exact ⟨_, hspan, .mk ha hb hc⟩

section nodes

variable (hn : SoundNodes n inner)
include hn

theorem sound_ifBlock {b : IfBlock} (h : Reads (ifBlock inner) c b c') :
    ∃ u, c.Spans u c' ∧ Condition n u b ∧ AtBrace [.ifEnd] c'.ahead := by
  simp only [ifBlock, reads_bind, reads_expect, reads_pure] at h
  obtain ⟨_, _, ⟨hk, rfl, rfl⟩, e, c₁, he, _, _, ⟨hs, rfl, rfl⟩, body, c₂, hbody, alt, c₃, halt,
    rfl, rfl⟩ := h
  obtain ⟨u, hu, hd⟩ := hn.expression _ _ _ he
  obtain ⟨w, hw, hb, hat⟩ := sound_nodesUntil hn (.inl rfl) hbody
  have hcondition := (Cursor.spans_advance_of_kind hk (by decide)).trans hu
  have hspan := (hcondition.step hs (by decide)).trans hw
  by_cases helse : c₂.atBlock [.elseStart] = true
  · obtain ⟨a, ha, rfl⟩ := (reads_alternate?_of_else helse).mp halt
    obtain ⟨m, v, rfl, hv, hbranch, hif⟩ := hn.alternate _ _ _ ha
    have hbrace := Cursor.kind_of_atBrace hat
    refine ⟨_, (hspan.step hbrace (by decide)).trans hv, ?_, hif⟩
    simpa using Condition.chained hk hd hs hb hbrace hbranch
  · obtain ⟨rfl, rfl⟩ := (reads_alternate?_of_none helse).mp halt
    refine ⟨_, hspan, by simpa using Condition.alone hk hd hs hb, ?_⟩
    -- What ends the nodes is no `else`, so it is the closing word.
    obtain ⟨word, hword, hat⟩ := hat.exists_word
    rcases List.mem_cons.mp hword with rfl | hword
    · exact absurd ((Cursor.atBlock_iff (by decide)).mpr hat) helse
    · exact List.mem_singleton.mp hword ▸ hat

theorem sound_alternate {a : Alternate} (h : Reads (alternate inner) c a c') :
    ∃ u, c.Spans u c' ∧ Branch n u a ∧ AtBrace [.ifEnd] c'.ahead := by
  simp only [alternate, reads_bind, reads_expect, reads_current] at h
  obtain ⟨_, _, ⟨hk, rfl, rfl⟩, _, _, ⟨rfl, rfl⟩, h⟩ := h
  have hword := Cursor.spans_advance_of_kind hk (by decide)
  split at h
  · simp only [reads_bind, reads_pure] at h
    obtain ⟨b, c₁, hb, rfl, rfl⟩ := h
    obtain ⟨u, hu, hd, hif⟩ := sound_ifBlock hn hb
    exact ⟨_, hword.trans hu, .elseIf hk hd, hif⟩
  · simp only [reads_bind, reads_expect, reads_pure] at h
    obtain ⟨_, _, ⟨hs, rfl, rfl⟩, body, c₁, hbody, rfl, rfl⟩ := h
    obtain ⟨u, hu, hd, hif⟩ := sound_nodesUntil hn (.inr (.inl rfl)) hbody
    exact ⟨_, (hword.step hs (by decide)).trans hu, .otherwise hk hs hd, hif⟩

/-! ## Switch Blocks -/

theorem sound_case {x : Case} (h : Reads (case inner) c x c')
    (hbrace : c.current.kind = .exprStart) :
    ∃ u, c.Spans u c' ∧ Part n u x ∧ AtBrace caseEnds c'.ahead := by
  simp only [case, reads_bind, reads_advance, reads_expect, reads_pure] at h
  obtain ⟨_, _, ⟨rfl, rfl⟩, _, _, ⟨hk, rfl, rfl⟩, es, c₁, hes, _, _, ⟨hs, rfl, rfl⟩, body, c₂,
    hbody, rfl, rfl⟩ := h
  obtain ⟨u, hu, hd⟩ := sound_expressions hn.toSoundNested _ _ _ hes
  obtain ⟨w, hw, hb, hat⟩ := sound_nodesUntil hn (.inr (.inr (.inl rfl))) hbody
  have hvalues := ((Cursor.spans_advance_of_kind hbrace (by decide)).step hk (by decide)).trans hu
  have hspan := (hvalues.step hs (by decide)).trans hw
  exact ⟨_, hspan, by simpa using Part.case hbrace hk hd hs hb, hat⟩

theorem sound_defaultCase {x : Case} (h : Reads (defaultCase inner) c x c')
    (hbrace : c.current.kind = .exprStart) :
    ∃ u, c.Spans u c' ∧ Part n u x ∧ AtBrace caseEnds c'.ahead := by
  simp only [defaultCase, reads_bind, reads_advance, reads_expect, reads_pure] at h
  obtain ⟨_, _, ⟨rfl, rfl⟩, _, _, ⟨hk, rfl, rfl⟩, _, _, ⟨hs, rfl, rfl⟩, body, c₂, hbody, rfl,
    rfl⟩ := h
  obtain ⟨w, hw, hb, hat⟩ := sound_nodesUntil hn (.inr (.inr (.inl rfl))) hbody
  have hhead := (Cursor.spans_advance_of_kind hbrace (by decide)).step hk (by decide)
  have hspan := (hhead.step hs (by decide)).trans hw
  exact ⟨_, hspan, by simpa using Part.default hbrace hk hs hb, hat⟩

/-- Where a part begins, it is read, and the next one or the end of the block follows it.
    Where none begins, one token is passed over. -/
theorem sound_caseOrSkip {x : Option Case} (h : Reads (caseOrSkip inner) c x c')
    (hend : ¬ AtBrace [.switchEnd] c.ahead) :
    (AtBrace caseEnds c.ahead ∧ ∃ part u, x = some part ∧ c.Spans u c' ∧ Part n u part ∧
      AtBrace caseEnds c'.ahead) ∨
    (¬ AtBrace caseEnds c.ahead ∧ x = none ∧ c' = c.advance) := by
  have hat : ∀ {word : Kind}, word ∈ caseEnds → c.atBlock [word] = true →
      AtBrace caseEnds c.ahead := by
    intro word hmem hb
    exact Cursor.atBrace_of_atBlock hb hmem (by decide)
  by_cases hcase : c.atBlock [.caseStart] = true
  · have hc := hat (by decide) hcase
    obtain ⟨part, hpart, rfl⟩ := (reads_caseOrSkip_of_case hcase).mp h
    obtain ⟨u, hu, hd, hat⟩ := sound_case hn hpart (Cursor.kind_of_atBrace hc)
    exact .inl ⟨hc, part, u, rfl, hu, hd, hat⟩
  by_cases hdefault : c.atBlock [.defaultStart] = true
  · have hc := hat (by decide) hdefault
    obtain ⟨part, hpart, rfl⟩ := (reads_caseOrSkip_of_default hdefault hcase).mp h
    obtain ⟨u, hu, hd, hat⟩ := sound_defaultCase hn hpart (Cursor.kind_of_atBrace hc)
    exact .inl ⟨hc, part, u, rfl, hu, hd, hat⟩
  · refine .inr ⟨?_, (reads_caseOrSkip_of_none hcase hdefault).mp h⟩
    -- No word of a case is left that could stand here.
    intro hc
    obtain ⟨word, hword, hc⟩ := hc.exists_word
    simp only [caseEnds, List.mem_cons, List.not_mem_nil, or_false] at hword
    rcases hword with rfl | rfl | rfl
    · exact hcase ((Cursor.atBlock_iff (by decide)).mpr hc)
    · exact hdefault ((Cursor.atBlock_iff (by decide)).mpr hc)
    · exact hend hc

/-- Tokens are passed over until the first part begins, and none behind it. -/
theorem sound_switchParts {xs : List (Option Case)}
    (h : Reads (many (upTo [.switchEnd] .endOfSwitch (caseOrSkip inner))) c xs c') :
    ∃ j w parts, c.Spans (j ++ w) c' ∧ Passed j ∧ Parts n w parts ∧
      xs = List.replicate j.length none ++ parts.map some ∧
      (AtBrace caseEnds c.ahead → j = []) ∧ AtBrace [.switchEnd] c'.ahead := by
  have heof : Kind.eof ∉ [Kind.switchEnd] := by decide
  refine h.rounds.fold_stop (P := fun c xs c' => ∃ j w parts, c.Spans (j ++ w) c' ∧
    Passed j ∧ Parts n w parts ∧ xs = List.replicate j.length none ++ parts.map some ∧
    (AtBrace caseEnds c.ahead → j = []) ∧ AtBrace [.switchEnd] c'.ahead) ?_ ?_ ?_
  · intro c c₁ item x hs hi
    obtain ⟨hb, hend, hread⟩ := reads_upTo heof hs hi
    rcases sound_caseOrSkip hn hread hb with ⟨-, part, u, -, hu, hpart, -⟩ | ⟨-, -, rfl⟩
    · exact hu.length_lt hpart.ne_nil
    · exact Cursor.ahead_advance_lt (decide_eq_false hend)
  · intro c hs
    exact ⟨[], [], [], c.spans_refl, .nil, .nil, rfl, fun _ => rfl,
      (upTo_eq_none_iff heof).mp hs⟩
  · intro c c₁ c' item x xs hs hi ih
    obtain ⟨j, w, parts, hjw, hj, hw, rfl, hnone, hstop⟩ := ih
    obtain ⟨hb, hk, hread⟩ := reads_upTo heof hs hi
    rcases sound_caseOrSkip hn hread hb with ⟨-, part, u, rfl, hu, hpart, hat⟩ | ⟨hat, rfl, rfl⟩
    · -- Behind a part nothing is passed over.
      cases hnone hat
      exact ⟨[], u ++ w, part :: parts, hu.trans hjw, .nil, .cons hpart hw, rfl, fun _ => rfl,
        hstop⟩
    · refine ⟨c.current :: j, w, parts, ?_, ?_, hw, rfl, fun h => absurd h hat, hstop⟩
      · exact (Cursor.spans_advance hk).trans hjw
      · refine .cons hk ?_ hj
        intro hbrace
        apply hat
        rw [Cursor.ahead_eq_cons hk, hjw.1, ← List.cons_append, ← List.cons_append]
        rw [List.append_assoc]
        exact hbrace.append _

theorem sound_switchBlock {x : Node} (h : Reads (switchBlock inner) c x c') :
    ∃ u, c.Spans u c' ∧ Block n u x := by
  simp only [switchBlock, reads_bind, reads_expect, reads_pure] at h
  obtain ⟨_, _, ⟨hk, rfl, rfl⟩, e, c₁, he, _, _, ⟨hs, rfl, rfl⟩, xs, c₂, hxs, _, c₃, hclosing,
    rfl, rfl⟩ := h
  obtain ⟨u, hu, hd⟩ := hn.expression _ _ _ he
  obtain ⟨j, w, parts, hjw, hj, hw, rfl, -, -⟩ := sound_switchParts hn hxs
  obtain ⟨v, hv, hclose⟩ := sound_closing (by decide) hclosing
  have hvalue := (Cursor.spans_advance_of_kind hk (by decide)).trans hu
  have hspan := ((hvalue.step hs (by decide)).trans hjw).trans hv
  exact ⟨_, hspan, by simpa using Block.switch hk hd hs hj hw hclose⟩

/-! ## Other Blocks -/

omit hn in
theorem sound_counter? {i : Option String} (h : Reads counter? c i c') :
    ∃ u, c.Spans u c' ∧ Counter u i := by
  simp only [counter?, reads_bind, reads_current] at h
  obtain ⟨_, c, ⟨rfl, rfl⟩, h⟩ := h
  split at h
  · next hc =>
    simp only [reads_bind, reads_advance, reads_expect, reads_pure] at h
    obtain ⟨_, _, ⟨rfl, rfl⟩, _, _, ⟨hname, rfl, rfl⟩, rfl, rfl⟩ := h
    exact ⟨_, (Cursor.spans_advance_of_kind hc (by decide)).step hname (by decide),
      .some hc hname⟩
  · obtain ⟨rfl, rfl⟩ := reads_pure.mp h
    exact ⟨[], c'.spans_refl, .none⟩

theorem sound_forBlock {x : Node} (h : Reads (forBlock inner) c x c') :
    ∃ u, c.Spans u c' ∧ Block n u x := by
  simp only [forBlock, reads_bind, reads_expect, reads_pure] at h
  obtain ⟨_, _, ⟨hk, rfl, rfl⟩, _, _, ⟨hname, rfl, rfl⟩, i, c₁, hi, _, _, ⟨hl, rfl, rfl⟩, e, c₂,
    he, _, _, ⟨hs, rfl, rfl⟩, body, c₃, hbody, _, c₄, hclosing, rfl, rfl⟩ := h
  obtain ⟨i, hi, hcounter⟩ := sound_counter? hi
  obtain ⟨u, hu, hd⟩ := hn.expression _ _ _ he
  obtain ⟨w, hw, hb, -⟩ := sound_nodesUntil hn (.inr (.inr (.inr rfl))) hbody
  obtain ⟨v, hv, hclose⟩ := sound_closing (by decide) hclosing
  have hnames := ((Cursor.spans_advance_of_kind hk (by decide)).step hname (by decide)).trans hi
  have hvalue := (hnames.step hl (by decide)).trans hu
  have hspan := ((hvalue.step hs (by decide)).trans hw).trans hv
  exact ⟨_, hspan, by simpa using Block.loop hk hname hcounter hl hd hs hb hclose⟩

omit hn in
theorem sound_importFile {x : Node} (h : Reads importFile c x c') :
    ∃ u, c.Spans u c' ∧ Block n u x := by
  simp only [importFile, reads_bind, reads_expect, reads_pure] at h
  obtain ⟨_, _, ⟨hk, rfl, rfl⟩, _, _, ⟨hp, rfl, rfl⟩, _, _, ⟨hs, rfl, rfl⟩, rfl, rfl⟩ := h
  have hpath := (Cursor.spans_advance_of_kind hk (by decide)).step hp (by decide)
  exact ⟨_, hpath.step hs (by decide), .importFile hk hp hs⟩

theorem sound_interpolation {x : Node} (hw : c.current.kind.opensBlock = false)
    (h : Reads (interpolation inner) c x c') : ∃ u, c.Spans u c' ∧ Block n u x := by
  simp only [interpolation, reads_bind, reads_current] at h
  obtain ⟨_, c, ⟨rfl, rfl⟩, h⟩ := h
  split at h
  · next hk =>
    simp only [reads_bind, reads_advance, reads_pure] at h
    obtain ⟨_, _, ⟨rfl, rfl⟩, rfl, rfl⟩ := h
    exact ⟨_, Cursor.spans_advance_of_kind hk (by decide), .empty hk⟩
  · simp only [reads_bind, reads_expect, reads_pure] at h
    obtain ⟨e, c₁, he, _, _, ⟨hs, rfl, rfl⟩, rfl, rfl⟩ := h
    obtain ⟨u, hu, hd⟩ := hn.expression _ _ _ he
    refine ⟨_, hu.step hs (by decide), .interpolation hd ?_ hs⟩
    intro t ht
    obtain ⟨t', v, rfl, -⟩ := hd.first
    obtain ⟨ts, s⟩ := c
    obtain ⟨rfl, -⟩ := hu
    cases ht
    exact hw

/-! ## Blocks -/

/-- A block takes a level off whatever it holds. -/
theorem sound_block {x : Node} (hbrace : c.current.kind = .exprStart)
    (h : Reads (block inner) c x c') :
    ∃ u, c.Spans u c' ∧ Item (n + 1) u x c'.ahead := by
  simp only [block, reads_bind, reads_following, reads_advance] at h
  obtain ⟨_, c, ⟨rfl, rfl⟩, _, _, ⟨rfl, rfl⟩, h⟩ := h
  have hspan := Cursor.spans_advance_of_kind hbrace (by decide)
  have hpiece : ∀ {u}, c.advance.Spans u c' → Block n u x →
      ∃ u, c.Spans u c' ∧ Item (n + 1) u x c'.ahead := by
    intro u hu hb
    exact ⟨_, hspan.trans hu, .piece (.block hbrace hb)⟩
  split at h
  · simp only [reads_bind, reads_pure] at h
    obtain ⟨b, c₁, hb, _, c₂, hclosing, rfl, rfl⟩ := h
    obtain ⟨u, hu, hd, -⟩ := sound_ifBlock hn hb
    obtain ⟨v, hv, hclose⟩ := sound_closing (by decide) hclosing
    exact hpiece (hu.trans hv) (.condition hd hclose)
  · simp only [reads_bind, reads_pure] at h
    obtain ⟨a, c₁, ha, rfl, rfl⟩ := h
    obtain ⟨u, hu, hd, hif⟩ := sound_alternate hn ha
    exact ⟨_, hspan.trans hu, .stray hbrace hd hif⟩
  · obtain ⟨u, hu, hd⟩ := sound_switchBlock hn h
    exact hpiece hu hd
  · obtain ⟨u, hu, hd⟩ := sound_forBlock hn h
    exact hpiece hu hd
  · obtain ⟨u, hu, hd⟩ := sound_importFile h
    exact hpiece hu hd
  · next hif helse hswitch hfor himport =>
    -- Whatever else stands behind the brace opens no block.
    have hw : c.advance.current.kind.opensBlock = false := by
      revert hif helse hswitch hfor himport
      rw [Cursor.current_advance]
      cases c.following.kind <;> simp [Kind.opensBlock]
    obtain ⟨u, hu, hd⟩ := sound_interpolation hn hw h
    exact hpiece hu hd

end nodes

/-- With no levels left nothing is read, and one more level reaches one level deeper. -/
theorem soundNodes_within (limit left : Nat) : SoundNodes left (Nested.within limit left) := by
  induction left with
  | zero =>
    refine ⟨soundNested_within limit 0, ?_, ?_⟩
    · intro c x c' _ h
      exact absurd h not_reads_fail
    · intro c a c' h
      exact absurd h not_reads_fail
  | succ left ih =>
    refine ⟨soundNested_within limit (left + 1), ?_, ?_⟩
    · intro c x c' hbrace h
      exact sound_block ih hbrace h
    · intro c a c' h
      obtain ⟨u, hu, hd, hif⟩ := sound_alternate ih h
      exact ⟨left, u, rfl, hu, hd, hif⟩

/-- Whatever nodes are read up to the end of the input are written by the tokens in front
    of it. -/
theorem sound_nodes {limit left : Nat} {xs : List Node}
    (h : Reads (nodes (Nested.within limit left)) c xs c') :
    ∃ u, c.Spans u c' ∧ Body left [] u xs ∧ c'.atEnd = true := by
  have hitem : ∀ (c : Cursor) item x c', (if c.atEnd then none
      else some (node (Nested.within limit left))) = some item → Reads item c x c' →
      ¬ AtBrace [] c.ahead ∧ Reads (node (Nested.within limit left)) c x c' := by
    intro c item x c' hs hi
    split at hs
    · cases hs
    · cases hs
      refine ⟨?_, hi⟩
      intro hw
      obtain ⟨word, hword, -⟩ := hw.exists_word
      cases hword
  have hstop : ∀ c : Cursor, (if c.atEnd then none
      else some (node (Nested.within limit left))) = none → c.atEnd = true := by
    intro c hs
    by_cases hend : c.atEnd = true
    · exact hend
    · rw [if_neg hend] at hs
      cases hs
  -- The end of the input is no brace.
  have hbrace : ∀ c : Cursor, (if c.atEnd then none
      else some (node (Nested.within limit left))) = none → AtBrace [.ifEnd] c.ahead →
      .elseStart ∈ ([] : List Kind) ∨ [] = [Kind.ifEnd] := by
    intro c hs hr
    have hend : c.current.kind = .eof := of_decide_eq_true (hstop c hs)
    rw [Cursor.kind_of_atBrace hr] at hend
    cases hend
  obtain ⟨u, hu, hbody, hnone⟩ := sound_row (soundNodes_within limit left) hitem hbrace h
  exact ⟨u, hu, hbody, hstop _ hnone⟩

end Grammar

end TemplateSyntax
