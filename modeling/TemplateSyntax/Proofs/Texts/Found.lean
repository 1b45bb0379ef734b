import TemplateSyntax.Proofs.Grammar.Nodes.Exact
import TemplateSyntax.Proofs.Parse.Places
import TemplateSyntax.Proofs.Texts.Basic

/-! # Headers Found along the Grammar

  Which headers of switch blocks the parser finds, where the tokens ahead write something: in
  front of a node it finds those of its block and those behind it (`finds_item`), at the end
  of a row none (`not_finds_closed`, `not_finds_end`) or those of an alternate
  (`finds_else`), and among the parts of a switch block those of the parts (`finds_part`,
  `finds_passed`).
-/

namespace TemplateSyntax

open Parse

namespace Grammar

variable {limit n : Nat} {s : Span} {words : List Kind} {d : Cursor}

/-! ## Headers -/

theorem reads_ifHeader {word stop : Token} {u r : List Token} {e : Expr}
    (hk : word.kind = .ifStart) (he : Conditional n u e) (hs : stop.kind = .exprEnd) :
    Reads (ifHeader (Nested.within limit n)) ⟨word :: (u ++ stop :: r), s⟩ e ⟨r, s⟩ := by
  have hread := complete_header (completeNodes_within limit n) (r := r) (s := s) he hs
  simp only [ifHeader, reads_bind, reads_expect, reads_pure]
  exact ⟨_, _, ⟨hk, rfl, rfl⟩, e, _, hread, _, _, ⟨hs, rfl, rfl⟩, rfl, rfl⟩

theorem reads_switchHeader {word stop : Token} {u r : List Token} {e : Expr}
    (hk : word.kind = .switchStart) (he : Conditional n u e) (hs : stop.kind = .exprEnd) :
    Reads (switchHeader (Nested.within limit n)) ⟨word :: (u ++ stop :: r), s⟩ e ⟨r, s⟩ := by
  have hread := complete_header (completeNodes_within limit n) (r := r) (s := s) he hs
  simp only [switchHeader, reads_bind, reads_expect, reads_pure]
  exact ⟨_, _, ⟨hk, rfl, rfl⟩, e, _, hread, _, _, ⟨hs, rfl, rfl⟩, rfl, rfl⟩

theorem reads_forHeader {word name link stop : Token} {i u r : List Token} {e : Expr}
    {index : Option String} (hk : word.kind = .forStart) (hname : name.kind = .identifier)
    (hi : Counter i index) (hl : link.kind = .forIn) (he : Conditional n u e)
    (hs : stop.kind = .exprEnd) :
    Reads (forHeader (Nested.within limit n))
      ⟨word :: name :: (i ++ link :: (u ++ stop :: r)), s⟩ (name.text, index, e) ⟨r, s⟩ := by
  have hread := complete_header (completeNodes_within limit n) (r := r) (s := s) he hs
  simp only [forHeader, reads_bind, reads_expect, reads_pure]
  exact ⟨_, _, ⟨hk, rfl, rfl⟩, _, _, ⟨hname, rfl, rfl⟩, index, _, complete_counter? hi hl, _, _,
    ⟨hl, rfl, rfl⟩, e, _, hread, _, _, ⟨hs, rfl, rfl⟩, rfl, rfl⟩

theorem reads_elseHeader {word stop : Token} {r : List Token} (hk : word.kind = .elseStart)
    (hs : stop.kind = .exprEnd) : Reads elseHeader ⟨word :: stop :: r, s⟩ () ⟨r, s⟩ := by
  simp only [elseHeader, reads_bind, reads_expect, reads_pure]
  exact ⟨_, _, ⟨hk, rfl, rfl⟩, _, _, ⟨hs, rfl, rfl⟩, trivial, rfl⟩

/-- A kind that opens no block has no header. -/
theorem headerAt_eq_none {c : Cursor} (h : c.following.kind.opensBlock = false) :
    headerAt limit n c = none := by
  unfold headerAt
  revert h
  cases c.following.kind <;> intro h <;> first | rfl | cases h

/-! ## Blocks Behind Their Headers -/

section headers

variable {n : Nat} {brace word : Token} {ts : List Token} {c : Cursor}

/-- The header of a block leads to the place that goes with it. -/
theorem enters_of_header {α : Type} {header : Parse α} {place : Cursor → Place} {c c' : Cursor}
    {x : α} (ht : c.current.kind = .exprStart)
    (hheader : headerAt limit n c = some ((fun _ => place) <$> header))
    (hr : Reads header c.advance x c') : Enters limit n c (place c') :=
  ⟨ht, _, _, c', hheader, reads_map.mpr ⟨x, hr, rfl⟩, rfl⟩

theorem enters_condition {e : Expr} (ht : brace.kind = .exprStart) (hk : word.kind = .ifStart)
    (hr : Reads (ifHeader (.within limit n)) ⟨word :: ts, s⟩ e c) :
    Enters limit n ⟨brace :: word :: ts, s⟩ (.nodes n [.elseStart, .ifEnd] c) := by
  have hfollowing : (Cursor.mk (brace :: word :: ts) s).following.kind = .ifStart := hk
  exact enters_of_header ht (by rw [headerAt, hfollowing]) hr

theorem enters_switch {e : Expr} (ht : brace.kind = .exprStart) (hk : word.kind = .switchStart)
    (hr : Reads (switchHeader (.within limit n)) ⟨word :: ts, s⟩ e c) :
    Enters limit n ⟨brace :: word :: ts, s⟩ (.parts n c) := by
  have hfollowing : (Cursor.mk (brace :: word :: ts) s).following.kind = .switchStart := hk
  exact enters_of_header ht (by rw [headerAt, hfollowing]) hr

theorem enters_loop {x : String × Option String × Expr} (ht : brace.kind = .exprStart)
    (hk : word.kind = .forStart)
    (hr : Reads (forHeader (.within limit n)) ⟨word :: ts, s⟩ x c) :
    Enters limit n ⟨brace :: word :: ts, s⟩ (.nodes n [.forEnd] c) := by
  have hfollowing : (Cursor.mk (brace :: word :: ts) s).following.kind = .forStart := hk
  exact enters_of_header ht (by rw [headerAt, hfollowing]) hr

/-- For an `else` the token behind it decides which header is read. -/
theorem enters_elseIf {next : Token} {e : Expr} (ht : brace.kind = .exprStart)
    (hk : word.kind = .elseStart) (hnext : next.kind = .ifStart)
    (hr : Reads (ifHeader (.within limit n)) ⟨next :: ts, s⟩ e c) :
    Enters limit n ⟨brace :: word :: next :: ts, s⟩ (.nodes n [.elseStart, .ifEnd] c) := by
  have hheader : headerAt limit n ⟨brace :: word :: next :: ts, s⟩ =
      some ((fun _ => .nodes n [.elseStart, .ifEnd]) <$> elseIfHeader (.within limit n)) := by
    have hfollowing : (Cursor.mk (brace :: word :: next :: ts) s).following.kind = .elseStart := hk
    rw [headerAt, hfollowing]
    exact if_pos hnext
  have hread : Reads (elseIfHeader (.within limit n)) ⟨word :: next :: ts, s⟩ e c := by
    simp only [elseIfHeader, reads_bind, reads_expect]
    exact ⟨_, _, ⟨hk, rfl, rfl⟩, hr⟩
  exact enters_of_header ht hheader hread

theorem enters_otherwise {stop : Token} (ht : brace.kind = .exprStart)
    (hk : word.kind = .elseStart) (hs : stop.kind = .exprEnd) :
    Enters limit n ⟨brace :: word :: stop :: ts, s⟩ (.nodes n [.ifEnd] ⟨ts, s⟩) := by
  have hheader : headerAt limit n ⟨brace :: word :: stop :: ts, s⟩ =
      some ((fun _ => .nodes n [.ifEnd]) <$> elseHeader) := by
    have hfollowing : (Cursor.mk (brace :: word :: stop :: ts) s).following.kind = .elseStart := hk
    have hnext : stop.kind ≠ .ifStart := by
      rw [hs]
      decide
    rw [headerAt, hfollowing]
    exact if_neg hnext
  exact enters_of_header ht hheader (reads_elseHeader hk hs)

end headers

/-! ## Rows of Nodes -/

theorem findsIn_nodes {c c' : Cursor} {left : Nat}
    (h : Enters limit n c (.nodes left words c')) :
    FindsIn limit n c d ↔ Finds limit (.nodes left words c') d := by
  rw [findsIn_iff h]
  constructor
  · rintro (hq | hd)
    · cases hq
    · exact hd
  · exact .inr

/-- In front of a node, what is found is found in its block or behind it. -/
theorem finds_item {u r : List Token} {x : Node} (h : Item n u x r) (heof : .eof ∉ words)
    (hw : ¬ AtBrace words u) :
    Finds limit (.nodes n words ⟨u ++ r, s⟩) d ↔
      (∃ m, n = m + 1 ∧ FindsIn limit m ⟨u ++ r, s⟩ d) ∨
      Finds limit (.nodes n words ⟨r, s⟩) d := by
  have hread := complete_node (completeNodes_within limit n) (s := s) h
  have hstart : (Cursor.mk (u ++ r) s).atBlock words = false := by
    rw [Bool.eq_false_iff]
    intro hat
    exact hw (h.atBrace_append ((Cursor.atBlock_iff heof).mp hat))
  have hend : (Cursor.mk (u ++ r) s).atEnd = false := by
    have hfirst := h.first_ne_eof
    obtain ⟨t, w, rfl⟩ := List.exists_cons_of_ne_nil h.ne_nil
    exact decide_eq_false (hfirst t rfl)
  rw [finds_nodes_iff]
  apply or_congr_right
  constructor
  · rintro ⟨-, -, x', c', hread', hd⟩
    obtain ⟨-, rfl⟩ := hread.unique hread'
    exact hd
  · intro hd
    exact ⟨hstart, hend, x, _, hread, hd⟩

theorem finds_block {u r : List Token} {x : Node} (h : Item (n + 1) u x r)
    (heof : .eof ∉ words) (hw : ¬ AtBrace words u) :
    Finds limit (.nodes (n + 1) words ⟨u ++ r, s⟩) d ↔
      FindsIn limit n ⟨u ++ r, s⟩ d ∨ Finds limit (.nodes (n + 1) words ⟨r, s⟩) d := by
  rw [finds_item h heof hw]
  apply or_congr_left
  constructor
  · rintro ⟨m, hm, hin⟩
    cases hm
    exact hin
  · intro hin
    exact ⟨n, rfl, hin⟩

/-- Nothing is found in a text or a comment. -/
theorem finds_leaf {t : Token} {r : List Token} {x : Node} (h : Piece n [t] x)
    (ht : t.kind ≠ .exprStart) (heof : .eof ∉ words) (hw : ¬ AtBrace words [t]) :
    Finds limit (.nodes n words ⟨t :: r, s⟩) d ↔ Finds limit (.nodes n words ⟨r, s⟩) d := by
  rw [show t :: r = [t] ++ r from rfl, finds_item (.piece h) heof hw]
  constructor
  · rintro (⟨m, -, hin⟩ | hd)
    · exact absurd hin (not_findsIn fun hbrace => absurd hbrace ht)
    · exact hd
  · exact .inr

/-- A word that ends a row and opens nothing ends the search. -/
theorem not_finds_closed {r : List Token} {word : Kind} (hr : AtBrace [word] r)
    (hword : word ∈ words) (heof : .eof ∉ words) (hopens : word.opensBlock = false) :
    ¬ Finds limit (.nodes n words ⟨r, s⟩) d := by
  have hfollowing : (Cursor.mk r s).following.kind = word := by
    rcases r with _ | ⟨t, _ | ⟨w, r⟩⟩
    · cases hr
    · cases hr
    · exact List.mem_singleton.mp hr.2
  rw [finds_nodes_iff]
  rintro (⟨m, rfl, hin⟩ | ⟨hat, -⟩)
  · refine not_findsIn ?_ hin
    intro _
    exact headerAt_eq_none (by rw [hfollowing]; exact hopens)
  · rw [(Cursor.atBlock_iff heof).mpr (hr.of_word hword)] at hat
    cases hat

/-- Nothing is found where the input ends. -/
theorem not_finds_end {r : List Token} (hr : AtEnd r) :
    ¬ Finds limit (.nodes n words ⟨r, s⟩) d := by
  have hend : (Cursor.mk r s).current.kind = .eof := of_decide_eq_true (atEnd_iff.mpr hr)
  rw [finds_nodes_iff]
  rintro (⟨m, rfl, hin⟩ | ⟨-, hat, -⟩)
  · refine not_findsIn ?_ hin
    intro hbrace
    rw [hend] at hbrace
    cases hbrace
  · rw [show (Cursor.mk r s).atEnd = true from decide_eq_true hend] at hat
    cases hat

/-- Where an alternate ends the nodes of a condition, the search goes on in the alternate. -/
theorem finds_else {r : List Token} (hr : AtBrace [.elseStart] r) (hword : .elseStart ∈ words)
    (heof : .eof ∉ words) :
    Finds limit (.nodes (n + 1) words ⟨r, s⟩) d ↔ FindsIn limit n ⟨r, s⟩ d := by
  rw [finds_nodes_iff]
  constructor
  · rintro (⟨m, hm, hin⟩ | ⟨hat, -⟩)
    · cases hm
      exact hin
    · rw [(Cursor.atBlock_iff heof).mpr (hr.of_word hword)] at hat
      cases hat
  · intro hin
    exact .inl ⟨n, rfl, hin⟩

/-! ## Parts of Switch Blocks -/

/-- At a brace with one word there is no other word. -/
theorem atBlock_eq_false {r : List Token} {word other : Kind} (hr : AtBrace [word] r)
    (hother : other ≠ word) (heof : other ≠ .eof) :
    (Cursor.mk r s).atBlock [other] = false := by
  rw [Bool.eq_false_iff]
  intro hat
  have hmem : Kind.eof ∉ [other] := by
    intro h
    exact heof (List.mem_singleton.mp h).symm
  exact hother (List.mem_singleton.mp (((Cursor.atBlock_iff hmem).mp hat).mem hr)).symm

/-- A part reads a header. -/
def ReadsPartHeader (n : Nested) (c c' : Cursor) : Prop :=
  ∃ header, partHeaderAt n c = some header ∧ Reads header c () c'

theorem readsPartHeader_case {brace word stop : Token} {u r : List Token} {values : List Expr}
    (ht : brace.kind = .exprStart) (hk : word.kind = .caseStart) (he : Expressions n u values)
    (hs : stop.kind = .exprEnd) :
    ReadsPartHeader (Nested.within limit n) ⟨brace :: word :: (u ++ stop :: r), s⟩ ⟨r, s⟩ := by
  have hat : (Cursor.mk (brace :: word :: (u ++ stop :: r)) s).atBlock [.caseStart] = true :=
    (Cursor.atBlock_iff (by decide)).mpr ⟨ht, List.mem_singleton.mpr hk⟩
  have hread := complete_values (completeNodes_within limit n) (r := r) (s := s) he hs
  refine ⟨_, if_pos hat, ?_⟩
  simp only [reads_map, caseHeader, reads_bind, reads_advance, reads_expect, reads_pure]
  exact ⟨values, ⟨_, _, ⟨rfl, rfl⟩, _, _, ⟨hk, rfl, rfl⟩, values, _, hread, _, _, ⟨hs, rfl, rfl⟩,
    rfl, rfl⟩, trivial⟩

theorem readsPartHeader_default {brace word stop : Token} {r : List Token}
    (ht : brace.kind = .exprStart) (hk : word.kind = .defaultStart)
    (hs : stop.kind = .exprEnd) :
    ReadsPartHeader (Nested.within limit n) ⟨brace :: word :: stop :: r, s⟩ ⟨r, s⟩ := by
  have hbrace : AtBrace [.defaultStart] (brace :: word :: stop :: r) :=
    ⟨ht, List.mem_singleton.mpr hk⟩
  have hcase : ¬ (Cursor.mk (brace :: word :: stop :: r) s).atBlock [.caseStart] = true := by
    rw [atBlock_eq_false hbrace (by decide) (by decide)]
    decide
  have hat : (Cursor.mk (brace :: word :: stop :: r) s).atBlock [.defaultStart] = true :=
    (Cursor.atBlock_iff (by decide)).mpr hbrace
  refine ⟨_, (if_neg hcase).trans (if_pos hat), ?_⟩
  simp only [defaultHeader, reads_bind, reads_advance, reads_expect, reads_pure]
  exact ⟨_, _, ⟨rfl, rfl⟩, _, _, ⟨hk, rfl, rfl⟩, _, _, ⟨hs, rfl, rfl⟩, trivial, rfl⟩

/-- What is found at a part is found in its nodes or behind it. -/
theorem finds_part {u r : List Token} {x : Case} {c : Cursor} (h : Part n u x)
    (hr : AtBrace caseEnds r) (hheader : ReadsPartHeader (.within limit n) ⟨u ++ r, s⟩ c) :
    Finds limit (.parts n ⟨u ++ r, s⟩) d ↔
      Finds limit (.nodes n caseEnds c) d ∨ Finds limit (.parts n ⟨r, s⟩) d := by
  obtain ⟨header, hc, hread⟩ := hheader
  have hpart := complete_part (completeNodes_within limit n) (s := s) h hr
  have hend : (Cursor.mk (u ++ r) s).atEnd = false := by
    have hbrace := Cursor.kind_of_atBrace (c := ⟨u ++ r, s⟩) (h.first.append r)
    exact decide_eq_false (by rw [hbrace]; decide)
  have hswitch : (Cursor.mk (u ++ r) s).atBlock [.switchEnd] = false := by
    rw [Bool.eq_false_iff]
    intro hat
    exact h.not_atBrace_switchEnd r ((Cursor.atBlock_iff (by decide)).mp hat)
  rw [finds_parts_iff]
  constructor
  · rintro (⟨header', c', hc', hread', hd⟩ | ⟨-, -, x', c', hpart', hd⟩)
    · cases hc.symm.trans hc'
      obtain ⟨-, rfl⟩ := hread.unique hread'
      exact .inl hd
    · obtain ⟨-, rfl⟩ := hpart.unique hpart'
      exact .inr hd
  · rintro (hd | hd)
    · exact .inl ⟨header, _, hc, hread, hd⟩
    · exact .inr ⟨hswitch, hend, _, _, hpart, hd⟩

/-- The end of a switch block ends the search. -/
theorem not_finds_switchEnd {r : List Token} (hr : AtBrace [.switchEnd] r) :
    ¬ Finds limit (.parts n ⟨r, s⟩) d := by
  have hcase : (Cursor.mk r s).atBlock [.caseStart] = false :=
    atBlock_eq_false hr (by decide) (by decide)
  have hdefault : (Cursor.mk r s).atBlock [.defaultStart] = false :=
    atBlock_eq_false hr (by decide) (by decide)
  rw [finds_parts_iff]
  rintro (⟨header, c', hc, -⟩ | ⟨hat, -⟩)
  · rw [partHeaderAt, hcase, hdefault] at hc
    cases hc
  · rw [(Cursor.atBlock_iff (by decide)).mpr hr] at hat
    cases hat

/-- Nothing is found among tokens that are passed over. -/
theorem finds_passed {j r : List Token} (hj : Passed j) (hr : AtBrace caseEnds r) :
    Finds limit (.parts n ⟨j ++ r, s⟩) d ↔ Finds limit (.parts n ⟨r, s⟩) d := by
  induction hj with
  | nil => exact Iff.rfl
  | @cons t u he hb hu ih =>
    have hnot : ¬ AtBrace caseEnds (t :: u ++ r) :=
      (Passed.cons he hb hu).not_atBrace (List.cons_ne_nil t u) hr
    have hwords : ∀ word ∈ caseEnds, (Cursor.mk (t :: u ++ r) s).atBlock [word] = false := by
      intro word hmem
      exact Cursor.atBlock_eq_false hnot hmem (by decide)
    have hread : Reads (caseOrSkip (Nested.within limit n)) ⟨t :: u ++ r, s⟩ none ⟨u ++ r, s⟩ :=
      (reads_caseOrSkip_of_not hnot).mpr ⟨rfl, rfl⟩
    rw [← ih, finds_parts_iff]
    constructor
    · rintro (⟨header, c', hc, -⟩ | ⟨-, -, x, c', hread', hd⟩)
      · rw [partHeaderAt, hwords .caseStart (by decide), hwords .defaultStart (by decide)] at hc
        cases hc
      · obtain ⟨-, rfl⟩ := hread.unique hread'
        exact hd
    · intro hd
      exact .inr ⟨hwords .switchEnd (by decide), decide_eq_false he, none, _, hread, hd⟩

end Grammar

end TemplateSyntax
