import TemplateSyntax.Proofs.Grammar.Complete
import TemplateSyntax.Proofs.Grammar.Nodes.Sound

/-! # Nodes That Are Written Are Read

  Tokens that write nodes are read as those nodes, whatever stands behind them
  (`complete_nodes`). A piece ends with a token of its own, so the parser needs nothing
  behind it; a body needs the brace behind it that ends it.

  In front of tokens that need not write anything, a body is read as well. What the loop
  makes of the tokens behind it then comes after its nodes, be it further nodes or an error
  (`many_body`).
-/

namespace TemplateSyntax

open Parse

namespace Grammar

/-- The parsers of nested parts are complete with `n` levels. -/
structure CompleteNodes (n : Nat) (inner : Nested) : Prop extends CompleteNested n inner where
  block : ∀ t u x r s, t.kind = .exprStart → Item n (t :: u) x r →
    Reads inner.block ⟨t :: (u ++ r), s⟩ x ⟨r, s⟩
  alternate : ∀ m u a r s, n = m + 1 → Branch m u a → AtBrace [.ifEnd] r →
    Reads inner.alternate ⟨u ++ r, s⟩ a ⟨r, s⟩

variable {n : Nat} {inner : Nested} {s : Span} {r : List Token}

/-! ## Nodes -/

theorem Item.first_ne_eof {u x} (h : Item n u x r) : ∀ t ∈ u.head?, t.kind ≠ .eof := by
  intro t ht heof
  cases h with
  | piece h =>
    cases h with
    | text hk =>
      cases ht
      rw [heof] at hk
      cases hk
    | comment hk =>
      cases ht
      rw [heof] at hk
      cases hk
    | block hk _ =>
      cases ht
      rw [heof] at hk
      cases hk
  | stray hk _ _ =>
    cases ht
    rw [heof] at hk
    cases hk

/-- At a brace, the node is a block. -/
theorem reads_node_of_brace {t : Token} {u : List Token} {x : Node} {c : Cursor}
    (ht : t.kind = .exprStart) (h : Reads inner.block ⟨t :: u, s⟩ x c) :
    Reads (node inner) ⟨t :: u, s⟩ x c := by
  simp only [node, reads_bind, reads_current]
  refine ⟨t, _, ⟨rfl, rfl⟩, ?_⟩
  rw [ht]
  exact h

theorem complete_node (hn : CompleteNodes n inner) {u : List Token} {x : Node}
    (h : Item n u x r) : Reads (node inner) ⟨u ++ r, s⟩ x ⟨r, s⟩ := by
  cases h with
  | piece h =>
    cases h with
    | @text _ t ht =>
      simp only [node, leaf, reads_bind, reads_current]
      refine ⟨t, _, ⟨rfl, rfl⟩, ?_⟩
      rw [if_pos ht]
      simp only [reads_bind, reads_advance, reads_pure]
      exact ⟨t, _, ⟨rfl, rfl⟩, rfl, rfl⟩
    | @comment _ t ht =>
      have hread : Reads (leaf .comment) ⟨t :: r, s⟩ (.comment t.text) ⟨r, s⟩ := by
        simp only [leaf, reads_bind, reads_advance, reads_pure]
        exact ⟨t, _, ⟨rfl, rfl⟩, rfl, rfl⟩
      simp only [node, reads_bind, reads_current]
      refine ⟨t, _, ⟨rfl, rfl⟩, ?_⟩
      rw [ht]
      exact hread
    | block ht h => exact reads_node_of_brace ht (hn.block _ _ _ _ _ ht (.piece (.block ht h)))
  | stray ht h hr => exact reads_node_of_brace ht (hn.block _ _ _ _ _ ht (.stray ht h hr))

/-- An outcome with some nodes in front of those of another. -/
structure Prepends (xs : List Node) (o o' : Outcome (List Node)) : Prop where
  result : o'.result = o.result.map (xs ++ ·)
  cursor : o'.cursor = o.cursor

theorem prepends_nil (o : Outcome (List Node)) : Prepends [] o o := by
  constructor
  · cases o.result <;> rfl
  · rfl

section loops

variable {words : List Kind} {select : Cursor → Option (Parse Node)}

/-- One round more of a loop reads the node that stands in front. -/
theorem many_node (hn : CompleteNodes n inner)
    (hselect : ∀ t ts, ¬ AtBrace words (t :: ts) → t.kind ≠ .eof →
      select ⟨t :: ts, s⟩ = some (node inner))
    {u v : List Token} {x : Node} {xs : List Node} {o : Outcome (List Node)}
    (h : Item n u x (v ++ r)) (hw : ¬ AtBrace words u)
    (ho : Prepends xs o (many select ⟨v ++ r, s⟩)) :
    Prepends (x :: xs) o (many select ⟨(u ++ v) ++ r, s⟩) := by
  obtain ⟨notes, hread⟩ := (complete_node hn h (s := s)).outcome
  have hlt : (Cursor.mk (v ++ r) s).ahead.length < (Cursor.mk (u ++ (v ++ r)) s).ahead.length :=
    Cursor.Spans.length_lt (u := u) ⟨rfl, rfl⟩ h.ne_nil
  have hselected : select ⟨u ++ (v ++ r), s⟩ = some (node inner) := by
    have hfirst := h.first_ne_eof
    have hstart : ¬ AtBrace words (u ++ (v ++ r)) := by
      intro hb
      exact hw (h.atBrace_append hb)
    obtain ⟨t, w, rfl⟩ := List.exists_cons_of_ne_nil h.ne_nil
    exact hselect t _ hstart (hfirst t rfl)
  rw [List.append_assoc, many_ok hselected hread hlt, ho.result, ho.cursor]
  constructor
  · cases o.result <;> rfl
  · rfl

/-- A loop of nodes in front of a body reads the body first. The body ends it only if
    what follows does. -/
theorem many_body {u : List Token} {xs : List Node} (h : Body n words u xs)
    (hn : CompleteNodes n inner)
    (hselect : ∀ t ts, ¬ AtBrace words (t :: ts) → t.kind ≠ .eof →
      select ⟨t :: ts, s⟩ = some (node inner))
    (hr : words = [.ifEnd] → AtBrace [.ifEnd] r) :
    Prepends xs (many select ⟨r, s⟩) (many select ⟨u ++ r, s⟩) := by
  induction h using Body.along with
  | nil => exact prepends_nil _
  | cons h hw hs ih => exact many_node hn hselect (.piece h) hw (ih hn)
  | @stray n u a t hw ht h =>
    -- A stray branch is the last node of all, and `{/if` stands behind it.
    have hstart : ¬ AtBrace words (t :: u) := by
      obtain ⟨w, v, rfl, hk⟩ := h.first
      rw [hw]
      intro hb
      rw [List.mem_singleton.mp hb.2] at hk
      cases hk
    have hitem : Item (n + 1) (t :: u) (strayNode a) ([] ++ r) := .stray ht h (hr hw)
    have hloop := many_node hn hselect hitem hstart (prepends_nil _)
    rwa [List.append_nil] at hloop

/-- A loop reads a body that ends where the loop does. -/
theorem reads_body {u : List Token} {xs : List Node} (h : Body n words u xs)
    (hn : CompleteNodes n inner)
    (hselect : ∀ t ts, ¬ AtBrace words (t :: ts) → t.kind ≠ .eof →
      select ⟨t :: ts, s⟩ = some (node inner))
    (hr : words = [.ifEnd] → AtBrace [.ifEnd] r) (hstop : select ⟨r, s⟩ = none) :
    Reads (many select) ⟨u ++ r, s⟩ xs ⟨r, s⟩ := by
  have hbody := many_body h hn hselect hr
  rw [many_none hstop] at hbody
  constructor
  · rw [hbody.result]
    simp [Except.map]
  · exact hbody.cursor

end loops

theorem complete_nodesUntil (hn : CompleteNodes n inner) {words : List Kind} {x : Expected}
    (heof : .eof ∉ words) {u : List Token} {xs : List Node} (h : Body n words u xs)
    (hr : AtBrace words r) : Reads (nodesUntil inner words x) ⟨u ++ r, s⟩ xs ⟨r, s⟩ := by
  have hstop : upTo words x (node inner) ⟨r, s⟩ = none := (upTo_eq_none_iff heof).mpr hr
  apply reads_body h hn (fun t ts => upTo_of_not heof) _ hstop
  rintro rfl
  exact hr

/-! ## Conditions -/

theorem complete_closing {word : Kind} {v : List Token} (h : Closing word v) :
    Reads (closing word) ⟨v ++ r, s⟩ () ⟨r, s⟩ := by
  cases h with
  | mk ha hb hc =>
    simp only [closing, reads_bind, reads_expect, reads_pure]
    exact ⟨_, _, ⟨ha, rfl, rfl⟩, _, _, ⟨hb, rfl, rfl⟩, _, _, ⟨hc, rfl, rfl⟩, trivial, rfl⟩

theorem Closing.atBrace {word : Kind} {v : List Token} (h : Closing word v) :
    AtBrace [word] (v ++ r) := by
  cases h with
  | mk ha hb _ => exact ⟨ha, List.mem_singleton.mpr hb⟩

/-- A header ends with its closing brace, which goes on with no expression. -/
theorem complete_header (hn : CompleteNodes n inner) {u : List Token} {e : Expr} {stop : Token}
    (h : Conditional n u e) (hs : stop.kind = .exprEnd) :
    Reads inner.expression ⟨u ++ stop :: r, s⟩ e ⟨stop :: r, s⟩ :=
  hn.expression _ _ _ _ h (halts_cons hs rfl)

/-- So do the values of a case. -/
theorem complete_values (hn : CompleteNodes n inner) {u : List Token} {es : List Expr}
    {stop : Token} (h : Expressions n u es) (hs : stop.kind = .exprEnd) :
    Reads (expressions inner) ⟨u ++ stop :: r, s⟩ es ⟨stop :: r, s⟩ := by
  apply complete_expressions hn.toCompleteNested h
  intro t ht
  cases ht
  rw [hs]
  decide

section nodes

variable (hn : CompleteNodes n inner)
include hn

theorem complete_ifBlock {u : List Token} {b : IfBlock} (h : Condition n u b)
    (hr : AtBrace [.ifEnd] r) : Reads (ifBlock inner) ⟨u ++ r, s⟩ b ⟨r, s⟩ := by
  simp only [ifBlock, reads_bind, reads_expect, reads_pure]
  cases h with
  | @alone _ u w e body word stop hk he hs hb =>
    have hbody := complete_nodesUntil hn (x := .endOfIf) (s := s) (by decide) hb
      (hr.of_word (by decide))
    have hnone : ¬ (Cursor.mk r s).atBlock [.elseStart] = true := by
      intro h
      exact absurd (((Cursor.atBlock_iff (by decide)).mp h).mem hr) (by decide)
    have halt : Reads (alternate? inner) ⟨r, s⟩ none ⟨r, s⟩ :=
      (reads_alternate?_of_none hnone).mpr ⟨rfl, rfl⟩
    have hheader := complete_header hn (r := w ++ r) (s := s) he hs
    simp only [List.cons_append, List.append_assoc]
    exact ⟨_, _, ⟨hk, rfl, rfl⟩, e, _, hheader, _, _, ⟨hs, rfl, rfl⟩, body, _, hbody, _, _, halt,
      rfl, rfl⟩
  | @chained m u w v e body a word stop brace hk he hs hb ht ha =>
    have helse : AtBrace [.elseStart] (brace :: (v ++ r)) := by
      obtain ⟨t, v, rfl, hword⟩ := ha.first
      exact ⟨ht, List.mem_singleton.mpr hword⟩
    have hbody := complete_nodesUntil hn (x := .endOfIf) (s := s) (by decide) hb
      (helse.of_word (by decide))
    have hat : (Cursor.mk (brace :: (v ++ r)) s).atBlock [.elseStart] = true :=
      (Cursor.atBlock_iff (by decide)).mpr helse
    have halt : Reads (alternate? inner) ⟨brace :: (v ++ r), s⟩ (some a) ⟨r, s⟩ :=
      (reads_alternate?_of_else hat).mpr ⟨a, hn.alternate m v a r s rfl ha hr, rfl⟩
    have hheader := complete_header hn (r := w ++ brace :: (v ++ r)) (s := s) he hs
    simp only [List.cons_append, List.append_assoc]
    exact ⟨_, _, ⟨hk, rfl, rfl⟩, e, _, hheader, _, _, ⟨hs, rfl, rfl⟩, body, _, hbody, _, _, halt,
      rfl, rfl⟩

theorem complete_alternate {u : List Token} {a : Alternate} (h : Branch n u a)
    (hr : AtBrace [.ifEnd] r) : Reads (alternate inner) ⟨u ++ r, s⟩ a ⟨r, s⟩ := by
  simp only [alternate, reads_bind, reads_expect, reads_current]
  cases h with
  | @elseIf _ u b word hk h =>
    refine ⟨_, _, ⟨hk, rfl, rfl⟩, _, _, ⟨rfl, rfl⟩, ?_⟩
    have hb := complete_ifBlock hn (s := s) h hr
    obtain ⟨t, v, rfl, ht⟩ := h.first
    have hif : (Cursor.mk (word :: (t :: v) ++ r) s).advance.current.kind = .ifStart := ht
    rw [if_pos hif]
    simp only [reads_bind, reads_pure]
    exact ⟨b, _, hb, rfl, rfl⟩
  | @otherwise _ u body word stop hk hs hb =>
    refine ⟨_, _, ⟨hk, rfl, rfl⟩, _, _, ⟨rfl, rfl⟩, ?_⟩
    have hbody := complete_nodesUntil hn (x := .endOfIf) (s := s) (by decide) hb hr
    have hif : (Cursor.mk (word :: stop :: u ++ r) s).advance.current.kind ≠ .ifStart := by
      intro h
      have hstop : stop.kind = .ifStart := h
      rw [hs] at hstop
      cases hstop
    rw [if_neg hif]
    simp only [reads_bind, reads_expect, reads_pure]
    exact ⟨_, _, ⟨hs, rfl, rfl⟩, body, _, hbody, rfl, rfl⟩

/-! ## Switch Blocks -/

/-- A part is read in front of the next one or of the end of the block. -/
theorem complete_part {u : List Token} {x : Case} (h : Part n u x) (hr : AtBrace caseEnds r) :
    Reads (caseOrSkip inner) ⟨u ++ r, s⟩ (some x) ⟨r, s⟩ := by
  cases h with
  | @case _ u w values body brace word stop ht hk he hs hb =>
    have hat : (Cursor.mk (brace :: word :: (u ++ stop :: w) ++ r) s).atBlock [.caseStart] = true :=
      (Cursor.atBlock_iff (by decide)).mpr ⟨ht, List.mem_singleton.mpr hk⟩
    refine (reads_caseOrSkip_of_case hat).mpr ⟨_, ?_, rfl⟩
    have hvalues := complete_values hn (r := w ++ r) (s := s) he hs
    have hbody := complete_nodesUntil hn (x := .endOfSwitch) (s := s) (by decide) hb hr
    simp only [case, reads_bind, reads_advance, reads_expect, reads_pure, List.cons_append,
      List.append_assoc]
    exact ⟨_, _, ⟨rfl, rfl⟩, _, _, ⟨hk, rfl, rfl⟩, values, _, hvalues, _, _, ⟨hs, rfl, rfl⟩,
      body, _, hbody, rfl, rfl⟩
  | @default _ w body brace word stop ht hk hs hb =>
    have hbrace : AtBrace [.defaultStart] (brace :: word :: stop :: w ++ r) :=
      ⟨ht, List.mem_singleton.mpr hk⟩
    have hat : (Cursor.mk (brace :: word :: stop :: w ++ r) s).atBlock [.defaultStart] = true :=
      (Cursor.atBlock_iff (by decide)).mpr hbrace
    have hcase : ¬ (Cursor.mk (brace :: word :: stop :: w ++ r) s).atBlock [.caseStart] = true := by
      intro h
      exact absurd (((Cursor.atBlock_iff (by decide)).mp h).mem hbrace) (by decide)
    refine (reads_caseOrSkip_of_default hat hcase).mpr ⟨_, ?_, rfl⟩
    have hbody := complete_nodesUntil hn (x := .endOfSwitch) (s := s) (by decide) hb hr
    simp only [defaultCase, reads_bind, reads_advance, reads_expect, reads_pure, List.cons_append]
    exact ⟨_, _, ⟨rfl, rfl⟩, _, _, ⟨hk, rfl, rfl⟩, _, _, ⟨hs, rfl, rfl⟩, body, _, hbody, rfl, rfl⟩

theorem rounds_parts {u : List Token} {xs : List Case} (h : Parts n u xs)
    (hr : AtBrace [.switchEnd] r) :
    Rounds (upTo [.switchEnd] .endOfSwitch (caseOrSkip inner)) ⟨u ++ r, s⟩ (xs.map some)
      ⟨r, s⟩ := by
  induction h using Parts.along with
  | nil => exact .done ((upTo_eq_none_iff (by decide)).mpr hr)
  | @cons u v x xs h hs ih =>
    have hread := complete_part hn (s := s) h (hs.atBrace hr)
    obtain ⟨t, w, rfl⟩ := List.exists_cons_of_ne_nil h.ne_nil
    have hnot : ¬ AtBrace [.switchEnd] (t :: (w ++ (v ++ r))) := h.not_atBrace_switchEnd _
    have ht : t.kind ≠ .eof := by
      rw [h.first.brace]
      decide
    rw [List.append_assoc]
    exact .round (upTo_of_not (by decide) hnot ht) hread
      (Cursor.Spans.length_lt (u := t :: w) ⟨rfl, rfl⟩ (List.cons_ne_nil _ _)) ih

omit hn in
/-- Tokens that may be passed over are, in front of a brace with a word of a case. -/
theorem rounds_passed {j v : List Token} (hj : Passed j) (hv : AtBrace caseEnds v)
    {xs : List (Option Case)} {c' : Cursor}
    (h : Rounds (upTo [.switchEnd] .endOfSwitch (caseOrSkip inner)) ⟨v, s⟩ xs c') :
    Rounds (upTo [.switchEnd] .endOfSwitch (caseOrSkip inner)) ⟨j ++ v, s⟩
      (List.replicate j.length none ++ xs) c' := by
  induction hj with
  | nil => exact h
  | @cons t u he hb hu ih =>
    have hnot : ¬ AtBrace caseEnds (t :: (u ++ v)) :=
      (Passed.cons he hb hu).not_atBrace (List.cons_ne_nil t u) hv
    have hread : Reads (caseOrSkip inner) ⟨t :: (u ++ v), s⟩ none ⟨u ++ v, s⟩ :=
      (reads_caseOrSkip_of_not hnot).mpr ⟨rfl, rfl⟩
    have hswitch : ¬ AtBrace [.switchEnd] (t :: (u ++ v)) := by
      intro hat
      exact hnot (hat.of_word (by decide))
    exact .round (upTo_of_not (by decide) hswitch he) hread (Nat.lt_succ_self _) ih

theorem complete_switchBlock {word stop : Token} {u j w v : List Token} {e : Expr}
    {parts : List Case} (hk : word.kind = .switchStart) (he : Conditional n u e)
    (hs : stop.kind = .exprEnd) (hj : Passed j) (hp : Parts n w parts)
    (hv : Closing .switchEnd v) :
    Reads (switchBlock inner) ⟨word :: (u ++ stop :: (j ++ (w ++ (v ++ r)))), s⟩
      (.switchBlock e parts) ⟨r, s⟩ := by
  have hclose := hv.atBrace (r := r)
  have hparts := rounds_passed (s := s) hj (hp.atBrace hclose) (rounds_parts hn hp hclose)
  have hheader := complete_header hn (r := j ++ (w ++ (v ++ r))) (s := s) he hs
  simp only [switchBlock, reads_bind, reads_expect, reads_pure]
  refine ⟨_, _, ⟨hk, rfl, rfl⟩, e, _, hheader, _, _, ⟨hs, rfl, rfl⟩, _, _, hparts.reads, _, _,
    complete_closing hv, ?_, rfl⟩
  simp [List.filterMap_append]

/-! ## Other Blocks -/

omit hn in
theorem complete_counter? {i : List Token} {index : Option String} (h : Counter i index)
    {link : Token} (hl : link.kind = .forIn) :
    Reads counter? ⟨i ++ link :: r, s⟩ index ⟨link :: r, s⟩ := by
  simp only [counter?, reads_bind, reads_current]
  refine ⟨_, _, ⟨rfl, rfl⟩, ?_⟩
  cases h with
  | none =>
    have hk : (Cursor.mk ([] ++ link :: r) s).current.kind ≠ .comma := by
      intro h
      have hcomma : link.kind = .comma := h
      rw [hl] at hcomma
      cases hcomma
    rw [if_neg hk]
    exact reads_pure.mpr ⟨rfl, rfl⟩
  | @some comma name hc hname =>
    have hk : (Cursor.mk ([comma, name] ++ link :: r) s).current.kind = .comma := hc
    rw [if_pos hk]
    simp only [reads_bind, reads_advance, reads_expect, reads_pure]
    exact ⟨_, _, ⟨rfl, rfl⟩, _, _, ⟨hname, rfl, rfl⟩, rfl, rfl⟩

theorem complete_forBlock {word name link stop : Token} {i u w v : List Token} {e : Expr}
    {index : Option String} {body : List Node} (hk : word.kind = .forStart)
    (hname : name.kind = .identifier) (hi : Counter i index) (hl : link.kind = .forIn)
    (he : Conditional n u e) (hs : stop.kind = .exprEnd) (hb : Body n [.forEnd] w body)
    (hv : Closing .forEnd v) :
    Reads (forBlock inner) ⟨word :: name :: (i ++ link :: (u ++ stop :: (w ++ (v ++ r)))), s⟩
      (.forBlock name.text index e body) ⟨r, s⟩ := by
  have hheader := complete_header hn (r := w ++ (v ++ r)) (s := s) he hs
  have hbody := complete_nodesUntil hn (x := .endOfFor) (r := v ++ r) (s := s) (by decide) hb
    hv.atBrace
  simp only [forBlock, reads_bind, reads_expect, reads_pure]
  exact ⟨_, _, ⟨hk, rfl, rfl⟩, _, _, ⟨hname, rfl, rfl⟩, index, _, complete_counter? hi hl, _, _,
    ⟨hl, rfl, rfl⟩, e, _, hheader, _, _, ⟨hs, rfl, rfl⟩, body, _, hbody, _, _,
    complete_closing hv, rfl, rfl⟩

/-! ## Blocks -/

theorem complete_block {t : Token} {u : List Token} {x : Node} (h : Block n u x) :
    Reads (block inner) ⟨t :: (u ++ r), s⟩ x ⟨r, s⟩ := by
  simp only [block, reads_bind, reads_following, reads_advance]
  refine ⟨_, _, ⟨rfl, rfl⟩, _, _, ⟨rfl, rfl⟩, ?_⟩
  -- The word behind the brace decides which parser goes on.
  cases h with
  | @condition _ u v b h hv =>
    have hb := complete_ifBlock hn (s := s) h (hv.atBrace (r := r))
    obtain ⟨word, w, rfl, hk⟩ := h.first
    have hword : (Cursor.mk (t :: (word :: w ++ v ++ r)) s).following.kind = .ifStart := hk
    rw [hword]
    simp only [reads_bind, reads_pure]
    refine ⟨b, _, ?_, (), _, complete_closing hv, rfl, rfl⟩
    simpa using hb
  | @switch _ u j w v e parts word stop hk he hs hj hp hv =>
    have hblock := complete_switchBlock hn (r := r) (s := s) hk he hs hj hp hv
    have hword : (Cursor.mk (t :: (word :: (u ++ stop :: (j ++ (w ++ v))) ++ r)) s).following.kind =
        .switchStart := hk
    rw [hword]
    simpa using hblock
  | @loop _ i u w v index e body word name link stop hk hname hi hl he hs hb hv =>
    have hblock := complete_forBlock hn (r := r) (s := s) hk hname hi hl he hs hb hv
    have hword : (Cursor.mk (t :: (word :: name :: (i ++ link :: (u ++ stop :: (w ++ v))) ++ r))
        s).following.kind = .forStart := hk
    rw [hword]
    simpa using hblock
  | @importFile _ word path stop hk hp hs =>
    have hword : (Cursor.mk (t :: ([word, path, stop] ++ r)) s).following.kind = .importStart := hk
    rw [hword]
    simp only [importFile, reads_bind, reads_expect, reads_pure]
    exact ⟨_, _, ⟨hk, rfl, rfl⟩, _, _, ⟨hp, rfl, rfl⟩, _, _, ⟨hs, rfl, rfl⟩, rfl, rfl⟩
  | @empty _ stop hs =>
    have hword : (Cursor.mk (t :: ([stop] ++ r)) s).following.kind = .exprEnd := hs
    rw [hword]
    simp only [interpolation, reads_bind, reads_current]
    refine ⟨_, _, ⟨rfl, rfl⟩, ?_⟩
    have hcurrent : (Cursor.mk (t :: ([stop] ++ r)) s).advance.current.kind = .exprEnd := hs
    rw [if_pos hcurrent]
    simp only [reads_bind, reads_advance, reads_pure]
    exact ⟨_, _, ⟨rfl, rfl⟩, trivial, rfl⟩
  | @interpolation _ u e stop he hw hs =>
    have hheader := complete_header hn (r := r) (s := s) he hs
    have hread : Reads (interpolation inner) ⟨u ++ stop :: r, s⟩ (.interpolation e) ⟨r, s⟩ := by
      simp only [interpolation, reads_bind, reads_current]
      refine ⟨_, _, ⟨rfl, rfl⟩, ?_⟩
      have hne : (Cursor.mk (u ++ stop :: r) s).current.kind ≠ .exprEnd := by
        obtain ⟨word, v, rfl, hword⟩ := he.first
        intro h
        have hk : word.kind = .exprEnd := h
        rw [hk] at hword
        revert hword
        decide
      rw [if_neg hne]
      simp only [reads_bind, reads_expect, reads_pure]
      exact ⟨e, _, hheader, _, _, ⟨hs, rfl, rfl⟩, rfl, rfl⟩
    obtain ⟨word, v, rfl, -⟩ := he.first
    have hopens : word.kind.opensBlock = false := hw word rfl
    have hword : (Cursor.mk (t :: (word :: v ++ [stop] ++ r)) s).following.kind = word.kind := rfl
    rw [hword]
    have hread' : Reads (interpolation inner)
        (Cursor.mk (t :: (word :: v ++ [stop] ++ r)) s).advance (.interpolation e) ⟨r, s⟩ := by
      simpa using hread
    -- A word that opens no block is none of the words before the last case.
    revert hopens
    cases word.kind <;> intro hopens <;> first | exact hread' | cases hopens

theorem complete_stray {t : Token} {u : List Token} {a : Alternate} (h : Branch n u a)
    (hr : AtBrace [.ifEnd] r) : Reads (block inner) ⟨t :: (u ++ r), s⟩ (strayNode a) ⟨r, s⟩ := by
  simp only [block, reads_bind, reads_following, reads_advance]
  refine ⟨_, _, ⟨rfl, rfl⟩, _, _, ⟨rfl, rfl⟩, ?_⟩
  have hread := complete_alternate hn (s := s) h hr
  obtain ⟨word, v, rfl, hk⟩ := h.first
  have hword : (Cursor.mk (t :: (word :: v ++ r)) s).following.kind = .elseStart := hk
  rw [hword]
  simp only [reads_bind, reads_pure]
  exact ⟨a, _, hread, rfl, rfl⟩

end nodes

/-- With no levels left no block is written, and one more level writes what the rules write
    over one level less. -/
theorem completeNodes_within (limit left : Nat) :
    CompleteNodes left (Nested.within limit left) := by
  induction left with
  | zero =>
    refine ⟨completeNested_within limit 0, ?_, ?_⟩
    · intro t u x r s ht h
      obtain ⟨m, hm, -⟩ := h.block_of_brace ht
      cases hm
    · intro m u a r s hm
      cases hm
  | succ left ih =>
    refine ⟨completeNested_within limit (left + 1), ?_, ?_⟩
    · intro t u x r s ht h
      obtain ⟨m, hm, hblock | ⟨a, hbranch, rfl, hr⟩⟩ := h.block_of_brace ht
      · cases hm
        exact complete_block ih hblock
      · cases hm
        exact complete_stray ih hbranch hr
    · intro m u a r s hm h hr
      cases hm
      exact complete_alternate ih h hr

/-- What stands behind the nodes of a template is read as if nothing stood before them, and
    the nodes come first in the result. -/
theorem complete_nodes {limit left : Nat} {u : List Token} {xs : List Node}
    (h : Body left [] u xs) (r : List Token) (s : Span) :
    (nodes (Nested.within limit left) ⟨u ++ r, s⟩).result =
      (nodes (Nested.within limit left) ⟨r, s⟩).result.map (xs ++ ·) := by
  have hselect : ∀ (t : Token) ts, ¬ AtBrace [] (t :: ts) → t.kind ≠ .eof →
      (if (Cursor.mk (t :: ts) s).atEnd then none
        else some (node (Nested.within limit left))) = some (node (Nested.within limit left)) := by
    intro t ts _ ht
    rw [if_neg]
    intro hend
    exact ht (of_decide_eq_true hend)
  exact (many_body h (completeNodes_within limit left) hselect nofun).result

end Grammar

end TemplateSyntax
