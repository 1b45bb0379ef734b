import TemplateSyntax.Proofs.Grammar.Nodes.Complete

/-! # Templates Are Read Exactly

  A template is read from the tokens in front of the first ending token, as the nodes that
  they write, and no other tokens are a template (`parse_eq_ok_iff`).
-/

namespace TemplateSyntax

open Parse

/-- A template is its nodes up to the end of the input. -/
theorem parse_eq_nodes (ts : List Token) :
    parse ts = (nodes (Nested.within nestingLimit nestingLimit) (.ofTokens ts)).result.map
      Program.mk := by
  unfold parse Parse.program programWithin programOf
  rcases h : nodes (Nested.within nestingLimit nestingLimit) (.ofTokens ts) with ⟨e | xs, c, notes⟩
  · rw [bind_error h]
    rfl
  · rw [bind_ok h]
    rfl

namespace Grammar

/-- The tokens end, or an ending token is the first of them. -/
def AtEnd (r : List Token) : Prop := ∀ t ∈ r.head?, t.kind = .eof

theorem atEnd_iff {r : List Token} {s : Span} : (Cursor.mk r s).atEnd = true ↔ AtEnd r := by
  cases r with
  | nil => exact ⟨fun _ => nofun, fun _ => rfl⟩
  | cons t r =>
    constructor
    · intro h t' ht
      cases ht
      exact of_decide_eq_true h
    · intro h
      exact decide_eq_true (h t rfl)

/-- Tokens that write nodes are read as these nodes where the input ends behind them. -/
theorem nodes_body_append {left limit : Nat} {u r : List Token} {xs : List Node} {s : Span}
    (h : Body left [] u xs) (hr : AtEnd r) :
    (nodes (Nested.within limit left) ⟨u ++ r, s⟩).result = .ok xs := by
  have hstop : (nodes (Nested.within limit left) ⟨r, s⟩).result = .ok [] := by
    unfold nodes
    rw [many_none]
    rw [if_pos (atEnd_iff.mpr hr)]
  rw [complete_nodes h, hstop]
  simp [Except.map]

/-- The nodes of a template that is read are written by the first of the tokens ahead, within
    the limit, and the input ends behind these. -/
theorem body_of_programWithin {limit : Nat} {c : Cursor} {p : Program}
    (h : (programWithin limit c).result = .ok p) :
    ∃ u, c.Spans u (programWithin limit c).cursor ∧ Body limit [] u p.body ∧
      (programWithin limit c).cursor.atEnd = true := by
  have hread : Reads (programWithin limit) c p (programWithin limit c).cursor := ⟨h, rfl⟩
  obtain ⟨xs, c₁, hnodes, hrest⟩ := reads_bind.mp hread
  obtain ⟨_, c₂, hreport, hp⟩ := reads_bind.mp hrest
  obtain ⟨rfl, hcursor⟩ := reads_pure.mp hp
  rw [hcursor, reads_report.mp hreport]
  exact sound_nodes hnodes

/-- A template is read from some tokens if and only if they begin with tokens that write its
    nodes and end there, or go on with an ending token. -/
theorem parse_eq_ok_iff {ts : List Token} {p : Program} :
    parse ts = .ok p ↔
      ∃ u r, ts = u ++ r ∧ AtEnd r ∧ Body nestingLimit [] u p.body := by
  constructor
  · intro h
    obtain ⟨u, hu, hbody, hend⟩ := body_of_programWithin h
    exact ⟨u, _, hu.1, atEnd_iff.mp hend, hbody⟩
  · rintro ⟨u, r, rfl, hr, hbody⟩
    have hread : (nodes (Nested.within nestingLimit nestingLimit) (.ofTokens (u ++ r))).result =
        .ok p.body := nodes_body_append hbody hr
    rw [parse_eq_nodes, hread]
    rfl

end Grammar

end TemplateSyntax
