import TemplateSyntax.Proofs.Parse.Firm.Expression

/-! # Firm Blocks

  A row of nodes ends at a brace with one of some words, and these are all that is looked at
  behind a brace. Whatever may come next at such a brace moves over it before it can fail, so no
  decided error is ever met there: nodes, alternates, cases and the ends of blocks are firm in the
  greater degree in front of them (`firm_node`, `firm_alternate?`, `firm_closing`). What is read
  behind a brace is firm in the lesser degree there.
-/

namespace TemplateSyntax

open Parse

section firm

variable {n : Nested}

/-! ## Nodes -/

theorem firm_leaf (make : String → Node) (c : Cursor) : Firm Far Far (leaf make) c :=
  firm_bind (M := Far) firm_advance fun _ _ _ => firm_pure

/-- A token that begins no node is to blame, and it is no brace. -/
theorem firm_node (hn : n.Firm) {c : Cursor} (hend : c.atEnd = false) :
    Firm Far Far (node n) c := by
  have hne : c.current.kind ≠ .eof := of_decide_eq_false hend
  apply firm_look
  apply firm_cond
  · intro _
    exact firm_leaf .text c
  intro hmarkup
  split
  · exact firm_leaf .comment c
  · next hk => exact hn.block hk
  · next hcomment hbrace =>
    apply firm_fail (Cursor.ahead_ne_nil hend) (.other hbrace)
    refine ⟨Bool.eq_false_iff.mpr ?_, rfl, rfl⟩
    simp only [Kind.beginsNode, ne_eq, Bool.or_eq_true, decide_eq_true_eq, not_or]
    exact ⟨⟨⟨hmarkup, hcomment⟩, hbrace⟩, hne⟩

/-- Rows up to a brace with one of some words. -/
theorem firm_until {α : Type} {p : Parse α} (words : List Kind) (x : Expected)
    (hp : ∀ c, c.atEnd = false → Firm Far Far p c) (c : Cursor) :
    Firm Far Far (many fun c =>
      if c.atBlock words then none else if c.atEnd then some (unexpected x) else some p) c := by
  apply firm_many
  · intro c d h
    unfold Cursor.atEnd Cursor.isAt
    rw [h.atBlock, h.near.current]
  · intro c item hs
    split at hs
    · cases hs
    split at hs <;> cases hs
    · next hend =>
      have hk : c.current.kind = .eof := of_decide_eq_true hend
      exact firm_unexpected (.other (hk ▸ nofun))
    · next hend => exact hp c (Bool.eq_false_iff.mpr hend)

theorem firm_nodesUntil (hn : n.Firm) (words : List Kind) (x : Expected) (c : Cursor) :
    Firm Far Far (nodesUntil n words x) c :=
  firm_until words x (fun _ => firm_node hn) c

theorem firm_closing (word : Kind) (c : Cursor) : Firm Far Far (closing word) c := by
  apply firm_bind_brace
  intro _
  apply firm_bind_expect
  intro _ c₂
  exact firm_bind_expect fun _ _ => firm_pure

/-! ## Conditions -/

section nested

variable (hn : n.Firm) (c : Cursor)
include hn

theorem firm_alternate? : Firm Far Far (alternate? n) c := by
  apply firm_branch (M := Far)
  · intro d hd
    exact hd.atBlock _
  · intro _
    apply firm_bind_advance
    intro _
    exact firm_bind (hn.alternate c.advance) fun _ _ _ => firm_pure
  · intro _
    exact firm_pure

theorem firm_ifBlock : Firm Near Far (ifBlock n) c := by
  apply firm_bind_expect
  intro _ c₁
  apply firm_bind (hn.expression c₁)
  intro _ c₂ _
  apply firm_bind_expect
  intro _ c₃
  apply firm_bind (firm_nodesUntil hn _ _ c₃).near
  intro _ c₄ _
  exact firm_bind (firm_alternate? hn c₄) fun _ _ _ => firm_pure

theorem firm_alternate : Firm Near Far (alternate n) c := by
  apply firm_bind_expect
  intro _ c₁
  apply firm_look
  apply firm_cond
  · intro _
    exact firm_bind (firm_ifBlock hn c₁) fun _ _ _ => firm_pure
  · intro _
    apply firm_bind_expect
    intro _ c₂
    exact firm_bind (firm_nodesUntil hn _ _ c₂).near fun _ _ _ => firm_pure

/-! ## Switch Blocks -/

theorem firm_case : Firm Far Far (case n) c := by
  apply firm_bind_advance
  intro _
  apply firm_bind_expect
  intro _ c₁
  apply firm_bind (firm_expressions hn c₁)
  intro _ c₂ _
  apply firm_bind_expect
  intro _ c₃
  exact firm_bind (firm_nodesUntil hn _ _ c₃).near fun _ _ _ => firm_pure

theorem firm_defaultCase : Firm Far Far (defaultCase n) c := by
  apply firm_bind_advance
  intro _
  apply firm_bind_expect
  intro _ c₁
  apply firm_bind_expect
  intro _ c₂
  exact firm_bind (firm_nodesUntil hn _ _ c₂).near fun _ _ _ => firm_pure

omit hn in
theorem firm_skip : Firm Far Far skip c := by
  apply firm_bind (M := Far) firm_advance
  intro _ c₁ _
  apply firm_cond
  · intro _
    exact firm_pure
  · intro _
    exact firm_bind (M := Far) firm_report fun _ _ _ => firm_pure

theorem firm_caseOrSkip : Firm Far Far (caseOrSkip n) c := by
  apply firm_branch (M := Far)
  · intro d hd
    exact hd.atBlock _
  · intro _
    exact firm_map (firm_case hn c)
  intro _
  apply firm_branch (M := Far)
  · intro d hd
    exact hd.atBlock _
  · intro _
    exact firm_map (firm_defaultCase hn c)
  · intro _
    exact firm_skip c

theorem firm_switchBlock : Firm Near Far (switchBlock n) c := by
  apply firm_bind_expect
  intro _ c₁
  apply firm_bind (hn.expression c₁)
  intro _ c₂ _
  apply firm_bind_expect
  intro _ c₃
  apply firm_bind (firm_until [.switchEnd] .endOfSwitch (fun c _ => firm_caseOrSkip hn c) c₃).near
  intro _ c₄ _
  exact firm_bind (firm_closing _ c₄) fun _ _ _ => firm_pure

/-! ## Other Blocks -/

omit hn in
theorem firm_counter? : Firm Near Near counter? c := by
  apply firm_look
  apply firm_cond
  · intro _
    apply firm_bind_read
    intro _ c₁
    exact firm_bind_expect fun _ _ => firm_pure
  · intro _
    exact firm_pure

theorem firm_forBlock : Firm Near Far (forBlock n) c := by
  apply firm_bind_expect
  intro _ c₁
  apply firm_bind_expect
  intro _ c₂
  apply firm_bind (firm_counter? c₂)
  intro _ c₃ _
  apply firm_bind_expect
  intro _ c₄
  apply firm_bind (hn.expression c₄)
  intro _ c₅ _
  apply firm_bind_expect
  intro _ c₆
  apply firm_bind (firm_nodesUntil hn _ _ c₆).near
  intro _ c₇ _
  exact firm_bind (firm_closing _ c₇) fun _ _ _ => firm_pure

omit hn in
theorem firm_importFile : Firm Near Far importFile c := by
  apply firm_bind_expect
  intro _ c₁
  apply firm_bind_expect
  intro _ c₂
  exact firm_bind_expect fun _ _ => firm_pure

theorem firm_interpolation : Firm Near Far (interpolation n) c := by
  apply firm_look
  apply firm_cond
  · intro _
    exact firm_bind_read fun _ _ => firm_pure
  · intro _
    apply firm_bind (hn.expression c)
    intro _ c₁ _
    exact firm_bind_expect fun _ _ => firm_pure

end nested

/-! ## Blocks -/

/-- The word behind the brace has been looked at, and behind the brace it is ahead. -/
theorem firm_block (hn : n.Firm) {c : Cursor} (hk : c.current.kind = .exprStart) :
    Firm Far Far (block n) c := by
  apply firm_bind (firm_following hk)
  intro word c₁ _
  apply firm_bind_advance
  intro _
  -- One case for each word that a block begins with, and the last one for no such word.
  split
  · apply firm_bind (firm_ifBlock hn c₁.advance)
    intro _ c₂ _
    exact firm_bind (firm_closing _ c₂) fun _ _ _ => firm_pure
  · exact firm_bind (firm_alternate hn c₁.advance) fun _ _ _ => firm_pure
  · exact firm_switchBlock hn c₁.advance
  · exact firm_forBlock hn c₁.advance
  · exact firm_importFile c₁.advance
  · exact firm_interpolation hn c₁.advance

end firm

end TemplateSyntax
