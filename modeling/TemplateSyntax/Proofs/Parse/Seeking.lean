import TemplateSyntax.Proofs.Parse.Lawful.Program

/-! # Where Nodes Are Looked For

  Nodes are looked for at the beginning of a template, behind a node, and behind the
  header of a block that holds nodes (`Seeks`). In a source text all these places lie
  outside (`Seeks.stands`), for a header ends with a closing brace, and so does the last
  token of a block.
-/

namespace TemplateSyntax

open Parse

/-! ## Places -/

/-- The switch block whose opening brace is at `c` looks for its next part at `c'`. -/
inductive SeeksPart (n : Nested) (c : Cursor) : Cursor → Prop
  | header {c' : Cursor} {e : Expr} (hc : c.atBlock [.switchStart] = true)
      (hr : Reads (switchHeader n) c.advance e c') : SeeksPart n c c'
  | next {c₁ c₂ : Cursor} {part : Option Case} (h : SeeksPart n c c₁) (hend : c₁.atEnd = false)
      (hr : Reads (caseOrSkip n) c₁ part c₂) : SeeksPart n c c₂

/-- The block whose opening brace is at `c`, or a part of it, holds nodes from `c'` on. -/
inductive Opens (n : Nested) (c : Cursor) : Cursor → Prop
  | condition {c' : Cursor} {e : Expr} (hc : c.atBlock [.ifStart] = true)
      (hr : Reads (ifHeader n) c.advance e c') : Opens n c c'
  | elseIf {c' : Cursor} {e : Expr} (hc : c.atBlock [.elseStart] = true)
      (hr : Reads (elseIfHeader n) c.advance e c') : Opens n c c'
  | otherwise {c' : Cursor} {u : Unit} (hc : c.atBlock [.elseStart] = true)
      (hr : Reads elseHeader c.advance u c') : Opens n c c'
  | loop {c' : Cursor} {x : String × Option String × Expr} (hc : c.atBlock [.forStart] = true)
      (hr : Reads (forHeader n) c.advance x c') : Opens n c c'
  | case {c₁ c' : Cursor} {es : List Expr} (h : SeeksPart n c c₁)
      (hc : c₁.atBlock [.caseStart] = true) (hr : Reads (caseHeader n) c₁ es c') : Opens n c c'
  | default {c₁ c' : Cursor} {u : Unit} (h : SeeksPart n c c₁)
      (hc : c₁.atBlock [.defaultStart] = true) (hr : Reads defaultHeader c₁ u c') : Opens n c c'

/-- The parser of a template that begins at `start` looks for a node at a cursor, with some
    levels of nesting left. -/
inductive Seeks (limit : Nat) (start : Cursor) : Nat → Cursor → Prop
  | start : Seeks limit start limit start
  | next {left : Nat} {c c' : Cursor} {nd : Node} (h : Seeks limit start left c)
      (hend : c.atEnd = false) (hr : Reads (node (Nested.within limit left)) c nd c') :
      Seeks limit start left c'
  | body {left : Nat} {c c' : Cursor} (h : Seeks limit start (left + 1) c)
      (ho : Opens (.within limit left) c c') : Seeks limit start left c'

/-! ## All of Them Lie Outside -/

section outside

variable {ts : List Token} {limit left : Nat} {n : Nested} {start c c' : Cursor}

/-- Behind an opening brace outside, the tokens stand inside. -/
theorem Cursor.Stands.behind_brace {side : Side} (h : c.Stands ts side)
    {words : List Kind} (hc : c.atBlock words = true) : c.advance.Stands ts .inside := by
  have hk := kind_of_atBlock hc
  have hnext := h.advance (hk ▸ nofun)
  rw [hk] at hnext
  exact hnext

theorem SeeksPart.stands (hn : n.Lawful ts) (hs : c.Stands ts .outside)
    (h : SeeksPart n c c') : ∃ side, c'.Stands ts side := by
  induction h with
  | header hc hr =>
    have hinside := hs.behind_brace hc
    exact ⟨.outside, (lawful_switchHeader hn _ hinside).1 _ _ hr⟩
  | next _ hend hr ih => exact (lawful_caseOrSkip hn _ ⟨ih, hend⟩).1 _ _ hr

theorem Opens.stands (hn : n.Lawful ts) (hs : c.Stands ts .outside)
    (h : Opens n c c') : c'.Stands ts .outside := by
  cases h with
  | condition hc hr => exact (lawful_ifHeader hn _ (hs.behind_brace hc)).1 _ _ hr
  | elseIf hc hr =>
    exact (lawful_elseIfHeader hn _ (hs.behind_brace hc)).1 _ _ hr
  | otherwise hc hr =>
    have hheader : Meets (Cursor.Stands ts .inside) elseHeader
        (fun _ => Cursor.Stands ts .outside) (Lawful ts) :=
      lawful_elseHeader
    exact (hheader _ (hs.behind_brace hc)).1 _ _ hr
  | loop hc hr => exact (lawful_forHeader hn _ (hs.behind_brace hc)).1 _ _ hr
  | case h hc hr =>
    have hpart := h.stands hn hs
    exact (lawful_caseHeader hn _ ⟨hpart, Cursor.kind_of_atBlock hc⟩).1 _ _ hr
  | default h hc hr =>
    have hheader : Meets (fun c => (∃ s, c.Stands ts s) ∧ c.current.kind = .exprStart)
        defaultHeader (fun _ => Cursor.Stands ts .outside) (Lawful ts) :=
      lawful_defaultHeader
    have hpart := h.stands hn hs
    exact (hheader _ ⟨hpart, Cursor.kind_of_atBlock hc⟩).1 _ _ hr

/-- Wherever a node is looked for, disciplined tokens stand outside. The three ways to come
    there keep to it: a node leads outside again, and so does a header. -/
theorem Seeks.stands (hs : start.Stands ts .outside) (h : Seeks limit start left c) :
    c.Stands ts .outside := by
  induction h with
  | start => exact hs
  | @next left _ _ _ _ hend hr ih =>
    exact (lawful_node (lawful_within ts limit left) _ ⟨ih, hend⟩).1 _ _ hr
  | @body left _ _ _ ho ih => exact ho.stands (lawful_within ts limit left) ih

end outside

end TemplateSyntax
