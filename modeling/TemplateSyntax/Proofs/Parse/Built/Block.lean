import TemplateSyntax.Parse.Program
import TemplateSyntax.Proofs.Parse.Built.Expression
import TemplateSyntax.Proofs.Parse.Lawful.Block

/-! # How Parsers of Blocks Are Put Together

  Nodes, blocks and parts of switch blocks may move over every token but the ending one. So
  everything in a template is put together from single steps, with any number of levels left for
  nested parts (`built_within`, `built_nodes`).
-/

namespace TemplateSyntax

open Parse

section built

variable {n : Nested} {start : Kind → Prop}

/-- Parsers that stay inside are among those that do not reach the end of the input. -/
theorem Parse.Built.within {α : Type} {p : Parse α}
    (h : Built Kind.StaysInside (fun _ => True) p) : Built (· ≠ .eof) start p :=
  h.weaken (fun _ _ => trivial) fun _ hk => hk.1

/-! ## Nodes -/

theorem built_leaf (make : String → Node) : Built (· ≠ .eof) (· ≠ .eof) (leaf make) :=
  .bind (.advance fun _ h => h) fun _ => .pure _

/-- A node does not begin at the end of the input. -/
theorem built_node (hn : n.Built) : Built (· ≠ .eof) (· ≠ .eof) (node n) := by
  refine built_look fun t ht => ?_
  have hleaf : ∀ make, Built (· ≠ .eof) (· = t.kind) (leaf make) := fun make =>
    (built_leaf make).of_start fun _ hk => hk ▸ ht
  refine built_cond (fun _ => hleaf .text) fun _ => ?_
  split
  · next hk => exact hk ▸ hleaf .comment
  · next hk => exact hk ▸ hn.block
  · exact .fail rfl

theorem built_nodesUntil (hn : n.Built) (words : List Kind) (x : Expected) :
    Built (· ≠ .eof) start (nodesUntil n words x) :=
  built_until words x (by decide) (built_node hn)

theorem built_closing {word : Kind} (hword : word ≠ .eof) :
    Built (· ≠ .eof) start (closing word) := by
  refine .bind (built_expect (by decide)) fun _ => ?_
  refine .bind (built_expect hword) fun _ => ?_
  exact .bind (built_expect (by decide)) fun _ => .pure _

/-! ## Conditions -/

/-- Where a cursor sees one of some words, a brace is there and may be moved over. -/
theorem built_brace {c : Cursor} {words : List Kind} (h : c.atBlock words = true) :
    Built (· ≠ .eof) (· = c.current.kind) advance := by
  apply Built.advance
  rintro _ rfl
  rw [Cursor.kind_of_atBlock h]
  decide

section nested

variable (hn : n.Built)
include hn

theorem built_alternate? : Built (· ≠ .eof) start (alternate? n) := by
  refine built_branch (fun c d h => h.atBlock (by decide) _) ?_
    (.pure none)
  intro c _ hat
  refine .bind (built_brace hat) fun _ => ?_
  exact .bind hn.alternate fun _ => .pure _

theorem built_ifBlock : Built (· ≠ .eof) start (ifBlock n) := by
  refine .bind (built_expect (by decide)) fun _ => ?_
  refine .bind hn.expression.within fun _ => ?_
  refine .bind (built_expect (by decide)) fun _ => ?_
  refine .bind (built_nodesUntil hn _ _) fun _ => ?_
  exact .bind (built_alternate? hn) fun _ => .pure _

theorem built_alternate : Built (· ≠ .eof) start (alternate n) := by
  refine .bind (built_expect (by decide)) fun _ => ?_
  refine built_look fun t _ => built_cond (fun _ => ?_) fun _ => ?_
  · exact .bind (built_ifBlock hn) fun _ => .pure _
  · refine .bind (built_expect (by decide)) fun _ => ?_
    exact .bind (built_nodesUntil hn _ _) fun _ => .pure _

/-! ## Switch Blocks -/

/-- The brace of a case has been looked behind, and then it is moved over. -/
theorem built_case {c : Cursor} (hat : c.atBlock [.caseStart] = true) :
    Built (· ≠ .eof) (· = c.current.kind) (case n) := by
  refine .bind (built_brace hat) fun _ => ?_
  refine .bind (built_expect (by decide)) fun _ => ?_
  refine .bind (built_expressions hn).within fun _ => ?_
  refine .bind (built_expect (by decide)) fun _ => ?_
  exact .bind (built_nodesUntil hn _ _) fun _ => .pure _

theorem built_defaultCase {c : Cursor} (hat : c.atBlock [.defaultStart] = true) :
    Built (· ≠ .eof) (· = c.current.kind) (defaultCase n) := by
  refine .bind (built_brace hat) fun _ => ?_
  refine .bind (built_expect (by decide)) fun _ => ?_
  refine .bind (built_expect (by decide)) fun _ => ?_
  exact .bind (built_nodesUntil hn _ _) fun _ => .pure _

omit hn in
theorem built_skip : Built (· ≠ .eof) (· ≠ .eof) skip := by
  refine .bind (.advance fun _ h => h) fun t => built_cond (fun _ => .pure _) fun _ => ?_
  exact .bind (.skipped t) fun _ => .pure _

theorem built_caseOrSkip : Built (· ≠ .eof) (· ≠ .eof) (caseOrSkip n) := by
  refine built_branch (fun c d h => h.atBlock (by decide) _)
    (fun c _ hat => built_map (built_case hn hat)) ?_
  exact built_branch (fun c d h => h.atBlock (by decide) _)
    (fun c _ hat => built_map (built_defaultCase hn hat)) built_skip

theorem built_switchBlock : Built (· ≠ .eof) start (switchBlock n) := by
  refine .bind (built_expect (by decide)) fun _ => ?_
  refine .bind hn.expression.within fun _ => ?_
  refine .bind (built_expect (by decide)) fun _ => ?_
  refine .bind (built_until _ _ (by decide) (built_caseOrSkip hn)) fun _ => ?_
  exact .bind (built_closing (by decide)) fun _ => .pure _

/-! ## Other Blocks -/

omit hn in
theorem built_counter? : Built (· ≠ .eof) start counter? := by
  refine built_look fun t _ => built_cond (fun hk => ?_) fun _ => .pure _
  refine .bind (.advance ?_) fun _ => ?_
  · rintro _ rfl
    rw [hk]
    decide
  · exact .bind (built_expect (by decide)) fun _ => .pure _

theorem built_forBlock : Built (· ≠ .eof) start (forBlock n) := by
  refine .bind (built_expect (by decide)) fun _ => ?_
  refine .bind (built_expect (by decide)) fun _ => ?_
  refine .bind built_counter? fun _ => ?_
  refine .bind (built_expect (by decide)) fun _ => ?_
  refine .bind hn.expression.within fun _ => ?_
  refine .bind (built_expect (by decide)) fun _ => ?_
  refine .bind (built_nodesUntil hn _ _) fun _ => ?_
  exact .bind (built_closing (by decide)) fun _ => .pure _

omit hn in
theorem built_importFile : Built (· ≠ .eof) start importFile := by
  refine .bind (built_expect (by decide)) fun _ => ?_
  refine .bind (built_expect (by decide)) fun _ => ?_
  exact .bind (built_expect (by decide)) fun _ => .pure _

theorem built_interpolation : Built (· ≠ .eof) start (interpolation n) := by
  refine built_look fun t _ => built_cond (fun hk => ?_) fun _ => ?_
  · refine .bind (.advance ?_) fun _ => .pure _
    rintro _ rfl
    rw [hk]
    decide
  · refine .bind hn.expression.within fun _ => ?_
    exact .bind (built_expect (by decide)) fun _ => .pure _

/-! ## Blocks -/

theorem built_block : Built (· ≠ .eof) (· = .exprStart) (block n) := by
  have hbrace : ∀ k : Kind, k = .exprStart → k ≠ .eof := by
    rintro _ rfl
    decide
  refine built_lookBehind hbrace fun word => ?_
  refine .bind (.advance hbrace) fun _ => ?_
  -- One case for each word that a block begins with, and the last one for no such word.
  split
  · refine .bind (built_ifBlock hn) fun _ => ?_
    exact .bind (built_closing (by decide)) fun _ => .pure _
  · exact .bind (built_alternate hn) fun _ => .pure _
  · exact built_switchBlock hn
  · exact built_forBlock hn
  · exact built_importFile
  · exact built_interpolation hn

end nested

/-! ## Programs -/

/-- With no level left there is nothing but a complaint; with one more, nested parts are put
    together from those below. -/
theorem built_within (limit left : Nat) : (Nested.within limit left).Built := by
  induction left with
  | zero => exact ⟨.fail rfl, .fail rfl, .fail rfl, .fail rfl⟩
  | succ left ih =>
    exact ⟨built_conditional ih, built_unary ih, built_block ih, built_alternate ih⟩

theorem built_nodes (hn : n.Built) : Built (· ≠ .eof) start (nodes n) := by
  refine .many (fun c d h => ?_) fun c item hs => ?_
  · rw [Cursor.atEnd, Cursor.atEnd, h.isAt]
  · split at hs <;> cases hs
    next hend =>
    refine (built_node hn).of_start ?_
    rintro _ rfl hk
    exact hend (decide_eq_true hk)

end built

end TemplateSyntax
