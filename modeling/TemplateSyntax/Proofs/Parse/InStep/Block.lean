import TemplateSyntax.Proofs.Parse.InStep.Expression

/-! # Blocks in Step

  Both sides find the same nodes, blocks and parts of switch blocks, and pass over tokens that
  are alike. A loop of nodes that the end of the input cuts off fails on both sides there.
-/

namespace TemplateSyntax

open Parse

section inStep

variable {R : Cursor → Cursor → Prop} {excused : ParseError → Prop} {n m : Nested}
  (hR : Alike R)
include hR

/-! ## Nodes -/

theorem inStep_leaf {make : String → Node} :
    InStep R excused (fun c d => R c d ∧ c.current.kind ≠ .eof) (leaf make) (leaf make)
      (Same R) := by
  refine inStep_bind_like (inStep_advance hR) fun t u _ htext => ?_
  rw [← htext]
  exact inStep_done

/-- A token that begins no node is unknown. -/
theorem inStep_node (hn : n.InStep R excused m) :
    InStep R excused (fun c d => R c d ∧ c.current.kind ≠ .eof) (node n) (node m) (Same R) := by
  refine inStep_look hR (fun _ _ h => h.1) fun t u hkind htext => ?_
  rw [← hkind, ← htext]
  refine inStep_cond (fun _ => ?_) fun hmarkup => ?_
  · exact (inStep_leaf hR).looked fun _ _ h _ => h
  split
  · exact (inStep_leaf hR).looked fun _ _ h _ => h
  · next hk => exact hn.block.looked fun c d h ht => ⟨h.1, ht ▸ hk⟩
  · next hcomment hbrace =>
    -- None of the tests before has come true, and the loop has made sure of the end.
    refine inStep_fail ?_
    rintro c d ⟨⟨hcd, hend⟩, rfl, -⟩
    refine ⟨hcd, ⟨Bool.eq_false_iff.mpr ?_, rfl, rfl⟩, rfl⟩
    simp only [Kind.beginsNode, ne_eq, Bool.or_eq_true, decide_eq_true_eq, not_or]
    exact ⟨⟨⟨hmarkup, hcomment⟩, hbrace⟩, hend⟩

/-- Rows up to a brace with one of some words. Such a brace stands on both sides or on
    neither, and so does the end of the input. -/
theorem inStep_until {α : Type} {p q : Parse α} (words : List Kind) (x : Expected)
    (hp : InStep R excused (fun c d => R c d ∧ c.current.kind ≠ .eof) p q (Same R)) :
    InStep R excused R
      (many fun c =>
        if c.atBlock words then none else if c.atEnd then some (unexpected x) else some p)
      (many fun c =>
        if c.atBlock words then none else if c.atEnd then some (unexpected x) else some q)
      (Same R) := by
  refine inStep_many hR fun c d hcd => ?_
  rw [← hR.atBlock hcd, ← hR.atEnd hcd]
  by_cases hword : c.atBlock words = true
  · rw [if_pos hword, if_pos hword]
    exact .inl ⟨rfl, rfl⟩
  rw [if_neg hword, if_neg hword]
  by_cases hend : c.atEnd = true
  · rw [if_pos hend, if_pos hend]
    exact .inr ⟨_, _, rfl, rfl, (inStep_unexpected hR).startAt hcd⟩
  · rw [if_neg hend, if_neg hend]
    have hne : c.current.kind ≠ .eof := fun hk => hend (decide_eq_true hk)
    exact .inr ⟨_, _, rfl, rfl, hp.startAt ⟨hcd, hne⟩⟩

theorem inStep_nodesUntil (hn : n.InStep R excused m) (words : List Kind) (x : Expected) :
    InStep R excused R (nodesUntil n words x) (nodesUntil m words x) (Same R) :=
  inStep_until hR words x (inStep_node hR hn)

theorem inStep_closing {word : Kind} (hword : word ≠ .eof) :
    InStep R excused R (closing word) (closing word) (Same R) := by
  refine inStep_bind_like (inStep_expect hR nofun) fun _ _ _ _ => ?_
  refine inStep_bind_like (inStep_expect hR hword) fun _ _ _ _ => ?_
  exact inStep_bind_like (inStep_expect hR nofun) fun _ _ _ _ => inStep_done

/-! ## Conditions -/

theorem inStep_alternate? (hn : n.InStep R excused m) :
    InStep R excused R (alternate? n) (alternate? m) (Same R) := by
  refine inStep_branch (fun c d hcd => hR.atBlock hcd _) ?_ (inStep_done.of_pre fun _ _ h => h.1)
  refine inStep_bind_like ((inStep_advance hR).of_pre fun c d h => ⟨h.1, ?_⟩) fun _ _ _ _ => ?_
  · exact Cursor.kind_of_atBlock h.2 ▸ nofun
  · exact inStep_bind_same hn.alternate fun _ => inStep_done

theorem inStep_ifBlock (hn : n.InStep R excused m) :
    InStep R excused R (ifBlock n) (ifBlock m) (Same R) := by
  refine inStep_bind_like (inStep_expect hR nofun) fun _ _ _ _ => ?_
  refine inStep_bind_same hn.expression fun _ => ?_
  refine inStep_bind_like (inStep_expect hR nofun) fun _ _ _ _ => ?_
  refine inStep_bind_same (inStep_nodesUntil hR hn _ _) fun _ => ?_
  exact inStep_bind_same (inStep_alternate? hR hn) fun _ => inStep_done

theorem inStep_alternate (hn : n.InStep R excused m) :
    InStep R excused R (alternate n) (alternate m) (Same R) := by
  refine inStep_bind_like (inStep_expect hR nofun) fun _ _ _ _ => ?_
  refine inStep_look hR (fun _ _ h => h) fun t u hkind _ => ?_
  rw [← hkind]
  refine InStep.looked ?_ fun _ _ h _ => h
  refine inStep_cond (fun _ => ?_) fun _ => ?_
  · exact inStep_bind_same (inStep_ifBlock hR hn) fun _ => inStep_done
  · refine inStep_bind_like (inStep_expect hR nofun) fun _ _ _ _ => ?_
    exact inStep_bind_same (inStep_nodesUntil hR hn _ _) fun _ => inStep_done

/-! ## Switch Blocks -/

theorem inStep_case (hn : n.InStep R excused m) :
    InStep R excused (fun c d => R c d ∧ c.current.kind ≠ .eof) (case n) (case m) (Same R) := by
  refine inStep_bind_like (inStep_advance hR) fun _ _ _ _ => ?_
  refine inStep_bind_like (inStep_expect hR nofun) fun _ _ _ _ => ?_
  refine inStep_bind_same (inStep_expressions hR hn) fun _ => ?_
  refine inStep_bind_like (inStep_expect hR nofun) fun _ _ _ _ => ?_
  exact inStep_bind_same (inStep_nodesUntil hR hn _ _) fun _ => inStep_done

theorem inStep_defaultCase (hn : n.InStep R excused m) :
    InStep R excused (fun c d => R c d ∧ c.current.kind ≠ .eof) (defaultCase n) (defaultCase m)
      (Same R) := by
  refine inStep_bind_like (inStep_advance hR) fun _ _ _ _ => ?_
  refine inStep_bind_like (inStep_expect hR nofun) fun _ _ _ _ => ?_
  refine inStep_bind_like (inStep_expect hR nofun) fun _ _ _ _ => ?_
  exact inStep_bind_same (inStep_nodesUntil hR hn _ _) fun _ => inStep_done

/-- What is reported of a token that is passed over is left out. -/
theorem inStep_skip :
    InStep R excused (fun c d => R c d ∧ c.current.kind ≠ .eof) skip skip (Same R) := by
  refine inStep_bind_like (inStep_advance hR) fun t u hkind _ => ?_
  rw [← hkind]
  refine inStep_cond (fun _ => inStep_done) fun _ => ?_
  exact inStep_bind_same inStep_report fun _ => inStep_done

theorem inStep_caseOrSkip (hn : n.InStep R excused m) :
    InStep R excused (fun c d => R c d ∧ c.current.kind ≠ .eof) (caseOrSkip n) (caseOrSkip m)
      (Same R) := by
  -- First a `case` is looked for, and then a `default`.
  refine inStep_branch (fun c d h => hR.atBlock h.1 _) ?_
    (inStep_branch (fun c d h => hR.atBlock h.1.1 _) ?_ ?_)
  · exact (inStep_map (inStep_case hR hn)).of_pre fun _ _ h => h.1
  · exact (inStep_map (inStep_defaultCase hR hn)).of_pre fun _ _ h => h.1.1
  · exact (inStep_skip hR).of_pre fun _ _ h => h.1.1

theorem inStep_switchBlock (hn : n.InStep R excused m) :
    InStep R excused R (switchBlock n) (switchBlock m) (Same R) := by
  refine inStep_bind_like (inStep_expect hR nofun) fun _ _ _ _ => ?_
  refine inStep_bind_same hn.expression fun _ => ?_
  refine inStep_bind_like (inStep_expect hR nofun) fun _ _ _ _ => ?_
  refine inStep_bind_same (inStep_until hR _ _ (inStep_caseOrSkip hR hn)) fun _ => ?_
  exact inStep_bind_same (inStep_closing hR nofun) fun _ => inStep_done

/-! ## Other Blocks -/

theorem inStep_counter? :
    InStep R excused R counter? counter? (Same R) := by
  refine inStep_look hR (fun _ _ h => h) fun t u hkind _ => ?_
  rw [← hkind]
  refine inStep_cond (fun hk => ?_) fun _ => inStep_done.looked fun _ _ h _ => h
  refine inStep_bind_like (inStep_advance_looked hR (hk ▸ nofun)) fun _ _ _ _ => ?_
  refine inStep_bind_like (inStep_expect hR nofun) fun _ _ _ htext => ?_
  rw [← htext]
  exact inStep_done

theorem inStep_forBlock (hn : n.InStep R excused m) :
    InStep R excused R (forBlock n) (forBlock m) (Same R) := by
  refine inStep_bind_like (inStep_expect hR nofun) fun _ _ _ _ => ?_
  refine inStep_bind_like (inStep_expect hR nofun) fun _ _ _ hname => ?_
  refine inStep_bind_same (inStep_counter? hR) fun _ => ?_
  refine inStep_bind_like (inStep_expect hR nofun) fun _ _ _ _ => ?_
  refine inStep_bind_same hn.expression fun _ => ?_
  refine inStep_bind_like (inStep_expect hR nofun) fun _ _ _ _ => ?_
  refine inStep_bind_same (inStep_nodesUntil hR hn _ _) fun _ => ?_
  refine inStep_bind_same (inStep_closing hR nofun) fun _ => ?_
  rw [← hname]
  exact inStep_done

theorem inStep_importFile :
    InStep R excused R importFile importFile (Same R) := by
  refine inStep_bind_like (inStep_expect hR nofun) fun _ _ _ _ => ?_
  refine inStep_bind_like (inStep_expect hR nofun) fun _ _ _ hpath => ?_
  refine inStep_bind_like (inStep_expect hR nofun) fun _ _ _ _ => ?_
  rw [← hpath]
  exact inStep_done

theorem inStep_interpolation (hn : n.InStep R excused m) :
    InStep R excused R (interpolation n) (interpolation m) (Same R) := by
  refine inStep_look hR (fun _ _ h => h) fun t u hkind _ => ?_
  rw [← hkind]
  refine inStep_cond (fun hk => ?_) fun _ => InStep.looked ?_ fun _ _ h _ => h
  · exact inStep_bind_like (inStep_advance_looked hR (hk ▸ nofun)) fun _ _ _ _ => inStep_done
  · refine inStep_bind_same hn.expression fun _ => ?_
    exact inStep_bind_like (inStep_expect hR nofun) fun _ _ _ _ => inStep_done

/-! ## Blocks -/

/-- Behind the brace the same word says which block it is. -/
theorem inStep_block (hn : n.InStep R excused m) :
    InStep R excused (fun c d => R c d ∧ c.current.kind = .exprStart) (block n) (block m)
      (Same R) := by
  have hbrace : ∀ c d : Cursor, R c d ∧ c.current.kind = .exprStart →
      R c d ∧ c.current.kind ≠ .eof := fun c d h => ⟨h.1, h.2 ▸ nofun⟩
  refine inStep_lookBehind hR hbrace fun t u hkind => ?_
  rw [← hkind]
  refine inStep_bind_like ((inStep_advance hR).of_pre hbrace) fun _ _ _ _ => ?_
  -- One case for each word that a block begins with, and the last one for no such word.
  split
  · refine inStep_bind_same (inStep_ifBlock hR hn) fun _ => ?_
    exact inStep_bind_same (inStep_closing hR nofun) fun _ => inStep_done
  · exact inStep_bind_same (inStep_alternate hR hn) fun _ => inStep_done
  · exact inStep_switchBlock hR hn
  · exact inStep_forBlock hR hn
  · exact inStep_importFile hR
  · exact inStep_interpolation hR hn

end inStep

end TemplateSyntax
