import TemplateSyntax.Proofs.Parse.Lawful.Header

/-! # Lawful Blocks

  Nodes begin and end outside. Whatever path a block takes, the last token that it reads
  is a closing brace, and where a loop of nodes stops in front of a brace, that brace is
  not read yet. So a node is looked for only where markup, a comment, an opening brace or
  the end of the input stands (`beginsNode_of_stands`).

  The parts of a switch block are the exception. Tokens in front of the first part are
  passed over, and the parser of the next part may stand on either side.
-/

namespace TemplateSyntax

open Parse

/-- Whether tokens of a kind begin a node, or end the input where one is looked for. -/
def Kind.beginsNode (k : Kind) : Bool :=
  k.isMarkup || k = .comment || k = .exprStart || k = .eof

/-- Outside, every token begins a node or ends the input. -/
theorem beginsNode_of_stands {ts : List Token} {c : Cursor}
    (h : c.Stands ts .outside) : c.current.kind.beginsNode := by
  by_cases hk : c.current.kind = .eof
  · rw [hk]
    rfl
  · have hstands := (h.fits hk).stands
    revert hstands
    cases c.current.kind <;> decide

theorem Cursor.kind_of_atBlock {c : Cursor} {words : List Kind} (h : c.atBlock words = true) :
    c.current.kind = .exprStart := by
  simp only [atBlock, Bool.and_eq_true] at h
  exact of_decide_eq_true h.1

section lawful

variable {ts : List Token} {n : Nested}

/-! ## Nodes -/

/-- A token that leaves the side as it is makes a node by itself. -/
theorem lawful_leaf {make : String → Node} {t : Token}
    (h : t.kind ≠ .eof ∧ t.kind.leadsTo .outside = .outside) :
    Meets (fun c => c.Stands ts .outside ∧ c.current = t) (leaf make)
      (fun _ => Cursor.Stands ts .outside) (Lawful ts) := by
  refine meets_bind (stands_advance_current h) fun _ => ?_
  exact stands_pure

/-- No token is unknown where a node is looked for. -/
theorem lawful_node (hn : n.Lawful ts) :
    Meets (fun c => c.Stands ts .outside ∧ c.atEnd = false) (node n)
      (fun _ => Cursor.Stands ts .outside) (Lawful ts) := by
  refine meets_bind meets_current fun t => ?_
  split
  · next hmarkup =>
    exact (lawful_leaf (Kind.stays_of_isMarkup hmarkup .outside)).of_pre fun _ hc => ⟨hc.1.1, hc.2⟩
  · next hmarkup =>
    split
    · next hk =>
      have hstays : t.kind ≠ .eof ∧ t.kind.leadsTo .outside = .outside := by
        rw [hk]
        exact ⟨nofun, rfl⟩
      exact (lawful_leaf hstays).of_pre fun _ hc => ⟨hc.1.1, hc.2⟩
    · next hk =>
      refine (hn.block).of_pre ?_
      rintro c ⟨⟨hc, -⟩, rfl⟩
      exact ⟨hc, hk⟩
    -- No other kind of token stands outside.
    · next hcomment hbrace =>
      refine meets_of_false ?_
      rintro c ⟨⟨hc, hend⟩, rfl⟩
      have hbegins := beginsNode_of_stands hc
      simp only [Kind.beginsNode, Bool.or_eq_true, decide_eq_true_eq] at hbegins
      rcases hbegins with ((hk | hk) | hk) | hk
      · exact hmarkup hk
      · exact hcomment hk
      · exact hbrace hk
      · exact absurd hk (of_decide_eq_false hend)

/-- A loop up to a brace keeps what its items keep, wherever the input does not end. -/
theorem lawful_until {α : Type} {item : Parse α} {inv : Cursor → Prop} (words : List Kind)
    (x : Expected)
    (h : Meets (fun c => inv c ∧ c.atEnd = false) item (fun _ => inv) (Lawful ts)) :
    Meets inv
      (many fun c =>
        if c.atBlock words then none else if c.atEnd then some (unexpected x) else some item)
      (fun _ => inv) (Lawful ts) := by
  refine meets_many fun c p hc hs => ?_
  split at hs
  · cases hs
  · split at hs
    · cases hs
      exact stands_unexpected
    · next hend =>
      cases hs
      exact h.startAt ⟨hc, Bool.eq_false_iff.mpr hend⟩

theorem lawful_nodesUntil (hn : n.Lawful ts) (words : List Kind) (x : Expected) :
    Meets (Cursor.Stands ts .outside) (nodesUntil n words x)
      (fun _ => Cursor.Stands ts .outside) (Lawful ts) :=
  lawful_until words x (lawful_node hn)

/-- A closing word may be looked for on either side, and its braces lead outside. -/
theorem lawful_closing {word : Kind} (hword : word.leadsTo .inside = .inside)
    (hne : word ≠ .eof) :
    Meets (fun c => ∃ side, c.Stands ts side) (closing word)
      (fun _ => Cursor.Stands ts .outside) (Lawful ts) := by
  refine meets_of_forall fun c hc => ?_
  obtain ⟨side, hside⟩ := hc
  have hopening : Meets (Cursor.Stands ts side) (expect .exprStart)
      (fun _ => Cursor.Stands ts .inside) (Lawful ts) :=
    stands_expect nofun
  refine meets_bind (hopening.startAt hside) fun _ => ?_
  refine meets_bind (stands_expect hne) fun _ => ?_
  rw [hword]
  refine meets_bind (stands_expect nofun) fun _ => ?_
  exact stands_pure

/-! ## Conditions -/

section parts

variable (hn : n.Lawful ts)
include hn

theorem lawful_alternate? :
    Meets (Cursor.Stands ts .outside) (alternate? n)
      (fun _ => Cursor.Stands ts .outside) (Lawful ts) := by
  refine meets_branch ?_ ?_
  · refine meets_bind (stands_brace.of_pre fun _ hc => ?_) fun _ => ?_
    · exact ⟨⟨_, hc.1⟩, Cursor.kind_of_atBlock hc.2⟩
    · exact meets_bind hn.alternate fun _ => stands_pure
  · exact (stands_pure).of_pre fun _ hc => hc.1

theorem lawful_ifBlock :
    Meets (Cursor.Stands ts .inside) (ifBlock n)
      (fun _ => Cursor.Stands ts .outside) (Lawful ts) := by
  rw [ifBlock_eq]
  refine meets_bind (lawful_ifHeader hn) fun _ => ?_
  refine meets_bind (lawful_nodesUntil hn _ _) fun _ => ?_
  refine meets_bind (lawful_alternate? hn) fun _ => ?_
  exact stands_pure

theorem lawful_alternate :
    Meets (Cursor.Stands ts .inside) (alternate n)
      (fun _ => Cursor.Stands ts .outside) (Lawful ts) := by
  rw [alternate_eq]
  refine meets_bind meets_following fun t => ?_
  split
  · refine meets_bind (lawful_elseIfHeader hn) fun _ => ?_
    refine meets_bind (lawful_nodesUntil hn _ _) fun _ => ?_
    refine meets_bind (lawful_alternate? hn) fun _ => ?_
    exact stands_pure
  · refine meets_bind lawful_elseHeader fun _ => ?_
    refine meets_bind (lawful_nodesUntil hn _ _) fun _ => ?_
    exact stands_pure

/-! ## Switch Blocks -/

theorem lawful_case :
    Meets (fun c => (∃ s, c.Stands ts s) ∧ c.current.kind = .exprStart) (case n)
      (fun _ => Cursor.Stands ts .outside) (Lawful ts) := by
  rw [case_eq]
  refine meets_bind (lawful_caseHeader hn) fun _ => ?_
  refine meets_bind (lawful_nodesUntil hn _ _) fun _ => ?_
  exact stands_pure

theorem lawful_defaultCase :
    Meets (fun c => (∃ s, c.Stands ts s) ∧ c.current.kind = .exprStart) (defaultCase n)
      (fun _ => Cursor.Stands ts .outside) (Lawful ts) := by
  rw [defaultCase_eq]
  refine meets_bind lawful_defaultHeader fun _ => ?_
  refine meets_bind (lawful_nodesUntil hn _ _) fun _ => ?_
  exact stands_pure

omit hn in
/-- Whatever is passed over, disciplined tokens are left. -/
theorem lawful_skip :
    Meets (fun c => (∃ s, c.Stands ts s) ∧ c.atEnd = false) skip
      (fun _ c => ∃ s, c.Stands ts s) (Lawful ts) := by
  have hadvance : Meets (fun c => (∃ s, c.Stands ts s) ∧ c.atEnd = false) advance
      (fun _ c => ∃ s, c.Stands ts s) (Lawful ts) := by
    refine meets_advance fun c hc => ?_
    obtain ⟨⟨s, hs⟩, hend⟩ := hc
    exact ⟨_, hs.advance (of_decide_eq_false hend)⟩
  refine meets_bind hadvance fun t => ?_
  split
  · exact meets_pure fun _ hc => hc
  · exact meets_bind meets_report fun _ => meets_pure fun _ hc => hc

theorem lawful_caseOrSkip :
    Meets (fun c => (∃ s, c.Stands ts s) ∧ c.atEnd = false) (caseOrSkip n)
      (fun _ c => ∃ s, c.Stands ts s) (Lawful ts) := by
  refine meets_branch ?_ (meets_branch ?_ ?_)
  · refine meets_map ((lawful_case hn).weaken ?_ (fun _ _ hc => ⟨_, hc⟩) fun _ he => he)
    exact fun c hc => ⟨hc.1.1, Cursor.kind_of_atBlock hc.2⟩
  · refine meets_map ((lawful_defaultCase hn).weaken ?_ (fun _ _ hc => ⟨_, hc⟩) fun _ he => he)
    exact fun c hc => ⟨hc.1.1.1, Cursor.kind_of_atBlock hc.2⟩
  · exact lawful_skip.of_pre fun c hc => hc.1.1

theorem lawful_switchParts :
    Meets (fun c => ∃ s, c.Stands ts s) (switchParts n)
      (fun _ c => ∃ s, c.Stands ts s) (Lawful ts) :=
  lawful_until _ _ (lawful_caseOrSkip hn)

theorem lawful_switchBlock :
    Meets (Cursor.Stands ts .inside) (switchBlock n)
      (fun _ => Cursor.Stands ts .outside) (Lawful ts) := by
  rw [switchBlock_eq]
  refine meets_bind (lawful_switchHeader hn) fun _ => ?_
  refine meets_bind ((lawful_switchParts hn).of_pre fun _ hc => ⟨_, hc⟩) fun _ => ?_
  refine meets_bind (lawful_closing rfl nofun) fun _ => ?_
  exact stands_pure

/-! ## Other Blocks -/

theorem lawful_forBlock :
    Meets (Cursor.Stands ts .inside) (forBlock n)
      (fun _ => Cursor.Stands ts .outside) (Lawful ts) := by
  rw [forBlock_eq]
  refine meets_bind (lawful_forHeader hn) fun _ => ?_
  refine meets_bind (lawful_nodesUntil hn _ _) fun _ => ?_
  refine meets_bind (Meets.of_pre (lawful_closing rfl nofun) fun _ hc => ⟨_, hc⟩) fun _ => ?_
  exact stands_pure

omit hn in
theorem lawful_importFile :
    Meets (Cursor.Stands ts .inside) importFile
      (fun _ => Cursor.Stands ts .outside) (Lawful ts) := by
  refine meets_bind (stands_expect nofun) fun _ => ?_
  refine meets_bind (stands_expect nofun) fun _ => ?_
  refine meets_bind (stands_expect nofun) fun _ => ?_
  exact stands_pure

theorem lawful_interpolation :
    Meets (Cursor.Stands ts .inside) (interpolation n)
      (fun _ => Cursor.Stands ts .outside) (Lawful ts) := by
  refine meets_bind meets_current fun t => ?_
  split
  · next hk =>
    have hleads : t.kind ≠ .eof ∧ t.kind.leadsTo .inside = .outside := by
      rw [hk]
      exact ⟨nofun, rfl⟩
    refine meets_bind (stands_advance_current hleads) fun _ => ?_
    exact stands_pure
  · refine meets_bind (hn.expression.of_pre fun _ hc => hc.1) fun _ => ?_
    refine meets_bind (stands_expect nofun) fun _ => ?_
    exact stands_pure

/-! ## Blocks -/

theorem lawful_block :
    Meets (fun c => c.Stands ts .outside ∧ c.current.kind = .exprStart) (block n)
      (fun _ => Cursor.Stands ts .outside) (Lawful ts) := by
  have hbrace : Meets (fun c => c.Stands ts .outside ∧ c.current.kind = .exprStart) advance
      (fun _ => Cursor.Stands ts .inside) (Lawful ts) :=
    stands_brace.of_pre fun _ hc => ⟨⟨_, hc.1⟩, hc.2⟩
  refine meets_bind meets_following fun word => ?_
  refine meets_bind hbrace fun _ => ?_
  -- One case for each word that a block begins with, and the last one for no such word.
  split
  · refine meets_bind (lawful_ifBlock hn) fun _ => ?_
    refine meets_bind (Meets.of_pre (lawful_closing rfl nofun) fun _ hc => ⟨_, hc⟩) fun _ => ?_
    exact stands_pure
  · exact meets_bind (lawful_alternate hn) fun _ => stands_pure
  · exact lawful_switchBlock hn
  · exact lawful_forBlock hn
  · exact lawful_importFile
  · exact lawful_interpolation hn

end parts

end lawful

end TemplateSyntax
