import TemplateSyntax.Proofs.Parse.Lawful.Block

/-! # Lawful Programs

  The parsers of nested parts are lawful with any number of levels left (`lawful_within`):
  with none they do nothing but complain of nesting, and with one more the rules of the
  grammar are lawful over those below.
-/

namespace TemplateSyntax

open Parse

variable {ts : List Token} {limit : Nat}

theorem lawful_tooDeep {α : Type} {pre : Cursor → Prop} {post : α → Cursor → Prop} :
    Meets pre (fail (.tooDeep limit) : Parse α) post (Lawful ts) :=
  meets_fail fun _ _ => trivial

theorem lawful_within (ts : List Token) (limit left : Nat) :
    (Nested.within limit left).Lawful ts := by
  induction left with
  | zero => exact ⟨lawful_tooDeep, lawful_tooDeep, lawful_tooDeep, lawful_tooDeep⟩
  | succ left ih =>
    exact ⟨lawful_conditional ih, lawful_unary ih, lawful_block ih, lawful_alternate ih⟩

/-- A template is lawful from the outside to the end of the input. -/
theorem lawful_programWithin :
    Meets (Cursor.Stands ts .outside) (programWithin limit)
      (fun _ => Cursor.Stands ts .outside) (Lawful ts) := by
  have hnodes : Meets (Cursor.Stands ts .outside) (nodes (Nested.within limit limit))
      (fun _ => Cursor.Stands ts .outside) (Lawful ts) := by
    refine meets_many fun c item hc hs => ?_
    split at hs
    · cases hs
    · next hend =>
      cases hs
      have hwithin := lawful_within ts limit limit
      exact (lawful_node hwithin).startAt ⟨hc, Bool.eq_false_iff.mpr hend⟩
  refine meets_bind hnodes fun _ => ?_
  refine meets_bind meets_report fun _ => ?_
  exact stands_pure

/-- The tokens of a source text stand ahead of the cursor at their beginning. -/
theorem stands_tokenize (source : String) :
    (Cursor.ofTokens (tokenize source)).Stands (tokenize source) .outside :=
  ⟨disciplined_tokenize source, List.suffix_rfl⟩

/-- The tokens of a source text are disciplined, so its error is lawful. -/
theorem lawful_of_compile {source : String} {e : ParseError} (h : compile source = .error e) :
    Lawful (tokenize source) e := by
  have hfails : Fails program (.ofTokens (tokenize source)) e
      (program (.ofTokens (tokenize source))).cursor := ⟨h, rfl⟩
  exact (lawful_programWithin _ (stands_tokenize source)).2 e _ hfails

end TemplateSyntax
