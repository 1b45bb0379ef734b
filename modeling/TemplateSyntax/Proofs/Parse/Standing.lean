import TemplateSyntax.Parse.Program
import TemplateSyntax.Proofs.Parse.Contract
import TemplateSyntax.Proofs.Scan.Discipline

/-! # Standing in Disciplined Tokens

  A parser that is started among disciplined tokens always stands among some of them, on
  one side of the braces (`Cursor.Stands`). What it may then fail with is lawful
  (`Lawful`): no token is unknown and no decimal literal bad, and an integer literal is too
  large if it is bad.
-/

namespace TemplateSyntax

open Parse

/-! ## Cursors -/

/-- The cursor has disciplined tokens ahead, which are the last of the tokens `ts`. -/
structure Cursor.Stands (ts : List Token) (side : Side) (c : Cursor) : Prop where
  disciplined : Disciplined side c.ahead
  suffix : c.ahead <:+ ts

namespace Cursor.Stands

variable {ts : List Token} {side : Side} {c : Cursor}

/-- The token at the cursor fits the side, unless the input ends there. -/
theorem fits (h : c.Stands ts side) (hk : c.current.kind ≠ .eof) : Fits side c.current := by
  have hd := h.disciplined
  rw [ahead_eq_cons hk] at hd
  exact (hd.of_ne_eof hk).1

theorem current_mem (h : c.Stands ts side) (hk : c.current.kind ≠ .eof) :
    c.current ∈ ts := by
  refine h.suffix.mem ?_
  rw [ahead_eq_cons hk]
  exact List.mem_cons_self

theorem advance (h : c.Stands ts side) (hk : c.current.kind ≠ .eof) :
    c.advance.Stands ts (c.current.kind.leadsTo side) := by
  have hd := h.disciplined
  rw [ahead_eq_cons hk] at hd
  exact ⟨(hd.of_ne_eof hk).2, (List.tail_suffix c.ahead).trans h.suffix⟩

end Cursor.Stands

theorem Kind.stays_of_isWord {k : Kind} (h : k.isWord) (side : Side) :
    k ≠ .eof ∧ k.leadsTo side = side := by
  cases k <;> first | exact absurd h (by decide) | exact ⟨nofun, rfl⟩

theorem Kind.stays_of_isMarkup {k : Kind} (h : k.isMarkup) (side : Side) :
    k ≠ .eof ∧ k.leadsTo side = side := by
  cases k <;> first | exact absurd h (by decide) | exact ⟨nofun, rfl⟩

theorem BinaryOp.stays (op : BinaryOp) (side : Side) :
    op.kind ≠ .eof ∧ op.kind.leadsTo side = side := by
  cases op <;> exact ⟨nofun, rfl⟩

theorem UnaryOp.stays (op : UnaryOp) (side : Side) :
    op.kind ≠ .eof ∧ op.kind.leadsTo side = side := by
  cases op <;> exact ⟨nofun, rfl⟩

/-! ## Errors -/

/-- What a parser of disciplined tokens `ts` may fail with. It complains of an integer literal
    only if its value is too large. How deep parts may nest has nothing to do with the
    discipline. -/
def Lawful (ts : List Token) (e : ParseError) : Prop :=
  match e.cause with
  | .tooDeep _ => True
  | .badInteger _ _ =>
    ∃ t ∈ ts, t.kind = .integer ∧ Integer.maxValue < digitsValue t.text.toList ∧
      e = .blaming t (.badInteger t.text .tooLarge)
  | .badDecimal _ _ => False
  | .unknown _ _ => False
  | .unexpected _ _ => True
  | .ended _ => True

theorem lawful_expected {ts : List Token} {x : Expected} {t : Token} {cause : Cause}
    (h : (∃ found, cause = .unexpected found x) ∨ cause = .ended x) :
    Lawful ts (.blaming t cause) := by
  rcases h with ⟨found, rfl⟩ | rfl
  · trivial
  · trivial

/-! ## Single Tokens -/

section steps

variable {α : Type} {ts : List Token} {s : Side} {pre : Cursor → Prop}

theorem stands_unexpected {x : Expected} {post : α → Cursor → Prop} :
    Meets pre (unexpected x : Parse α) post (Lawful ts) :=
  meets_unexpected fun _ _ => lawful_expected

/-- A token of the kind leads to its side. -/
theorem stands_expect {kind : Kind} (hk : kind ≠ .eof) :
    Meets (Cursor.Stands ts s) (expect kind)
      (fun _ => Cursor.Stands ts (kind.leadsTo s)) (Lawful ts) := by
  refine meets_expect (fun c hc hkind => ?_) fun _ _ => lawful_expected
  subst hkind
  exact hc.advance hk

theorem stands_advance {s' : Side}
    (h : ∀ c, pre c → c.Stands ts s ∧ c.current.kind ≠ .eof ∧
      c.current.kind.leadsTo s = s') :
    Meets pre advance (fun _ => Cursor.Stands ts s') (Lawful ts) := by
  refine meets_advance fun c hc => ?_
  obtain ⟨hs, hk, rfl⟩ := h c hc
  exact hs.advance hk

/-- A token that is known to be of a kind leads to its side. -/
theorem stands_advance_of_kind {kind : Kind}
    (h : ∀ c, pre c → c.Stands ts s ∧ c.current.kind = kind) (hk : kind ≠ .eof) :
    Meets pre advance (fun _ => Cursor.Stands ts (kind.leadsTo s)) (Lawful ts) := by
  refine stands_advance (s := s) fun c hc => ?_
  obtain ⟨hs, rfl⟩ := h c hc
  exact ⟨hs, hk, rfl⟩

/-- A token that has been looked at leads to its side. -/
theorem stands_advance_current {s' : Side} {t : Token}
    (h : t.kind ≠ .eof ∧ t.kind.leadsTo s = s') :
    Meets (fun c => c.Stands ts s ∧ c.current = t) advance (fun _ => Cursor.Stands ts s')
      (Lawful ts) := by
  refine stands_advance (s := s) ?_
  rintro c ⟨hc, rfl⟩
  exact ⟨hc, h⟩

/-- An opening brace leads inside from either side. -/
theorem stands_brace :
    Meets (fun c => (∃ s, c.Stands ts s) ∧ c.current.kind = .exprStart) advance
      (fun _ => Cursor.Stands ts .inside) (Lawful ts) := by
  refine meets_advance fun c hc => ?_
  obtain ⟨⟨s, hs⟩, hk⟩ := hc
  have hnext := hs.advance (hk ▸ nofun)
  rw [hk] at hnext
  exact hnext

theorem stands_pure {a : α} :
    Meets (Cursor.Stands ts s) (pure a) (fun _ => Cursor.Stands ts s) (Lawful ts) :=
  meets_pure fun _ hc => hc

end steps

end TemplateSyntax
