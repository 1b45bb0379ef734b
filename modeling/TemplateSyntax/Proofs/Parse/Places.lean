import TemplateSyntax.Parse.Program
import TemplateSyntax.Proofs.Parse.Lawful.Header

/-! # Where the Parser Goes

  While a template is read, the parser looks for the nodes of a row or for the parts of a
  switch block (`Place`). From there it goes on behind a node or a part, and behind the
  header of a block it comes to a new place (`Step`). So the headers of switch blocks that it
  reads are those that it finds on the way (`Finds`), and no others: one that stands among
  tokens that are passed over is not found.

  A block has one header at most, and one place behind it (`Enters.unique`). So what is found
  at a place is found in the block there or at the place behind it (`finds_nodes_iff`,
  `finds_parts_iff`).
-/

namespace TemplateSyntax.Parse

/-- What is looked for from a cursor on, with some levels left for what is nested. -/
inductive Place where
  /-- Nodes, up to a brace with one of the words. -/
  | nodes (left : Nat) (words : List Kind) (c : Cursor)
  /-- The parts of a switch block. -/
  | parts (left : Nat) (c : Cursor)

/-- The header of the block that begins at a brace, if it has one, and what is looked for
    behind it. -/
def headerAt (limit left : Nat) (c : Cursor) : Option (Parse (Cursor → Place)) :=
  let n := Nested.within limit left
  match c.following.kind with
  | .ifStart => some ((fun _ => .nodes left [.elseStart, .ifEnd]) <$> ifHeader n)
  | .elseStart =>
    if c.advance.following.kind = .ifStart then
      some ((fun _ => .nodes left [.elseStart, .ifEnd]) <$> elseIfHeader n)
    else some ((fun _ => .nodes left [.ifEnd]) <$> elseHeader)
  | .switchStart => some ((fun _ => .parts left) <$> switchHeader n)
  | .forStart => some ((fun _ => .nodes left [.forEnd]) <$> forHeader n)
  | _ => none

/-- The block that begins at a cursor leads to a place behind its header. -/
def Enters (limit left : Nat) (c : Cursor) (q : Place) : Prop :=
  c.current.kind = .exprStart ∧ ∃ header place c', headerAt limit left c = some header ∧
    Reads header c.advance place c' ∧ q = place c'

/-- The header of the part of a switch block that begins at a brace, if one does. -/
def partHeaderAt (n : Nested) (c : Cursor) : Option (Parse Unit) :=
  if c.atBlock [.caseStart] then some ((fun _ => ()) <$> caseHeader n)
  else if c.atBlock [.defaultStart] then some defaultHeader
  else none

/-- From one place the parser comes to another. -/
inductive Step (limit : Nat) : Place → Place → Prop
  /-- Behind the header of a block, or of an alternate at the end of a condition's nodes,
      which takes up a level just as a block does. -/
  | enter {left : Nat} {words : List Kind} {c : Cursor} {q : Place}
      (h : Enters limit left c q) : Step limit (.nodes (left + 1) words c) q
  /-- Behind a node. -/
  | node {left : Nat} {words : List Kind} {c c' : Cursor} {x : Node}
      (hw : c.atBlock words = false) (hend : c.atEnd = false)
      (hr : Reads (node (Nested.within limit left)) c x c') :
      Step limit (.nodes left words c) (.nodes left words c')
  /-- Behind the header of a part. -/
  | body {left : Nat} {c c' : Cursor} {header : Parse Unit}
      (hc : partHeaderAt (.within limit left) c = some header) (hr : Reads header c () c') :
      Step limit (.parts left c) (.nodes left caseEnds c')
  /-- Behind a part, or behind a token that is passed over. -/
  | part {left : Nat} {c c' : Cursor} {x : Option Case}
      (hw : c.atBlock [.switchEnd] = false) (hend : c.atEnd = false)
      (hr : Reads (caseOrSkip (Nested.within limit left)) c x c') :
      Step limit (.parts left c) (.parts left c')

/-- On the way from a place, the header of a switch block is read that ends at a cursor. -/
inductive Finds (limit : Nat) : Place → Cursor → Prop
  | header {left : Nat} {words : List Kind} {c d : Cursor}
      (h : Enters limit left c (.parts left d)) : Finds limit (.nodes (left + 1) words c) d
  | later {p q : Place} {d : Cursor} (h : Step limit p q) (hq : Finds limit q d) :
      Finds limit p d

/-- In the block that begins at a cursor, the header of a switch block is read that ends
    at `d`. -/
def FindsIn (limit left : Nat) (c d : Cursor) : Prop :=
  ∃ q, Enters limit left c q ∧ (q = .parts left d ∨ Finds limit q d)

variable {limit left : Nat} {words : List Kind} {c d : Cursor} {p q : Place}

theorem Enters.unique (hp : Enters limit left c p) (hq : Enters limit left c q) : p = q := by
  obtain ⟨-, header, place, c₁, hsome, hread, rfl⟩ := hp
  obtain ⟨-, header', place', c₂, hsome', hread', rfl⟩ := hq
  rw [hsome] at hsome'
  cases hsome'
  obtain ⟨rfl, rfl⟩ := hread.unique hread'
  rfl

/-- What is found in a block is found at the place behind its header, or is this header. -/
theorem findsIn_iff (h : Enters limit left c q) :
    FindsIn limit left c d ↔ q = .parts left d ∨ Finds limit q d := by
  constructor
  · rintro ⟨q', hq', hd⟩
    rwa [h.unique hq']
  · intro hd
    exact ⟨q, h, hd⟩

/-- Without a header nothing is found in a block. -/
theorem not_findsIn (h : c.current.kind = .exprStart → headerAt limit left c = none) :
    ¬ FindsIn limit left c d := by
  rintro ⟨q, ⟨hbrace, header, place, c', hsome, -⟩, -⟩
  rw [h hbrace] at hsome
  cases hsome

/-- What is found in a row of nodes is found in the block at its beginning or behind the
    first node. -/
theorem finds_nodes_iff :
    Finds limit (.nodes left words c) d ↔
      (∃ m, left = m + 1 ∧ FindsIn limit m c d) ∨
      (c.atBlock words = false ∧ c.atEnd = false ∧ ∃ x c',
        Reads (node (Nested.within limit left)) c x c' ∧ Finds limit (.nodes left words c') d) := by
  constructor
  · intro h
    cases h with
    | header h => exact .inl ⟨_, rfl, _, h, .inl rfl⟩
    | later hstep h =>
      cases hstep with
      | enter he => exact .inl ⟨_, rfl, _, he, .inr h⟩
      | node hw hend hr => exact .inr ⟨hw, hend, _, _, hr, h⟩
  · rintro (⟨m, rfl, q, he, rfl | h⟩ | ⟨hw, hend, x, c', hr, h⟩)
    · exact .header he
    · exact .later (.enter he) h
    · exact .later (.node hw hend hr) h

/-- What is found among the parts of a switch block is found in the nodes of the first part
    or behind it. -/
theorem finds_parts_iff :
    Finds limit (.parts left c) d ↔
      (∃ header c', partHeaderAt (.within limit left) c = some header ∧
        Reads header c () c' ∧ Finds limit (.nodes left caseEnds c') d) ∨
      (c.atBlock [.switchEnd] = false ∧ c.atEnd = false ∧ ∃ x c',
        Reads (caseOrSkip (Nested.within limit left)) c x c' ∧ Finds limit (.parts left c') d) := by
  constructor
  · intro h
    cases h with
    | later hstep h =>
      cases hstep with
      | body hc hr => exact .inl ⟨_, _, hc, hr, h⟩
      | part hw hend hr => exact .inr ⟨hw, hend, _, _, hr, h⟩
  · rintro (⟨header, c', hc, hr, h⟩ | ⟨hw, hend, x, c', hr, h⟩)
    · exact .later (.body hc hr) h
    · exact .later (.part hw hend hr) h

end TemplateSyntax.Parse
