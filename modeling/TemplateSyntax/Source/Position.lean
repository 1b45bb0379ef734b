/-! # Source Positions

  A position says where a character stands in a source text, in the three
  measures that answers use: bytes of UTF-8 before it, line, and column. Lines
  and columns count from one, and a column counts characters.

  Positions move over characters by `Position.next` and over whole stretches by
  `Position.after`, which splits at every concatenation (`after_append`).
-/

namespace TemplateSyntax

/-- The length of some characters in bytes of UTF-8. -/
def byteLength : List Char → Nat
  | [] => 0
  | c :: cs => c.utf8Size + byteLength cs

theorem byteLength_append (cs ds : List Char) :
    byteLength (cs ++ ds) = byteLength cs + byteLength ds := by
  induction cs with
  | nil => simp [byteLength]
  | cons c cs ih => simp [byteLength, ih, Nat.add_assoc]

/-- A place in a source text. -/
structure Position where
  /-- Bytes of UTF-8 before it. -/
  offset : Nat
  /-- Line, from one. -/
  line : Nat
  /-- Column in characters, from one. -/
  column : Nat
deriving DecidableEq, Repr, Inhabited

namespace Position

/-- Where every source text begins. -/
def start : Position := ⟨0, 1, 1⟩

/-- The place behind a character that stands here. Only a line feed opens a new
    line; a carriage return takes a column like any other character. -/
def next (p : Position) (c : Char) : Position :=
  if c = '\n' then ⟨p.offset + c.utf8Size, p.line + 1, 1⟩
  else ⟨p.offset + c.utf8Size, p.line, p.column + 1⟩

/-- The place behind a stretch of characters that begins here. -/
def after (p : Position) (cs : List Char) : Position :=
  cs.foldl next p

@[simp] theorem after_nil (p : Position) : p.after [] = p := rfl

@[simp] theorem after_cons (p : Position) (c : Char) (cs : List Char) :
    p.after (c :: cs) = (p.next c).after cs := rfl

/-- Moving over a concatenation is moving over its parts in turn. -/
theorem after_append (p : Position) (cs ds : List Char) :
    p.after (cs ++ ds) = (p.after cs).after ds := by
  simp [after, List.foldl_append]

theorem offset_next (p : Position) (c : Char) :
    (p.next c).offset = p.offset + c.utf8Size := by
  unfold next; split <;> rfl

/-- A stretch moves the offset by its length in bytes. -/
theorem offset_after (p : Position) (cs : List Char) :
    (p.after cs).offset = p.offset + byteLength cs := by
  induction cs generalizing p with
  | nil => simp [byteLength]
  | cons c cs ih => simp only [after_cons, ih, offset_next, byteLength]; omega

/-- A stretch moves the line by its number of line feeds. -/
theorem line_after (p : Position) (cs : List Char) :
    (p.after cs).line = p.line + cs.count '\n' := by
  induction cs generalizing p with
  | nil => simp
  | cons c cs ih =>
    rw [after_cons, ih]
    by_cases h : c = '\n'
    · subst h; simp [next]; omega
    · simp [next, h]

end Position

/-! ### Spans -/

/-- A stretch of a source text: its first and last byte offset, and the line and
    column where it begins. -/
structure Span where
  start : Nat
  stop : Nat
  line : Nat
  column : Nat
deriving DecidableEq, Repr, Inhabited

/-- The stretch does not end before it begins. -/
def Span.Ordered (s : Span) : Prop := s.start ≤ s.stop

/-- The stretch from one place to another. -/
def Span.between (p q : Position) : Span := ⟨p.offset, q.offset, p.line, p.column⟩

/-- The empty stretch at a place. -/
def Span.at (p : Position) : Span := .between p p

end TemplateSyntax
