import TemplateSyntax.Token.Basic

/-! # Cursors

  A cursor is what parsing still has ahead: a list of tokens, and the place where
  they end. Behind the list stands an ending token, as often as one looks; so a
  cursor always has a current token, and never runs off its list.
-/

namespace TemplateSyntax

/-- Where a token ends, as the empty stretch there. A string literal has one quote
    before its text and, when it is closed, another behind; that much longer than
    its text is its stretch of the source.

    The length of a stretch is the difference of its ends for a stretch in order only
    (`Span.Ordered`), and this is for tokens of no other. Those of a source text have
    no other (`Token.ordered_of_mem`). -/
def Token.stop (t : Token) : Span :=
  let quotes := t.span.stop - t.span.start - t.text.utf8ByteSize
  let opened : Position := ⟨t.span.start, t.span.line, t.span.column + min quotes 1⟩
  let read := opened.after t.text.toList
  ⟨t.span.stop, t.span.stop, read.line, read.column + (quotes - 1)⟩

/-- The tokens still ahead, and the place where they end. -/
structure Cursor where
  ahead : List Token
  stop : Span
deriving DecidableEq, Repr

namespace Cursor

/-- The cursor at the first of some tokens. They end at their ending token if that
    is the last of them, else behind the last. -/
def ofTokens (ts : List Token) : Cursor :=
  ⟨ts,
    match ts.getLast? with
    | none => .at .start
    | some t => if t.kind = .eof then t.span else t.stop⟩

/-- The token at the cursor. -/
def current (c : Cursor) : Token := c.ahead.headD (.ending c.stop)

/-- The token behind the current one. -/
def following (c : Cursor) : Token := c.ahead.tail.headD (.ending c.stop)

/-- The cursor one token further. -/
def advance (c : Cursor) : Cursor := { c with ahead := c.ahead.tail }

/-- Whether the current token is of a kind. -/
def isAt (c : Cursor) (kind : Kind) : Bool := c.current.kind = kind

/-- Whether the input ends here. -/
def atEnd (c : Cursor) : Bool := c.isAt .eof

/-- Whether a brace opens a block here whose first word is of one of the kinds. -/
def atBlock (c : Cursor) (words : List Kind) : Bool :=
  c.isAt .exprStart && words.contains c.following.kind

@[simp] theorem current_cons (t : Token) (ts : List Token) (s : Span) :
    (Cursor.mk (t :: ts) s).current = t := rfl

@[simp] theorem current_nil (s : Span) : (Cursor.mk [] s).current = .ending s := rfl

@[simp] theorem advance_cons (t : Token) (ts : List Token) (s : Span) :
    (Cursor.mk (t :: ts) s).advance = ⟨ts, s⟩ := rfl

@[simp] theorem stop_advance (c : Cursor) : c.advance.stop = c.stop := rfl

@[simp] theorem current_advance (c : Cursor) : c.advance.current = c.following := rfl

/-- Nothing is ahead only where the input ends. -/
theorem ahead_ne_nil {c : Cursor} (h : c.atEnd = false) : c.ahead ≠ [] := by
  intro hn
  simp [atEnd, isAt, current, hn] at h

/-- Moving over a token leaves fewer ahead. -/
theorem ahead_advance_lt {c : Cursor} (h : c.atEnd = false) :
    c.advance.ahead.length < c.ahead.length := by
  have := List.length_pos_iff.mpr (ahead_ne_nil h)
  simp only [advance, List.length_tail]
  omega

end Cursor

end TemplateSyntax
