import TemplateSyntax.Source.Position
import TemplateSyntax.Token.Basic
import TemplateSyntax.Token.Lexeme.Lemmas

/-! # Scanning

  A scan in progress holds the characters still ahead, the place where they begin
  and the modes in force. `Scan.next` drops blanks and cuts off one lexeme, and at
  the end of the input answers with an ending token, again and again. Scanning
  never fails: what belongs to no rule becomes an invalid token.

  Only an ending token leaves as many characters ahead as there were
  (`Scan.rest_next_lt`), so a source text has finitely many tokens
  (`Scan.steps`).
-/

namespace TemplateSyntax

/-! ### Notes -/

/-- What is worth reporting while tokens are scanned. -/
inductive ScanNote where
  /-- Other rules apply from this place on. -/
  | modeChange (old new : Mode) (place : Position)
  /-- The string that begins at this place is never closed. -/
  | unterminated (place : Position)
deriving DecidableEq, Repr

/-- The note of a change of mode, if it is one. -/
def ScanNote.change (old new : Mode) (place : Position) : List ScanNote :=
  if old = new then [] else [.modeChange old new place]

/-- The notes of a lexeme that stands between two places. A comment has a mode of
    its own, which is entered at its start and left at its end. -/
def Lexeme.notes (l : Lexeme) (old : Mode) (start stop : Position) : List ScanNote :=
  if l.kind = .comment then
    ScanNote.change old .comment start ++ ScanNote.change .comment l.modes.current stop
  else
    (if l.complete then [] else [.unterminated start])
      ++ ScanNote.change old l.modes.current stop

/-! ### One Token -/

/-- A scan in progress. -/
structure Scan where
  /-- The characters still ahead. -/
  rest : List Char
  /-- The place where they begin. -/
  position : Position
  modes : Modes
deriving DecidableEq, Repr

/-- A token, the scan behind it, and what there is to report about it. -/
structure Scan.Step where
  token : Token
  scan : Scan
  notes : List ScanNote
deriving DecidableEq, Repr

namespace Scan

/-- The scan of a source text from its beginning. -/
def ofSource (source : String) : Scan :=
  ⟨source.toList, .start, .initial⟩

/-- The step over a lexeme at the front of the characters ahead. -/
def take (s : Scan) (l : Lexeme) : Step :=
  let stop := s.position.after l.chars
  { token := ⟨l.kind, .between s.position stop, .ofList l.content⟩
    scan := ⟨s.rest.drop l.chars.length, stop, l.modes⟩
    notes := l.notes s.modes.current s.position stop }

/-- The scan without the blanks at its front. -/
def skipBlanks (s : Scan) : Scan :=
  { s with
    rest := s.rest.dropWhile isBlank
    position := s.position.after (s.rest.takeWhile isBlank) }

/-- The next token. -/
def next (s : Scan) : Step :=
  match s.skipBlanks.rest with
  | [] => ⟨.ending (.at s.skipBlanks.position), s.skipBlanks, []⟩
  | c :: cs => s.skipBlanks.take (Lexeme.first s.modes c cs)

theorem rest_skipBlanks_le (s : Scan) : s.skipBlanks.rest.length ≤ s.rest.length :=
  (List.dropWhile_suffix isBlank).length_le

theorem isBlank_of_skipBlanks {s : Scan} {c : Char} {cs : List Char}
    (h : s.skipBlanks.rest = c :: cs) : isBlank c = false := by
  have h' : s.rest.dropWhile isBlank = c :: cs := h
  have := List.head?_dropWhile_not isBlank s.rest
  rw [h'] at this
  simpa using this

/-- Only the end of the input leaves as much ahead as there was. -/
theorem rest_next_lt {s : Scan} (h : s.next.token.kind ≠ .eof) :
    s.next.scan.rest.length < s.rest.length := by
  unfold next at h ⊢
  split
  · rename_i hr; simp [hr] at h
  · rename_i c cs hr
    have hne := Lexeme.chars_ne_nil s.modes cs (isBlank_of_skipBlanks hr)
    have hpos := List.length_pos_iff.mpr hne
    have hle := s.rest_skipBlanks_le
    simp only [take, hr, List.length_drop, List.length_cons] at *
    omega

/-! ### All Tokens -/

/-- The steps up to the end of the input, which is the last of them. -/
def steps (s : Scan) : List Step :=
  if _h : s.next.token.kind = .eof then [s.next] else s.next :: s.next.scan.steps
termination_by s.rest.length
decreasing_by exact rest_next_lt ‹_›

theorem steps_ne_nil (s : Scan) : s.steps ≠ [] := by
  unfold steps; split <;> simp

/-- The tokens up to the end of the input. -/
def tokens (s : Scan) : List Token :=
  s.steps.map (·.token)

/-- The scan behind the end of the input. -/
def exhausted (s : Scan) : Scan :=
  (s.steps.getLast s.steps_ne_nil).scan

/-- What there is to report up to the end of the input. -/
def notes (s : Scan) : List ScanNote :=
  s.steps.flatMap (·.notes)

/-! ### Pulling Tokens -/

/-- How many tokens are asked for at once. -/
inductive Pull where
  /-- The next one. -/
  | next
  /-- All up to the end of the input. -/
  | all
deriving DecidableEq, Repr

/-- The tokens that are asked for, and the scan behind them. -/
def pull (s : Scan) : Pull → List Token × Scan
  | .next => ([s.next.token], s.next.scan)
  | .all => (s.tokens, s.exhausted)

end Scan

/-- The tokens of a source text. The last of them stands where the text ends. -/
def tokenize (source : String) : List Token :=
  (Scan.ofSource source).tokens

end TemplateSyntax
