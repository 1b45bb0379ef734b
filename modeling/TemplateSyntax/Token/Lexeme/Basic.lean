import TemplateSyntax.Token.Mode

/-! # Lexemes

  The rules that cut one lexeme off the front of the remaining characters, blanks
  already dropped. A lexeme is recognised from the characters and the modes alone;
  where it stands in the source is added later.
-/

namespace TemplateSyntax

/-! ### Character Classes

    All of them hold ASCII characters only. -/

/-- The characters that separate lexemes and belong to none. -/
def isBlank (c : Char) : Bool :=
  c = ' ' || c = '\t' || c = '\n' || c = '\r'

/-- The characters that end a line. -/
def isBreak (c : Char) : Bool :=
  c = '\n' || c = '\r'

/-- The characters that a word may begin with. -/
def isWordStart (c : Char) : Bool :=
  c.isAlpha || c = '_'

/-- The characters that a word consists of. -/
def isWordChar (c : Char) : Bool :=
  c.isAlphanum || c = '_'

/-- What ends a line is blank. -/
theorem isBlank_of_isBreak {c : Char} (h : isBreak c = true) : isBlank c = true := by
  simp only [isBreak, isBlank, Bool.or_eq_true] at *
  rcases h with h | h <;> simp [h]

theorem isBreak_eq_false {c : Char} (h : isBlank c = false) : isBreak c = false :=
  Bool.eq_false_iff.mpr fun hb => by simp [isBlank_of_isBreak hb] at h

/-- What begins a word may stand in it. -/
theorem isWordChar_of_isWordStart {c : Char} (h : isWordStart c = true) :
    isWordChar c = true := by
  simp only [isWordStart, isWordChar, Char.isAlphanum, Bool.or_eq_true] at *
  rcases h with h | h <;> simp [h]

/-! ### Lexemes -/

/-- A lexeme at the front of some characters. -/
structure Lexeme where
  kind : Kind
  /-- The characters it takes. -/
  chars : List Char
  /-- The characters it stands for. -/
  content : List Char
  /-- The modes behind it. -/
  modes : Modes
  /-- Whether it ends as it should. Only a string that lacks its closing quote does
      not. -/
  complete : Bool
deriving DecidableEq, Repr

namespace Lexeme

/-- A lexeme that stands for the characters it takes. -/
def plain (kind : Kind) (chars : List Char) (m : Modes) : Lexeme :=
  ⟨kind, chars, chars, m, true⟩

@[simp] theorem kind_plain (k : Kind) (cs : List Char) (m : Modes) :
    (plain k cs m).kind = k := rfl

@[simp] theorem chars_plain (k : Kind) (cs : List Char) (m : Modes) :
    (plain k cs m).chars = cs := rfl

@[simp] theorem content_plain (k : Kind) (cs : List Char) (m : Modes) :
    (plain k cs m).content = cs := rfl

@[simp] theorem modes_plain (k : Kind) (cs : List Char) (m : Modes) :
    (plain k cs m).modes = m := rfl

@[simp] theorem complete_plain (k : Kind) (cs : List Char) (m : Modes) :
    (plain k cs m).complete = true := rfl

/-! ### Markup -/

/-- Whether the characters begin with the two slashes of a comment. -/
def opensComment (cs : List Char) : Bool :=
  "//".toList.isPrefixOf cs

/-- A comment: everything up to the end of the line. Plain markup follows, whatever
    the mode was before it. -/
def comment (m : Modes) (cs : List Char) : Lexeme :=
  plain .comment (cs.takeWhile (!isBreak ·)) (m.enter .text)

/-- Whether a stretch of text ends in front of the characters: at the end of a
    line, and at the spellings that it stops in front of. -/
def endsText (mode : Mode) (cs : List Char) : Bool :=
  match cs with
  | [] => true
  | c :: _ => isBreak c || mode.atTextEnd cs

/-- The characters up to where a stretch of text ends. -/
def textRun (mode : Mode) : List Char → List Char
  | [] => []
  | c :: cs => if endsText mode (c :: cs) then [] else c :: textRun mode cs

/-- The lexeme at the front of markup, style or script text. -/
def markup (m : Modes) (cs : List Char) : Lexeme :=
  if opensComment cs then comment m cs
  else
    match m.current.marker? cs with
    | some k => plain k.kind k.spelling.toList (m.enter k.enters)
    | none => plain m.current.textKind (textRun m.current cs) m

/-! ### Expressions -/

/-- The operators and punctuation marks that their spelling alone decides, each
    before its own beginnings. -/
def symbols : List (String × Kind) :=
  [("\x7b", .exprStart),
   ("==", .equal), ("=", .equal), ("!=", .notEqual), ("!", .exclamation),
   ("<=", .lessEqual), ("<", .lessThan), (">=", .greaterEqual), (">", .greaterThan),
   ("&&", .logicalAnd), ("&", .logicalAnd), ("||", .logicalOr), ("|", .logicalOr),
   ("+", .plus), ("-", .minus), ("*", .multiplication),
   ("(", .lParen), (")", .rParen), ("[", .lBracket), ("]", .rBracket),
   (",", .comma), (".", .period), (":", .colon), ("?", .questionMark)]

/-- The operator or punctuation mark at the front; a character that begins none is
    invalid and taken alone. -/
def symbol (m : Modes) (c : Char) (cs : List Char) : Lexeme :=
  match symbols.find? (·.1.toList.isPrefixOf (c :: cs)) with
  | some (spelling, kind) => plain kind spelling.toList m
  | none => plain .invalid [c] m

/-- What stands before the first quote that no backslash precedes, and whether there
    is such a quote. A backslash makes the character behind it ordinary; both are
    kept. -/
def untilQuote (quote : Char) : List Char → List Char × Bool
  | [] => ([], false)
  | '\\' :: [] => (['\\'], false)
  | '\\' :: d :: cs =>
    let body := untilQuote quote cs
    ('\\' :: d :: body.1, body.2)
  | c :: cs =>
    if c = quote then ([], true)
    else
      let body := untilQuote quote cs
      (c :: body.1, body.2)

/-- A string literal behind its opening quote. Without a closing quote it runs to
    the end of the input. -/
def string (m : Modes) (quote : Char) (cs : List Char) : Lexeme :=
  let body := untilQuote quote cs
  ⟨.string, quote :: (body.1 ++ if body.2 then [quote] else []), body.1, m, body.2⟩

/-- A number: digits, and if a point and a further digit follow, these and all the
    digits behind them. -/
def number (m : Modes) (cs : List Char) : Lexeme :=
  let whole := cs.takeWhile Char.isDigit
  match cs.dropWhile Char.isDigit with
  | '.' :: d :: rest =>
    if d.isDigit then
      plain .float (whole ++ '.' :: d :: rest.takeWhile Char.isDigit) m
    else plain .integer whole m
  | _ => plain .integer whole m

/-- A word: the longest run of word characters. -/
def word (m : Modes) (cs : List Char) : Lexeme :=
  let run := cs.takeWhile isWordChar
  plain (.ofWord (.ofList run)) run m

/-- A slash: it closes a block together with one of the words that do, and divides
    otherwise. -/
def slash (m : Modes) (cs : List Char) : Lexeme :=
  let run := cs.takeWhile isWordChar
  match Kind.closer? (.ofList run) with
  | some kind => plain kind ('/' :: run) m
  | none => plain .division ['/'] m

/-- An at sign: with a brace behind it, it opens an expression block again if the
    block around it was opened so; anywhere else it is invalid. -/
def atSign (m : Modes) (cs : List Char) : Lexeme :=
  if cs.head? = some '{' ∧ m.saved.isSegment then plain .exprStart ['@', '{'] m
  else plain .invalid ['@'] m

/-- The lexeme at the front of the characters of an expression block. -/
def expression (m : Modes) (c : Char) (cs : List Char) : Lexeme :=
  if c = '"' ∨ c = '\'' then string m c cs
  else if c = '}' then plain .exprEnd ['}'] m.leave
  else if c = '/' then slash m cs
  else if c = '@' then atSign m cs
  else if c.isDigit then number m (c :: cs)
  else if isWordStart c then word m (c :: cs)
  else symbol m c cs

/-- The lexeme at the front of some characters. -/
def first (m : Modes) (c : Char) (cs : List Char) : Lexeme :=
  match m.current with
  | .text | .css | .js => markup m (c :: cs)
  | .comment => comment m (c :: cs)
  | .expression => expression m c cs

end Lexeme

end TemplateSyntax
