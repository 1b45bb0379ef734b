import TemplateSyntax.Text.Casing

/-! # Token Kinds

  The classes that the lexemes of a template fall into: stretches of markup, the
  tags and braces that separate them, and the words, operators, punctuation and
  literals of the expressions between braces.

  Every kind has a name (`Kind.name`) and is found again by it (`Kind.ofName?_name`),
  so no two have the same.
-/

namespace TemplateSyntax

/-- The class of a lexeme. -/
inductive Kind where
  -- The end of the input.
  | eof
  -- A line comment, from its two slashes to the end of the line.
  | comment
  -- Markup text, style text and script text.
  | text | textCss | textJs
  -- The braces of an expression block.
  | exprStart | exprEnd
  -- The tags of a script and of a style segment.
  | jsStart | jsEnd | cssStart | cssEnd
  -- The words that close a block.
  | forEnd | ifEnd | switchEnd
  -- The words that open a block or a part of one.
  | forStart | forIn | ifStart | elseStart | switchStart | caseStart | defaultStart
  | importStart
  -- Operators.
  | plus | minus | multiplication | division | equal | notEqual | lessThan | greaterThan
  | lessEqual | greaterEqual | logicalAnd | logicalOr | exclamation | questionMark
  -- Punctuation.
  | lParen | rParen | lBracket | rBracket | underscore | comma | period | colon
  -- Literals and names.
  | boolean | string | integer | float | identifier | null | undefined
  -- A character that begins no lexeme.
  | invalid
deriving DecidableEq, Repr, Inhabited

namespace Kind

/-- The name of a kind, as tokens and error messages show it. -/
def name : Kind → String
  | eof => "eof"
  | comment => "comment"
  | text => "text"
  | textCss => "text_css"
  | textJs => "text_js"
  | exprStart => "expr_start"
  | exprEnd => "expr_end"
  | jsStart => "js_start"
  | jsEnd => "js_end"
  | cssStart => "css_start"
  | cssEnd => "css_end"
  | forEnd => "for_end"
  | ifEnd => "if_end"
  | switchEnd => "switch_end"
  | forStart => "for_start"
  | forIn => "for_in"
  | ifStart => "if_start"
  | elseStart => "else_start"
  | switchStart => "switch_start"
  | caseStart => "case_start"
  | defaultStart => "default_start"
  | importStart => "import_start"
  | plus => "plus"
  | minus => "minus"
  | multiplication => "multiplication"
  | division => "division"
  | equal => "equal"
  | notEqual => "not_equal"
  | lessThan => "less_than"
  | greaterThan => "greater_than"
  | lessEqual => "less_equal"
  | greaterEqual => "greater_equal"
  | logicalAnd => "logical_and"
  | logicalOr => "logical_or"
  | exclamation => "exclamation"
  | questionMark => "question_mark"
  | lParen => "l_paren"
  | rParen => "r_paren"
  | lBracket => "l_bracket"
  | rBracket => "r_bracket"
  | underscore => "underscore"
  | comma => "comma"
  | period => "period"
  | colon => "colon"
  | boolean => "boolean"
  | string => "string"
  | integer => "integer"
  | float => "float"
  | identifier => "identifier"
  | null => "null"
  | undefined => "undefined"
  | invalid => "invalid"

/-- The name with a capital at the head of each of its parts. -/
def title (k : Kind) : String := Text.capitalised k.name

/-- Every kind, in the order of declaration. -/
def all : List Kind :=
  [.eof, .comment, .text, .textCss, .textJs, .exprStart, .exprEnd, .jsStart, .jsEnd, .cssStart,
   .cssEnd, .forEnd, .ifEnd, .switchEnd, .forStart, .forIn, .ifStart, .elseStart, .switchStart,
   .caseStart, .defaultStart, .importStart, .plus, .minus, .multiplication, .division, .equal,
   .notEqual, .lessThan, .greaterThan, .lessEqual, .greaterEqual, .logicalAnd, .logicalOr,
   .exclamation, .questionMark, .lParen, .rParen, .lBracket, .rBracket, .underscore, .comma,
   .period, .colon, .boolean, .string, .integer, .float, .identifier, .null, .undefined,
   .invalid]

/-- The kind that bears a name. -/
def ofName? (s : String) : Option Kind :=
  all.find? (·.name == s)

/-- A kind is found again by its name. -/
theorem ofName?_name (k : Kind) : ofName? k.name = some k := by
  cases k <;> decide

/-! ### Words -/

/-- The kind of a reserved word. -/
def keyword? : String → Option Kind
  | "for" => some .forStart
  | "in" => some .forIn
  | "if" => some .ifStart
  | "else" => some .elseStart
  | "switch" => some .switchStart
  | "case" => some .caseStart
  | "default" => some .defaultStart
  | "import" => some .importStart
  | "true" => some .boolean
  | "false" => some .boolean
  | "null" => some .null
  | "undefined" => some .undefined
  | _ => none

/-- The kind of a run of word characters that begins with a letter or an
    underscore: the underscore alone is punctuation, and a word that is not
    reserved is an identifier. -/
def ofWord (s : String) : Kind :=
  if s = "_" then .underscore else (keyword? s).getD .identifier

/-- The kind of the word behind a slash, if the two together close a block. -/
def closer? : String → Option Kind
  | "for" => some .forEnd
  | "if" => some .ifEnd
  | "switch" => some .switchEnd
  | _ => none

theorem eq_of_closer? {s : String} {k : Kind} (h : closer? s = some k) :
    k = .forEnd ∨ k = .ifEnd ∨ k = .switchEnd := by
  unfold closer? at h
  split at h <;> cases h <;> decide

/-! ### Classes -/

/-- The kinds that a template passes through as text: the three sorts of text and
    the tags of segments. -/
def isMarkup : Kind → Bool
  | text | textCss | textJs | jsStart | jsEnd | cssStart | cssEnd => true
  | _ => false

/-- The kinds of words. A property may be named by any of them. -/
def isWord : Kind → Bool
  | identifier | forStart | forIn | ifStart | elseStart | switchStart | caseStart
  | defaultStart | importStart | boolean | null | undefined => true
  | _ => false

/-- The kinds of words that may stand for a variable: identifiers, and the reserved
    words that open a block or a part of one, `default` apart. -/
def isVariable : Kind → Bool
  | identifier | forStart | forIn | ifStart | elseStart | switchStart | caseStart
  | importStart => true
  | _ => false

/-- Whatever can name a variable can name a property. -/
theorem isWord_of_isVariable {k : Kind} (h : k.isVariable) : k.isWord := by
  cases k <;> simp_all [isVariable, isWord]

/-- A word is never markup. -/
theorem isMarkup_eq_false_of_isWord {k : Kind} (h : k.isWord) : k.isMarkup = false := by
  cases k <;> simp_all [isMarkup, isWord]

end Kind

end TemplateSyntax
