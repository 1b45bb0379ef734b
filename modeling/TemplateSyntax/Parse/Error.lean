import TemplateSyntax.Number.Decimal
import TemplateSyntax.Token.Basic

/-! # Parse Errors

  Parsing stops at the first token that it can make nothing of. An error says what is
  wrong and where the token at fault begins.
-/

namespace TemplateSyntax

/-- What would have been right where a token is not. -/
inductive Expected where
  | token (kind : Kind)
  | expression
  | propertyName
  | endOfIf
  | endOfSwitch
  | endOfFor
deriving DecidableEq, Repr

/-- The wording of what was expected. -/
def Expected.text : Expected → String
  | token kind => kind.name
  | expression => "expression"
  | propertyName => "property name"
  | endOfIf => "`\x7b/if\x7d`"
  | endOfSwitch => "`\x7b/switch\x7d`"
  | endOfFor => "`\x7b/for\x7d`"

/-- What is wrong with a template. -/
inductive Cause where
  /-- Blocks and expressions are nested deeper than the limit. -/
  | tooDeep (limit : Nat)
  | badInteger (text : String) (fault : Integer.Fault)
  | badDecimal (text : String) (fault : Decimal.Fault)
  /-- A token that begins no node. -/
  | unknown (kind : Kind) (text : String)
  /-- A token where another was expected. -/
  | unexpected (found : String) (expected : Expected)
  /-- The end of the input where a token was expected. -/
  | ended (expected : Expected)
deriving DecidableEq, Repr

/-- What is wrong, and the line and column where the token at fault begins. -/
structure ParseError where
  cause : Cause
  line : Nat
  column : Nat
deriving DecidableEq, Repr

namespace ParseError

/-- The error that a token is at fault for. -/
def blaming (t : Token) (cause : Cause) : ParseError :=
  ⟨cause, t.span.line, t.span.column⟩

/-- The place of an error, in words. -/
def place (e : ParseError) : String :=
  "at line " ++ toString e.line ++ ", column " ++ toString e.column

/-- The wording of an error. -/
def message (e : ParseError) : String :=
  match e.cause with
  | .tooDeep limit =>
    "Invalid syntax " ++ e.place ++ ": nesting deeper than " ++ toString limit ++ " levels"
  | .badInteger text fault =>
    "Invalid syntax " ++ e.place ++ ": integer literal " ++ text ++ ": " ++ fault.message
  | .badDecimal text fault =>
    "Invalid syntax " ++ e.place ++ ": float literal " ++ text ++ ": " ++ fault.message
  | .unknown kind text => "Unknown token " ++ kind.name ++ " \"" ++ text ++ "\" " ++ e.place
  | .unexpected found expected =>
    "Unexpected token \"" ++ found ++ "\" " ++ e.place ++ ", expected " ++ expected.text
  | .ended expected => "Unexpected end of file " ++ e.place ++ ", expected " ++ expected.text

end ParseError

end TemplateSyntax
