import TemplateSyntax.Text.Extender
import TemplateSyntax.Text.Ignorable
import TemplateSyntax.Text.Unprintable

/-! # Quoted Text

  Text between double quotes, in a form that can be read on a page: quotes and
  backslashes stand behind a backslash, the commonest controls have a letter of their
  own there, and whatever else leaves no mark of its own is written by its code point.
-/

namespace TemplateSyntax.Text

/-- A character by its code point, in hexadecimal digits between braces. -/
def codePointEscape (c : Char) : List Char :=
  ['\\', 'u', '{'] ++ Nat.toDigits 16 c.toNat ++ ['}']

/-- The quoted form of a character. -/
def escape (c : Char) : List Char :=
  if c = '"' then ['\\', '"']
  else if c = '\\' then ['\\', '\\']
  else if c = '\n' then ['\\', 'n']
  else if c = '\r' then ['\\', 'r']
  else if c = '\t' then ['\\', 't']
  else if c = '\x00' then ['\\', '0']
  else if isExtender c || isIgnorable c || isUnprintable c then codePointEscape c
  else [c]

/-- The quoted form of a text. -/
def quoted (s : String) : String :=
  .ofList ('"' :: (s.toList.flatMap escape ++ ['"']))

end TemplateSyntax.Text
