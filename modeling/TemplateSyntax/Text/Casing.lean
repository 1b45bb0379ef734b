/-! # Casing of Compound Words

  A compound word is written either in lower case with its parts joined by
  underscores (`not_equal`), or with a capital at the head of every part and
  nothing between them (`NotEqual`). The first form names a thing in answers, the
  second in dumps, and the second is computed from the first.
-/

namespace TemplateSyntax.Text

/-- Drops every underscore and capitalises the letter behind it; `head` says
    whether the first character is capitalised as well. -/
def joinParts (head : Bool) : List Char → List Char
  | [] => []
  | c :: cs =>
    if c = '_' then joinParts true cs
    else (if head then c.toUpper else c) :: joinParts false cs

/-- The spelling of an underscored word with capitals at the heads of its parts. -/
def capitalised (word : String) : String :=
  .ofList (joinParts true word.toList)

end TemplateSyntax.Text
