/-! # Ranges of Characters

  A class of characters given by ranges of code points, in ascending order, so that
  the search ends at the first range that begins behind the character.
-/

namespace TemplateSyntax.Text

/-- Ranges of code points, both ends included, in ascending order. -/
abbrev Ranges := List (Nat × Nat)

namespace Ranges

/-- Whether a code point lies in one of the ranges. Behind a range that begins after it
    there is none. -/
def contains : Ranges → Nat → Bool
  | [], _ => false
  | (low, high) :: rest, n => if n < low then false else n ≤ high || contains rest n

end Ranges

end TemplateSyntax.Text
