import TemplateSyntax.Number.Shortest

/-! # Layout of Decimals

  Once the digits of a number are chosen, a layout says how they are set: with the
  point in its place, or with one digit in front of the point and an exponent behind.
-/

namespace TemplateSyntax

/-- How a decimal is set. -/
structure DecimalLayout where
  /-- The least power of ten that is written without an exponent. -/
  least : Int
  /-- The greatest power of ten that is written without an exponent. -/
  greatest : Int
  /-- What stands before the exponent. -/
  mark : String
  /-- What stands behind a whole number that is written without an exponent. -/
  wholeTail : String
  infinity : String
  nan : String

namespace DecimalLayout

/-- Digits with the point in its place; `power` is the power of ten of the first. -/
def positional (l : DecimalLayout) (digits : List Char) (power : Int) : String :=
  if power < 0 then
    "0." ++ String.ofList (List.replicate (-power - 1).toNat '0' ++ digits)
  else
    let whole := power.toNat + 1
    if digits.length ≤ whole then
      String.ofList (digits ++ List.replicate (whole - digits.length) '0') ++ l.wholeTail
    else
      String.ofList (digits.take whole) ++ "." ++ String.ofList (digits.drop whole)

/-- Digits with an exponent, and a point behind the first if there are others. -/
def scientific (l : DecimalLayout) (digits : List Char) (power : Int) : String :=
  let head := String.ofList (digits.take 1)
  let tail := digits.drop 1
  head ++ (if tail.isEmpty then "" else "." ++ String.ofList tail) ++ l.mark ++ toString power

/-- A decimal, set by the power of ten of its first digit. -/
def unsigned (l : DecimalLayout) (d : Decimal.Scaled) : String :=
  let digits := decimalDigits d.coefficient
  let power := d.exponent + digits.length - 1
  if l.least ≤ power ∧ power ≤ l.greatest then l.positional digits power
  else l.scientific digits power

/-- The text of a number. -/
def render (l : DecimalLayout) (x : Binary64) : String :=
  if x.isNaN then l.nan
  else
    let body :=
      if x.isInfinite then l.infinity
      else if x.isZero then l.positional ['0'] 0
      else l.unsigned x.shortest
    if x.isNegative then "-" ++ body else body

/-- Numbers in dumps and diagnostics: an exponent from ten to the sixteenth up and
    below one ten-thousandth, and always a point in the others. -/
def dump : DecimalLayout :=
  { least := -4, greatest := 15, mark := "e", wholeTail := ".0",
    infinity := "inf", nan := "NaN" }

end DecimalLayout

end TemplateSyntax
