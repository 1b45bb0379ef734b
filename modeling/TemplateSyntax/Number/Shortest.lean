import TemplateSyntax.Number.Decimal

/-! # Shortest Decimals

  The decimal written for a number is the one with the fewest digits that reads back
  as that number; of several with equally few digits, the nearest to it, and of two
  equally near, the greater.

  Everything that reads back lies between the midpoints to the two neighbours of the
  number. A grid of powers of ten has a point in that interval exactly if one of the
  two grid points around the number lies in it, so only these are tried, on finer
  and finer grids.
-/

namespace TemplateSyntax

/-- A number with the interval of what reads back as it, all counted in one power of
    ten. -/
structure Neighbourhood where
  /-- The power of ten, as its exponent. -/
  unit : Int
  low : Nat
  value : Nat
  high : Nat
  /-- Whether the two ends read back as well. -/
  closed : Bool
deriving DecidableEq, Repr

namespace Neighbourhood

/-- The neighbourhood of a finite number. The gap below a power of two is half the
    gap above it, except at the least exponent; a midpoint reads back as the number
    if the number's mantissa is even. -/
def of (x : Binary64) : Neighbourhood :=
  let m := x.mantissa
  let q := x.exponent - 2
  let factor := if 0 ≤ q then 1 <<< q.toNat else Nat.pow 5 (-q).toNat
  let narrow := x.fraction = 0 ∧ 1 < x.field
  { unit := min q 0
    low := (4 * m - if narrow then 1 else 2) * factor
    value := 4 * m * factor
    high := (4 * m + 2) * factor
    closed := m % 2 = 0 }

/-- Whether a number of units reads back. -/
def contains (n : Neighbourhood) (k : Nat) : Bool :=
  if n.closed then n.low ≤ k && k ≤ n.high else n.low < k && k < n.high

/-- The multiple of `step` that reads back and is nearest to the number; the greater
    one if two are. -/
def onGrid? (n : Neighbourhood) (step : Nat) : Option Nat :=
  let below := n.value / step * step
  let above := below + step
  if n.contains below && !(n.contains above && above - n.value ≤ n.value - below) then
    some below
  else if n.contains above then some above
  else none

end Neighbourhood

/-- Moves the zeros at the end of a coefficient into the exponent. -/
def Decimal.Scaled.trim (d : Scaled) : Scaled :=
  if _h : d.coefficient ≠ 0 ∧ d.coefficient % 10 = 0 then
    trim ⟨d.coefficient / 10, d.exponent + 1⟩
  else d
termination_by d.coefficient
decreasing_by exact Nat.div_lt_self (Nat.pos_of_ne_zero _h.1) (by decide)

/-- The digits of a natural number, the most significant first. -/
def decimalDigits (n : Nat) : List Char := Nat.toDigits 10 n

/-- The shortest decimal that reads back as a finite positive number, the sign apart.
    Seventeen digits always suffice. -/
def Binary64.shortest (x : Binary64) : Decimal.Scaled :=
  let n := Neighbourhood.of x
  let length := (decimalDigits n.value).length
  let found := (List.range 17).findSome? fun k => n.onGrid? (Nat.pow 10 (length - (k + 1)))
  (Decimal.Scaled.mk (found.getD n.value) n.unit).trim

end TemplateSyntax
