/-! # Double Precision Numbers

  A binary64 number is a word of 64 bits: a sign, an exponent field of 11 bits and a
  fraction of 52. A finite one stands for its mantissa times a power of two, and
  exact arithmetic on natural numbers says which of them lies nearest to a given
  quotient.
-/

namespace TemplateSyntax

/-- A number of the binary64 format, given by its bits. -/
structure Binary64 where
  bits : UInt64
deriving DecidableEq, Repr, Inhabited

namespace Binary64

/-! ### Parts -/

/-- The weight of the sign bit in a word. -/
def signWeight : Nat := 0x8000000000000000

/-- The weight of the last bit of the exponent field. The fraction is below it. -/
def fieldWeight : Nat := 0x10000000000000

/-- The exponent field of infinities and of what is no number. -/
def topField : Nat := 0x7ff

/-- Whether the sign bit is set. -/
def isNegative (x : Binary64) : Bool := signWeight ≤ x.bits.toNat

/-- The bits below the sign, as a number. On non-negative numbers they are ordered
    as the values are. -/
def magnitude (x : Binary64) : Nat := x.bits.toNat % signWeight

/-- The exponent field. -/
def field (x : Binary64) : Nat := x.magnitude / fieldWeight

/-- The fraction field. -/
def fraction (x : Binary64) : Nat := x.magnitude % fieldWeight

def isFinite (x : Binary64) : Bool := x.field ≠ topField

def isInfinite (x : Binary64) : Bool := x.field = topField ∧ x.fraction = 0

def isNaN (x : Binary64) : Bool := x.field = topField ∧ x.fraction ≠ 0

def isZero (x : Binary64) : Bool := x.magnitude = 0

/-- The mantissa of a finite number: the fraction, below a leading one unless the
    exponent field is zero. -/
def mantissa (x : Binary64) : Nat :=
  if x.field = 0 then x.fraction else fieldWeight + x.fraction

/-- The power of two that the mantissa is multiplied with. -/
def exponent (x : Binary64) : Int := (max 1 x.field : Nat) - 1075

/-- The number with the given sign and bits below it. -/
def ofMagnitude (negative : Bool) (magnitude : Nat) : Binary64 :=
  ⟨.ofNat (if negative then signWeight + magnitude else magnitude)⟩

/-- Positive infinity, or negative. -/
def infinity (negative : Bool) : Binary64 :=
  ofMagnitude negative (topField * fieldWeight)

/-- What is no number. -/
def nan (negative : Bool) : Binary64 :=
  ofMagnitude negative (topField * fieldWeight + fieldWeight / 2)

/-! ### Comparison -/

/-- Equality of values: what is no number equals nothing, and the two zeros are
    equal. -/
def equal (x y : Binary64) : Bool :=
  !x.isNaN && !y.isNaN && (x == y || (x.isZero && y.isZero))

/-! ### Rounding -/

/-- The natural number nearest to a quotient. Of two that are equally near, the even
    one. -/
def roundQuotient (num den : Nat) : Nat :=
  let below := num / den
  let rest := num % den
  if 2 * rest < den then below
  else if den < 2 * rest then below + 1
  else if below % 2 = 0 then below else below + 1

/-- A quotient divided by a power of two. -/
def scaleDown (num den : Nat) (q : Int) : Nat × Nat :=
  if 0 ≤ q then (num, den <<< q.toNat) else (num <<< (-q).toNat, den)

/-- The greatest power of two, as its exponent, that a positive quotient reaches. -/
def log2Quotient (num den : Nat) : Int :=
  let guess : Int := (Nat.log2 num : Int) - Nat.log2 den
  let scaled := scaleDown num den guess
  if scaled.2 ≤ scaled.1 then guess else guess - 1

/-- The exponent of the grid that a positive quotient is rounded on: fine enough for
    53 bits of it, but not finer than the least positive number. -/
def gridExponent (num den : Nat) : Int :=
  max (log2Quotient num den - 52) (-1074)

/-- The number nearest to a quotient, with the given sign. Of two that are equally
    near, the one whose last bit is zero; beyond the greatest number, infinity. -/
def ofQuotient (negative : Bool) (num den : Nat) : Binary64 :=
  if num = 0 then ofMagnitude negative 0
  else
    let q := gridExponent num den
    let scaled := scaleDown num den q
    let magnitude := (q + 1074).toNat * fieldWeight + roundQuotient scaled.1 scaled.2
    ofMagnitude negative (min magnitude (topField * fieldWeight))

/-- The number nearest to a natural number. -/
def ofNat (n : Nat) : Binary64 := ofQuotient false n 1

end Binary64

end TemplateSyntax
