import TemplateSyntax.Number.Binary64
import TemplateSyntax.Number.Integer

/-! # Decimal Literals

  A decimal literal is an optional sign, digits with an optional point among or
  around them, and an optional exponent; or one of the words for infinity and for
  what is no number. It is read as the nearest binary64 number; digits around a point
  are never refused (`read_digits`).
-/

namespace TemplateSyntax.Decimal

/-- What can be wrong with a decimal literal. -/
inductive Fault where
  | empty
  | invalid
deriving DecidableEq, Repr

/-- The wording of a fault. -/
def Fault.message : Fault → String
  | empty => "cannot parse float from empty string"
  | invalid => "invalid float literal"

/-- An unsigned decimal: a whole number times a power of ten. -/
structure Scaled where
  coefficient : Nat
  exponent : Int
deriving DecidableEq, Repr

/-- The nearest binary64 number. -/
def Scaled.toBinary64 (negative : Bool) (d : Scaled) : Binary64 :=
  if 0 ≤ d.exponent then
    .ofQuotient negative (d.coefficient * Nat.pow 10 d.exponent.toNat) 1
  else .ofQuotient negative d.coefficient (Nat.pow 10 (-d.exponent).toNat)

/-- Splits a leading sign off; `true` is minus. -/
def splitSign : List Char → Bool × List Char
  | '-' :: cs => (true, cs)
  | '+' :: cs => (false, cs)
  | cs => (false, cs)

/-- The value of the digits of an exponent. It stops growing where no number of
    binary64 is left to tell apart. -/
def exponentValue (cs : List Char) : Nat :=
  cs.foldl (fun value c => if value < 0x10000 then 10 * value + digitValue c else value) 0

/-- Reads what is behind the digits: nothing, or an exponent. -/
def readExponent : List Char → Option Int
  | [] => some 0
  | c :: cs =>
    if c = 'e' ∨ c = 'E' then
      let (negative, digits) := splitSign cs
      if digits ≠ [] ∧ digits.all Char.isDigit then
        some (if negative then -(exponentValue digits : Int) else exponentValue digits)
      else none
    else none

/-- Splits the fraction digits off, if there is a point in front of them. -/
def splitFraction : List Char → List Char × List Char
  | '.' :: cs => (cs.takeWhile Char.isDigit, cs.dropWhile Char.isDigit)
  | cs => ([], cs)

/-- Reads digits with an optional point and exponent. There is at least one digit in
    front of the exponent. -/
def readScaled (cs : List Char) : Option Scaled :=
  let whole := cs.takeWhile Char.isDigit
  let (fraction, rest) := splitFraction (cs.dropWhile Char.isDigit)
  if whole = [] ∧ fraction = [] then none
  else (readExponent rest).map fun e => ⟨digitsValue (whole ++ fraction), e - fraction.length⟩

/-- Reads the words for infinity and for what is no number, in any case. -/
def readWord (negative : Bool) (cs : List Char) : Option Binary64 :=
  match String.ofList (cs.map Char.toLower) with
  | "inf" | "infinity" => some (.infinity negative)
  | "nan" => some (.nan negative)
  | _ => none

/-- The value of a decimal literal. -/
def read (text : String) : Except Fault Binary64 :=
  if text.isEmpty then .error .empty
  else
    let (negative, cs) := splitSign text.toList
    match (readScaled cs).map (·.toBinary64 negative) <|> readWord negative cs with
    | some x => .ok x
    | none => .error .invalid

/-! ### Reading Digits around a Point -/

/-- What begins with a digit begins with no sign. -/
theorem splitSign_of_isDigit {c : Char} {cs : List Char} (h : c.isDigit) :
    splitSign (c :: cs) = (false, c :: cs) := by
  unfold splitSign
  split
  · rename_i he; cases he; exact absurd h (by decide)
  · rename_i he; cases he; exact absurd h (by decide)
  · rfl

theorem readScaled_digits {whole fraction : List Char} (nonempty : whole ≠ [])
    (wholeDigits : ∀ c ∈ whole, c.isDigit) (fractionDigits : ∀ c ∈ fraction, c.isDigit) :
    readScaled (whole ++ '.' :: fraction)
      = some ⟨digitsValue (whole ++ fraction), -fraction.length⟩ := by
  have point : ('.').isDigit = false := by decide
  have htake : (whole ++ '.' :: fraction).takeWhile Char.isDigit = whole := by
    rw [List.takeWhile_append_of_pos wholeDigits]; simp [point]
  have hdrop : (whole ++ '.' :: fraction).dropWhile Char.isDigit = '.' :: fraction := by
    rw [List.dropWhile_append_of_pos wholeDigits]; simp [point]
  have hall : fraction.takeWhile Char.isDigit = fraction := by
    rw [← List.append_nil fraction, List.takeWhile_append_of_pos fractionDigits]; simp
  have hnone : fraction.dropWhile Char.isDigit = [] := by
    rw [← List.append_nil fraction, List.dropWhile_append_of_pos fractionDigits]; simp
  simp [readScaled, htake, hdrop, splitFraction, hall, hnone, nonempty, readExponent]

/-- Digits around a point are read as the nearest number. -/
theorem read_digits {text : String} {whole fraction : List Char}
    (written : text.toList = whole ++ '.' :: fraction) (nonempty : whole ≠ [])
    (wholeDigits : ∀ c ∈ whole, c.isDigit) (fractionDigits : ∀ c ∈ fraction, c.isDigit) :
    read text
      = .ok (Scaled.toBinary64 false ⟨digitsValue (whole ++ fraction), -fraction.length⟩) := by
  have hempty : text.isEmpty = false := by
    rw [← Bool.not_eq_true, String.isEmpty_iff, ← String.toList_eq_nil_iff, written]
    simp
  have hsign : splitSign text.toList = (false, text.toList) := by
    obtain ⟨c, cs, rfl⟩ := List.exists_cons_of_ne_nil nonempty
    rw [written]
    exact splitSign_of_isDigit (wholeDigits c (by simp))
  have hscaled := readScaled_digits nonempty wholeDigits fractionDigits
  rw [← written] at hscaled
  simp [read, hempty, hsign, hscaled]

end TemplateSyntax.Decimal
