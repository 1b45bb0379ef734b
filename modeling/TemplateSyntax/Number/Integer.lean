/-! # Integer Literals

  An integer literal is an optional sign and decimal digits whose value fits a
  signed 64-bit word. It is read from left to right, and the first character at
  fault decides what is wrong with it: one that is no digit, or the digit with which
  the value leaves the range. Digits without a sign are read as their value exactly
  if it fits (`read_digits`).
-/

namespace TemplateSyntax

/-- The value of a decimal digit. -/
def digitValue (c : Char) : Nat := c.toNat - '0'.toNat

/-- The value of a row of decimal digits. -/
def digitsValue (cs : List Char) : Nat :=
  cs.foldl (fun value c => 10 * value + digitValue c) 0

/-- The digits of a number have its value. -/
theorem digitsValue_toDigits (n : Nat) : digitsValue (Nat.toDigits 10 n) = n := by
  calc digitsValue (Nat.toDigits 10 n)
      = Nat.ofDigitChars 10 (Nat.toDigits 10 n) 0 := Nat.ofDigitChars_eq_foldl.symm
    _ = n := Nat.ofDigitChars_ten_toDigits

namespace Integer

/-- What can be wrong with an integer literal. -/
inductive Fault where
  | empty
  | invalidDigit
  | tooLarge
  | tooSmall
deriving DecidableEq, Repr

/-- The wording of a fault. -/
def Fault.message : Fault → String
  | empty => "cannot parse integer from empty string"
  | invalidDigit => "invalid digit found in string"
  | tooLarge => "number too large to fit in target type"
  | tooSmall => "number too small to fit in target type"

/-- The greatest value of a literal. -/
def maxValue : Nat := 0x7fffffffffffffff

/-- Reads digits behind the ones that have the given value, as long as the value
    stays within the limit. -/
def magnitude (limit : Nat) (excess : Fault) (value : Nat) : List Char → Except Fault Nat
  | [] => .ok value
  | c :: cs =>
    if c.isDigit then
      if 10 * value + digitValue c ≤ limit then
        magnitude limit excess (10 * value + digitValue c) cs
      else .error excess
    else .error .invalidDigit

/-- The value of an integer literal. -/
def read (text : String) : Except Fault Int64 :=
  match text.toList with
  | [] => .error .empty
  | ['+'] | ['-'] => .error .invalidDigit
  | '-' :: cs => (magnitude (maxValue + 1) .tooSmall 0 cs).map fun n => .ofInt (-n)
  | '+' :: cs => (magnitude maxValue .tooLarge 0 cs).map Int64.ofNat
  | cs => (magnitude maxValue .tooLarge 0 cs).map Int64.ofNat

/-! ### Reading Digits -/

/-- Further digits never make a value smaller. -/
theorem le_foldl_digits (cs : List Char) (value : Nat) :
    value ≤ cs.foldl (fun v c => 10 * v + digitValue c) value := by
  induction cs generalizing value with
  | nil => exact Nat.le_refl value
  | cons c cs ih => exact Nat.le_trans (by omega) (ih (10 * value + digitValue c))

/-- Digits are read as their value if it keeps within the limit, and are refused if it
    does not. -/
theorem magnitude_digits {limit : Nat} {excess : Fault} {cs : List Char} {value : Nat}
    (digits : ∀ c ∈ cs, c.isDigit) (start : value ≤ limit) :
    magnitude limit excess value cs
      = if cs.foldl (fun v c => 10 * v + digitValue c) value ≤ limit then
          .ok (cs.foldl (fun v c => 10 * v + digitValue c) value)
        else .error excess := by
  induction cs generalizing value with
  | nil => simp [magnitude, start]
  | cons c cs ih =>
    rw [magnitude, if_pos (digits c (by simp))]
    by_cases h : 10 * value + digitValue c ≤ limit
    · rw [if_pos h]
      exact ih (fun d hd => digits d (by simp [hd])) h
    · have hle := le_foldl_digits cs (10 * value + digitValue c)
      rw [if_neg h]
      exact (if_neg fun hs => h (Nat.le_trans hle hs)).symm

/-- A literal without a sign is read as its value, if that fits. -/
theorem read_digits {text : String} (nonempty : text.toList ≠ [])
    (digits : ∀ c ∈ text.toList, c.isDigit) :
    read text
      = if digitsValue text.toList ≤ maxValue then .ok (.ofNat (digitsValue text.toList))
        else .error .tooLarge := by
  have unsigned : read text = (magnitude maxValue .tooLarge 0 text.toList).map Int64.ofNat := by
    unfold read
    split
    · contradiction
    · rename_i h; exact absurd (digits '+' (by simp [h])) (by decide)
    · rename_i h; exact absurd (digits '-' (by simp [h])) (by decide)
    · rename_i h; exact absurd (digits '-' (by simp [h])) (by decide)
    · rename_i h; exact absurd (digits '+' (by simp [h])) (by decide)
    · rfl
  rw [unsigned, magnitude_digits digits (Nat.zero_le _)]
  unfold digitsValue
  split <;> rfl

end Integer

end TemplateSyntax
