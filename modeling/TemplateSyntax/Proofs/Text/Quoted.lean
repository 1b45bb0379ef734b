import TemplateSyntax.Text.Quoted

/-! # Reading Quoted Text

  What stands in quotes is read back character by character. The quoted form of a character is
  told from what follows it by itself (`character?_escape`), and none begins like the closing
  quote, so a text is read up to there, whatever comes behind (`unquote?_escape`). It may hold
  quotes and backslashes, or what looks like the quoted form of something else.

  Every character of a quoted text is printable (`printable_quoted`), so none of them breaks a
  line.
-/

namespace TemplateSyntax.Text

/-! ## Stretches up to a Mark -/

/-- What stands in front of the first such character, and what stands behind it. -/
def upTo? (mark : Char) : List Char → Option (List Char × List Char)
  | [] => none
  | c :: cs =>
    if c = mark then some ([], cs)
    else (upTo? mark cs).map fun (front, rest) => (c :: front, rest)

theorem upTo?_append {mark : Char} {u : List Char} (h : mark ∉ u) (rest : List Char) :
    upTo? mark (u ++ mark :: rest) = some (u, rest) := by
  induction u with
  | nil => simp [upTo?]
  | cons c u ih =>
    obtain ⟨hc, hu⟩ := not_or.mp (mt List.mem_cons.mpr h)
    rw [List.cons_append, upTo?, if_neg (Ne.symm hc), ih hu]
    rfl

theorem length_lt_of_upTo? {mark : Char} {cs front rest : List Char}
    (h : upTo? mark cs = some (front, rest)) : rest.length < cs.length := by
  induction cs generalizing front with
  | nil => cases h
  | cons c cs ih =>
    unfold upTo? at h
    split at h
    · cases h
      exact Nat.lt_succ_self _
    · obtain ⟨⟨front, rest⟩, h, heq⟩ := Option.map_eq_some_iff.mp h
      cases heq
      exact Nat.lt_succ_of_lt (ih h)

/-! ## Code Points -/

/-- The value of a hexadecimal digit. -/
def hexDigit (c : Char) : Nat :=
  if c.isDigit then c.toNat - '0'.toNat else 10 + (c.toNat - 'a'.toNat)

/-- The value of a row of hexadecimal digits. -/
def hexNumber (cs : List Char) : Nat :=
  cs.foldl (fun value c => 16 * value + hexDigit c) 0

theorem hexDigit_digitChar : ∀ d < 16, hexDigit d.digitChar = d := by decide

/-- The hexadecimal digits of a number have its value. -/
theorem hexNumber_toDigits (n : Nat) : hexNumber (Nat.toDigits 16 n) = n := by
  induction n using Nat.strongRecOn with
  | ind n ih =>
    by_cases hn : n < 16
    · rw [Nat.toDigits_of_lt_base hn]
      show 16 * 0 + hexDigit n.digitChar = n
      rw [hexDigit_digitChar n hn, Nat.mul_zero, Nat.zero_add]
    · have hlast : n % 16 < 16 := Nat.mod_lt n (by decide)
      rw [Nat.toDigits_of_base_le (by decide) (by omega), hexNumber, List.foldl_append]
      show 16 * hexNumber (Nat.toDigits 16 (n / 16)) + hexDigit (n % 16).digitChar = n
      rw [ih (n / 16) (by omega), hexDigit_digitChar _ hlast]
      exact Nat.div_add_mod n 16

theorem exists_digit_of_mem_toDigits {base n : Nat} {c : Char} (hbase : 1 < base)
    (h : c ∈ Nat.toDigits base n) : ∃ d < base, c = d.digitChar := by
  induction n using Nat.strongRecOn with
  | ind n ih =>
    by_cases hn : n < base
    · rw [Nat.toDigits_of_lt_base hn, List.mem_singleton] at h
      exact ⟨n, hn, h⟩
    · rw [Nat.toDigits_of_base_le hbase (by omega), List.mem_append, List.mem_singleton] at h
      rcases h with h | h
      · exact ih (n / base) (Nat.div_lt_self (by omega) hbase) h
      · exact ⟨n % base, Nat.mod_lt n (by omega), h⟩

/-! ## Quoted Characters -/

/-- The character that a letter stands for behind a backslash. -/
def unescape? : Char → Option Char
  | '"' => some '"'
  | '\\' => some '\\'
  | 'n' => some '\n'
  | 'r' => some '\r'
  | 't' => some '\t'
  | '0' => some '\x00'
  | _ => none

/-- The first character of some quoted text, and the quoted text behind it. A quote that stands
    for itself is none. -/
def character? : List Char → Option (Char × List Char)
  | '\\' :: 'u' :: '{' :: cs =>
    (upTo? '}' cs).map fun (digits, rest) => (.ofNat (hexNumber digits), rest)
  | '\\' :: c :: cs => (unescape? c).map fun c => (c, cs)
  | c :: cs => if c = '"' || c = '\\' then none else some (c, cs)
  | [] => none

theorem character?_codePointEscape (c : Char) (rest : List Char) :
    character? (codePointEscape c ++ rest) = some (c, rest) := by
  have hmark : '}' ∉ Nat.toDigits 16 c.toNat := by
    intro h
    obtain ⟨d, hd, heq⟩ := exists_digit_of_mem_toDigits (by decide) h
    exact absurd heq.symm (Nat.digitChar_ne '}' (by decide))
  have happend : codePointEscape c ++ rest
      = '\\' :: 'u' :: '{' :: (Nat.toDigits 16 c.toNat ++ '}' :: rest) := by
    simp [codePointEscape]
  rw [happend, character?, upTo?_append hmark]
  show some (Char.ofNat (hexNumber (Nat.toDigits 16 c.toNat)), rest) = some (c, rest)
  rw [hexNumber_toDigits, Char.ofNat_toNat]

/-- The quoted form of a character is read back, whatever follows. -/
theorem character?_escape (c : Char) (rest : List Char) :
    character? (escape c ++ rest) = some (c, rest) := by
  fun_cases escape c with
  | case1 | case2 | case3 | case4 | case5 | case6 =>
    subst_vars
    rfl
  | case7 => exact character?_codePointEscape c rest
  | case8 hquote hbackslash =>
    simp [character?, hquote, hbackslash]

theorem length_lt_of_character? {cs rest : List Char} {c : Char}
    (h : character? cs = some (c, rest)) : rest.length < cs.length := by
  unfold character? at h
  split at h
  · obtain ⟨⟨digits, rest⟩, h, heq⟩ := Option.map_eq_some_iff.mp h
    cases heq
    have := length_lt_of_upTo? h
    simp only [List.length_cons]
    omega
  · obtain ⟨c, -, heq⟩ := Option.map_eq_some_iff.mp h
    cases heq
    simp only [List.length_cons]
    omega
  · split at h <;> cases h
    exact Nat.lt_succ_self _
  · cases h

/-! ## Quoted Texts -/

/-- The text of some quoted text up to the closing quote, and what stands behind this. -/
def unquote? (cs : List Char) : Option (List Char × List Char) :=
  match _h : character? cs with
  | some (c, rest) => (unquote? rest).map fun (text, behind) => (c :: text, behind)
  | none => if cs.head? = some '"' then some ([], cs.tail) else none
termination_by cs.length
decreasing_by exact length_lt_of_character? ‹_›

theorem unquote?_of_character? {cs rest : List Char} {c : Char}
    (h : character? cs = some (c, rest)) :
    unquote? cs = (unquote? rest).map fun (text, behind) => (c :: text, behind) := by
  rw [unquote?, h]

theorem unquote?_quote (behind : List Char) : unquote? ('"' :: behind) = some ([], behind) := by
  rw [unquote?]
  rfl

/-- The quoted form of a text is read back up to the closing quote, whatever follows that. -/
theorem unquote?_escape (text behind : List Char) :
    unquote? (text.flatMap escape ++ '"' :: behind) = some (text, behind) := by
  induction text with
  | nil => exact unquote?_quote behind
  | cons c text ih =>
    rw [List.flatMap_cons, List.append_assoc, unquote?_of_character? (character?_escape c _), ih]
    rfl

/-- The text that stands in quotes, with nothing behind them. -/
def unquoted? : List Char → Option (List Char)
  | '"' :: cs =>
    match unquote? cs with
    | some (text, []) => some text
    | _ => none
  | _ => none

theorem unquoted?_quoted (s : String) : unquoted? (quoted s).toList = some s.toList := by
  rw [quoted, String.toList_ofList, unquoted?, unquote?_escape]

/-! ## Printable Characters -/

/-- None of the characters is unprintable. -/
def Printable (cs : List Char) : Prop := ∀ c ∈ cs, isUnprintable c = false

theorem printable_of_all {cs : List Char} (h : cs.all (!isUnprintable ·) = true) :
    Printable cs := by
  intro c hc
  have hprintable := List.all_eq_true.mp h c hc
  simpa using hprintable

theorem printable_append {cs ds : List Char} :
    Printable (cs ++ ds) ↔ Printable cs ∧ Printable ds :=
  List.forall_mem_append

theorem printable_cons {c : Char} {cs : List Char} :
    Printable (c :: cs) ↔ isUnprintable c = false ∧ Printable cs :=
  List.forall_mem_cons

theorem printable_replicate {c : Char} (h : isUnprintable c = false) (n : Nat) :
    Printable (List.replicate n c) := by
  intro d hd
  rw [List.eq_of_mem_replicate hd]
  exact h

theorem printable_toDigits {base : Nat} (hbase : 1 < base) (hle : base ≤ 16) (n : Nat) :
    Printable (Nat.toDigits base n) := by
  intro c hc
  obtain ⟨d, hd, rfl⟩ := exists_digit_of_mem_toDigits hbase hc
  have hall : ∀ d < 16, isUnprintable d.digitChar = false := by decide
  exact hall d (Nat.lt_of_lt_of_le hd hle)

/-- The quoted form of a character is printable, whether the character is or not. -/
theorem printable_escape (c : Char) : Printable (escape c) := by
  fun_cases escape c with
  | case1 | case2 | case3 | case4 | case5 | case6 => exact printable_of_all (by decide)
  | case7 =>
    have hdigits : Printable (Nat.toDigits 16 c.toNat) :=
      printable_toDigits (by decide) (by decide) _
    rw [codePointEscape, printable_append, printable_append]
    exact ⟨⟨printable_of_all (by decide), hdigits⟩, printable_of_all (by decide)⟩
  | case8 _ _ _ _ _ _ hmark =>
    -- What is left as it is has been found printable.
    simp only [Bool.or_eq_true, not_or, Bool.not_eq_true] at hmark
    exact printable_cons.mpr ⟨hmark.2, printable_of_all rfl⟩

theorem printable_quoted (s : String) : Printable (quoted s).toList := by
  rw [quoted, String.toList_ofList, printable_cons, printable_append]
  refine ⟨by decide, ?_, printable_of_all (by decide)⟩
  intro c hc
  obtain ⟨d, -, hd⟩ := List.mem_flatMap.mp hc
  exact printable_escape d c hd

end TemplateSyntax.Text
