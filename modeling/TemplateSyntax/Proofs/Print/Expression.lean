import TemplateSyntax.Proofs.Print.Basic

/-! # Written Expressions

  Tokens that are what the signs of a well-formed expression say write this expression in
  the grammar, within as many levels as it takes: on its own level of binding
  (`Expr.written_of_writes`), as a whole (`Expr.conditional_of_writes`), and as one of a row
  with commas (`Expr.expressions_of_writes`).
-/

namespace TemplateSyntax

open Grammar

/-! ## Integer Literals -/

/-- A number that is not below zero is read from its decimal digits. -/
theorem Integer.read_toString {v : Int64} (h : 0 ≤ v.toInt) :
    Integer.read (toString v.toInt.toNat) = .ok v := by
  have htext : (toString v.toInt.toNat).toList = Nat.toDigits 10 v.toInt.toNat := by
    rw [Nat.toString_eq_ofList_toDigits, String.toList_ofList]
  have hmax : v.toInt.toNat ≤ maxValue := by
    have := v.toInt_lt
    unfold maxValue
    omega
  rw [Integer.read_digits, htext, digitsValue_toDigits, if_pos hmax]
  · congr 1
    apply Int64.toInt_inj.mp
    rw [Int64.toInt_ofNat_of_lt (by unfold maxValue at hmax; omega)]
    exact Int.toNat_of_nonneg h
  · rw [htext]
    exact Nat.toDigits_ne_nil
  · intro c hc
    rw [htext] at hc
    exact Nat.isDigit_of_mem_toDigits (by decide) (by decide) hc

/-! ## Levels -/

theorem BinaryOp.level_pos (op : BinaryOp) : 0 < op.level := by
  cases op <;> decide

namespace Expr

theorem level_of_headed {e : Expr} (h : e.headed = true) : e.level = 8 := by
  cases e <;> first | rfl | cases h

/-- What some tokens are for an expression that takes so many levels besides its own: the
    expression as a whole, an operand on its level and all looser ones, and if it is a name
    with suffixes, what further ones may follow. -/
structure Written (n : Nat) (u : List Token) (e : Expr) : Prop where
  whole : Conditional (n + 1) u e
  operand : ∀ i, 0 < i → i ≤ 7 → i ≤ e.level → Binary i n u e
  chain : e.headed = true → Chain n u e

variable {n : Nat} {u : List Token} {e : Expr}

/-- A choice is no operand. -/
theorem written_of_conditional (h : Conditional (n + 1) u e) (hl : e.level = 0) :
    Written n u e where
  whole := h
  operand := by
    intro i hpos _ hi
    omega
  chain := by
    intro hh
    have := level_of_headed hh
    omega

theorem written_of_binary {i : Nat} (h : Binary i n u e) (hl : e.level = i) (hpos : 0 < i)
    (hi : i ≤ 7) : Written n u e where
  whole := .single (h.loosen hpos)
  operand := by
    intro j _ _ hj
    exact h.loosen (by omega)
  chain := by
    intro hh
    have := level_of_headed hh
    omega

theorem written_of_primary (h : Primary n u e) (hh : e.headed = false) : Written n u e where
  whole := .single ((Binary.unary (.primary h)).loosen (by decide))
  operand := by
    intro j _ hj _
    exact (Binary.unary (.primary h)).loosen hj
  chain := by
    intro ht
    rw [hh] at ht
    cases ht

theorem written_of_chain (h : Chain n u e) : Written n u e where
  whole := .single ((Binary.unary (.primary (.chain h))).loosen (by decide))
  operand := by
    intro j _ hj _
    exact (Binary.unary (.primary (.chain h))).loosen hj
  chain := fun _ => h

/-- A whole expression takes a level. -/
theorem conditional_of_written (h : ∀ n u, e.depth ≤ n → Writes u e.signs → Written n u e)
    (hd : e.depth + 1 ≤ n) (hu : Writes u e.signs) : Conditional n u e := by
  cases n with
  | zero => cases hd
  | succ n => exact (h n u (Nat.le_of_succ_le_succ hd) hu).whole

/-- An operand is in parentheses if it does not hold together as tightly as it has to. -/
theorem binary_of_written {i : Nat} (hpos : 0 < i) (hi : i ≤ 7)
    (h : ∀ n u, e.depth ≤ n → Writes u e.signs → Written n u e)
    (hd : enclosedDepth (e.level < i) e.depth ≤ n)
    (hu : Writes u (enclosed (e.level < i) e.signs)) : Binary i n u e := by
  unfold enclosedDepth at hd
  unfold enclosed at hu
  by_cases hl : e.level < i
  · rw [if_pos (decide_eq_true hl)] at hd hu
    obtain ⟨l, v, rfl, hleft, hv⟩ := hu.cons_inv
    obtain ⟨w, z, rfl, hw, hz⟩ := hv.append_inv
    obtain ⟨r, rfl, hright⟩ := hz.single_inv
    have hinner := conditional_of_written h hd hw
    exact (Binary.unary (.primary (.parenthesised hleft hinner hright))).loosen hi
  · rw [if_neg (by simpa using hl)] at hd hu
    exact (h n u hd hu).operand i hpos hi (by omega)

/-- Between the parentheses of a call there may be nothing. -/
theorem arguments_of_written {es : List Expr} (hu : Writes u (rowSigns es))
    (h : es ≠ [] → Expressions n u es) : Arguments n u es := by
  cases es with
  | nil =>
    rw [hu.nil_inv]
    exact .none
  | cons e es => exact .some (h nofun)

/-! ## Expressions from their Tokens -/

theorem isIdentifier_iff : e.isIdentifier = true ↔ ∃ name, e = identifier name := by
  cases e <;> simp [isIdentifier]

mutual

/-- Tokens that are what the signs of an expression say write this expression. -/
theorem written_of_writes : ∀ {e : Expr}, e.wellFormed = true →
    ∀ n ts, e.depth ≤ n → Writes ts e.signs → Written n ts e
  | conditional c a b, hwell, n, ts, hd, hts => by
    simp only [wellFormed, Bool.and_eq_true] at hwell
    simp only [depth, Nat.max_le] at hd
    obtain ⟨⟨hc, ha⟩, hb⟩ := hwell
    obtain ⟨u, mark, z, rfl, hu, hmark, hz⟩ := hts.append_cons_inv
    obtain ⟨v, colon, w, rfl, hv, hcolon, hw⟩ := hz.append_cons_inv
    have hcondition := binary_of_written (by decide) (by decide) (written_of_writes hc) hd.1 hu
    have hconsequent := conditional_of_written (written_of_writes ha) hd.2.1 hv
    have halternate := conditional_of_written (written_of_writes hb) hd.2.2 hw
    exact written_of_conditional (.choice hcondition hmark hconsequent hcolon halternate) rfl
  | binary a op b, hwell, n, ts, hd, hts => by
    simp only [wellFormed, Bool.and_eq_true] at hwell
    simp only [depth, Nat.max_le] at hd
    obtain ⟨u, sign, v, rfl, hu, hsign, hv⟩ := hts.append_cons_inv
    have hpos := op.level_pos
    have hlt := op.level_lt
    have hleft := binary_of_written hpos (by omega) (written_of_writes hwell.1) hd.1 hu
    have hright := binary_of_written (by omega) hlt (written_of_writes hwell.2) hd.2 hv
    exact written_of_binary (.operation hleft hsign hright) rfl hpos (by omega)
  | unary op e, hwell, n + 1, ts, hd, hts => by
    obtain ⟨sign, u, rfl, hsign, hu⟩ := hts.cons_inv
    have hoperand := binary_of_written (i := 7) (by decide) (by decide)
      (written_of_writes (e := e) hwell) (Nat.le_of_succ_le_succ hd) hu
    exact written_of_binary (.unary (.operation hsign hoperand.unary_of_seven)) rfl (by decide)
      (by decide)
  | member object property true, hwell, n, ts, hd, hts => by
    simp only [wellFormed, Bool.and_eq_true] at hwell
    simp only [depth, Nat.max_le] at hd
    obtain ⟨⟨⟨hheaded, hobject⟩, hproperty⟩, -⟩ := hwell
    obtain ⟨u, l, z, rfl, hu, hl, hz⟩ := hts.append_cons_inv
    obtain ⟨v, z, rfl, hv, hz⟩ := hz.append_inv
    obtain ⟨r, rfl, hr⟩ := hz.single_inv
    -- An object is a name with suffixes, which takes one more without any parentheses.
    have hchain := (written_of_writes hobject n u hd.1 hu).chain hheaded
    have hkey := conditional_of_written (written_of_writes hproperty) hd.2 hv
    exact written_of_chain (.index hchain hl hkey hr)
  | member object property false, hwell, n, ts, hd, hts => by
    simp only [wellFormed, Bool.and_eq_true, Bool.false_or] at hwell
    obtain ⟨⟨⟨hheaded, hobject⟩, -⟩, hname⟩ := hwell
    obtain ⟨name, rfl⟩ := isIdentifier_iff.mp hname
    obtain ⟨u, p, z, rfl, hu, hp, hz⟩ := hts.append_cons_inv
    obtain ⟨t, rfl, ht, rfl⟩ := hz.single_inv
    have hchain := (written_of_writes hobject n u hd hu).chain hheaded
    exact written_of_chain (.property hchain hp (by rw [ht]; rfl))
  | call callee args, hwell, n, ts, hd, hts => by
    simp only [wellFormed, Bool.and_eq_true] at hwell
    simp only [depth, Nat.max_le] at hd
    obtain ⟨⟨hheaded, hcallee⟩, hargs⟩ := hwell
    obtain ⟨u, l, z, rfl, hu, hl, hz⟩ := hts.append_cons_inv
    obtain ⟨v, z, rfl, hv, hz⟩ := hz.append_inv
    obtain ⟨r, rfl, hr⟩ := hz.single_inv
    have hchain := (written_of_writes hcallee n u hd.1 hu).chain hheaded
    have harguments := arguments_of_written hv fun hne =>
      expressions_of_writes hargs hne hd.2 hv
    exact written_of_chain (.call hchain hl harguments hr)
  | identifier name, _, n, ts, _, hts => by
    obtain ⟨t, rfl, ht, rfl⟩ := hts.single_inv
    exact written_of_chain (.head (by rw [ht]; rfl))
  | null, _, n, ts, _, hts => by
    obtain ⟨t, rfl, ht⟩ := hts.single_inv
    exact written_of_primary (.null (.inl ht)) rfl
  | int value, hwell, n, ts, _, hts => by
    obtain ⟨t, rfl, ht, htext⟩ := hts.single_inv
    -- Below zero there would be no digits to read the number from.
    have hread := Integer.read_toString (of_decide_eq_true hwell)
    rw [← htext] at hread
    exact written_of_primary (.integer ht hread) rfl
  | float value, _, n, ts, _, hts => by
    obtain ⟨t, rfl, ht, hread⟩ := hts.single_inv
    exact written_of_primary (.float ht hread) rfl
  | string value, _, n, ts, _, hts => by
    obtain ⟨t, rfl, ht, rfl⟩ := hts.single_inv
    exact written_of_primary (.string ht) rfl
  | boolean value, _, n, ts, _, hts => by
    obtain ⟨t, rfl, ht, htext⟩ := hts.single_inv
    have hvalue : (t.text == "true") = value := by
      rw [htext]
      cases value <;> rfl
    rw [← hvalue]
    exact written_of_primary (.boolean ht) rfl
termination_by structural e => e

/-- Tokens for expressions with commas between them write these, if there are any. -/
theorem expressions_of_writes : ∀ {es : List Expr}, rowWellFormed es = true → es ≠ [] →
    ∀ {n ts}, rowDepth es ≤ n → Writes ts (rowSigns es) → Expressions n ts es
  | [e], hwell, _, n, ts, hd, hts => by
    rw [rowWellFormed, Bool.and_eq_true] at hwell
    rw [rowDepth, Nat.max_le] at hd
    exact .single (conditional_of_written (written_of_writes hwell.1) hd.1 hts)
  | e :: e' :: es, hwell, _, n, ts, hd, hts => by
    rw [rowWellFormed, Bool.and_eq_true] at hwell
    rw [rowDepth, Nat.max_le] at hd
    obtain ⟨u, t, v, rfl, hu, ht, hv⟩ := hts.append_cons_inv
    have hfirst := conditional_of_written (written_of_writes hwell.1) hd.1 hu
    exact .cons hfirst ht (expressions_of_writes hwell.2 nofun hd.2 hv)
termination_by structural es => es

end

/-- Tokens for a whole expression write it, on a level of its own. -/
theorem conditional_of_writes (hwell : e.wellFormed = true) (hd : e.depth + 1 ≤ n)
    (hu : Writes u e.signs) : Conditional n u e :=
  conditional_of_written (written_of_writes hwell) hd hu

end Expr

/-! ## First Tokens -/

/-- The kinds of tokens that a written expression begins with. Unlike those that any
    expression may begin with, there is no word of a block among them. -/
def Kind.opensWritten : Kind → Bool
  | .identifier | .lParen | .integer | .float | .string | .boolean | .null | .minus
  | .exclamation => true
  | _ => false

namespace Expr

/-- What a row of signs begins with lets an expression begin there. -/
def Opens (signs : List Sign) : Prop :=
  ∃ s rest, signs = s :: rest ∧ ∀ t : Token, t.Shows s → t.kind.opensWritten = true

theorem Opens.append {a : List Sign} (h : Opens a) (b : List Sign) : Opens (a ++ b) := by
  obtain ⟨s, rest, rfl, hs⟩ := h
  exact ⟨s, rest ++ b, rfl, hs⟩

theorem Opens.enclosed {a : List Sign} (h : Opens a) (needed : Bool) :
    Opens (enclosed needed a) := by
  cases needed with
  | false => exact h
  | true => exact ⟨.mark .lParen, _, rfl, fun t (ht : t.kind = _) => by rw [ht]; rfl⟩

theorem opens_mark {k : Kind} (hk : k.opensWritten = true) (rest : List Sign) :
    Opens (.mark k :: rest) :=
  ⟨_, _, rfl, fun t (ht : t.kind = k) => by rw [ht]; exact hk⟩

theorem opens_lexeme {k : Kind} (hk : k.opensWritten = true) (text : String) :
    Opens [.lexeme k text] :=
  ⟨_, _, rfl, fun t (ht : t.kind = k ∧ _) => by rw [ht.1]; exact hk⟩

/-- The signs of every expression do. -/
theorem opens_signs : ∀ e : Expr, Opens e.signs
  | conditional c _ _ => ((opens_signs c).enclosed _).append _
  | binary a _ _ => ((opens_signs a).enclosed _).append _
  | unary op _ => opens_mark (by cases op <;> rfl) _
  | member object _ true => (opens_signs object).append _
  | member object _ false => (opens_signs object).append _
  | identifier name => opens_lexeme rfl name
  | call callee _ => (opens_signs callee).append _
  | null => opens_mark rfl []
  | int _ => opens_lexeme rfl _
  | float _ => ⟨_, _, rfl, fun t (ht : t.kind = _ ∧ _) => by rw [ht.1]; rfl⟩
  | string value => opens_lexeme rfl value
  | boolean _ => opens_lexeme rfl _

/-- Tokens for an expression begin with one of the kinds that let it begin. -/
theorem first_of_writes {e : Expr} {u : List Token} (hu : Writes u e.signs) :
    ∃ t v, u = t :: v ∧ t.kind.opensWritten = true := by
  obtain ⟨s, rest, hsigns, hs⟩ := opens_signs e
  rw [hsigns] at hu
  obtain ⟨t, v, rfl, ht, -⟩ := hu.cons_inv
  exact ⟨t, v, rfl, hs t ht⟩

end Expr

end TemplateSyntax
