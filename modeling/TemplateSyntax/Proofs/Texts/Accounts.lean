import TemplateSyntax.Proofs.Texts.Basic

/-! # Accounts of Texts

  An account of some tokens says what texts they tell if the headers of the switch blocks
  among them end at certain cursors (`Accounts`). Accounts of tokens one after another add
  up (`Accounts.append`), because what one header leaves out lies among the tokens that it
  belongs to. The tokens of expressions tell nothing (`Grammar.Conditional.silent`).
-/

namespace TemplateSyntax

open Grammar

/-! ## Tokens That Tell Nothing -/

/-- A kind that is neither text nor comment nor the end of the input. -/
def Kind.Silent (k : Kind) : Prop := k.isLeaf = false ∧ k ≠ .eof

instance (k : Kind) : Decidable k.Silent := inferInstanceAs (Decidable (_ ∧ _))

/-- No token of the row tells anything. -/
def Silent (u : List Token) : Prop := ∀ t ∈ u, t.kind.Silent

theorem silent_nil : Silent [] := List.forall_mem_nil _

theorem silent_cons {t : Token} {k : Kind} {u : List Token} (ht : t.kind = k) (hk : k.Silent)
    (hu : Silent u) : Silent (t :: u) :=
  List.forall_mem_cons.mpr ⟨ht ▸ hk, hu⟩

theorem silent_append {u v : List Token} (hu : Silent u) (hv : Silent v) : Silent (u ++ v) :=
  List.forall_mem_append.mpr ⟨hu, hv⟩

/-- Between two signs, and in front of them, nothing is told. -/
theorem silent_around {u v : List Token} {l r : Token} {kl kr : Kind} (hu : Silent u)
    (hl : l.kind = kl) (hkl : kl.Silent) (hv : Silent v) (hr : r.kind = kr) (hkr : kr.Silent) :
    Silent (u ++ l :: (v ++ [r])) :=
  silent_append hu (silent_cons hl hkl (silent_append hv (silent_cons hr hkr silent_nil)))

theorem BinaryOp.silent_kind (op : BinaryOp) : op.kind.Silent := by
  cases op <;> decide

theorem UnaryOp.silent_kind (op : UnaryOp) : op.kind.Silent := by
  cases op <;> decide

theorem Kind.silent_of_isWord {k : Kind} (h : k.isWord = true) : k.Silent := by
  revert h
  cases k <;> decide

namespace Grammar

mutual

/-- The tokens of an expression tell nothing. -/
theorem Conditional.silent {n u e} (h : Conditional n u e) : Silent u :=
  match h with
  | .single h => h.silent
  | .choice hc hm ha hs hb =>
    silent_append hc.silent (silent_cons hm (by decide)
      (silent_append ha.silent (silent_cons hs (by decide) hb.silent)))
termination_by structural h

theorem Binary.silent {i n u e} (h : Binary i n u e) : Silent u :=
  match h with
  | .unary h => h.silent
  | .tighter h => h.silent
  | .operation hl ht hr =>
    silent_append hl.silent (silent_cons ht (BinaryOp.silent_kind _) hr.silent)
termination_by structural h

theorem Unary.silent {n u e} (h : Unary n u e) : Silent u :=
  match h with
  | .primary h => h.silent
  | .operation ht h => silent_cons ht (UnaryOp.silent_kind _) h.silent
termination_by structural h

theorem Primary.silent {n u e} (h : Primary n u e) : Silent u :=
  match h with
  | .parenthesised hl h hr =>
    silent_around silent_nil hl (by decide) h.silent hr (by decide)
  | .integer ht _ | .float ht _ | .string ht | .boolean ht =>
    silent_cons ht (by decide) silent_nil
  | .null (.inl ht) | .null (.inr ht) => silent_cons ht (by decide) silent_nil
  | .chain h => h.silent
termination_by structural h

theorem Chain.silent {n u e} (h : Chain n u e) : Silent u :=
  match h with
  | .head ht => silent_cons rfl (Kind.silent_of_isWord (Kind.isWord_of_isVariable ht)) silent_nil
  | .property h hp ht =>
    silent_append h.silent (silent_cons hp (by decide)
      (silent_cons rfl (Kind.silent_of_isWord ht) silent_nil))
  | .index h hl hk hr =>
    silent_around h.silent hl (by decide) hk.silent hr (by decide)
  | .call h hl ha hr =>
    silent_around h.silent hl (by decide) ha.silent hr (by decide)
termination_by structural h

theorem Arguments.silent {n u es} (h : Arguments n u es) : Silent u :=
  match h with
  | .none => silent_nil
  | .some h => h.silent
termination_by structural h

theorem Expressions.silent {n u es} (h : Expressions n u es) : Silent u :=
  match h with
  | .single h => h.silent
  | .cons h ht hs => silent_append h.silent (silent_cons ht (by decide) hs.silent)
termination_by structural h

end

theorem Closing.silent {word : Kind} {v : List Token} (h : Closing word v)
    (hword : word.Silent) : Silent v := by
  cases h with
  | mk ha hb hc =>
    exact silent_cons ha (by decide) (silent_cons hb hword (silent_cons hc (by decide) silent_nil))

theorem Counter.silent {i : List Token} {index : Option String} (h : Counter i index) :
    Silent i := by
  cases h with
  | none => exact silent_nil
  | some hc hn =>
    exact silent_cons hc (by decide) (silent_cons hn (by decide) silent_nil)

end Grammar

/-! ## Accounts -/

/-- If `heads` are where the headers of the switch blocks among the tokens `u` end, in front
    of `r`, then these tokens tell the texts `ss`. -/
structure Accounts (heads : Cursor → Prop) (u r : List Token) (ss : List String)
    (switches : Bool) : Prop where
  /-- What the headers leave out lies among these tokens. -/
  inside : ∀ d v, heads d → Between d.ahead v → Inner u r v
  /-- Where nothing else is left out of them, they tell their texts before what follows. -/
  tells : ∀ (out : List Token → Prop) ss',
    (∀ v, Inner u r v → (out v ↔ ∃ d, heads d ∧ Between d.ahead v)) → Tells out r ss' →
      Tells out (u ++ r) (ss ++ ss')
  /-- Without switch blocks there are no headers. -/
  quiet : switches = false → ∀ d, ¬ heads d

namespace Accounts

variable {heads heads₁ heads₂ : Cursor → Prop} {u v r : List Token} {ss ss₁ ss₂ : List String}
  {switches switches₁ switches₂ : Bool} {t : Token} {s : Span}

theorem congr (h : Accounts heads₁ u r ss switches) (hheads : ∀ d, heads d ↔ heads₁ d) :
    Accounts heads u r ss switches := by
  have heq : heads = heads₁ := funext fun d => propext (hheads d)
  rw [heq]
  exact h

/-- Where there may be switch blocks, nothing is said of the headers. -/
theorem noisy (h : Accounts heads u r ss switches) : Accounts heads u r ss true :=
  { h with quiet := nofun }

/-- Accounts of tokens one after another add up. -/
theorem append (h₁ : Accounts heads₁ u (v ++ r) ss₁ switches₁)
    (h₂ : Accounts heads₂ v r ss₂ switches₂) :
    Accounts (fun d => heads₁ d ∨ heads₂ d) (u ++ v) r (ss₁ ++ ss₂)
      (switches₁ || switches₂) where
  inside := by
    rintro d z (hd | hd) hz
    · obtain ⟨w, hne, hw, rfl⟩ := h₁.inside d z hd hz
      obtain ⟨y, rfl⟩ := hw
      refine ⟨w ++ v, by simp [hne], ⟨y, (List.append_assoc y w v).symm⟩, ?_⟩
      exact (List.append_assoc w v r).symm
    · obtain ⟨w, hne, hw, rfl⟩ := h₂.inside d z hd hz
      exact ⟨w, hne, hw.trans (List.suffix_append u v), rfl⟩
  tells := by
    intro out ss' hout htells
    -- A place among the first tokens is none among the second, which are fewer.
    have hdisjoint : ∀ z, Inner u (v ++ r) z → ¬ Inner v r z := by
      rintro z ⟨w, hne, -, rfl⟩ ⟨w', -, hw', hz⟩
      have hlength := congrArg List.length hz
      have hpos := List.length_pos_iff.mpr hne
      have hle := hw'.length_le
      simp only [List.length_append] at hlength
      omega
    -- So each of the two accounts only has to know its own headers.
    have hsecond : Tells out (v ++ r) (ss₂ ++ ss') := by
      apply h₂.tells out ss' _ htells
      rintro z ⟨w, hne, hw, rfl⟩
      rw [hout _ ⟨w, hne, hw.trans (List.suffix_append u v), rfl⟩]
      constructor
      · rintro ⟨d, hd | hd, hz⟩
        · exact absurd ⟨w, hne, hw, rfl⟩ (hdisjoint _ (h₁.inside d _ hd hz))
        · exact ⟨d, hd, hz⟩
      · rintro ⟨d, hd, hz⟩
        exact ⟨d, .inr hd, hz⟩
    rw [List.append_assoc, List.append_assoc]
    apply h₁.tells out _ _ hsecond
    rintro z ⟨w, hne, ⟨y, rfl⟩, rfl⟩
    have hin : Inner (y ++ w ++ v) r (w ++ (v ++ r)) :=
      ⟨w ++ v, by simp [hne], ⟨y, (List.append_assoc y w v).symm⟩,
        (List.append_assoc w v r).symm⟩
    rw [hout _ hin]
    constructor
    · rintro ⟨d, hd | hd, hz⟩
      · exact ⟨d, hd, hz⟩
      · exact absurd (h₂.inside d _ hd hz) (hdisjoint _ ⟨w, hne, ⟨y, rfl⟩, rfl⟩)
    · rintro ⟨d, hd, hz⟩
      exact ⟨d, .inl hd, hz⟩
  quiet := by
    intro hnone d
    rw [Bool.or_eq_false_iff] at hnone
    rintro (hd | hd)
    · exact h₁.quiet hnone.1 d hd
    · exact h₂.quiet hnone.2 d hd

/-- Silent tokens tell nothing and hold no headers. -/
theorem silent (hu : Silent u) : Accounts (fun _ => False) u r [] false where
  inside := nofun
  tells := by
    intro out ss' hout htells
    clear hout
    induction u with
    | nil => exact htells
    | cons t u ih =>
      obtain ⟨ht, hu⟩ := List.forall_mem_cons.mp hu
      exact .other ht.2 ht.1 (ih hu)
  quiet := fun _ _ => id

/-- A text or a comment tells itself. -/
theorem leaf (ht : t.kind.isLeaf = true) : Accounts (fun _ => False) [t] r [t.text] false where
  inside := nofun
  tells := by
    intro out ss' hout htells
    have hin : Inner [t] r (t :: r) := ⟨[t], List.cons_ne_nil t [], List.suffix_refl _, rfl⟩
    have hkept : ¬ out (t :: r) := by
      rw [hout _ hin]
      rintro ⟨d, hd, -⟩
      exact hd
    exact .told ht hkept htells
  quiet := fun _ _ => id

/-- Behind silent tokens the account is the same. -/
theorem behind (hu : Silent u) (h : Accounts heads v r ss switches) :
    Accounts heads (u ++ v) r ss switches := by
  have hboth := (silent hu (r := v ++ r)).append h
  rw [List.nil_append, Bool.false_or] at hboth
  exact hboth.congr fun d => (iff_of_eq (false_or _)).symm

theorem cons {k : Kind} (ht : t.kind = k) (hk : k.Silent) (h : Accounts heads u r ss switches) :
    Accounts heads (t :: u) r ss switches :=
  behind (silent_cons ht hk silent_nil) h

/-- In front of silent tokens the account is the same. -/
theorem before (h : Accounts heads u (v ++ r) ss switches) (hv : Silent v) :
    Accounts heads (u ++ v) r ss switches := by
  have hboth := h.append (silent hv (r := r))
  rw [List.append_nil, Bool.or_false] at hboth
  exact hboth.congr fun d => (iff_of_eq (or_false _)).symm

/-- Tokens that are passed over behind a header tell nothing. -/
theorem passed (hu : Passed u) (hr : AtBrace Parse.caseEnds r) :
    Accounts (fun d => d = ⟨u ++ r, s⟩) u r [] true where
  inside := by
    rintro d v rfl hv
    exact (between_iff_inner hu hr).mp hv
  tells := by
    intro out ss' hout htells
    have hleft : ∀ v, Inner u r v → out v := by
      intro v hv
      exact (hout v hv).mpr ⟨_, rfl, (between_iff_inner hu hr).mpr hv⟩
    -- All of these tokens are left out, so the induction need not know what else is.
    clear hout
    induction hu with
    | nil => exact htells
    | @cons t u he _ _ ih =>
      have hrest : Tells out (u ++ r) ([] ++ ss') := by
        apply ih
        rintro v ⟨w, hne, hw, rfl⟩
        exact hleft _ ⟨w, hne, hw.trans (List.suffix_cons t u), rfl⟩
      by_cases ht : t.kind.isLeaf = true
      · exact .leftOut ht (hleft _ ⟨t :: u, List.cons_ne_nil t u, List.suffix_refl _, rfl⟩) hrest
      · exact .other he (Bool.eq_false_iff.mpr ht) hrest
  quiet := nofun

end Accounts

end TemplateSyntax
