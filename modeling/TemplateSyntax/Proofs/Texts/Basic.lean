import TemplateSyntax.Proofs.Grammar.Nodes.Basic

/-! # The Texts of a Template

  The texts of a tree, from left to right (`Program.texts`), and the texts of a row of tokens
  up to the first ending one, without those of some tokens that are left out (`Tells`). The
  tokens are told apart by what stands behind them.

  Behind the header of a switch block, the tokens up to the first brace with a word of a case
  are such tokens (`Between`).
-/

namespace TemplateSyntax

/-! ## Texts of Trees -/

mutual

/-- The texts and comments of a node, from left to right. -/
def Node.texts : Node → List String
  | .program body => Node.rowTexts body
  | .text value | .comment value => [value]
  | .ifBlock block => block.texts
  | .switchBlock _ cases => Case.rowTexts cases
  | .forBlock _ _ _ body => Node.rowTexts body
  | .importFile _ | .interpolation _ => []

/-- The texts of a condition's nodes and of its alternates. -/
def IfBlock.texts : IfBlock → List String
  | ⟨_, consequent, alternate⟩ => Node.rowTexts consequent ++ Alternate.texts? alternate

/-- The texts of an alternate. -/
def Alternate.texts : Alternate → List String
  | .elseIf block => block.texts
  | .otherwise body => Node.rowTexts body

/-- The texts of an alternate, if there is one. -/
def Alternate.texts? : Option Alternate → List String
  | none => []
  | some a => a.texts

/-- The texts of a part of a switch block. -/
def Case.texts : Case → List String
  | .case _ body | .default body => Node.rowTexts body

/-- The texts of the parts of a switch block. -/
def Case.rowTexts : List Case → List String
  | [] => []
  | x :: xs => x.texts ++ Case.rowTexts xs

/-- The texts of nodes. -/
def Node.rowTexts : List Node → List String
  | [] => []
  | x :: xs => x.texts ++ Node.rowTexts xs

end

mutual

/-- Whether there is a switch block in a node. -/
def Node.switches : Node → Bool
  | .program body => Node.rowSwitches body
  | .ifBlock block => block.switches
  | .switchBlock _ _ => true
  | .forBlock _ _ _ body => Node.rowSwitches body
  | .text _ | .comment _ | .importFile _ | .interpolation _ => false

/-- Whether there is a switch block in a condition's nodes or in its alternates. -/
def IfBlock.switches : IfBlock → Bool
  | ⟨_, consequent, alternate⟩ => Node.rowSwitches consequent || Alternate.switches? alternate

/-- Whether there is a switch block in an alternate. -/
def Alternate.switches : Alternate → Bool
  | .elseIf block => block.switches
  | .otherwise body => Node.rowSwitches body

/-- Whether there is a switch block in an alternate, if there is one. -/
def Alternate.switches? : Option Alternate → Bool
  | none => false
  | some a => a.switches

/-- Whether there is a switch block among some nodes. -/
def Node.rowSwitches : List Node → Bool
  | [] => false
  | x :: xs => x.switches || Node.rowSwitches xs

end

/-- The texts and comments of a template, from left to right. -/
def Program.texts (p : Program) : List String := Node.rowTexts p.body

/-- Whether there is a switch block in a template. -/
def Program.switches (p : Program) : Bool := Node.rowSwitches p.body

/-! ## Texts of Tokens -/

/-- The kinds of tokens whose text is a node. -/
def Kind.isLeaf (k : Kind) : Bool := k.isMarkup || k = .comment

/-- The texts of the markup and the comments in front of the first ending token, if some of
    them are left out. -/
inductive Tells (out : List Token → Prop) : List Token → List String → Prop where
  | nil : Tells out [] []
  | ending {t ts} (he : t.kind = .eof) : Tells out (t :: ts) []
  | other {t ts ss} (he : t.kind ≠ .eof) (ht : t.kind.isLeaf = false) (hs : Tells out ts ss) :
      Tells out (t :: ts) ss
  | told {t ts ss} (ht : t.kind.isLeaf = true) (ho : ¬ out (t :: ts)) (hs : Tells out ts ss) :
      Tells out (t :: ts) (t.text :: ss)
  | leftOut {t ts ss} (ht : t.kind.isLeaf = true) (ho : out (t :: ts)) (hs : Tells out ts ss) :
      Tells out (t :: ts) ss

/-- The texts of the markup and the comments in front of the first ending token. -/
def leafTexts (ts : List Token) : List String :=
  ((ts.takeWhile (·.kind ≠ .eof)).filter (·.kind.isLeaf)).map (·.text)

/-- Tokens tell one row of texts. -/
theorem Tells.unique {out : List Token → Prop} {ts : List Token} {ss ss' : List String}
    (h : Tells out ts ss) (h' : Tells out ts ss') : ss = ss' := by
  induction h generalizing ss' with
  | nil =>
    cases h'
    rfl
  | ending he =>
    cases h' with
    | ending => rfl
    | other hne => exact absurd he hne
    | told ht | leftOut ht =>
      rw [he] at ht
      cases ht
  | other he ht _ ih =>
    cases h' with
    | ending he' => exact absurd he' he
    | other _ _ hs' => exact ih hs'
    | told ht' | leftOut ht' =>
      rw [ht] at ht'
      cases ht'
  | told ht ho _ ih =>
    cases h' with
    | ending he =>
      rw [he] at ht
      cases ht
    | other _ ht' =>
      rw [ht] at ht'
      cases ht'
    | told _ _ hs' => rw [ih hs']
    | leftOut _ ho' => exact absurd ho' ho
  | leftOut ht ho _ ih =>
    cases h' with
    | ending he =>
      rw [he] at ht
      cases ht
    | other _ ht' =>
      rw [ht] at ht'
      cases ht'
    | told _ ho' => exact absurd ho ho'
    | leftOut _ _ hs' => exact ih hs'

/-- With none of them left out, all the texts are told. -/
theorem tells_leafTexts (ts : List Token) : Tells (fun _ => False) ts (leafTexts ts) := by
  induction ts with
  | nil => exact .nil
  | cons t ts ih =>
    by_cases he : t.kind = .eof
    · rw [leafTexts, List.takeWhile_cons_of_neg (by simpa using he)]
      exact .ending he
    · rw [leafTexts, List.takeWhile_cons_of_pos (by simpa using he), List.filter_cons]
      by_cases ht : t.kind.isLeaf = true
      · rw [if_pos ht]
        exact .told ht id ih
      · rw [if_neg ht]
        exact .other he (Bool.eq_false_iff.mpr ht) ih

/-! ## Tokens That Are Passed Over -/

/-- The tokens `v` begin among `d`, in front of the first brace with a word of a case. -/
def Between (d v : List Token) : Prop :=
  v <:+ d ∧ ∀ w, v <:+ w → w <:+ d → ¬ Grammar.AtBrace Parse.caseEnds w

theorem Grammar.Passed.suffix {j w : List Token} (hj : Passed j) (hw : w <:+ j) : Passed w := by
  induction hj with
  | nil =>
    rw [List.suffix_nil.mp hw]
    exact .nil
  | cons he hb hu ih =>
    rcases List.suffix_cons_iff.mp hw with rfl | hw
    · exact .cons he hb hu
    · exact ih hw

/-- The tokens `v` begin with one of the tokens `u`, in front of `r`. -/
def Inner (u r v : List Token) : Prop := ∃ w, w ≠ [] ∧ w <:+ u ∧ v = w ++ r

/-- What begins among some tokens begins in their first or in their second part. -/
theorem inner_of_suffix {u r v : List Token} (h : v <:+ u ++ r) : Inner u r v ∨ v <:+ r := by
  induction u with
  | nil => exact .inr h
  | cons t u ih =>
    rw [List.cons_append] at h
    rcases List.suffix_cons_iff.mp h with rfl | h
    · exact .inl ⟨t :: u, List.cons_ne_nil t u, List.suffix_refl _, rfl⟩
    · rcases ih h with ⟨w, hne, hw, rfl⟩ | hr
      · exact .inl ⟨w, hne, hw.trans (List.suffix_cons t u), rfl⟩
      · exact .inr hr

/-- In front of a brace with a word of a case, tokens that may be passed over are all that
    lies between. -/
theorem between_iff_inner {j r v : List Token} (hj : Grammar.Passed j)
    (hr : Grammar.AtBrace Parse.caseEnds r) : Between (j ++ r) v ↔ Inner j r v := by
  constructor
  · rintro ⟨hv, hnone⟩
    rcases inner_of_suffix hv with hin | hin
    · exact hin
    · exact absurd hr (hnone r hin (List.suffix_append j r))
  · rintro ⟨w, hne, hw, rfl⟩
    obtain ⟨y, rfl⟩ := hw
    constructor
    · exact ⟨y, (List.append_assoc y w r).symm⟩
    · intro z hz hzj
      rcases inner_of_suffix hzj with ⟨w', hne', hw', rfl⟩ | hzr
      · exact (hj.suffix hw').not_atBrace hne' hr
      · -- It cannot begin behind all of them, for it takes in `w`.
        have hlength := (hz.trans hzr).length_le
        have hpos := List.length_pos_iff.mpr hne
        rw [List.length_append] at hlength
        omega

end TemplateSyntax
