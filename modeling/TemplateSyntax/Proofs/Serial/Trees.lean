import TemplateSyntax.Proofs.Serial.Data
import TemplateSyntax.Tree.Equal

/-! # Serialized Trees Tell Trees Apart

  Trees whose plain data are the same agree, and those that agree have one plain form
  (`serial_tells_apart`). This holds up to the order of fields, so no field of a part is hidden
  by another one, be it the tag that says which part it is.

  The tag is looked at first: it says which part a record was made of, and so which fields the
  two records have in common (`Expr.tag_eq_of_same`, `Node.tag_eq_of_same`). The rest is an
  induction over the trees, one case for each kind of part.
-/

namespace TemplateSyntax

open Datum
open Binary64 (alike)

theorem BinaryOp.eq_of_name {op op' : BinaryOp} (h : op.name = op'.name) : op = op' := by
  have hsome := congrArg BinaryOp.ofName? h
  rw [ofName?_name, ofName?_name] at hsome
  exact Option.some.inj hsome

theorem UnaryOp.eq_of_name {op op' : UnaryOp} (h : op.name = op'.name) : op = op' := by
  have hsome := congrArg UnaryOp.ofName? h
  rw [ofName?_name, ofName?_name] at hsome
  exact Option.some.inj hsome

/-! ## Expressions -/

/-- The tag of an expression. -/
def Expr.tag : Expr → String
  | .conditional .. => "conditional"
  | .binary .. => "binary"
  | .unary .. => "unary"
  | .member .. => "member"
  | .identifier _ => "identifier"
  | .call .. => "function_call"
  | .null => "null"
  | .int _ => "int"
  | .float _ => "float"
  | .string _ => "string"
  | .boolean _ => "boolean"

theorem Expr.field?_type (e : Expr) : e.serial.field? "type" = some (.text e.tag) := by
  cases e <;> rfl

theorem Expr.tag_eq_of_same {a b : Expr} (h : Same a.serial b.serial) : a.tag = b.tag :=
  eq_of_same_text (h.field "type" a.field?_type b.field?_type)

mutual

theorem Expr.agree_of_same : ∀ a b : Expr, Same a.serial b.serial → a.agree alike b = true
  | .conditional c x y, b, h => by
    have htag := tag_eq_of_same h
    cases b with
    | conditional c' x' y' =>
      have hc := Expr.agree_of_same c c' (h.field "condition" rfl rfl)
      have hx := Expr.agree_of_same x x' (h.field "consequent" rfl rfl)
      have hy := Expr.agree_of_same y y' (h.field "alternate" rfl rfl)
      simp [Expr.agree, hc, hx, hy]
    | _ => exact absurd htag (by simp [Expr.tag])
  | .binary l op r, b, h => by
    have htag := tag_eq_of_same h
    cases b with
    | binary l' op' r' =>
      have hl := Expr.agree_of_same l l' (h.field "left" rfl rfl)
      have hop := BinaryOp.eq_of_name (eq_of_same_text (h.field "operator" rfl rfl))
      have hr := Expr.agree_of_same r r' (h.field "right" rfl rfl)
      simp [Expr.agree, hl, hop, hr]
    | _ => exact absurd htag (by simp [Expr.tag])
  | .unary op e, b, h => by
    have htag := tag_eq_of_same h
    cases b with
    | unary op' e' =>
      have hop := UnaryOp.eq_of_name (eq_of_same_text (h.field "operator" rfl rfl))
      have he := Expr.agree_of_same e e' (h.field "operand" rfl rfl)
      simp [Expr.agree, hop, he]
    | _ => exact absurd htag (by simp [Expr.tag])
  | .member o p k, b, h => by
    have htag := tag_eq_of_same h
    cases b with
    | member o' p' k' =>
      have ho := Expr.agree_of_same o o' (h.field "object" rfl rfl)
      have hp := Expr.agree_of_same p p' (h.field "property" rfl rfl)
      have hk : k = k' := eq_of_same_boolean (h.field "computed" rfl rfl)
      simp [Expr.agree, ho, hp, hk]
    | _ => exact absurd htag (by simp [Expr.tag])
  | .identifier s, b, h => by
    have htag := tag_eq_of_same h
    cases b with
    | identifier s' =>
      have hs : s = s' := eq_of_same_text (h.field "name" rfl rfl)
      simp [Expr.agree, hs]
    | _ => exact absurd htag (by simp [Expr.tag])
  | .call f es, b, h => by
    have htag := tag_eq_of_same h
    cases b with
    | call f' es' =>
      have hf := Expr.agree_of_same f f' (h.field "callee" rfl rfl)
      have hargs : Same (.record [("args", .list (Expr.serials es))])
        (.record [("args", .list (Expr.serials es'))]) := h.field "args" rfl rfl
      have hes := Expr.agrees_of_same es es' (forall₂_of_same_list (hargs.field "args" rfl rfl))
      simp [Expr.agree, hf, hes]
    | _ => exact absurd htag (by simp [Expr.tag])
  | .null, b, h => by
    have htag := tag_eq_of_same h
    cases b with
    | null => rfl
    | _ => exact absurd htag (by simp [Expr.tag])
  | .int n, b, h => by
    have htag := tag_eq_of_same h
    cases b with
    | int n' =>
      have hn : n = n' := Int64.toInt_inj.mp (eq_of_same_int (h.field "value" rfl rfl))
      simp [Expr.agree, hn]
    | _ => exact absurd htag (by simp [Expr.tag])
  | .float x, b, h => by
    have htag := tag_eq_of_same h
    cases b with
    | float x' => exact alike_of_same_number (h.field "value" rfl rfl)
    | _ => exact absurd htag (by simp [Expr.tag])
  | .string s, b, h => by
    have htag := tag_eq_of_same h
    cases b with
    | string s' =>
      have hs : s = s' := eq_of_same_text (h.field "value" rfl rfl)
      simp [Expr.agree, hs]
    | _ => exact absurd htag (by simp [Expr.tag])
  | .boolean v, b, h => by
    have htag := tag_eq_of_same h
    cases b with
    | boolean v' =>
      have hv : v = v' := eq_of_same_boolean (h.field "value" rfl rfl)
      simp [Expr.agree, hv]
    | _ => exact absurd htag (by simp [Expr.tag])

theorem Expr.agrees_of_same : ∀ as bs : List Expr,
    List.Forall₂ Same (Expr.serials as) (Expr.serials bs) → Expr.agrees alike as bs = true
  | [], bs, h => by
    cases bs with
    | nil => rfl
    | cons b bs => cases h
  | a :: as, bs, h => by
    cases bs with
    | nil => cases h
    | cons b bs =>
      cases h with
      | cons ha has => simp [Expr.agrees, Expr.agree_of_same a b ha, Expr.agrees_of_same as bs has]

end

/-! ## Nodes -/

/-- The tag of a node. -/
def Node.tag : Node → String
  | .program _ => "program"
  | .text _ => "text"
  | .comment _ => "comment"
  | .ifBlock _ => "if"
  | .switchBlock .. => "switch"
  | .forBlock .. => "for"
  | .importFile _ => "import"
  | .interpolation _ => "expression"

theorem Node.field?_type (n : Node) : n.serial.field? "type" = some (.text n.tag) := by
  cases n <;> rfl

theorem Node.tag_eq_of_same {a b : Node} (h : Same a.serial b.serial) : a.tag = b.tag :=
  eq_of_same_text (h.field "type" a.field?_type b.field?_type)

mutual

theorem Node.agree_of_same : ∀ a b : Node, Same a.serial b.serial → a.agree alike b = true
  | .program ns, b, h => by
    have htag := Node.tag_eq_of_same h
    cases b with
    | program ns' =>
      have hns := Node.agrees_of_same ns ns' (forall₂_of_same_list (h.field "body" rfl rfl))
      simp [Node.agree, hns]
    | _ => exact absurd htag (by simp [Node.tag])
  | .text s, b, h => by
    have htag := Node.tag_eq_of_same h
    cases b with
    | text s' =>
      have hs : s = s' := eq_of_same_text (h.field "value" rfl rfl)
      simp [Node.agree, hs]
    | _ => exact absurd htag (by simp [Node.tag])
  | .comment s, b, h => by
    have htag := Node.tag_eq_of_same h
    cases b with
    | comment s' =>
      have hs : s = s' := eq_of_same_text (h.field "value" rfl rfl)
      simp [Node.agree, hs]
    | _ => exact absurd htag (by simp [Node.tag])
  | .ifBlock block, b, h => by
    have htag := Node.tag_eq_of_same h
    cases b with
    | ifBlock block' =>
      have hblock := IfBlock.agree_of_same block block' h
      simp [Node.agree, hblock]
    | _ => exact absurd htag (by simp [Node.tag])
  | .switchBlock e cs, b, h => by
    have htag := Node.tag_eq_of_same h
    cases b with
    | switchBlock e' cs' =>
      have he := Expr.agree_of_same e e' (h.field "test" rfl rfl)
      have hcs := Case.agrees_of_same cs cs' (forall₂_of_same_list (h.field "cases" rfl rfl))
      simp [Node.agree, he, hcs]
    | _ => exact absurd htag (by simp [Node.tag])
  | .forBlock i k e ns, b, h => by
    have htag := Node.tag_eq_of_same h
    cases b with
    | forBlock i' k' e' ns' =>
      have hi : i = i' := eq_of_same_text (h.field "iterator" rfl rfl)
      have hk : k = k' := eq_of_same_text? (h.field "index" rfl rfl)
      have he := Expr.agree_of_same e e' (h.field "iterable" rfl rfl)
      have hns := Node.agrees_of_same ns ns' (forall₂_of_same_list (h.field "body" rfl rfl))
      simp [Node.agree, hi, hk, he, hns]
    | _ => exact absurd htag (by simp [Node.tag])
  | .importFile s, b, h => by
    have htag := Node.tag_eq_of_same h
    cases b with
    | importFile s' =>
      have hs : s = s' := eq_of_same_text (h.field "path" rfl rfl)
      simp [Node.agree, hs]
    | _ => exact absurd htag (by simp [Node.tag])
  | .interpolation e, b, h => by
    have htag := Node.tag_eq_of_same h
    cases b with
    | interpolation e' =>
      have he := Expr.agree_of_same e e' (h.field "value" rfl rfl)
      simp [Node.agree, he]
    | _ => exact absurd htag (by simp [Node.tag])
termination_by structural t => t

/-- The fields of a condition are looked up in the record of the node or of the alternate. -/
theorem IfBlock.agree_of_same : ∀ a b : IfBlock, ∀ {t t' : String},
    Same (tagged t a.fields) (tagged t' b.fields) → a.agree alike b = true
  | ⟨e, ns, a⟩, ⟨e', ns', a'⟩, t, t', h => by
    have he := Expr.agree_of_same e e' (h.field "condition" rfl rfl)
    have hns := Node.agrees_of_same ns ns' (forall₂_of_same_list (h.field "consequent" rfl rfl))
    have ha := Alternate.agree?_of_same a a' (h.field "alternate" rfl rfl)
    simp [IfBlock.agree, he, hns, ha]
termination_by structural t => t

theorem Alternate.agree_of_same : ∀ a b : Alternate,
    Same a.serial b.serial → a.agree alike b = true
  | .elseIf block, b, h => by
    cases b with
    | elseIf block' =>
      have hblock := IfBlock.agree_of_same block block' h
      simp [Alternate.agree, hblock]
    | otherwise ns' =>
      have htag := eq_of_same_text (h.field "type" rfl rfl)
      exact absurd htag (by decide)
  | .otherwise ns, b, h => by
    cases b with
    | elseIf block' =>
      have htag := eq_of_same_text (h.field "type" rfl rfl)
      exact absurd htag (by decide)
    | otherwise ns' =>
      have hns := Node.agrees_of_same ns ns' (forall₂_of_same_list (h.field "body" rfl rfl))
      simp [Alternate.agree, hns]
termination_by structural t => t

theorem Alternate.agree?_of_same : ∀ a b : Option Alternate,
    Same (Alternate.serial? a) (Alternate.serial? b) → Alternate.agree? alike a b = true
  | none, b, h => by
    cases b with
    | none => simp [Alternate.agree?]
    | some b => cases b <;> cases h
  | some a, b, h => by
    cases b with
    | none => cases a <;> cases h
    | some b =>
      have ha := Alternate.agree_of_same a b h
      simp [Alternate.agree?, ha]
termination_by structural t => t

theorem Case.agree_of_same : ∀ a b : Case, Same a.serial b.serial → a.agree alike b = true
  | .case es ns, b, h => by
    cases b with
    | case es' ns' =>
      have hvalues : Same (.record [("args", .list (Expr.serials es))])
        (.record [("args", .list (Expr.serials es'))]) := h.field "values" rfl rfl
      have hes := Expr.agrees_of_same es es' (forall₂_of_same_list (hvalues.field "args" rfl rfl))
      have hns := Node.agrees_of_same ns ns' (forall₂_of_same_list (h.field "body" rfl rfl))
      simp [Case.agree, hes, hns]
    | default ns' =>
      have htag := eq_of_same_text (h.field "type" rfl rfl)
      exact absurd htag (by decide)
  | .default ns, b, h => by
    cases b with
    | case es' ns' =>
      have htag := eq_of_same_text (h.field "type" rfl rfl)
      exact absurd htag (by decide)
    | default ns' =>
      have hns := Node.agrees_of_same ns ns' (forall₂_of_same_list (h.field "body" rfl rfl))
      simp [Case.agree, hns]
termination_by structural t => t

theorem Case.agrees_of_same : ∀ as bs : List Case,
    List.Forall₂ Same (Case.serials as) (Case.serials bs) → Case.agrees alike as bs = true
  | [], bs, h => by
    cases bs with
    | nil => simp [Case.agrees]
    | cons b bs => cases h
  | a :: as, bs, h => by
    cases bs with
    | nil => cases h
    | cons b bs =>
      cases h with
      | cons ha has => simp [Case.agrees, Case.agree_of_same a b ha, Case.agrees_of_same as bs has]
termination_by structural t => t

theorem Node.agrees_of_same : ∀ as bs : List Node,
    List.Forall₂ Same (Node.serials as) (Node.serials bs) → Node.agrees alike as bs = true
  | [], bs, h => by
    cases bs with
    | nil => simp [Node.agrees]
    | cons b bs => cases h
  | a :: as, bs, h => by
    cases bs with
    | nil => cases h
    | cons b bs =>
      cases h with
      | cons ha has => simp [Node.agrees, Node.agree_of_same a b ha, Node.agrees_of_same as bs has]
termination_by structural t => t

end

/-! ## One Plain Form -/

mutual

theorem Expr.serial_of_agree : ∀ a b : Expr, a.agree alike b = true → a.serial = b.serial
  | .conditional c x y, b, h => by
    cases b with
    | conditional c' x' y' =>
      simp only [Expr.agree, Bool.and_eq_true] at h
      obtain ⟨⟨hc, hx⟩, hy⟩ := h
      simp only [Expr.serial, Expr.serial_of_agree c c' hc, Expr.serial_of_agree x x' hx,
        Expr.serial_of_agree y y' hy]
    | _ => simp [Expr.agree] at h
  | .binary l op r, b, h => by
    cases b with
    | binary l' op' r' =>
      simp only [Expr.agree, Bool.and_eq_true, beq_iff_eq] at h
      obtain ⟨⟨hl, rfl⟩, hr⟩ := h
      simp only [Expr.serial, Expr.serial_of_agree l l' hl, Expr.serial_of_agree r r' hr]
    | _ => simp [Expr.agree] at h
  | .unary op e, b, h => by
    cases b with
    | unary op' e' =>
      simp only [Expr.agree, Bool.and_eq_true, beq_iff_eq] at h
      obtain ⟨rfl, he⟩ := h
      simp only [Expr.serial, Expr.serial_of_agree e e' he]
    | _ => simp [Expr.agree] at h
  | .member o p k, b, h => by
    cases b with
    | member o' p' k' =>
      simp only [Expr.agree, Bool.and_eq_true, beq_iff_eq] at h
      obtain ⟨⟨ho, hp⟩, rfl⟩ := h
      simp only [Expr.serial, Expr.serial_of_agree o o' ho, Expr.serial_of_agree p p' hp]
    | _ => simp [Expr.agree] at h
  | .call f es, b, h => by
    cases b with
    | call f' es' =>
      simp only [Expr.agree, Bool.and_eq_true] at h
      obtain ⟨hf, hes⟩ := h
      simp only [Expr.serial, Expr.serial_of_agree f f' hf, Expr.serials_of_agrees es es' hes]
    | _ => simp [Expr.agree] at h
  | .float x, b, h => by
    cases b with
    | float x' => simp only [Expr.serial, number_eq_of_alike h]
    | _ => simp [Expr.agree] at h
  | .identifier _, b, h | .null, b, h | .int _, b, h | .string _, b, h | .boolean _, b, h => by
    cases b <;> simp_all [Expr.agree]

theorem Expr.serials_of_agrees : ∀ as bs : List Expr,
    Expr.agrees alike as bs = true → Expr.serials as = Expr.serials bs
  | [], bs, h => by
    cases bs with
    | nil => rfl
    | cons b bs => simp [Expr.agrees] at h
  | a :: as, bs, h => by
    cases bs with
    | nil => simp [Expr.agrees] at h
    | cons b bs =>
      simp only [Expr.agrees, Bool.and_eq_true] at h
      simp only [Expr.serials, Expr.serial_of_agree a b h.1, Expr.serials_of_agrees as bs h.2]

end

mutual

theorem Node.serial_of_agree : ∀ a b : Node, a.agree alike b = true → a.serial = b.serial
  | .program ns, b, h => by
    cases b with
    | program ns' =>
      simp only [Node.agree] at h
      simp only [Node.serial, Node.serials_of_agrees ns ns' h]
    | _ => simp [Node.agree] at h
  | .ifBlock block, b, h => by
    cases b with
    | ifBlock block' =>
      simp only [Node.agree] at h
      simp only [Node.serial, IfBlock.fields_of_agree block block' h]
    | _ => simp [Node.agree] at h
  | .switchBlock e cs, b, h => by
    cases b with
    | switchBlock e' cs' =>
      simp only [Node.agree, Bool.and_eq_true] at h
      simp only [Node.serial, Expr.serial_of_agree e e' h.1, Case.serials_of_agrees cs cs' h.2]
    | _ => simp [Node.agree] at h
  | .forBlock i k e ns, b, h => by
    cases b with
    | forBlock i' k' e' ns' =>
      simp only [Node.agree, Bool.and_eq_true, beq_iff_eq] at h
      obtain ⟨⟨⟨rfl, rfl⟩, he⟩, hns⟩ := h
      simp only [Node.serial, Expr.serial_of_agree e e' he, Node.serials_of_agrees ns ns' hns]
    | _ => simp [Node.agree] at h
  | .interpolation e, b, h => by
    cases b with
    | interpolation e' =>
      simp only [Node.agree] at h
      simp only [Node.serial, Expr.serial_of_agree e e' h]
    | _ => simp [Node.agree] at h
  | .text _, b, h | .comment _, b, h | .importFile _, b, h => by
    cases b <;> simp_all [Node.agree]
termination_by structural t => t

theorem IfBlock.fields_of_agree : ∀ a b : IfBlock, a.agree alike b = true → a.fields = b.fields
  | ⟨e, ns, a⟩, ⟨e', ns', a'⟩, h => by
    simp only [IfBlock.agree, Bool.and_eq_true] at h
    obtain ⟨⟨he, hns⟩, ha⟩ := h
    simp only [IfBlock.fields, Expr.serial_of_agree e e' he, Node.serials_of_agrees ns ns' hns,
      Alternate.serial?_of_agree? a a' ha]
termination_by structural t => t

theorem Alternate.serial_of_agree : ∀ a b : Alternate,
    a.agree alike b = true → a.serial = b.serial
  | .elseIf block, b, h => by
    cases b with
    | elseIf block' =>
      simp only [Alternate.agree] at h
      simp only [Alternate.serial, IfBlock.fields_of_agree block block' h]
    | otherwise ns' => simp [Alternate.agree] at h
  | .otherwise ns, b, h => by
    cases b with
    | elseIf block' => simp [Alternate.agree] at h
    | otherwise ns' =>
      simp only [Alternate.agree] at h
      simp only [Alternate.serial, Node.serials_of_agrees ns ns' h]
termination_by structural t => t

theorem Alternate.serial?_of_agree? : ∀ a b : Option Alternate,
    Alternate.agree? alike a b = true → Alternate.serial? a = Alternate.serial? b
  | none, b, h => by
    cases b with
    | none => rfl
    | some b => simp [Alternate.agree?] at h
  | some a, b, h => by
    cases b with
    | none => simp [Alternate.agree?] at h
    | some b =>
      simp only [Alternate.agree?] at h
      simp only [Alternate.serial?, Alternate.serial_of_agree a b h]
termination_by structural t => t

theorem Case.serial_of_agree : ∀ a b : Case, a.agree alike b = true → a.serial = b.serial
  | .case es ns, b, h => by
    cases b with
    | case es' ns' =>
      simp only [Case.agree, Bool.and_eq_true] at h
      simp only [Case.serial, Expr.serials_of_agrees es es' h.1, Node.serials_of_agrees ns ns' h.2]
    | default ns' => simp [Case.agree] at h
  | .default ns, b, h => by
    cases b with
    | case es' ns' => simp [Case.agree] at h
    | default ns' =>
      simp only [Case.agree] at h
      simp only [Case.serial, Node.serials_of_agrees ns ns' h]
termination_by structural t => t

theorem Case.serials_of_agrees : ∀ as bs : List Case,
    Case.agrees alike as bs = true → Case.serials as = Case.serials bs
  | [], bs, h => by
    cases bs with
    | nil => rfl
    | cons b bs => simp [Case.agrees] at h
  | a :: as, bs, h => by
    cases bs with
    | nil => simp [Case.agrees] at h
    | cons b bs =>
      simp only [Case.agrees, Bool.and_eq_true] at h
      simp only [Case.serials, Case.serial_of_agree a b h.1, Case.serials_of_agrees as bs h.2]
termination_by structural t => t

theorem Node.serials_of_agrees : ∀ as bs : List Node,
    Node.agrees alike as bs = true → Node.serials as = Node.serials bs
  | [], bs, h => by
    cases bs with
    | nil => rfl
    | cons b bs => simp [Node.agrees] at h
  | a :: as, bs, h => by
    cases bs with
    | nil => simp [Node.agrees] at h
    | cons b bs =>
      simp only [Node.agrees, Bool.and_eq_true] at h
      simp only [Node.serials, Node.serial_of_agree a b h.1, Node.serials_of_agrees as bs h.2]
termination_by structural t => t

end

/-! ## Templates -/

/-- Templates have the same plain data if and only if they agree, numbers that are not finite
    counted as one. To tell templates apart it is not needed to know the order of fields. -/
theorem serial_tells_apart (p q : Program) :
    (p.serial = q.serial ↔ Node.agrees alike p.body q.body = true) ∧
      (Same p.serial q.serial ↔ Node.agrees alike p.body q.body = true) := by
  have hsame : Same p.serial q.serial → Node.agrees alike p.body q.body = true := fun h =>
    Node.agrees_of_same _ _ (forall₂_of_same_list (h.field "body" rfl rfl))
  have heq : Node.agrees alike p.body q.body = true → p.serial = q.serial := fun h => by
    simp only [Program.serial, Node.serials_of_agrees _ _ h]
  refine ⟨⟨fun h => hsame (h ▸ Same.refl _), heq⟩, hsame, fun h => ?_⟩
  rw [heq h]
  exact Same.refl _

-- A property that is computed is told from one that is not.
example : ¬ Same ((Expr.identifier "a").property "b").serial
    ((Expr.identifier "a").index (.identifier "b")).serial :=
  fun h => absurd (Expr.agree_of_same _ _ h) (by decide)

end TemplateSyntax
