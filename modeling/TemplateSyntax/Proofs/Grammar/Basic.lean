import TemplateSyntax.Number.Decimal
import TemplateSyntax.Token.Basic
import TemplateSyntax.Tree.Basic

/-! # The Grammar of Expressions

  Which tokens write which expression, said without reference to any parser:

      conditional := binary 1 ['?' conditional ':' conditional]
      binary i    := [binary i operator] binary (i + 1)      (operators of level i, 1 to 6)
      binary 7    := unary
      unary       := ('-' | '!') unary | primary
      primary     := '(' conditional ')' | literal | chain
      chain       := name ('.' word | '[' conditional ']' | '(' arguments ')')*
      arguments   := [conditional {',' conditional}]

  Every nonterminal is a relation between a number of levels, some tokens and what
  they write. The number bounds the nesting of the derivation: a conditional uses up
  one level, parenthesised or not, and so does the operand of a unary operator.
-/

namespace TemplateSyntax

/-- How tightly an operator binds: the loosest has level one. -/
def BinaryOp.level : BinaryOp → Nat
  | or => 1
  | and => 2
  | eq | notEq => 3
  | lt | gt | ltEq | gtEq => 4
  | add | sub => 5
  | mul | div => 6

/-- An operator between two operands does not stand for the end of the input. -/
theorem BinaryOp.kind_ne_eof (op : BinaryOp) : op.kind ≠ .eof := by
  cases op <;> decide

theorem BinaryOp.level_lt (op : BinaryOp) : op.level < 7 := by
  cases op <;> decide

/-- How tightly a token holds on to an expression in front of it, if it can go on with
    one at all: a question mark least, then the operators by their levels, and what
    begins a suffix most. -/
def Kind.bond : Kind → Option Nat
  | .questionMark => some 0
  | .period | .lBracket | .lParen => some 8
  | k => (BinaryOp.ofKind? k).map BinaryOp.level

@[simp] theorem BinaryOp.bond_kind (op : BinaryOp) : op.kind.bond = some op.level := by
  cases op <;> rfl

/-- The kinds of tokens that a primary expression begins with. -/
def Kind.opensPrimary : Kind → Bool
  | .lParen | .integer | .float | .string | .boolean | .null | .undefined => true
  | k => k.isVariable

/-- The kinds of tokens that an expression begins with. -/
def Kind.opensExpression (k : Kind) : Bool :=
  k.opensPrimary || (UnaryOp.ofKind? k).isSome

namespace Grammar

/-! ## Derivations -/

mutual

/-- A choice between two expressions, or a binary expression alone. -/
inductive Conditional : Nat → List Token → Expr → Prop where
  | single {n u e} (h : Binary 1 n u e) : Conditional (n + 1) u e
  | choice {n u v w c a b} {mark colon : Token}
      (hc : Binary 1 n u c) (hm : mark.kind = .questionMark) (ha : Conditional n v a)
      (hs : colon.kind = .colon) (hb : Conditional n w b) :
      Conditional (n + 1) (u ++ mark :: (v ++ colon :: w)) (.conditional c a b)

/-- Operators that bind at least as tightly as a level, grouped to the left. -/
inductive Binary : Nat → Nat → List Token → Expr → Prop where
  | unary {n u e} (h : Unary n u e) : Binary 7 n u e
  | tighter {i n u e} (h : Binary (i + 1) n u e) : Binary i n u e
  | operation {op n u v a b} {t : Token}
      (hl : Binary (BinaryOp.level op) n u a) (ht : t.kind = op.kind)
      (hr : Binary (op.level + 1) n v b) :
      Binary op.level n (u ++ t :: v) (.binary a op b)

/-- Any number of unary operators in front of a primary expression. -/
inductive Unary : Nat → List Token → Expr → Prop where
  | primary {n u e} (h : Primary n u e) : Unary n u e
  | operation {op n u e} {t : Token} (ht : t.kind = UnaryOp.kind op) (h : Unary n u e) :
      Unary (n + 1) (t :: u) (.unary op e)

/-- A literal, a parenthesised expression, or a name with its suffixes. -/
inductive Primary : Nat → List Token → Expr → Prop where
  | parenthesised {n u e} {l r : Token}
      (hl : l.kind = .lParen) (h : Conditional n u e) (hr : r.kind = .rParen) :
      Primary n (l :: (u ++ [r])) e
  | integer {n x} {t : Token} (ht : t.kind = .integer) (hx : Integer.read t.text = .ok x) :
      Primary n [t] (.int x)
  | float {n x} {t : Token} (ht : t.kind = .float) (hx : Decimal.read t.text = .ok x) :
      Primary n [t] (.float x)
  | string {n} {t : Token} (ht : t.kind = .string) : Primary n [t] (.string t.text)
  | boolean {n} {t : Token} (ht : t.kind = .boolean) :
      Primary n [t] (.boolean (t.text == "true"))
  | null {n} {t : Token} (ht : t.kind = .null ∨ t.kind = .undefined) : Primary n [t] .null
  | chain {n u e} (h : Chain n u e) : Primary n u e

/-- A name and its suffixes. -/
inductive Chain : Nat → List Token → Expr → Prop where
  | head {n} {t : Token} (ht : t.kind.isVariable = true) : Chain n [t] (.identifier t.text)
  | property {n u e} {p t : Token}
      (h : Chain n u e) (hp : p.kind = .period) (ht : t.kind.isWord = true) :
      Chain n (u ++ [p, t]) (e.property t.text)
  | index {n u v e k} {l r : Token}
      (h : Chain n u e) (hl : l.kind = .lBracket) (hk : Conditional n v k)
      (hr : r.kind = .rBracket) : Chain n (u ++ l :: (v ++ [r])) (e.index k)
  | call {n u v e args} {l r : Token}
      (h : Chain n u e) (hl : l.kind = .lParen) (ha : Arguments n v args)
      (hr : r.kind = .rParen) : Chain n (u ++ l :: (v ++ [r])) (.call e args)

/-- What stands between the parentheses of a call. -/
inductive Arguments : Nat → List Token → List Expr → Prop where
  | none {n} : Arguments n [] []
  | some {n u es} (h : Expressions n u es) : Arguments n u es

/-- One or more expressions with commas between them. -/
inductive Expressions : Nat → List Token → List Expr → Prop where
  | single {n u e} (h : Conditional n u e) : Expressions n u [e]
  | cons {n u v e es} {t : Token}
      (h : Conditional n u e) (ht : t.kind = .comma) (hs : Expressions n v es) :
      Expressions n (u ++ t :: v) (e :: es)

end

/-! ## Induction Along One Nonterminal

    The rules are mutual, but an argument about a row of parts of one kind goes along this
    row alone. -/

/-- Induction over the expressions of a list. -/
@[elab_as_elim]
theorem Expressions.along {n : Nat}
    {motive : (u : List Token) → (es : List Expr) → Expressions n u es → Prop}
    (single : ∀ {u e} (h : Conditional n u e), motive u [e] (.single h))
    (cons : ∀ {u v e es} {t : Token} (h : Conditional n u e) (ht : t.kind = .comma)
      (hs : Expressions n v es), motive v es hs → motive (u ++ t :: v) (e :: es) (.cons h ht hs))
    {u es} (h : Expressions n u es) : motive u es h :=
  match h with
  | .single h => single h
  | .cons h ht hs => cons h ht hs (hs.along single cons)
termination_by structural h

/-- Induction over the suffixes of a chain. -/
@[elab_as_elim]
theorem Chain.along {n : Nat}
    {motive : (u : List Token) → (e : Expr) → Chain n u e → Prop}
    (head : ∀ {t : Token} (ht : t.kind.isVariable = true),
      motive [t] (.identifier t.text) (.head ht))
    (property : ∀ {u e} {p t : Token} (h : Chain n u e) (hp : p.kind = .period)
      (ht : t.kind.isWord = true), motive u e h → motive _ _ (.property h hp ht))
    (index : ∀ {u v e k} {l r : Token} (h : Chain n u e) (hl : l.kind = .lBracket)
      (hk : Conditional n v k) (hr : r.kind = .rBracket), motive u e h →
      motive _ _ (.index h hl hk hr))
    (call : ∀ {u v e args} {l r : Token} (h : Chain n u e) (hl : l.kind = .lParen)
      (ha : Arguments n v args) (hr : r.kind = .rParen), motive u e h →
      motive _ _ (.call h hl ha hr))
    {u e} (h : Chain n u e) : motive u e h :=
  match h with
  | .head ht => head ht
  | .property h hp ht => property h hp ht (h.along head property index call)
  | .index h hl hk hr => index h hl hk hr (h.along head property index call)
  | .call h hl ha hr => call h hl ha hr (h.along head property index call)
termination_by structural h

/-- Induction over the left operands of a level. -/
@[elab_as_elim]
theorem Binary.along {n : Nat}
    {motive : (i : Nat) → (u : List Token) → (e : Expr) → Binary i n u e → Prop}
    (unary : ∀ {u e} (h : Unary n u e), motive 7 u e (.unary h))
    (tighter : ∀ {i u e} (h : Binary (i + 1) n u e), motive (i + 1) u e h →
      motive i u e (.tighter h))
    (operation : ∀ {op : BinaryOp} {u v a b} {t : Token} (hl : Binary op.level n u a)
      (ht : t.kind = op.kind) (hr : Binary (op.level + 1) n v b), motive op.level u a hl →
      motive _ _ _ (.operation hl ht hr))
    {i u e} (h : Binary i n u e) : motive i u e h :=
  match h with
  | .unary h => unary h
  | .tighter h => tighter h (h.along unary tighter operation)
  | .operation hl ht hr => operation hl ht hr (hl.along unary tighter operation)
termination_by structural h

/-! ## More Levels

    A derivation stays one when more levels are allowed. -/

mutual

theorem Conditional.mono {n m u e} (h : Conditional n u e) (hm : n ≤ m) : Conditional m u e :=
  match h, m, hm with
  | .single h, m + 1, hm => .single (h.mono (by omega))
  | .choice hc hq ha hs hb, m + 1, hm =>
    .choice (hc.mono (by omega)) hq (ha.mono (by omega)) hs (hb.mono (by omega))
termination_by structural h

theorem Binary.mono {i n m u e} (h : Binary i n u e) (hm : n ≤ m) : Binary i m u e :=
  match h with
  | .unary h => .unary (h.mono hm)
  | .tighter h => .tighter (h.mono hm)
  | .operation hl ht hr => .operation (hl.mono hm) ht (hr.mono hm)
termination_by structural h

theorem Unary.mono {n m u e} (h : Unary n u e) (hm : n ≤ m) : Unary m u e :=
  match h, m, hm with
  | .primary h, _, hm => .primary (h.mono hm)
  | .operation ht h, m + 1, hm => .operation ht (h.mono (by omega))
termination_by structural h

theorem Primary.mono {n m u e} (h : Primary n u e) (hm : n ≤ m) : Primary m u e :=
  match h with
  | .parenthesised hl h hr => .parenthesised hl (h.mono hm) hr
  | .integer ht hx => .integer ht hx
  | .float ht hx => .float ht hx
  | .string ht => .string ht
  | .boolean ht => .boolean ht
  | .null ht => .null ht
  | .chain h => .chain (h.mono hm)
termination_by structural h

theorem Chain.mono {n m u e} (h : Chain n u e) (hm : n ≤ m) : Chain m u e :=
  match h with
  | .head ht => .head ht
  | .property h hp ht => .property (h.mono hm) hp ht
  | .index h hl hk hr => .index (h.mono hm) hl (hk.mono hm) hr
  | .call h hl ha hr => .call (h.mono hm) hl (ha.mono hm) hr
termination_by structural h

theorem Arguments.mono {n m u es} (h : Arguments n u es) (hm : n ≤ m) : Arguments m u es :=
  match h with
  | .none => .none
  | .some h => .some (h.mono hm)
termination_by structural h

theorem Expressions.mono {n m u es} (h : Expressions n u es) (hm : n ≤ m) :
    Expressions m u es :=
  match h with
  | .single h => .single (h.mono hm)
  | .cons h ht hs => .cons (h.mono hm) ht (hs.mono hm)
termination_by structural h

end

/-- What binds tightly binds tightly enough for a looser level. -/
theorem Binary.loosen {i j n u e} (hj : j ≤ i) (h : Binary i n u e) : Binary j n u e := by
  induction hj with
  | refl => exact h
  | step _ ih => exact ih (.tighter h)

/-- No level is tighter than that of unary expressions. -/
theorem Binary.le {i n u e} (h : Binary i n u e) : i ≤ 7 := by
  induction h using Binary.along with
  | unary h => exact Nat.le_refl 7
  | tighter h ih => exact Nat.le_of_succ_le ih
  | @operation op => exact Nat.le_of_lt op.level_lt

/-- On the tightest level there is no operator. -/
theorem Binary.unary_of_seven {n u e} (h : Binary 7 n u e) : Unary n u e := by
  generalize hi : 7 = i at h
  cases h with
  | unary h => exact h
  | tighter h =>
    have := h.le
    omega
  | @operation op =>
    have := op.level_lt
    omega

/-! ## First Tokens -/

theorem Chain.first {n u e} (h : Chain n u e) :
    ∃ t v, u = t :: v ∧ t.kind.isVariable = true := by
  induction h using Chain.along with
  | head ht => exact ⟨_, [], rfl, ht⟩
  | property _ _ _ ih | index _ _ _ _ ih | call _ _ _ _ ih =>
    obtain ⟨t, v, rfl, ht⟩ := ih
    exact ⟨t, _, List.cons_append, ht⟩

theorem Primary.first {n u e} (h : Primary n u e) :
    ∃ t v, u = t :: v ∧ t.kind.opensPrimary = true := by
  cases h with
  | parenthesised hl _ _ => exact ⟨_, _, rfl, by rw [hl]; rfl⟩
  | integer ht _ => exact ⟨_, _, rfl, by rw [ht]; rfl⟩
  | float ht _ => exact ⟨_, _, rfl, by rw [ht]; rfl⟩
  | string ht => exact ⟨_, _, rfl, by rw [ht]; rfl⟩
  | boolean ht => exact ⟨_, _, rfl, by rw [ht]; rfl⟩
  | null ht => exact ⟨_, _, rfl, by rcases ht with ht | ht <;> rw [ht] <;> rfl⟩
  | chain h =>
    obtain ⟨t, v, rfl, ht⟩ := h.first
    refine ⟨t, v, rfl, ?_⟩
    revert ht
    cases t.kind <;> decide

theorem Unary.first {n u e} (h : Unary n u e) :
    ∃ t v, u = t :: v ∧ t.kind.opensExpression = true := by
  cases h with
  | primary h =>
    obtain ⟨t, v, rfl, ht⟩ := h.first
    exact ⟨t, v, rfl, by rw [Kind.opensExpression, ht]; rfl⟩
  | @operation op _ _ _ t ht _ =>
    refine ⟨t, _, rfl, ?_⟩
    rw [ht]
    cases op <;> rfl

theorem Binary.first {i n u e} (h : Binary i n u e) :
    ∃ t v, u = t :: v ∧ t.kind.opensExpression = true := by
  induction h using Binary.along with
  | unary h => exact h.first
  | tighter _ ih => exact ih
  | operation _ _ _ ih =>
    obtain ⟨t, v, rfl, ht⟩ := ih
    exact ⟨t, _, List.cons_append, ht⟩

/-- An expression begins with one of the kinds that expressions begin with. -/
theorem Conditional.first {n u e} (h : Conditional n u e) :
    ∃ t v, u = t :: v ∧ t.kind.opensExpression = true := by
  cases h with
  | single h => exact h.first
  | choice hc _ _ _ _ =>
    obtain ⟨t, v, rfl, ht⟩ := hc.first
    exact ⟨t, _, List.cons_append, ht⟩

theorem Expressions.first {n u es} (h : Expressions n u es) :
    ∃ t v, u = t :: v ∧ t.kind.opensExpression = true := by
  cases h with
  | single h => exact h.first
  | cons h _ _ =>
    obtain ⟨t, v, rfl, ht⟩ := h.first
    exact ⟨t, _, List.cons_append, ht⟩

end Grammar

end TemplateSyntax
