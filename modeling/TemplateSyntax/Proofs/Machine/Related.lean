import TemplateSyntax.Parse.Block

/-! # Rules over Two Monads

  A rule of the grammar is the same text over every monad that has the operations. So a
  relation between the parsers of two monads that all operations keep (`Parsing.Keeps`) holds
  between the two readings of every rule, if it holds between the parsers of nested parts
  (`Calls.Related`).

  A second, stronger relation may be kept by whatever begins with a token that is read. The
  rules of nested parts are among these: no rule comes to a part that is nested in it before it
  has read a token.
-/

namespace TemplateSyntax

/-- An error that complains of nesting. -/
def Cause.isNesting : Cause → Bool
  | .tooDeep _ => true
  | _ => false

section related

variable {P Q : Type → Type} [Parsing P] [Parsing Q]

/-- The operations keep a relation `R` between the parsers of two monads, and a stronger one `S`
    if a token is read first or a token is at fault. No rule complains of nesting by itself. -/
structure Parsing.Keeps (R S : (α : Type) → P α → Q α → Prop) : Prop where
  weaken {α : Type} {p : P α} {q : Q α} (hp : S α p q) : R α p q
  pure {α : Type} (a : α) : R α (pure a) (pure a)
  bind {α β : Type} {p : P α} {q : Q α} {f : α → P β} {g : α → Q β} (hp : R α p q)
    (hf : ∀ a, R β (f a) (g a)) : R β (p >>= f) (q >>= g)
  map {α β : Type} {p : P α} {q : Q α} (f : α → β) (hp : R α p q) : R β (f <$> p) (f <$> q)
  current : R Token Parsing.current Parsing.current
  report (note : ParseNote) : R Unit (Parsing.report note) (Parsing.report note)
  reject {α : Type} {e : ParseError} (he : e.cause.isNesting = false) :
    R α (Parsing.reject e) (Parsing.reject e)
  branch {α : Type} {p p' : P α} {q q' : Q α} (isSuch : Cursor → Bool) (hp : R α p q)
    (hp' : R α p' q') : R α (Parsing.branch isSuch p p') (Parsing.branch isSuch q q')
  many {α : Type} {select : Cursor → Option (P α)} {select' : Cursor → Option (Q α)}
    (h : ∀ c, Option.Rel (R α) (select c) (select' c)) :
    R (List α) (Parsing.many select) (Parsing.many select')
  advance : S Token Parsing.advance Parsing.advance
  fail {α : Type} {cause : Cause} (hcause : cause.isNesting = false) :
    S α (Parsing.fail cause) (Parsing.fail cause)
  /-- What begins with something that reads a token reads it first. -/
  first {α β : Type} {p : P α} {q : Q α} {f : α → P β} {g : α → Q β} (hp : S α p q)
    (hf : ∀ a, R β (f a) (g a)) : S β (p >>= f) (q >>= g)
  look {α : Type} {f : Token → P α} {g : Token → Q α} (hf : ∀ t, S α (f t) (g t)) :
    S α (Parsing.current >>= f) (Parsing.current >>= g)
  lookBehind {α : Type} {f : Token → P α} {g : Token → Q α} (hf : ∀ t, S α (f t) (g t)) :
    S α (Parsing.following >>= f) (Parsing.following >>= g)
  either {α : Type} {p p' : P α} {q q' : Q α} (isSuch : Cursor → Bool) (hp : S α p q)
    (hp' : S α p' q') : S α (Parsing.branch isSuch p p') (Parsing.branch isSuch q q')

/-- The parsers of nested parts are related, one by one. -/
structure Calls.Related (R : (α : Type) → P α → Q α → Prop) (n : Calls P) (m : Calls Q) :
    Prop where
  expression : R Expr n.expression m.expression
  operand : R Expr n.operand m.operand
  block : R Node n.block m.block
  alternate : R Alternate n.alternate m.alternate

end related

namespace Parse

variable {P Q : Type → Type} [Parsing P] [Parsing Q] {R S : (α : Type) → P α → Q α → Prop}

/-- Parsers that something known to both sides chooses, each from two. -/
theorem related_cond {P Q : Type → Type} {R : (α : Type) → P α → Q α → Prop} {α : Type} {b : Prop}
    [Decidable b] {p p' : P α} {q q' : Q α} (hp : R α p q) (hp' : R α p' q') :
    R α (if b then p else p') (if b then q else q') := by
  by_cases hb : b
  · rw [if_pos hb, if_pos hb]
    exact hp
  · rw [if_neg hb, if_neg hb]
    exact hp'

variable (h : Parsing.Keeps R S)
include h

/-! ## Single Tokens -/

theorem guarded_unexpected {α : Type} (x : Expected) : S α (unexpected x) (unexpected x) :=
  h.either _ (h.fail rfl) (h.look fun _ => h.fail rfl)

theorem guarded_expect (k : Kind) : S Token (expect k) (expect k) :=
  h.either _ h.advance (guarded_unexpected h _)

theorem related_advance : R Token advance advance := h.weaken h.advance

theorem related_unexpected {α : Type} (x : Expected) : R α (unexpected x) (unexpected x) :=
  h.weaken (guarded_unexpected h x)

theorem related_expect (k : Kind) : R Token (expect k) (expect k) :=
  h.weaken (guarded_expect h k)

variable {n : Calls P} {m : Calls Q} (hn : n.Related R m)

/-! ## Suffixes -/

theorem related_propertySuffix : R Suffix propertySuffix propertySuffix := by
  refine h.bind (related_advance h) fun _ => h.bind h.current fun t => ?_
  refine related_cond ?_ (related_unexpected h _)
  exact h.bind (related_advance h) fun _ => h.pure _

include hn

theorem related_furtherExpression : R Expr (furtherExpression n) (furtherExpression m) :=
  h.bind (related_advance h) fun _ => hn.expression

theorem related_expressions : R (List Expr) (expressions n) (expressions m) := by
  refine h.bind hn.expression fun _ => h.bind (h.many fun c => ?_) fun _ => h.pure _
  by_cases hc : c.isAt .comma = true
  · rw [if_pos hc, if_pos hc]
    exact .some (related_furtherExpression h hn)
  · rw [if_neg hc, if_neg hc]
    exact .none

theorem related_indexSuffix : R Suffix (indexSuffix n) (indexSuffix m) := by
  refine h.bind (related_advance h) fun _ => h.bind hn.expression fun _ => ?_
  exact h.bind (related_expect h _) fun _ => h.pure _

theorem related_arguments : R (List Expr) (arguments n) (arguments m) :=
  h.bind h.current fun _ => related_cond (h.pure _) (related_expressions h hn)

theorem related_callSuffix : R Suffix (callSuffix n) (callSuffix m) := by
  refine h.bind (related_advance h) fun _ => h.bind (related_arguments h hn) fun _ => ?_
  exact h.bind (related_expect h _) fun _ => h.pure _

/-- The same suffix begins on both sides. -/
theorem related_suffix? (k : Kind) : Option.Rel (R Suffix) (suffix? n k) (suffix? m k) := by
  unfold suffix?
  split
  · exact .some (related_propertySuffix h)
  · exact .some (related_indexSuffix h hn)
  · exact .some (related_callSuffix h hn)
  · exact .none

theorem guarded_chain : S Expr (chain n) (chain m) := by
  refine h.first h.advance fun _ => h.bind (h.many fun c => ?_) fun _ => h.pure _
  exact related_suffix? h hn _

/-! ## Primary Expressions -/

omit hn in
/-- A numeral is read in the same way on both sides, or it is at fault on both. -/
theorem guarded_integerLiteral : S Expr integerLiteral integerLiteral := by
  refine h.first h.advance fun t => ?_
  cases Integer.read t.text with
  | ok value => exact h.pure _
  | error fault => exact h.reject rfl

omit hn in
theorem guarded_decimalLiteral : S Expr decimalLiteral decimalLiteral := by
  refine h.first h.advance fun t => ?_
  cases Decimal.read t.text with
  | ok value => exact h.pure _
  | error fault => exact h.reject rfl

theorem guarded_parenthesised : S Expr (parenthesised n) (parenthesised m) := by
  refine h.first h.advance fun _ => h.bind hn.expression fun _ => ?_
  exact h.bind (related_expect h _) fun _ => h.pure _

theorem guarded_primary : S Expr (primary n) (primary m) := by
  refine h.look fun t => ?_
  split
  · exact guarded_parenthesised h hn
  · exact guarded_integerLiteral h
  · exact guarded_decimalLiteral h
  · exact h.first h.advance fun _ => h.pure _
  · exact h.first h.advance fun _ => h.pure _
  · exact h.first h.advance fun _ => h.pure _
  · exact h.first h.advance fun _ => h.pure _
  · exact related_cond (guarded_chain h hn) (guarded_unexpected h _)

/-! ## Operators -/

theorem guarded_unary : S Expr (unary n) (unary m) := by
  refine h.look fun t => ?_
  cases UnaryOp.ofKind? t.kind with
  | some op => exact h.first h.advance fun _ => h.bind hn.operand fun _ => h.pure _
  | none => exact guarded_primary h hn

omit hn in
/-- The first operand is guarded, and so is whatever begins with it. -/
theorem guarded_leftAssociative (ops : List BinaryOp) {tighter : P Expr} {tighter' : Q Expr}
    (ht : S Expr tighter tighter') :
    S Expr (leftAssociative ops tighter) (leftAssociative ops tighter') := by
  refine h.first ht fun _ => h.bind (h.many fun c => ?_) fun _ => h.pure _
  cases operatorOf? ops c.current.kind with
  | some op =>
    exact .some (h.bind (related_advance h) fun _ => h.bind (h.weaken ht) fun _ => h.pure _)
  | none => exact .none

theorem guarded_binary : S Expr (binary n) (binary m) := by
  unfold binary
  induction levels with
  | nil => exact guarded_unary h hn
  | cons ops ls ih => exact guarded_leftAssociative h ops ih

theorem guarded_conditional : S Expr (conditional n) (conditional m) := by
  refine h.first (guarded_binary h hn) fun _ => h.bind h.current fun t => ?_
  refine related_cond ?_ (h.pure _)
  refine h.bind (related_advance h) fun _ => h.bind hn.expression fun _ => ?_
  refine h.bind (related_expect h _) fun _ => ?_
  exact h.bind hn.expression fun _ => h.pure _

/-! ## Nodes -/

omit hn in
theorem related_leaf (make : String → Node) : R Node (leaf make) (leaf make) :=
  h.bind (related_advance h) fun _ => h.pure _

theorem related_node : R Node (node n) (node m) := by
  refine h.bind h.current fun t => related_cond (related_leaf h _) ?_
  split
  · exact related_leaf h _
  · exact hn.block
  · exact h.weaken (h.fail rfl)

omit hn in
/-- Both go up to the same brace, or complain where the input ends. -/
theorem related_until {α : Type} {p : P α} {q : Q α} (words : List Kind) (x : Expected)
    (hp : R α p q) :
    R (List α)
      (many fun c =>
        if c.atBlock words then none else if c.atEnd then some (unexpected x) else some p)
      (many fun c =>
        if c.atBlock words then none else if c.atEnd then some (unexpected x) else some q) := by
  refine h.many fun c => ?_
  by_cases hword : c.atBlock words = true
  · rw [if_pos hword, if_pos hword]
    exact .none
  rw [if_neg hword, if_neg hword]
  by_cases hend : c.atEnd = true
  · rw [if_pos hend, if_pos hend]
    exact .some (related_unexpected h _)
  · rw [if_neg hend, if_neg hend]
    exact .some hp

theorem related_nodesUntil (words : List Kind) (x : Expected) :
    R (List Node) (nodesUntil n words x) (nodesUntil m words x) :=
  related_until h words x (related_node h hn)

omit hn in
theorem related_closing (word : Kind) : R Unit (closing word) (closing word) := by
  refine h.bind (related_expect h _) fun _ => h.bind (related_expect h _) fun _ => ?_
  exact h.bind (related_expect h _) fun _ => h.pure _

/-! ## Conditions -/

theorem related_alternate? : R (Option Alternate) (alternate? n) (alternate? m) := by
  refine h.branch _ ?_ (h.pure _)
  exact h.bind (related_advance h) fun _ => h.bind hn.alternate fun _ => h.pure _

theorem related_ifBlock : R IfBlock (ifBlock n) (ifBlock m) := by
  refine h.bind (related_expect h _) fun _ => h.bind hn.expression fun _ => ?_
  refine h.bind (related_expect h _) fun _ => ?_
  refine h.bind (related_nodesUntil h hn _ _) fun _ => ?_
  exact h.bind (related_alternate? h hn) fun _ => h.pure _

theorem guarded_alternate : S Alternate (alternate n) (alternate m) := by
  refine h.first (guarded_expect h _) fun _ => h.bind h.current fun t => related_cond ?_ ?_
  · exact h.bind (related_ifBlock h hn) fun _ => h.pure _
  · refine h.bind (related_expect h _) fun _ => ?_
    exact h.bind (related_nodesUntil h hn _ _) fun _ => h.pure _

/-! ## Switch Blocks -/

theorem related_case : R Case (case n) (case m) := by
  refine h.bind (related_advance h) fun _ => h.bind (related_expect h _) fun _ => ?_
  refine h.bind (related_expressions h hn) fun _ => h.bind (related_expect h _) fun _ => ?_
  exact h.bind (related_nodesUntil h hn _ _) fun _ => h.pure _

theorem related_defaultCase : R Case (defaultCase n) (defaultCase m) := by
  refine h.bind (related_advance h) fun _ => h.bind (related_expect h _) fun _ => ?_
  refine h.bind (related_expect h _) fun _ => ?_
  exact h.bind (related_nodesUntil h hn _ _) fun _ => h.pure _

omit hn in
theorem related_skip : R (Option Case) skip skip := by
  refine h.bind (related_advance h) fun t => related_cond (h.pure _) ?_
  exact h.bind (h.report _) fun _ => h.pure _

theorem related_caseOrSkip : R (Option Case) (caseOrSkip n) (caseOrSkip m) := by
  refine h.branch _ (h.map _ (related_case h hn)) ?_
  exact h.branch _ (h.map _ (related_defaultCase h hn)) (related_skip h)

theorem related_switchBlock : R Node (switchBlock n) (switchBlock m) := by
  refine h.bind (related_expect h _) fun _ => h.bind hn.expression fun _ => ?_
  refine h.bind (related_expect h _) fun _ => ?_
  refine h.bind (related_until h _ _ (related_caseOrSkip h hn)) fun _ => ?_
  exact h.bind (related_closing h _) fun _ => h.pure _

/-! ## Other Blocks -/

omit hn in
theorem related_counter? : R (Option String) counter? counter? := by
  refine h.bind h.current fun t => related_cond ?_ (h.pure _)
  exact h.bind (related_advance h) fun _ => h.bind (related_expect h _) fun _ => h.pure _

theorem related_forBlock : R Node (forBlock n) (forBlock m) := by
  refine h.bind (related_expect h _) fun _ => h.bind (related_expect h _) fun _ => ?_
  refine h.bind (related_counter? h) fun _ => h.bind (related_expect h _) fun _ => ?_
  refine h.bind hn.expression fun _ => h.bind (related_expect h _) fun _ => ?_
  refine h.bind (related_nodesUntil h hn _ _) fun _ => ?_
  exact h.bind (related_closing h _) fun _ => h.pure _

omit hn in
theorem related_importFile : R Node importFile importFile := by
  refine h.bind (related_expect h _) fun _ => h.bind (related_expect h _) fun _ => ?_
  exact h.bind (related_expect h _) fun _ => h.pure _

theorem related_interpolation : R Node (interpolation n) (interpolation m) := by
  refine h.bind h.current fun t => related_cond ?_ ?_
  · exact h.bind (related_advance h) fun _ => h.pure _
  · exact h.bind hn.expression fun _ => h.bind (related_expect h _) fun _ => h.pure _

/-! ## Blocks and Templates -/

/-- Whatever the word behind it, the opening brace is read first. -/
theorem guarded_block : S Node (block n) (block m) := by
  refine h.lookBehind fun word => h.first h.advance fun _ => ?_
  split
  · refine h.bind (related_ifBlock h hn) fun _ => ?_
    exact h.bind (related_closing h _) fun _ => h.pure _
  · exact h.bind (h.weaken (guarded_alternate h hn)) fun _ => h.pure _
  · exact related_switchBlock h hn
  · exact related_forBlock h hn
  · exact related_importFile h
  · exact related_interpolation h hn

theorem related_programOf : R Program (programOf n) (programOf m) := by
  refine h.bind (h.many fun c => ?_) fun _ => h.bind (h.report _) fun _ => h.pure _
  by_cases hend : c.atEnd = true
  · rw [if_pos hend, if_pos hend]
    exact .none
  · rw [if_neg hend, if_neg hend]
    exact .some (related_node h hn)

end Parse

end TemplateSyntax
