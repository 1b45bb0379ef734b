import TemplateSyntax.Tree.Basic

/-! # Equality of Trees

  Trees compare part by part, and their numbers by a comparison of one's choice. With
  equality of bits this is equality (`Node.agree_iff_eq`), which is thereby decidable.
  With equality of values (`Program.equal`) a tree that holds a number which is no
  number differs from itself, and the two zeros do not differ.
-/

namespace TemplateSyntax

mutual

/-- Whether two expressions agree, their numbers up to a comparison. -/
def Expr.agree (same : Binary64 → Binary64 → Bool) : Expr → Expr → Bool
  | .conditional a b c, .conditional a' b' c' =>
    a.agree same a' && b.agree same b' && c.agree same c'
  | .binary l op r, .binary l' op' r' => l.agree same l' && op == op' && r.agree same r'
  | .unary op e, .unary op' e' => op == op' && e.agree same e'
  | .member o p k, .member o' p' k' => o.agree same o' && p.agree same p' && k == k'
  | .identifier s, .identifier s' => s == s'
  | .call f es, .call f' es' => f.agree same f' && Expr.agrees same es es'
  | .null, .null => true
  | .int n, .int n' => n == n'
  | .float x, .float x' => same x x'
  | .string s, .string s' => s == s'
  | .boolean b, .boolean b' => b == b'
  | _, _ => false

/-- Whether two lists of expressions agree. -/
def Expr.agrees (same : Binary64 → Binary64 → Bool) : List Expr → List Expr → Bool
  | [], [] => true
  | e :: es, e' :: es' => e.agree same e' && Expr.agrees same es es'
  | _, _ => false

end

mutual

/-- Whether two nodes agree, their numbers up to a comparison. -/
def Node.agree (same : Binary64 → Binary64 → Bool) : Node → Node → Bool
  | .program ns, .program ns' => Node.agrees same ns ns'
  | .text s, .text s' => s == s'
  | .comment s, .comment s' => s == s'
  | .ifBlock b, .ifBlock b' => b.agree same b'
  | .switchBlock e cs, .switchBlock e' cs' => e.agree same e' && Case.agrees same cs cs'
  | .forBlock i k e ns, .forBlock i' k' e' ns' =>
    i == i' && k == k' && e.agree same e' && Node.agrees same ns ns'
  | .importFile s, .importFile s' => s == s'
  | .interpolation e, .interpolation e' => e.agree same e'
  | _, _ => false

/-- Whether two conditions with their nodes agree. -/
def IfBlock.agree (same : Binary64 → Binary64 → Bool) : IfBlock → IfBlock → Bool
  | ⟨e, ns, a⟩, ⟨e', ns', a'⟩ =>
    e.agree same e' && Node.agrees same ns ns' && Alternate.agree? same a a'

/-- Whether two alternates agree. -/
def Alternate.agree (same : Binary64 → Binary64 → Bool) : Alternate → Alternate → Bool
  | .elseIf b, .elseIf b' => b.agree same b'
  | .otherwise ns, .otherwise ns' => Node.agrees same ns ns'
  | _, _ => false

/-- Whether two alternates agree, either of which may be missing. -/
def Alternate.agree? (same : Binary64 → Binary64 → Bool) :
    Option Alternate → Option Alternate → Bool
  | none, none => true
  | some a, some a' => a.agree same a'
  | _, _ => false

/-- Whether two parts of switch blocks agree. -/
def Case.agree (same : Binary64 → Binary64 → Bool) : Case → Case → Bool
  | .case es ns, .case es' ns' => Expr.agrees same es es' && Node.agrees same ns ns'
  | .default ns, .default ns' => Node.agrees same ns ns'
  | _, _ => false

/-- Whether two lists of parts of switch blocks agree. -/
def Case.agrees (same : Binary64 → Binary64 → Bool) : List Case → List Case → Bool
  | [], [] => true
  | c :: cs, c' :: cs' => c.agree same c' && Case.agrees same cs cs'
  | _, _ => false

/-- Whether two lists of nodes agree. -/
def Node.agrees (same : Binary64 → Binary64 → Bool) : List Node → List Node → Bool
  | [], [] => true
  | n :: ns, n' :: ns' => n.agree same n' && Node.agrees same ns ns'
  | _, _ => false

end

/-! ### Agreement to the Bit -/

mutual

theorem Expr.agree_iff_eq : ∀ a b : Expr, a.agree (· == ·) b = true ↔ a = b
  | .conditional .., b => by
    cases b <;> simp [Expr.agree, Expr.agree_iff_eq, and_assoc]
  | .binary .., b => by cases b <;> simp [Expr.agree, Expr.agree_iff_eq, and_assoc]
  | .unary .., b => by cases b <;> simp [Expr.agree, Expr.agree_iff_eq]
  | .member .., b => by cases b <;> simp [Expr.agree, Expr.agree_iff_eq, and_assoc]
  | .identifier .., b => by cases b <;> simp [Expr.agree]
  | .call .., b => by cases b <;> simp [Expr.agree, Expr.agree_iff_eq, Expr.agrees_iff_eq]
  | .null, b => by cases b <;> simp [Expr.agree]
  | .int .., b => by cases b <;> simp [Expr.agree]
  | .float .., b => by cases b <;> simp [Expr.agree]
  | .string .., b => by cases b <;> simp [Expr.agree]
  | .boolean .., b => by cases b <;> simp [Expr.agree]

theorem Expr.agrees_iff_eq : ∀ as bs : List Expr, Expr.agrees (· == ·) as bs = true ↔ as = bs
  | [], bs => by cases bs <;> simp [Expr.agrees]
  | a :: as, bs => by cases bs <;> simp [Expr.agrees, Expr.agree_iff_eq, Expr.agrees_iff_eq]

end

mutual

theorem Node.agree_iff_eq : ∀ a b : Node, a.agree (· == ·) b = true ↔ a = b
  | .program .., b => by cases b <;> simp [Node.agree, Node.agrees_iff_eq]
  | .text .., b => by cases b <;> simp [Node.agree]
  | .comment .., b => by cases b <;> simp [Node.agree]
  | .ifBlock .., b => by cases b <;> simp [Node.agree, IfBlock.agree_iff_eq]
  | .switchBlock .., b => by cases b <;> simp [Node.agree, Expr.agree_iff_eq, Case.agrees_iff_eq]
  | .forBlock .., b => by
    cases b <;> simp [Node.agree, Expr.agree_iff_eq, Node.agrees_iff_eq, and_assoc]
  | .importFile .., b => by cases b <;> simp [Node.agree]
  | .interpolation .., b => by cases b <;> simp [Node.agree, Expr.agree_iff_eq]
termination_by structural t => t

theorem IfBlock.agree_iff_eq : ∀ a b : IfBlock, a.agree (· == ·) b = true ↔ a = b
  | ⟨e, ns, a⟩, ⟨e', ns', a'⟩ => by
    simp [IfBlock.agree, Expr.agree_iff_eq, Node.agrees_iff_eq, Alternate.agree?_iff_eq,
      and_assoc]
termination_by structural t => t

theorem Alternate.agree_iff_eq : ∀ a b : Alternate, a.agree (· == ·) b = true ↔ a = b
  | .elseIf .., b => by cases b <;> simp [Alternate.agree, IfBlock.agree_iff_eq]
  | .otherwise .., b => by cases b <;> simp [Alternate.agree, Node.agrees_iff_eq]
termination_by structural t => t

theorem Alternate.agree?_iff_eq :
    ∀ a b : Option Alternate, Alternate.agree? (· == ·) a b = true ↔ a = b
  | none, b => by cases b <;> simp [Alternate.agree?]
  | some a, b => by cases b <;> simp [Alternate.agree?, Alternate.agree_iff_eq]
termination_by structural t => t

theorem Case.agree_iff_eq : ∀ a b : Case, a.agree (· == ·) b = true ↔ a = b
  | .case .., b => by cases b <;> simp [Case.agree, Expr.agrees_iff_eq, Node.agrees_iff_eq]
  | .default .., b => by cases b <;> simp [Case.agree, Node.agrees_iff_eq]
termination_by structural t => t

theorem Case.agrees_iff_eq : ∀ a b : List Case, Case.agrees (· == ·) a b = true ↔ a = b
  | [], b => by cases b <;> simp [Case.agrees]
  | a :: as, b => by cases b <;> simp [Case.agrees, Case.agree_iff_eq, Case.agrees_iff_eq]
termination_by structural t => t

theorem Node.agrees_iff_eq : ∀ a b : List Node, Node.agrees (· == ·) a b = true ↔ a = b
  | [], b => by cases b <;> simp [Node.agrees]
  | a :: as, b => by cases b <;> simp [Node.agrees, Node.agree_iff_eq, Node.agrees_iff_eq]
termination_by structural t => t

end

instance : DecidableEq Expr := fun a b =>
  decidable_of_iff _ (Expr.agree_iff_eq a b)

instance : DecidableEq Node := fun a b =>
  decidable_of_iff _ (Node.agree_iff_eq a b)

/-- Two templates with the same nodes are the same. -/
theorem Program.ext {p q : Program} (h : p.body = q.body) : p = q := by
  cases p; cases q; cases h; rfl

instance : DecidableEq Program := fun p q =>
  decidable_of_iff (p.body = q.body) ⟨Program.ext, congrArg Program.body⟩

/-! ### Equality of Values -/

/-- Equality of templates, their numbers compared by value. -/
def Program.equal (p q : Program) : Bool :=
  Node.agrees Binary64.equal p.body q.body

/-- Whether two results agree: two templates with equal values, or the same error. -/
def Program.sameResult {ε : Type} [DecidableEq ε] :
    Except ε Program → Except ε Program → Bool
  | .ok p, .ok q => p.equal q
  | .error d, .error e => d = e
  | _, _ => false

end TemplateSyntax
