import TemplateSyntax.Proofs.Grammar.Nodes.Exact
import TemplateSyntax.Proofs.Shape.Tokens
import TemplateSyntax.Tree.Equal

/-! # Shapes of Derivations

  Whatever legible tokens write is a tree that can be written again, and its leaves are
  legible (`Proper`). This goes along the rules of the grammar: where a rule takes in a token
  as a leaf, its kind says what the leaf has to be like.
-/

namespace TemplateSyntax

/-! ## Legible Tokens -/

/-- All tokens of a row are legible. -/
def Legible (u : List Token) : Prop := ∀ t ∈ u, t.Legible

namespace Legible

variable {t : Token} {u v : List Token}

theorem left (h : Legible (u ++ v)) : Legible u := (List.forall_mem_append.mp h).1

theorem right (h : Legible (u ++ v)) : Legible v := (List.forall_mem_append.mp h).2

theorem head (h : Legible (t :: u)) : t.Legible := (List.forall_mem_cons.mp h).1

theorem tail (h : Legible (t :: u)) : Legible u := (List.forall_mem_cons.mp h).2

end Legible

namespace Token.Legible

variable {t : Token}

/-- A word that may stand for a variable. -/
theorem legible_variable (h : t.Legible) (ht : t.kind.isVariable = true) :
    (Leaf.variable t.text).Legible := by
  obtain ⟨hname, hkind⟩ := h.word (Kind.isWord_of_isVariable ht)
  rw [hkind] at ht
  exact ⟨hname, Kind.not_mem_valueWords ht⟩

/-- An identifier is a name that is not reserved. -/
theorem isName_of_identifier (h : t.Legible) (ht : t.kind = .identifier) :
    IsName t.text ∧ Kind.keyword? t.text = none := by
  obtain ⟨hname, hkind⟩ := h.word (by rw [ht]; rfl)
  rw [ht] at hkind
  exact ⟨hname, Kind.keyword?_of_identifier hkind.symm⟩

/-- Digits without a sign are read as a number that is not below zero. -/
theorem toInt_nonneg (h : t.Legible) (ht : t.kind = .integer) {value : Int64}
    (hv : Integer.read t.text = .ok value) :
    0 ≤ value.toInt ∧ value.toInt ≤ Integer.maxValue := by
  obtain ⟨hne, hdigits⟩ := h.integer ht
  rw [Integer.read_digits hne hdigits] at hv
  split at hv
  · next hle =>
    cases hv
    -- What is in range is not wrapped around.
    have hvalue : (Int64.ofNat (digitsValue t.text.toList)).toInt = digitsValue t.text.toList := by
      refine Int64.toInt_ofNat_of_lt ?_
      unfold Integer.maxValue at hle
      omega
    rw [hvalue]
    omega
  · cases hv

end Token.Legible

/-! ## Proper Trees -/

/-- A part of a tree that can be written, with legible leaves. -/
structure Proper (wellFormed : Bool) (leaves : List Leaf) : Prop where
  wellFormed : wellFormed = true
  legible : ∀ leaf ∈ leaves, leaf.Legible

namespace Proper

variable {a b : Bool} {l k : List Leaf}

theorem nil : Proper true [] := ⟨rfl, List.forall_mem_nil _⟩

theorem leaf {x : Leaf} (h : x.Legible) : Proper true [x] :=
  ⟨rfl, List.forall_mem_singleton.mpr h⟩

theorem and (h : Proper a l) (h' : Proper b k) : Proper (a && b) (l ++ k) :=
  ⟨Bool.and_eq_true_iff.mpr ⟨h.wellFormed, h'.wellFormed⟩,
    List.forall_mem_append.mpr ⟨h.legible, h'.legible⟩⟩

/-- What has to be true of a part besides. -/
theorem guard {g : Bool} (hg : g = true) (h : Proper a l) : Proper (g && a) l :=
  ⟨Bool.and_eq_true_iff.mpr ⟨hg, h.wellFormed⟩, h.legible⟩

theorem also {g : Bool} (h : Proper a l) (hg : g = true) : Proper (a && g) l :=
  ⟨Bool.and_eq_true_iff.mpr ⟨h.wellFormed, hg⟩, h.legible⟩

theorem property {object : Expr} {name : String} (h : Proper object.wellFormed object.leaves)
    (hhead : object.headed = true) (hname : IsName name) :
    Proper (object.property name).wellFormed (object.property name).leaves := by
  rw [Expr.leaves_property]
  exact ((h.guard hhead).and (leaf (x := .property name) hname)).also rfl

theorem index {object key : Expr} (h : Proper object.wellFormed object.leaves)
    (hhead : object.headed = true) (hkey : Proper key.wellFormed key.leaves) :
    Proper (object.index key).wellFormed (object.index key).leaves := by
  rw [Expr.leaves_index]
  exact ((h.guard hhead).and hkey).also rfl

end Proper

namespace Grammar

/-! ## Expressions -/

/-- Suffixes stand behind a name. -/
theorem Chain.headed {n u e} (h : Chain n u e) : e.headed = true := by
  induction h using Chain.along with
  | head _ => rfl
  | property _ _ _ ih | index _ _ _ _ ih | call _ _ _ _ ih => exact ih

mutual

theorem Conditional.proper {n u e} (h : Conditional n u e) (hu : Legible u) :
    Proper e.wellFormed e.leaves :=
  match h with
  | .single h => h.proper hu
  | .choice hc _ ha _ hb =>
    have hbranches := hu.right.tail
    ((hc.proper hu.left).and (ha.proper hbranches.left)).and (hb.proper hbranches.right.tail)
termination_by structural h

theorem Binary.proper {i n u e} (h : Binary i n u e) (hu : Legible u) :
    Proper e.wellFormed e.leaves :=
  match h with
  | .unary h => h.proper hu
  | .tighter h => h.proper hu
  | .operation hl _ hr => (hl.proper hu.left).and (hr.proper hu.right.tail)
termination_by structural h

theorem Unary.proper {n u e} (h : Unary n u e) (hu : Legible u) :
    Proper e.wellFormed e.leaves :=
  match h with
  | .primary h => h.proper hu
  | .operation _ h => h.proper hu.tail
termination_by structural h

theorem Primary.proper {n u e} (h : Primary n u e) (hu : Legible u) :
    Proper e.wellFormed e.leaves :=
  match h with
  | .parenthesised _ h _ => h.proper hu.tail.left
  | .integer ht hx =>
    have hrange := hu.head.toInt_nonneg ht hx
    ⟨decide_eq_true hrange.1, List.forall_mem_singleton.mpr hrange⟩
  | .float _ _ | .string _ | .boolean _ | .null _ => .nil
  | .chain h => h.proper hu
termination_by structural h

theorem Chain.proper {n u e} (h : Chain n u e) (hu : Legible u) :
    Proper e.wellFormed e.leaves :=
  match h with
  | .head ht => .leaf (hu.head.legible_variable ht)
  | .property h _ ht =>
    (h.proper hu.left).property h.headed (hu.right.tail.head.word ht).1
  | .index h _ hk _ => (h.proper hu.left).index h.headed (hk.proper hu.right.tail.left)
  | .call h _ ha _ => ((h.proper hu.left).guard h.headed).and (ha.proper hu.right.tail.left)
termination_by structural h

theorem Arguments.proper {n u es} (h : Arguments n u es) (hu : Legible u) :
    Proper (Expr.rowWellFormed es) (Expr.rowLeaves es) :=
  match h with
  | .none => .nil
  | .some h => h.proper hu
termination_by structural h

theorem Expressions.proper {n u es} (h : Expressions n u es) (hu : Legible u) :
    Proper (Expr.rowWellFormed es) (Expr.rowLeaves es) :=
  match h with
  | .single h => (h.proper hu).and .nil
  | .cons h _ hs => (h.proper hu.left).and (hs.proper hu.right.tail)
termination_by structural h

end

/-! ## Nodes -/

/-- Nothing with a token of its own at its end stands behind an `else` alone. -/
theorem Piece.isProgram {n u x} (h : Piece n u x) : x.isProgram = false := by
  cases h with
  | text _ => rfl
  | comment _ => rfl
  | block _ h => cases h <;> rfl

theorem Counter.legible {i : List Token} {index : Option String} (h : Counter i index)
    (hi : Legible i) : ∀ leaf ∈ index.toList.map Leaf.index, leaf.Legible := by
  cases h with
  | none => exact List.forall_mem_nil _
  | some _ hn => exact List.forall_mem_singleton.mpr (hi.tail.head.isName_of_identifier hn)

/-- A row of expressions is not empty. -/
theorem Expressions.isEmpty {n u es} (h : Expressions n u es) : es.isEmpty = false := by
  cases h <;> rfl

theorem proper_strayNode {a : Alternate} (h : Proper a.wellFormed a.leaves) :
    Proper (Parse.strayNode a).wellFormed (Parse.strayNode a).leaves := by
  cases a <;> exact h

mutual

/-- A stray `else` comes last, in front of `{/if`. -/
theorem Body.proper {n words u xs} (h : Body n words u xs) (hu : Legible u) :
    Proper (Node.rowWellFormed (words = [.ifEnd]) xs) (Node.rowLeaves xs) :=
  match h with
  | .nil => .nil
  | .cons h _ hs =>
    ((h.proper hu.left).guard (by rw [h.isProgram]; rfl)).and (hs.proper hu.right)
  | .stray hw _ h =>
    ((proper_strayNode (h.proper hu.tail)).guard (by rw [hw]; exact Bool.or_true _)).and .nil
termination_by structural h

theorem Piece.proper {n u x} (h : Piece n u x) (hu : Legible u) :
    Proper x.wellFormed x.leaves :=
  match h with
  | .text ht => .leaf (hu.head.markup ht)
  | .comment ht => .leaf (hu.head.comment ht)
  | .block _ h => h.proper hu.tail
termination_by structural h

theorem Block.proper {n u x} (h : Block n u x) (hu : Legible u) :
    Proper x.wellFormed x.leaves :=
  match h with
  | .condition h _ => h.proper hu.left
  | .switch _ he _ _ hp _ =>
    (he.proper hu.tail.left).and (hp.proper hu.tail.right.tail.right.left)
  -- The names of a loop stand in front of its leaves and have no tree of their own.
  | .loop _ hn hi _ he _ hb _ =>
    have hiterator := hu.tail.head.isName_of_identifier hn
    have hrest := hu.tail.tail.right.tail
    have hparts := (he.proper hrest.left).and (hb.proper hrest.right.tail.left)
    ⟨hparts.wellFormed, List.forall_mem_cons.mpr ⟨hiterator,
      List.forall_mem_append.mpr ⟨hi.legible hu.tail.tail.left, hparts.legible⟩⟩⟩
  | .importFile _ _ _ => .nil
  | .empty _ => .nil
  | .interpolation he _ _ => he.proper hu.left
termination_by structural h

theorem Condition.proper {n u b} (h : Condition n u b) (hu : Legible u) :
    Proper b.wellFormed b.leaves :=
  match h with
  | .alone _ he _ hb =>
    ((he.proper hu.tail.left).and (hb.proper hu.tail.right.tail)).and .nil
  | .chained _ he _ hb _ ha =>
    ((he.proper hu.tail.left).and (hb.proper hu.tail.right.tail.left)).and
      (ha.proper hu.tail.right.tail.right.tail)
termination_by structural h

theorem Branch.proper {n u a} (h : Branch n u a) (hu : Legible u) :
    Proper a.wellFormed a.leaves :=
  match h with
  | .elseIf _ h => h.proper hu.tail
  | .otherwise _ _ hb => hb.proper hu.tail.tail
termination_by structural h

theorem Parts.proper {n u xs} (h : Parts n u xs) (hu : Legible u) :
    Proper (Case.rowWellFormed xs) (Case.rowLeaves xs) :=
  match h with
  | .nil => .nil
  | .cons h hs => (h.proper hu.left).and (hs.proper hu.right)
termination_by structural h

theorem Part.proper {n u x} (h : Part n u x) (hu : Legible u) :
    Proper x.wellFormed x.leaves :=
  match h with
  | .case _ _ he _ hb =>
    have hvalues := (he.proper hu.tail.tail.left).guard (by rw [he.isEmpty]; rfl)
    hvalues.and (hb.proper hu.tail.tail.right.tail)
  | .default _ _ _ hb => hb.proper hu.tail.tail.tail
termination_by structural h

end

end Grammar

/-! ## Templates -/

/-- Legible tokens are parsed to a template that can be written, with legible leaves. -/
theorem proper_of_parse {ts : List Token} {p : Program} (hts : Legible ts)
    (h : parse ts = .ok p) : Proper p.wellFormed p.leaves := by
  obtain ⟨u, r, rfl, -, hbody⟩ := Grammar.parse_eq_ok_iff.mp h
  exact hbody.proper hts.left

/-- Every template that is compiled from a source text is one that can be written: nodes behind
    an `else` that belongs to no condition are the last ones of nodes that `{/if}` closes, a
    case has values, suffixes follow names, and names stand behind points. Its leaves are what
    they look like: texts and comments are parts of lines, names consist of the characters of
    words and are reserved words only where these may be names, and no number is below zero. -/
theorem compile_shape {source : String} {p : Program} (h : compile source = .ok p) :
    p.wellFormed = true ∧ ∀ leaf ∈ p.leaves, leaf.Legible := by
  have hproper := proper_of_parse (legible_tokenize source) h
  exact ⟨hproper.wellFormed, hproper.legible⟩

/-- An `else` that belongs to no condition, inside one that does. -/
theorem compile_shape_stray :
    let source := "// n\n\x7bif a.b\x7dx\x7belse\x7d" ++
      "\x7belse\x7d\x7bfor i, k in c\x7d\x7bi[0]\x7d\x7b/for\x7d\x7b/if\x7d"
    let p : Program := ⟨[.comment "// n", .ifBlock ⟨(Expr.identifier "a").property "b",
      [.text "x"], some (.otherwise [.program [.forBlock "i" (some "k") (.identifier "c")
        [.interpolation ((Expr.identifier "i").index (.int 0))]]])⟩]⟩
    compile source = .ok p ∧ p.wellFormed = true ∧ ∀ leaf ∈ p.leaves, leaf.Legible := by
  intro source p
  have hp : compile source = .ok p := by decide +kernel
  obtain ⟨hwritten, hleaves⟩ := compile_shape hp
  exact ⟨hp, hwritten, hleaves⟩

end TemplateSyntax
