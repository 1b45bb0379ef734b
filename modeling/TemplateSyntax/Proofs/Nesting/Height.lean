import TemplateSyntax.Proofs.Grammar.Nodes.Exact
import TemplateSyntax.Proofs.Scan.Step
import TemplateSyntax.Tree.Equal

/-! # How High Trees Are

  The limit of nesting counts how deeply the rules of the grammar go into one another, not how
  high the tree is that they build. Rows of operators and of suffixes are read without going
  deeper, and each of their members is one more node on top of those before it, along a left
  operand, an object or a callee. So there are trees of every height (`height_unbounded`).

  Everything else is bounded by the limit. With nothing counted for a step along a row, the
  height of a template is at most `heightBound` of the limit, and each member of a row adds one
  to it (`height_le_of_compile`).
-/

namespace TemplateSyntax

/-! ## Heights -/

namespace Expr

mutual

/-- The height of an expression, where a step along a row counts for so much: to a left operand,
    to an object or to a callee. Every other step counts for one. -/
def height (row : Nat) : Expr → Nat
  | conditional c a b => max (c.height row) (max (a.height row) (b.height row)) + 1
  | binary a _ b => max (a.height row + row) (b.height row + 1)
  | unary _ e => e.height row + 1
  | member object key _ => max (object.height row + row) (key.height row + 1)
  | call callee args => max (callee.height row + row) (rowHeight row args + 1)
  | identifier _ | null | int _ | float _ | string _ | boolean _ => 1

/-- The height of the highest of some expressions. -/
def rowHeight (row : Nat) : List Expr → Nat
  | [] => 0
  | e :: es => max (e.height row) (rowHeight row es)

end

end Expr

mutual

/-- The height of a node, with the expressions in it. -/
def Node.height (row : Nat) : Node → Nat
  | .text _ | .comment _ | .importFile _ => 1
  | .program body => Node.rowHeight row body + 1
  | .ifBlock block => block.height row + 1
  | .switchBlock test cases => max (test.height row) (Case.rowHeight row cases) + 1
  | .forBlock _ _ iterable body => max (iterable.height row) (Node.rowHeight row body) + 1
  | .interpolation value => value.height row + 1

/-- The height of the highest part of a condition. -/
def IfBlock.height (row : Nat) : IfBlock → Nat
  | ⟨condition, consequent, alternate⟩ =>
    max (condition.height row)
      (max (Node.rowHeight row consequent) (Alternate.height? row alternate))

/-- The height of an alternate. -/
def Alternate.height (row : Nat) : Alternate → Nat
  | .elseIf block => block.height row + 1
  | .otherwise body => Node.rowHeight row body + 1

/-- The height of an alternate, if there is one. -/
def Alternate.height? (row : Nat) : Option Alternate → Nat
  | none => 0
  | some a => a.height row

/-- The height of a part of a switch block. -/
def Case.height (row : Nat) : Case → Nat
  | .case values body => max (Expr.rowHeight row values) (Node.rowHeight row body) + 1
  | .default body => Node.rowHeight row body + 1

/-- The height of the highest of the parts of a switch block. -/
def Case.rowHeight (row : Nat) : List Case → Nat
  | [] => 0
  | x :: xs => max (x.height row) (Case.rowHeight row xs)

/-- The height of the highest of some nodes. -/
def Node.rowHeight (row : Nat) : List Node → Nat
  | [] => 0
  | x :: xs => max (x.height row) (Node.rowHeight row xs)

end

/-- The height of a template. With one for a step along a row it is that of the tree. -/
def Program.height (row : Nat) (p : Program) : Nat := Node.rowHeight row p.body + 1

/-- An alternate is as high as the node that it is if it belongs to no condition. -/
theorem Parse.height_strayNode (row : Nat) (a : Alternate) :
    (strayNode a).height row = a.height row := by
  cases a with
  | elseIf block => simp only [strayNode, Node.height, Alternate.height]
  | otherwise body => simp only [strayNode, Node.height, Alternate.height]

/-! ## What the Grammar Bounds -/

namespace Grammar

/-- Counts a token that goes on with an expression in front of it, as each member of a row
    begins with one. -/
def link (t : Token) : Nat := if t.kind.bond.isSome then 1 else 0

theorem link_of_bond {t : Token} {j : Nat} (h : t.kind.bond = some j) : link t = 1 := by
  rw [link, h]
  rfl

/-- How many of the tokens go on with an expression in front of them. -/
def links (ts : List Token) : Nat := ts.countP (·.kind.bond.isSome)

theorem links_cons (t : Token) (u : List Token) : links (t :: u) = link t + links u := by
  rw [links, List.countP_cons, Nat.add_comm]
  rfl

theorem links_append (u v : List Token) : links (u ++ v) = links u + links v :=
  List.countP_append

section expressions

variable (row : Nat)

mutual

theorem Conditional.height_le {n u e} (h : Conditional n u e) :
    e.height row ≤ 8 * n + 1 + row * links u :=
  match h with
  | .single h => by
    have hbinary := h.height_le
    omega
  | .choice hc _ ha _ hb => by
    have hcondition := hc.height_le
    have hconsequent := ha.height_le
    have halternate := hb.height_le
    simp only [links_append, links_cons, Expr.height, Nat.mul_add]
    omega
termination_by structural h

/-- Each level of operators may stand in a right operand of the looser one. -/
theorem Binary.height_le {i n u e} (h : Binary i n u e) :
    e.height row + i ≤ 8 * n + 9 + row * links u :=
  match h with
  | .unary h => by
    have hunary := h.height_le
    omega
  | .tighter h => by
    have htighter := h.height_le
    omega
  | @Binary.operation op _ _ _ _ _ _ hl ht hr => by
    have hleft := hl.height_le
    have hright := hr.height_le
    have hlink := link_of_bond ((congrArg Kind.bond ht).trans op.bond_kind)
    simp only [links_append, links_cons, hlink, Expr.height, Nat.mul_add, Nat.mul_one]
    omega
termination_by structural h

theorem Unary.height_le {n u e} (h : Unary n u e) :
    e.height row ≤ 8 * n + 2 + row * links u :=
  match h with
  | .primary h => h.height_le
  | .operation _ h => by
    have hoperand := h.height_le
    simp only [links_cons, Expr.height, Nat.mul_add]
    omega
termination_by structural h

theorem Primary.height_le {n u e} (h : Primary n u e) :
    e.height row ≤ 8 * n + 2 + row * links u :=
  match h with
  | .parenthesised _ h _ => by
    have hinner := h.height_le
    simp only [links_append, links_cons, Nat.mul_add]
    omega
  | .integer _ _ | .float _ _ | .string _ | .boolean _ | .null _ => by
    simp only [Expr.height]
    omega
  | .chain h => h.height_le
termination_by structural h

theorem Chain.height_le {n u e} (h : Chain n u e) :
    e.height row ≤ 8 * n + 2 + row * links u :=
  match h with
  | .head _ => by
    simp only [Expr.height]
    omega
  | .property h hp _ => by
    have hobject := h.height_le
    have hlink := link_of_bond (congrArg Kind.bond hp)
    simp only [links_append, links_cons, hlink, Expr.property, Expr.height, Nat.mul_add,
      Nat.mul_one]
    omega
  | .index h hl hk _ => by
    have hobject := h.height_le
    have hkey := hk.height_le
    have hlink := link_of_bond (congrArg Kind.bond hl)
    simp only [links_append, links_cons, hlink, Expr.index, Expr.height, Nat.mul_add, Nat.mul_one]
    omega
  | .call h hl ha _ => by
    have hcallee := h.height_le
    have hargs := ha.height_le
    have hlink := link_of_bond (congrArg Kind.bond hl)
    simp only [links_append, links_cons, hlink, Expr.height, Nat.mul_add, Nat.mul_one]
    omega
termination_by structural h

theorem Arguments.height_le {n u es} (h : Arguments n u es) :
    Expr.rowHeight row es ≤ 8 * n + 1 + row * links u :=
  match h with
  | .none => Nat.zero_le _
  | .some h => h.height_le
termination_by structural h

theorem Expressions.height_le {n u es} (h : Expressions n u es) :
    Expr.rowHeight row es ≤ 8 * n + 1 + row * links u :=
  match h with
  | .single h => by
    have hfirst := h.height_le
    simp only [Expr.rowHeight]
    omega
  | .cons h _ hs => by
    have hfirst := h.height_le
    have hothers := hs.height_le
    simp only [links_append, links_cons, Expr.rowHeight, Nat.mul_add]
    omega
termination_by structural h

end

end expressions

section nodes

variable (row : Nat)

mutual

theorem Body.height_le {n words u xs} (h : Body n words u xs) :
    Node.rowHeight row xs ≤ 8 * n + 1 + row * links u :=
  match h with
  | .nil => Nat.zero_le _
  | .cons h _ hs => by
    have hfirst := h.height_le
    have hothers := hs.height_le
    simp only [links_append, Node.rowHeight, Nat.mul_add]
    omega
  | .stray _ _ h => by
    have hbranch := h.height_le
    simp only [links_cons, Node.rowHeight, Parse.height_strayNode, Nat.mul_add]
    omega
termination_by structural h

theorem Piece.height_le {n u x} (h : Piece n u x) :
    x.height row ≤ 8 * n + 1 + row * links u :=
  match h with
  | .text _ | .comment _ => by
    simp only [Node.height]
    omega
  | .block _ h => by
    have hblock := h.height_le
    simp only [links_cons, Nat.mul_add]
    omega
termination_by structural h

theorem Block.height_le {n u x} (h : Block n u x) :
    x.height row ≤ 8 * n + 3 + row * links u :=
  match h with
  | .condition h _ => by
    have hblock := h.height_le
    simp only [links_append, Node.height, Nat.mul_add]
    omega
  | .switch _ he _ _ hp _ => by
    have htest := he.height_le row
    have hparts := hp.height_le
    simp only [links_append, links_cons, Node.height, Nat.mul_add]
    omega
  | .loop _ _ _ _ he _ hb _ => by
    have hiterable := he.height_le row
    have hbody := hb.height_le
    simp only [links_append, links_cons, Node.height, Nat.mul_add]
    omega
  | .importFile _ _ _ => by
    simp only [Node.height]
    omega
  | .empty _ => by
    simp only [Node.height, Expr.height]
    omega
  | .interpolation he _ _ => by
    have hvalue := he.height_le row
    simp only [links_append, Node.height, Nat.mul_add]
    omega
termination_by structural h

theorem Condition.height_le {n u b} (h : Condition n u b) :
    b.height row ≤ 8 * n + 1 + row * links u :=
  match h with
  | .alone _ he _ hb => by
    have hcondition := he.height_le row
    have hbody := hb.height_le
    simp only [links_append, links_cons, IfBlock.height, Alternate.height?, Nat.mul_add]
    omega
  | .chained _ he _ hb _ ha => by
    have hcondition := he.height_le row
    have hbody := hb.height_le
    have hbranch := ha.height_le
    simp only [links_append, links_cons, IfBlock.height, Alternate.height?, Nat.mul_add]
    omega
termination_by structural h

theorem Branch.height_le {n u a} (h : Branch n u a) :
    a.height row ≤ 8 * n + 2 + row * links u :=
  match h with
  | .elseIf _ h => by
    have hblock := h.height_le
    simp only [links_cons, Alternate.height, Nat.mul_add]
    omega
  | .otherwise _ _ hb => by
    have hbody := hb.height_le
    simp only [links_cons, Alternate.height, Nat.mul_add]
    omega
termination_by structural h

theorem Parts.height_le {n u xs} (h : Parts n u xs) :
    Case.rowHeight row xs ≤ 8 * n + 2 + row * links u :=
  match h with
  | .nil => Nat.zero_le _
  | .cons h hs => by
    have hfirst := h.height_le
    have hothers := hs.height_le
    simp only [links_append, Case.rowHeight, Nat.mul_add]
    omega
termination_by structural h

theorem Part.height_le {n u x} (h : Part n u x) :
    x.height row ≤ 8 * n + 2 + row * links u :=
  match h with
  | .case _ _ he _ hb => by
    have hvalues := he.height_le row
    have hbody := hb.height_le
    simp only [links_append, links_cons, Case.height, Nat.mul_add]
    omega
  | .default _ _ _ hb => by
    have hbody := hb.height_le
    simp only [links_cons, Case.height, Nat.mul_add]
    omega
termination_by structural h

end

end nodes

end Grammar

/-- The height of trees within a limit, with nothing counted for a step along a row. -/
def heightBound (limit : Nat) : Nat := 8 * limit + 2

/-- The limit of nesting bounds the height of a template but for its rows, whose members are
    no more than the tokens that go on with an expression. -/
theorem height_le_of_programWithin {limit : Nat} {ts : List Token} {p : Program}
    (h : (Parse.programWithin limit (.ofTokens ts)).result = .ok p) (row : Nat) :
    p.height row ≤ heightBound limit + row * Grammar.links ts := by
  obtain ⟨u, hu, hbody, -⟩ := Grammar.body_of_programWithin h
  have hheight := hbody.height_le row
  have hts : ts = u ++ _ := hu.1
  rw [hts, Grammar.links_append, Nat.mul_add, Program.height, heightBound]
  omega

/-- The height of what compiles is at most 514, if a step along a row of operators or of
    suffixes counts for nothing. If it counts for one, as every other step does, each token that
    goes on with an expression adds at most one. -/
theorem height_le_of_compile {source : String} {p : Program} (h : compile source = .ok p) :
    p.height 0 ≤ heightBound nestingLimit ∧
      p.height 1 ≤ heightBound nestingLimit + Grammar.links (tokenize source) := by
  have hrowless := height_le_of_programWithin h 0
  have hheight := height_le_of_programWithin h 1
  rw [Nat.zero_mul] at hrowless
  rw [Nat.one_mul] at hheight
  exact ⟨hrowless, hheight⟩

/-- Two operators and a suffix stand in rows, and the factors are one step more below the
    sum. -/
theorem height_le_of_compile_sum :
    let source := "\x7ba+b*c.d\x7d"
    let p : Program := ⟨[.interpolation (.binary (.identifier "a") .add
      (.binary (.identifier "b") .mul ((Expr.identifier "c").property "d")))]⟩
    compile source = .ok p ∧ p.height 0 ≤ 514 ∧ p.height 1 = 6 ∧
      Grammar.links (tokenize source) = 3 ∧ p.height 1 ≤ 514 + 3 := by
  intro source p
  have hread : compile source = .ok p := by decide +kernel
  have hlinks : Grammar.links (tokenize source) = 3 := by decide +kernel
  have hbound := height_le_of_compile hread
  rw [hlinks] at hbound
  exact ⟨hread, hbound.1, by decide +kernel, hlinks, hbound.2⟩

/-! ## What Nothing Bounds -/

/-- An expression with so many suffixes `.a` behind it. -/
def Expr.suffixed (e : Expr) : Nat → Expr
  | 0 => e
  | n + 1 => (e.property "a").suffixed n

/-- Every suffix is one step more on the way down. -/
theorem Expr.height_suffixed (e : Expr) (n : Nat) : e.height 1 + n ≤ (e.suffixed n).height 1 := by
  induction n generalizing e with
  | zero => exact Nat.le_refl _
  | succ n ih =>
    have hmember : e.height 1 + 1 ≤ (e.property "a").height 1 := by
      rw [property, height]
      exact Nat.le_max_left _ _
    have hothers := ih (e.property "a")
    rw [suffixed]
    omega

/-- So many suffixes `.a` and a closing brace. -/
def suffixChars : Nat → List Char
  | 0 => ['\x7d']
  | n + 1 => '.' :: 'a' :: suffixChars n

/-- No suffix goes on with the word in front of it, and no brace does. -/
theorem exists_suffixChars (n : Nat) :
    ∃ c cs, suffixChars n = c :: cs ∧ isWordChar c = false := by
  cases n with
  | zero => exact ⟨_, _, rfl, by decide⟩
  | succ n => exact ⟨_, _, rfl, by decide⟩

namespace Scan

variable {s : Scan}

/-- A step over a lexeme of one character that stands for itself. -/
theorem next_single {c : Char} {cs : List Char} {k : Kind} {m : Modes} (hc : isBlank c = false)
    (hr : s.rest = c :: cs) (hl : s.lexeme c cs = .plain k [c] m) :
    s.next.token.kind = k ∧ s.next.token.text = .ofList [c] ∧
      s.next.scan.rest = cs ∧ s.next.scan.modes = m := by
  have hgap : ∀ g ∈ ([] : List Char), isBlank g = true := nofun
  exact next_lexeme hgap hc hr hl rfl

/-- In front of suffixes the name is one letter. -/
theorem lexeme_name (n : Nat) {m : Modes} (hm : s.modes = m) (hx : m.current = .expression) :
    s.lexeme 'a' (suffixChars n) = .plain .identifier ['a'] m := by
  obtain ⟨c, cs, hcs, hc⟩ := exists_suffixChars n
  have hrun : ('a' :: c :: cs).takeWhile isWordChar = ['a'] := by
    rw [List.takeWhile_cons_of_pos (by decide),
      List.takeWhile_cons_of_neg (Bool.eq_false_iff.mp hc)]
  have hword : Lexeme.expression m 'a' (c :: cs) = .word m ('a' :: c :: cs) := rfl
  rw [lexeme, hm, hcs, Lexeme.first, hx]
  show Lexeme.expression m 'a' (c :: cs) = _
  rw [hword, Lexeme.word, hrun]
  rfl

/-- With suffixes left, the tokens are those of the suffixes, the closing brace and the end of
    the input. The tokens of the suffixes may stand behind any chain. -/
theorem tokens_suffixChars (n : Nat) (hm : s.modes = ⟨.expression, .text⟩)
    (hr : s.rest = suffixChars n) :
    ∃ u stop last, s.tokens = u ++ [stop, last] ∧ stop.kind = .exprEnd ∧ last.kind = .eof ∧
      ∀ {k v e}, Grammar.Chain k v e → Grammar.Chain k (v ++ u) (e.suffixed n) := by
  induction n generalizing s with
  | zero =>
    have hlexeme : s.lexeme '\x7d' [] = .plain .exprEnd ['\x7d'] ⟨.text, .text⟩ := by
      rw [lexeme, hm]
      rfl
    obtain ⟨hstop, -, hrest, -⟩ := next_single (by decide) hr hlexeme
    have hgap : ∀ g ∈ ([] : List Char), isBlank g = true := nofun
    have hlast : s.next.scan.next.token.kind = .eof := by
      rw [(next_blank hgap hrest).1]
      rfl
    refine ⟨[], s.next.token, s.next.scan.next.token, ?_, hstop, hlast, ?_⟩
    · rw [tokens_of_ne_eof (by rw [hstop]; nofun), tokens_of_eof hlast]
      rfl
    · intro k v e hchain
      rw [List.append_nil]
      exact hchain
  | succ n ih =>
    have hpoint : s.lexeme '.' ('a' :: suffixChars n) = .plain .period ['.'] s.modes := by
      rw [lexeme, hm]
      rfl
    obtain ⟨hkind, -, hrest, hmodes⟩ := next_single (by decide) hr hpoint
    rw [hm] at hmodes
    obtain ⟨hword, htext, hrest', hmodes'⟩ :=
      next_single (by decide) hrest (lexeme_name n hmodes rfl)
    obtain ⟨u, stop, last, htokens, hstop, hlast, hchain⟩ := ih hmodes' hrest'
    refine ⟨s.next.token :: s.next.scan.next.token :: u, stop, last, ?_, hstop, hlast, ?_⟩
    · rw [tokens_of_ne_eof (by rw [hkind]; nofun), tokens_of_ne_eof (by rw [hword]; nofun), htokens]
      rfl
    · intro k v e h
      have hsuffix := hchain (h.property hkind (t := s.next.scan.next.token) (by rw [hword]; rfl))
      rw [htext, List.append_assoc] at hsuffix
      exact hsuffix

end Scan

/-- A name with its suffixes is a template if it stands in braces. -/
theorem Grammar.Chain.body {n : Nat} {brace name stop : Token} {u : List Token} {e : Expr}
    (h : Chain n (name :: u) e) (hbrace : brace.kind = .exprStart)
    (hname : name.kind = .identifier) (hstop : stop.kind = .exprEnd) :
    Body (n + 2) [] (brace :: name :: (u ++ [stop])) [.interpolation e] := by
  have hvalue : Conditional (n + 1) (name :: u) e :=
    .single (.loosen (by decide) (.unary (.primary (.chain h))))
  have hfirst : ∀ t ∈ (name :: u).head?, t.kind.opensBlock = false := by
    intro t ht
    cases ht
    rw [hname]
    rfl
  have hblock : Block (n + 1) (name :: u ++ [stop]) (.interpolation e) :=
    .interpolation hvalue hfirst hstop
  have hpiece : Piece (n + 2) (brace :: name :: (u ++ [stop])) (.interpolation e) :=
    .block hbrace hblock
  have hnot : ¬ AtBrace [] (brace :: name :: (u ++ [stop])) :=
    fun hat => absurd hat.2 List.not_mem_nil
  have hbody := Body.cons hpiece hnot .nil
  rw [List.append_nil] at hbody
  exact hbody

/-- A name with so many suffixes compiles, however many they are. -/
theorem compile_suffixed (n : Nat) :
    compile (.ofList ('\x7b' :: 'a' :: suffixChars n)) =
      .ok ⟨[.interpolation ((Expr.identifier "a").suffixed n)]⟩ := by
  generalize hs : Scan.ofSource (.ofList ('\x7b' :: 'a' :: suffixChars n)) = s
  have hrest : s.rest = '\x7b' :: 'a' :: suffixChars n := by
    rw [← hs]
    exact String.toList_ofList
  have hopen : s.lexeme '\x7b' ('a' :: suffixChars n) =
      .plain .exprStart ['\x7b'] ⟨.expression, .text⟩ := by
    rw [← hs]
    rfl
  obtain ⟨hbrace, -, hrest₁, hmodes₁⟩ := Scan.next_single (by decide) hrest hopen
  obtain ⟨hname, htext, hrest₂, hmodes₂⟩ :=
    Scan.next_single (by decide) hrest₁ (Scan.lexeme_name n hmodes₁ rfl)
  obtain ⟨u, stop, last, htokens, hstop, hlast, hsuffixes⟩ :=
    Scan.tokens_suffixChars n hmodes₂ hrest₂
  have hhead : Grammar.Chain 62 [s.next.scan.next.token] (.identifier "a") := by
    have hchain : Grammar.Chain 62 [s.next.scan.next.token] (.identifier _) :=
      .head (by rw [hname]; rfl)
    rw [htext] at hchain
    exact hchain
  have hend : Grammar.AtEnd [last] := by
    intro t ht
    cases ht
    exact hlast
  have htokens : tokenize (.ofList ('\x7b' :: 'a' :: suffixChars n)) =
      s.next.token :: s.next.scan.next.token :: (u ++ [stop]) ++ [last] := by
    rw [tokenize, hs, Scan.tokens_of_ne_eof (by rw [hbrace]; nofun),
      Scan.tokens_of_ne_eof (by rw [hname]; nofun), htokens]
    simp only [List.cons_append, List.append_assoc, List.nil_append]
  exact Grammar.parse_eq_ok_iff.mpr
    ⟨_, [last], htokens, hend, (hsuffixes hhead).body hbrace hname hstop⟩

/-- No bound on the height holds of everything that compiles. -/
theorem height_unbounded :
    ¬ ∃ bound, ∀ source p, compile source = .ok p → p.height 1 ≤ bound := by
  rintro ⟨bound, hbound⟩
  have hheight := hbound _ _ (compile_suffixed bound)
  have hsuffixed := (Expr.identifier "a").height_suffixed bound
  simp only [Program.height, Node.rowHeight, Node.height] at hheight
  omega

end TemplateSyntax
