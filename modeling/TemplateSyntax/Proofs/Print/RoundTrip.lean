import TemplateSyntax.Proofs.Grammar.Nodes.Exact
import TemplateSyntax.Proofs.Print.Expression

/-! # Written Templates Are Read Back

  Tokens that are what the signs of a well-formed node say write this node in the grammar,
  within as many levels as it takes (`Node.written_of_writes`). So a template that is
  written as tokens is read from these tokens (`parse_of_writes`).
-/

namespace TemplateSyntax

open Grammar

/-! ## Words -/

/-- The words that end a row of nodes. -/
def Kind.endsRow : Kind → Bool
  | .elseStart | .ifEnd | .caseStart | .defaultStart | .switchEnd | .forEnd => true
  | _ => false

theorem Kind.endsRow_of_opensWritten {k : Kind} (h : k.opensWritten = true) :
    k.endsRow = false := by
  revert h
  cases k <;> decide

theorem Kind.opensBlock_of_opensWritten {k : Kind} (h : k.opensWritten = true) :
    k.opensBlock = false := by
  revert h
  cases k <;> decide

theorem not_atBrace_of_word {t w : Token} {u : List Token} {words : List Kind}
    (hwords : ∀ k ∈ words, k.endsRow = true) (hw : w.kind.endsRow = false) :
    ¬ AtBrace words (t :: w :: u) := by
  intro h
  have := hwords _ h.2
  rw [hw] at this
  cases this

theorem closing_of_writes {word : Kind} {u : List Token} (hu : Writes u word.closingSigns) :
    Closing word u := by
  obtain ⟨a, u, rfl, ha, hu⟩ := hu.cons_inv
  obtain ⟨b, u, rfl, hb, hu⟩ := hu.cons_inv
  obtain ⟨c, u, rfl, hc, hu⟩ := hu.cons_inv
  rw [hu.nil_inv]
  exact .mk ha hb hc

theorem counter_of_writes {index : Option String} {u : List Token}
    (hu : Writes u (counterSigns index)) : Counter u index := by
  cases index with
  | none =>
    rw [hu.nil_inv]
    exact .none
  | some name =>
    obtain ⟨comma, z, rfl, hcomma, hz⟩ := hu.cons_inv
    obtain ⟨t, rfl, ht, rfl⟩ := hz.single_inv
    exact .some hcomma ht

/-! ## Nodes from their Tokens -/

/-- What some tokens are for a node that takes so many levels: a node that may stand
    anywhere, or one that only `{/if}` may follow. -/
structure Node.Written (n : Nat) (u : List Token) (x : Node) : Prop where
  piece : x.isProgram = false → Piece n u x
  last : x.isProgram = true → Body n [.ifEnd] u [x]

theorem Node.written_of_piece {n : Nat} {u : List Token} {x : Node} (h : Piece n u x)
    (hx : x.isProgram = false) : Node.Written n u x where
  piece := fun _ => h
  last := by
    intro ht
    rw [hx] at ht
    cases ht

/-- No node but one behind a stray `else` begins with a word that ends a row. -/
theorem Node.not_atBrace_of_writes {x : Node} {u : List Token} {words : List Kind}
    (hx : x.isProgram = false) (hu : Writes u x.signs)
    (hwords : ∀ k ∈ words, k.endsRow = true) : ¬ AtBrace words u := by
  cases x with
  | program body => cases hx
  | text value | comment value =>
    obtain ⟨t, rfl, -⟩ := hu.single_inv
    exact id
  | ifBlock block =>
    obtain ⟨condition, consequent, alternate⟩ := block
    obtain ⟨t, z, rfl, -, hz⟩ := hu.cons_inv
    obtain ⟨v, z, rfl, hv, -⟩ := hz.append_inv
    obtain ⟨w, v, rfl, hw, -⟩ := hv.cons_inv
    exact not_atBrace_of_word hwords (by rw [show w.kind = _ from hw]; rfl)
  | switchBlock test cases | forBlock iterator index iterable body | importFile path =>
    obtain ⟨t, z, rfl, -, hz⟩ := hu.cons_inv
    obtain ⟨w, z, rfl, hw, -⟩ := hz.cons_inv
    exact not_atBrace_of_word hwords (by rw [show w.kind = _ from hw]; rfl)
  | interpolation value =>
    obtain ⟨t, z, rfl, -, hz⟩ := hu.cons_inv
    obtain ⟨v, z, rfl, hv, -⟩ := hz.append_inv
    obtain ⟨w, v, rfl, hw⟩ := Expr.first_of_writes hv
    exact not_atBrace_of_word hwords (Kind.endsRow_of_opensWritten hw)

mutual

/-- Tokens that are what the signs of a node say write this node. -/
theorem Node.written_of_writes : ∀ {x : Node}, x.wellFormed = true →
    ∀ {n ts}, x.depth ≤ n → Writes ts x.signs → Node.Written n ts x
  | .program body, hwell, n + 1, ts, hd, hts => by
    obtain ⟨brace, z, rfl, hbrace, hz⟩ := hts.cons_inv
    obtain ⟨word, z, rfl, hword, hz⟩ := hz.cons_inv
    obtain ⟨stop, u, rfl, hstop, hu⟩ := hz.cons_inv
    have hbody : Body n [.ifEnd] u body := Node.body_of_writes (fun _ => rfl) (by decide) hwell
      (Nat.le_of_succ_le_succ hd) hu
    constructor
    · nofun
    · intro _
      exact .stray rfl hbrace (.otherwise hword hstop hbody)
  | .text value, _, n, ts, _, hts => by
    obtain ⟨t, rfl, ht, rfl⟩ := hts.single_inv
    exact Node.written_of_piece (.text ht) rfl
  | .comment value, _, n, ts, _, hts => by
    obtain ⟨t, rfl, ht, rfl⟩ := hts.single_inv
    exact Node.written_of_piece (.comment ht) rfl
  | .ifBlock block, hwell, n + 1, ts, hd, hts => by
    obtain ⟨brace, z, rfl, hbrace, hz⟩ := hts.cons_inv
    obtain ⟨u, v, rfl, hu, hv⟩ := hz.append_inv
    have hcondition := IfBlock.condition_of_writes hwell (Nat.le_of_succ_le_succ hd) hu
    exact Node.written_of_piece (.block hbrace (.condition hcondition (closing_of_writes hv))) rfl
  | .switchBlock test cases, hwell, n + 1, ts, hd, hts => by
    rw [Node.wellFormed, Bool.and_eq_true] at hwell
    rw [Node.depth, Nat.succ_le_succ_iff, Nat.max_le] at hd
    obtain ⟨brace, z, rfl, hbrace, hz⟩ := hts.cons_inv
    obtain ⟨word, z, rfl, hword, hz⟩ := hz.cons_inv
    obtain ⟨u, stop, z, rfl, hu, hstop, hz⟩ := hz.append_cons_inv
    obtain ⟨w, v, rfl, hw, hv⟩ := hz.append_inv
    have htest := Expr.conditional_of_writes hwell.1 hd.1 hu
    have hparts := Case.parts_of_writes hwell.2 hd.2 hw
    have hblock := Block.switch hword htest hstop .nil hparts (closing_of_writes hv)
    exact Node.written_of_piece (.block hbrace hblock) rfl
  | .forBlock iterator index iterable body, hwell, n + 1, ts, hd, hts => by
    rw [Node.wellFormed, Bool.and_eq_true] at hwell
    rw [Node.depth, Nat.succ_le_succ_iff, Nat.max_le] at hd
    obtain ⟨brace, z, rfl, hbrace, hz⟩ := hts.cons_inv
    obtain ⟨word, z, rfl, hword, hz⟩ := hz.cons_inv
    obtain ⟨name, z, rfl, ⟨hname, rfl⟩, hy⟩ := hz.cons_inv
    obtain ⟨i, link, z, rfl, hi, hlink, hz⟩ := hy.append_cons_inv
    obtain ⟨u, stop, z, rfl, hu, hstop, hz⟩ := hz.append_cons_inv
    obtain ⟨w, v, rfl, hw, hv⟩ := hz.append_inv
    have hiterable := Expr.conditional_of_writes hwell.1 hd.1 hu
    have hbody : Body n [.forEnd] w body :=
      Node.body_of_writes (by nofun) (by decide) hwell.2 hd.2 hw
    have hblock := Block.loop hword hname (counter_of_writes hi) hlink hiterable hstop hbody
      (closing_of_writes hv)
    exact Node.written_of_piece (.block hbrace hblock) rfl
  | .importFile path, _, n + 1, ts, _, hts => by
    obtain ⟨brace, z, rfl, hbrace, hz⟩ := hts.cons_inv
    obtain ⟨word, z, rfl, hword, hz⟩ := hz.cons_inv
    obtain ⟨t, z, rfl, ⟨ht, rfl⟩, hy⟩ := hz.cons_inv
    obtain ⟨stop, rfl, hstop⟩ := hy.single_inv
    exact Node.written_of_piece (.block hbrace (.importFile hword ht hstop)) rfl
  | .interpolation value, hwell, n + 1, ts, hd, hts => by
    obtain ⟨brace, z, rfl, hbrace, hz⟩ := hts.cons_inv
    obtain ⟨u, z, rfl, hu, hz⟩ := hz.append_inv
    obtain ⟨stop, rfl, hstop⟩ := hz.single_inv
    have hvalue := Expr.conditional_of_writes hwell (Nat.le_of_succ_le_succ hd) hu
    have hfirst : ∀ t ∈ u.head?, t.kind.opensBlock = false := by
      obtain ⟨t, v, rfl, ht⟩ := Expr.first_of_writes hu
      intro t' ht'
      cases ht'
      exact Kind.opensBlock_of_opensWritten ht
    exact Node.written_of_piece (.block hbrace (.interpolation hvalue hfirst hstop)) rfl
termination_by structural x => x

/-- Tokens for a condition and its alternates write these. -/
theorem IfBlock.condition_of_writes : ∀ {b : IfBlock}, b.wellFormed = true →
    ∀ {n ts}, b.depth ≤ n → Writes ts b.signs → Condition n ts b
  | ⟨condition, consequent, none⟩, hwell, n, ts, hd, hts => by
    rw [IfBlock.wellFormed, Bool.and_eq_true, Bool.and_eq_true] at hwell
    rw [IfBlock.depth, Nat.max_le, Nat.max_le] at hd
    obtain ⟨word, z, rfl, hword, hz⟩ := hts.cons_inv
    obtain ⟨u, stop, z, rfl, hu, hstop, hz⟩ := hz.append_cons_inv
    obtain ⟨w, v, rfl, hw, hnil⟩ := hz.append_inv
    rw [hnil.nil_inv, List.append_nil]
    have hcondition := Expr.conditional_of_writes hwell.1.1 hd.1 hu
    have hbody : Body n [.elseStart, .ifEnd] w consequent :=
      Node.body_of_writes (by nofun) (by decide) hwell.1.2 hd.2.1 hw
    exact .alone hword hcondition hstop hbody
  | ⟨condition, consequent, some a⟩, hwell, n, ts, hd, hts => by
    rw [IfBlock.wellFormed, Bool.and_eq_true, Bool.and_eq_true] at hwell
    rw [IfBlock.depth, Nat.max_le, Nat.max_le] at hd
    obtain ⟨word, z, rfl, hword, hz⟩ := hts.cons_inv
    obtain ⟨u, stop, z, rfl, hu, hstop, hz⟩ := hz.append_cons_inv
    obtain ⟨w, brace, v, rfl, hw, hbrace, hv⟩ := hz.append_cons_inv
    have hcondition := Expr.conditional_of_writes hwell.1.1 hd.1 hu
    have hbody : Body n [.elseStart, .ifEnd] w consequent :=
      Node.body_of_writes (by nofun) (by decide) hwell.1.2 hd.2.1 hw
    -- The alternate takes a level, so there is one left.
    cases n with
    | zero => cases hd.2.2
    | succ n =>
      have hbranch := Alternate.branch_of_writes hwell.2 (Nat.le_of_succ_le_succ hd.2.2) hv
      exact .chained hword hcondition hstop hbody hbrace hbranch
termination_by structural b => b

/-- Tokens for an alternate behind its brace write this alternate. -/
theorem Alternate.branch_of_writes : ∀ {a : Alternate}, a.wellFormed = true →
    ∀ {n ts}, a.depth ≤ n → Writes ts a.signs → Branch n ts a
  | .elseIf block, hwell, n, ts, hd, hts => by
    obtain ⟨word, u, rfl, hword, hu⟩ := hts.cons_inv
    exact .elseIf hword (IfBlock.condition_of_writes hwell hd hu)
  | .otherwise body, hwell, n, ts, hd, hts => by
    obtain ⟨word, z, rfl, hword, hz⟩ := hts.cons_inv
    obtain ⟨stop, u, rfl, hstop, hu⟩ := hz.cons_inv
    have hbody : Body n [.ifEnd] u body :=
      Node.body_of_writes (fun _ => rfl) (by decide) hwell hd hu
    exact .otherwise hword hstop hbody
termination_by structural a => a

/-- Tokens for a part of a switch block write this part. -/
theorem Case.part_of_writes : ∀ {x : Case}, x.wellFormed = true →
    ∀ {n ts}, x.depth ≤ n → Writes ts x.signs → Part n ts x
  | .case values body, hwell, n, ts, hd, hts => by
    rw [Case.wellFormed, Bool.and_eq_true, Bool.and_eq_true] at hwell
    rw [Case.depth, Nat.max_le] at hd
    obtain ⟨⟨hne, hvalues⟩, hnodes⟩ := hwell
    obtain ⟨brace, z, rfl, hbrace, hz⟩ := hts.cons_inv
    obtain ⟨word, z, rfl, hword, hz⟩ := hz.cons_inv
    obtain ⟨u, stop, w, rfl, hu, hstop, hw⟩ := hz.append_cons_inv
    have hrow := Expr.expressions_of_writes hvalues (by simpa using hne) hd.1 hu
    have hbody : Body n Parse.caseEnds w body :=
      Node.body_of_writes (by nofun) (by decide) hnodes hd.2 hw
    exact .case hbrace hword hrow hstop hbody
  | .default body, hwell, n, ts, hd, hts => by
    obtain ⟨brace, z, rfl, hbrace, hz⟩ := hts.cons_inv
    obtain ⟨word, z, rfl, hword, hz⟩ := hz.cons_inv
    obtain ⟨stop, w, rfl, hstop, hw⟩ := hz.cons_inv
    have hbody : Body n Parse.caseEnds w body :=
      Node.body_of_writes (by nofun) (by decide) hwell hd hw
    exact .default hbrace hword hstop hbody
termination_by structural x => x

/-- Tokens for the parts of a switch block write these parts. -/
theorem Case.parts_of_writes : ∀ {xs : List Case}, Case.rowWellFormed xs = true →
    ∀ {n ts}, Case.rowDepth xs ≤ n → Writes ts (Case.rowSigns xs) → Parts n ts xs
  | [], _, n, ts, _, hts => by
    rw [hts.nil_inv]
    exact .nil
  | x :: xs, hwell, n, ts, hd, hts => by
    rw [Case.rowWellFormed, Bool.and_eq_true] at hwell
    rw [Case.rowDepth, Nat.max_le] at hd
    obtain ⟨u, v, rfl, hu, hv⟩ := hts.append_inv
    exact .cons (Case.part_of_writes hwell.1 hd.1 hu) (Case.parts_of_writes hwell.2 hd.2 hv)
termination_by structural xs => xs

/-- Tokens for nodes write these, up to a brace with one of some words that end rows. -/
theorem Node.body_of_writes : ∀ {xs : List Node} {closed : Bool} {words : List Kind},
    (closed = true → words = [.ifEnd]) → (∀ k ∈ words, k.endsRow = true) →
    Node.rowWellFormed closed xs = true →
    ∀ {n ts}, Node.rowDepth xs ≤ n → Writes ts (Node.rowSigns xs) → Body n words ts xs
  | [], _, _, _, _, _, n, ts, _, hts => by
    rw [hts.nil_inv]
    exact .nil
  | x :: xs, closed, words, hclosed, hwords, hwell, n, ts, hd, hts => by
    rw [Node.rowWellFormed, Bool.and_eq_true, Bool.and_eq_true] at hwell
    rw [Node.rowDepth, Nat.max_le] at hd
    obtain ⟨⟨hplace, hx⟩, hxs⟩ := hwell
    obtain ⟨u, v, rfl, hu, hv⟩ := hts.append_inv
    have hwritten := Node.written_of_writes hx hd.1 hu
    -- A node behind a stray `else` is the last one, so that only `{/if}` follows it.
    by_cases hprogram : x.isProgram = true
    · rw [hprogram, Bool.not_true, Bool.false_or, Bool.and_eq_true] at hplace
      have hnil : xs = [] := List.isEmpty_iff.mp hplace.2
      subst hnil
      rw [hv.nil_inv, List.append_nil, hclosed hplace.1]
      exact hwritten.last hprogram
    · have hpiece : x.isProgram = false := Bool.not_eq_true _ ▸ hprogram
      have hrow := Node.body_of_writes hclosed hwords hxs hd.2 hv
      exact .cons (hwritten.piece hpiece) (Node.not_atBrace_of_writes hpiece hu hwords) hrow
termination_by structural xs => xs

end

/-- A well-formed template that keeps within the limit of nesting is read from every row of
    tokens that it is written by. -/
theorem parse_of_writes {p : Program} {ts : List Token} (hwell : p.wellFormed = true)
    (hdepth : p.depth ≤ nestingLimit) (hts : Writes ts p.signs) : parse ts = .ok p := by
  have hbody : Body nestingLimit [] ts p.body :=
    Node.body_of_writes (by nofun) (by nofun) hwell hdepth hts
  exact parse_eq_ok_iff.mpr ⟨ts, [], (List.append_nil ts).symm, nofun, hbody⟩

/-- In `{if (a + 2) * -1.5}x{else}y{else}z{/if}` the sum has to be in parentheses to be a
    factor, and the last `else` belongs to no condition. -/
theorem parse_of_writes_alternates :
    let sign (kind : Kind) (text : String) : Token := ⟨kind, .at .start, text⟩
    let condition := Expr.binary (.binary (.identifier "a") .add (.int 2)) .mul
      (.unary .neg (.float (.ofQuotient false 3 2)))
    let p : Program := ⟨[.ifBlock ⟨condition, [.text "x"],
      some (.otherwise [.text "y", .program [.text "z"]])⟩]⟩
    let ts := [sign .exprStart "\x7b", sign .ifStart "if", sign .lParen "(",
      sign .identifier "a", sign .plus "+", sign .integer "2", sign .rParen ")",
      sign .multiplication "*", sign .minus "-", sign .float "1.5", sign .exprEnd "\x7d",
      sign .text "x", sign .exprStart "\x7b", sign .elseStart "else", sign .exprEnd "\x7d",
      sign .text "y", sign .exprStart "\x7b", sign .elseStart "else", sign .exprEnd "\x7d",
      sign .textJs "z", sign .exprStart "\x7b", sign .ifEnd "/if", sign .exprEnd "\x7d"]
    p.wellFormed = true ∧ p.depth ≤ nestingLimit ∧ Writes ts p.signs ∧ parse ts = .ok p := by
  intro sign condition p ts
  have hwell : p.wellFormed = true := by decide
  have hdepth : p.depth ≤ nestingLimit := by decide
  have hts : Writes ts p.signs := by decide +kernel
  exact ⟨hwell, hdepth, hts, parse_of_writes hwell hdepth hts⟩

end TemplateSyntax
