import TemplateSyntax.Parse.Block
import TemplateSyntax.Proofs.Grammar.Basic

/-! # The Grammar of Nodes

  Which tokens write which nodes, said without reference to any parser:

      body      := piece* [stray]
      piece     := markup | comment | '{' block
      block     := condition '{' '/if' '}'
                 | 'switch' conditional '}' passed part* '{' '/switch' '}'
                 | 'for' name [',' name] 'in' conditional '}' body '{' '/for' '}'
                 | 'import' string '}'
                 | [conditional] '}'
      condition := 'if' conditional '}' body ['{' branch]
      branch    := 'else' condition | 'else' '}' body
      part      := '{' 'case' expressions '}' body | '{' 'default' '}' body
      stray     := '{' branch

  A body ends in front of a brace with one of some words, and none of its pieces begins
  with such a brace. A branch closes nothing, so it ends in front of `{/if`. This is why a
  stray one can stand at the end of a body that `{/if` ends, and nowhere else. What stands
  between the header of a switch block and its first part is passed over.

  As in the grammar of expressions, the number bounds the nesting of the derivation: a
  block uses up one level, and so does a branch that belongs to a condition.
-/

namespace TemplateSyntax

/-- The words that open a block, or an alternate that belongs to none. Behind a brace every
    other kind of token is the first one of an expression. -/
def Kind.opensBlock : Kind → Bool
  | .ifStart | .elseStart | .switchStart | .forStart | .importStart => true
  | _ => false

namespace Grammar

open Parse (caseEnds strayNode)

/-- The tokens begin with a brace and one of the words. -/
def AtBrace (words : List Kind) : List Token → Prop
  | brace :: word :: _ => brace.kind = .exprStart ∧ word.kind ∈ words
  | _ => False

theorem AtBrace.brace {words : List Kind} {t : Token} {ts : List Token}
    (h : AtBrace words (t :: ts)) : t.kind = .exprStart := by
  cases ts with
  | nil => cases h
  | cons _ _ => exact h.1

/-- Behind the brace stands one of the words. -/
theorem AtBrace.exists_word {words : List Kind} {ts : List Token} (h : AtBrace words ts) :
    ∃ word ∈ words, AtBrace [word] ts := by
  rcases ts with _ | ⟨t, _ | ⟨w, ts⟩⟩
  · cases h
  · cases h
  · exact ⟨w.kind, h.2, h.1, List.mem_singleton.mpr rfl⟩

theorem AtBrace.of_word {words : List Kind} {word : Kind} {ts : List Token}
    (h : AtBrace [word] ts) (hw : word ∈ words) : AtBrace words ts := by
  rcases ts with _ | ⟨t, _ | ⟨w, ts⟩⟩
  · cases h
  · cases h
  · have hk : w.kind = word := List.mem_singleton.mp h.2
    exact ⟨h.1, hk ▸ hw⟩

/-- Only one word stands behind a brace. -/
theorem AtBrace.mem {words : List Kind} {word : Kind} {ts : List Token}
    (h : AtBrace words ts) (hw : AtBrace [word] ts) : word ∈ words := by
  rcases ts with _ | ⟨t, _ | ⟨w, ts⟩⟩
  · cases h
  · cases h
  · have hk : w.kind = word := List.mem_singleton.mp hw.2
    exact hk ▸ h.2

/-- A brace and its word are still there when more tokens follow. -/
theorem AtBrace.append {words : List Kind} {ts : List Token} (h : AtBrace words ts)
    (r : List Token) : AtBrace words (ts ++ r) := by
  rcases ts with _ | ⟨t, _ | ⟨w, ts⟩⟩
  · cases h
  · cases h
  · exact h

/-- Tokens that may be passed over in front of the first part of a switch block. -/
inductive Passed : List Token → Prop where
  | nil : Passed []
  | cons {t u} (he : t.kind ≠ .eof) (hb : ¬ AtBrace caseEnds (t :: u)) (hu : Passed u) :
      Passed (t :: u)

/-- No brace with a word of a case is the first of such tokens, not even with what comes
    behind them in sight. -/
theorem Passed.not_atBrace {j r : List Token} (hj : Passed j) (hne : j ≠ [])
    (hr : AtBrace caseEnds r) : ¬ AtBrace caseEnds (j ++ r) := by
  cases hj with
  | nil => exact absurd rfl hne
  | @cons t u he hb hu =>
    intro hat
    rcases u with _ | ⟨w, u⟩
    · obtain _ | ⟨w, r⟩ := r
      · cases hr
      · have hw := hat.2
        rw [hr.brace] at hw
        revert hw
        decide
    · exact hb hat

/-- A word in braces. -/
inductive Closing (word : Kind) : List Token → Prop where
  | mk {a b c : Token} (ha : a.kind = .exprStart) (hb : b.kind = word) (hc : c.kind = .exprEnd) :
      Closing word [a, b, c]

/-- A comma and the name of a counter, or nothing. -/
inductive Counter : List Token → Option String → Prop where
  | none : Counter [] none
  | some {comma name : Token} (hc : comma.kind = .comma) (hn : name.kind = .identifier) :
      Counter [comma, name] (some name.text)

/-! ## Derivations -/

mutual

/-- Nodes up to a brace with one of the words. -/
inductive Body : Nat → List Kind → List Token → List Node → Prop where
  | nil {n words} : Body n words [] []
  | cons {n words u v x xs}
      (h : Piece n u x) (hw : ¬ AtBrace words u) (hs : Body n words v xs) :
      Body n words (u ++ v) (x :: xs)
  | stray {n words u a} {t : Token}
      (hw : words = [.ifEnd]) (ht : t.kind = .exprStart) (h : Branch n u a) :
      Body (n + 1) words (t :: u) [strayNode a]

/-- A node that ends with a token of its own. -/
inductive Piece : Nat → List Token → Node → Prop where
  | text {n} {t : Token} (ht : t.kind.isMarkup = true) : Piece n [t] (.text t.text)
  | comment {n} {t : Token} (ht : t.kind = .comment) : Piece n [t] (.comment t.text)
  | block {n u x} {t : Token} (ht : t.kind = .exprStart) (h : Block n u x) :
      Piece (n + 1) (t :: u) x

/-- A block behind its opening brace. -/
inductive Block : Nat → List Token → Node → Prop where
  | condition {n u v b} (h : Condition n u b) (hv : Closing .ifEnd v) :
      Block n (u ++ v) (.ifBlock b)
  | switch {n u j w v e parts} {word stop : Token}
      (hk : word.kind = .switchStart) (he : Conditional n u e) (hs : stop.kind = .exprEnd)
      (hj : Passed j) (hp : Parts n w parts) (hv : Closing .switchEnd v) :
      Block n (word :: (u ++ stop :: (j ++ (w ++ v)))) (.switchBlock e parts)
  | loop {n i u w v index e body} {word name link stop : Token}
      (hk : word.kind = .forStart) (hn : name.kind = .identifier) (hi : Counter i index)
      (hl : link.kind = .forIn) (he : Conditional n u e) (hs : stop.kind = .exprEnd)
      (hb : Body n [.forEnd] w body) (hv : Closing .forEnd v) :
      Block n (word :: name :: (i ++ link :: (u ++ stop :: (w ++ v))))
        (.forBlock name.text index e body)
  | importFile {n} {word path stop : Token}
      (hk : word.kind = .importStart) (hp : path.kind = .string) (hs : stop.kind = .exprEnd) :
      Block n [word, path, stop] (.importFile path.text)
  | empty {n} {stop : Token} (hs : stop.kind = .exprEnd) : Block n [stop] (.interpolation .null)
  | interpolation {n u e} {stop : Token}
      (he : Conditional n u e) (hw : ∀ t ∈ u.head?, t.kind.opensBlock = false)
      (hs : stop.kind = .exprEnd) : Block n (u ++ [stop]) (.interpolation e)

/-- A condition with its nodes and alternates, without the closing brace. -/
inductive Condition : Nat → List Token → IfBlock → Prop where
  | alone {n u w e body} {word stop : Token}
      (hk : word.kind = .ifStart) (he : Conditional n u e) (hs : stop.kind = .exprEnd)
      (hb : Body n [.elseStart, .ifEnd] w body) :
      Condition n (word :: (u ++ stop :: w)) ⟨e, body, none⟩
  | chained {n u w v e body a} {word stop brace : Token}
      (hk : word.kind = .ifStart) (he : Conditional (n + 1) u e) (hs : stop.kind = .exprEnd)
      (hb : Body (n + 1) [.elseStart, .ifEnd] w body) (ht : brace.kind = .exprStart)
      (ha : Branch n v a) :
      Condition (n + 1) (word :: (u ++ stop :: (w ++ brace :: v))) ⟨e, body, some a⟩

/-- What stands behind the brace of an `else`. -/
inductive Branch : Nat → List Token → Alternate → Prop where
  | elseIf {n u b} {word : Token} (hk : word.kind = .elseStart) (h : Condition n u b) :
      Branch n (word :: u) (.elseIf b)
  | otherwise {n u body} {word stop : Token}
      (hk : word.kind = .elseStart) (hs : stop.kind = .exprEnd) (hb : Body n [.ifEnd] u body) :
      Branch n (word :: stop :: u) (.otherwise body)

/-- The parts of a switch block. -/
inductive Parts : Nat → List Token → List Case → Prop where
  | nil {n} : Parts n [] []
  | cons {n u v x xs} (h : Part n u x) (hs : Parts n v xs) : Parts n (u ++ v) (x :: xs)

/-- A case, or the part for all other values. -/
inductive Part : Nat → List Token → Case → Prop where
  | case {n u w values body} {brace word stop : Token}
      (ht : brace.kind = .exprStart) (hk : word.kind = .caseStart)
      (he : Expressions n u values) (hs : stop.kind = .exprEnd) (hb : Body n caseEnds w body) :
      Part n (brace :: word :: (u ++ stop :: w)) (.case values body)
  | default {n w body} {brace word stop : Token}
      (ht : brace.kind = .exprStart) (hk : word.kind = .defaultStart) (hs : stop.kind = .exprEnd)
      (hb : Body n caseEnds w body) :
      Part n (brace :: word :: stop :: w) (.default body)

end

/-- What stands for one node in front of some tokens: a piece, or a stray branch. -/
inductive Item : Nat → List Token → Node → List Token → Prop where
  | piece {n u x r} (h : Piece n u x) : Item n u x r
  | stray {n u a r} {t : Token}
      (ht : t.kind = .exprStart) (h : Branch n u a) (hr : AtBrace [.ifEnd] r) :
      Item (n + 1) (t :: u) (strayNode a) r

/-! ## Induction Along One Nonterminal -/

/-- Induction over the nodes of a body. -/
@[elab_as_elim]
theorem Body.along {words : List Kind}
    {motive : (n : Nat) → (u : List Token) → (xs : List Node) → Body n words u xs → Prop}
    (nil : ∀ {n}, motive n [] [] .nil)
    (cons : ∀ {n u v x xs} (h : Piece n u x) (hw : ¬ AtBrace words u) (hs : Body n words v xs),
      motive n v xs hs → motive n (u ++ v) (x :: xs) (.cons h hw hs))
    (stray : ∀ {n u a} {t : Token} (hw : words = [.ifEnd]) (ht : t.kind = .exprStart)
      (h : Branch n u a), motive (n + 1) (t :: u) [strayNode a] (.stray hw ht h))
    {n u xs} (h : Body n words u xs) : motive n u xs h :=
  match h with
  | .nil => nil
  | .cons h hw hs => cons h hw hs (hs.along nil cons stray)
  | .stray hw ht h => stray hw ht h
termination_by structural h

/-- Induction over the parts of a switch block. -/
@[elab_as_elim]
theorem Parts.along {n : Nat}
    {motive : (u : List Token) → (xs : List Case) → Parts n u xs → Prop}
    (nil : motive [] [] .nil)
    (cons : ∀ {u v x xs} (h : Part n u x) (hs : Parts n v xs),
      motive v xs hs → motive (u ++ v) (x :: xs) (.cons h hs))
    {u xs} (h : Parts n u xs) : motive u xs h :=
  match h with
  | .nil => nil
  | .cons h hs => cons h hs (hs.along nil cons)
termination_by structural h

/-! ## First Tokens -/

theorem Condition.first {n u b} (h : Condition n u b) :
    ∃ t v, u = t :: v ∧ t.kind = .ifStart := by
  cases h with
  | alone hk _ _ _ => exact ⟨_, _, rfl, hk⟩
  | chained hk _ _ _ _ _ => exact ⟨_, _, rfl, hk⟩

theorem Branch.first {n u a} (h : Branch n u a) :
    ∃ t v, u = t :: v ∧ t.kind = .elseStart := by
  cases h with
  | elseIf hk _ => exact ⟨_, _, rfl, hk⟩
  | otherwise hk _ _ => exact ⟨_, _, rfl, hk⟩

theorem Part.first {n u x} (h : Part n u x) : AtBrace caseEnds u := by
  cases h with
  | case ht hk _ _ _ => exact ⟨ht, by rw [hk]; decide⟩
  | default ht hk _ _ => exact ⟨ht, by rw [hk]; decide⟩

theorem Part.ne_nil {n u x} (h : Part n u x) : u ≠ [] := by
  cases h <;> exact List.cons_ne_nil _ _

/-- No part begins with `{/switch`. -/
theorem Part.not_atBrace_switchEnd {n u x} (h : Part n u x) (r : List Token) :
    ¬ AtBrace [.switchEnd] (u ++ r) := by
  intro hr
  cases h with
  | case _ hk _ _ _ =>
    have hword := List.mem_singleton.mp hr.2
    rw [hk] at hword
    cases hword
  | default _ hk _ _ =>
    have hword := List.mem_singleton.mp hr.2
    rw [hk] at hword
    cases hword

/-- In front of the end of a switch block, its parts begin with a brace and a word of a
    case, if there are any. -/
theorem Parts.atBrace {n u xs} {r : List Token} (h : Parts n u xs)
    (hr : AtBrace [.switchEnd] r) : AtBrace caseEnds (u ++ r) := by
  cases h with
  | nil => exact hr.of_word (by decide)
  | cons hp _ =>
    rw [List.append_assoc]
    exact hp.first.append _

/-- Behind its brace a block begins with a word that opens one, with an expression, or with
    the closing brace. -/
theorem Block.first {n u x} (h : Block n u x) :
    ∃ t v, u = t :: v ∧
      (t.kind.opensBlock = true ∨ t.kind.opensExpression = true ∨ t.kind = .exprEnd) := by
  cases h with
  | condition h _ =>
    obtain ⟨t, v, rfl, ht⟩ := h.first
    exact ⟨t, _, rfl, .inl (by rw [ht]; rfl)⟩
  | switch hk _ _ _ _ _ => exact ⟨_, _, rfl, .inl (by rw [hk]; rfl)⟩
  | loop hk _ _ _ _ _ _ _ => exact ⟨_, _, rfl, .inl (by rw [hk]; rfl)⟩
  | importFile hk _ _ => exact ⟨_, _, rfl, .inl (by rw [hk]; rfl)⟩
  | empty hs => exact ⟨_, _, rfl, .inr (.inr hs)⟩
  | interpolation he _ _ =>
    obtain ⟨t, v, rfl, ht⟩ := he.first
    exact ⟨t, _, rfl, .inr (.inl ht)⟩

theorem Piece.ne_nil {n u x} (h : Piece n u x) : u ≠ [] := by
  cases h <;> exact List.cons_ne_nil _ _

theorem Item.ne_nil {n u x r} (h : Item n u x r) : u ≠ [] := by
  cases h with
  | piece h => exact h.ne_nil
  | stray => exact List.cons_ne_nil _ _

/-- No tokens but those of a block stand behind a brace that a node begins with. -/
theorem Item.block_of_brace {n u x r} {t : Token} (h : Item n (t :: u) x r)
    (ht : t.kind = .exprStart) :
    ∃ m, n = m + 1 ∧
      (Block m u x ∨ ∃ a, Branch m u a ∧ x = strayNode a ∧ AtBrace [.ifEnd] r) := by
  cases h with
  | piece h =>
    cases h with
    | text hm =>
      rw [ht] at hm
      cases hm
    | comment hc =>
      rw [ht] at hc
      cases hc
    | block _ h => exact ⟨_, rfl, .inl h⟩
  | stray _ h hr => exact ⟨_, rfl, .inr ⟨_, h, rfl, hr⟩⟩

/-- Whether a node begins with a brace and one of some words is for its own tokens to say. -/
theorem Item.atBrace_append {n u x r} {words : List Kind} {r' : List Token}
    (h : Item n u x r) (hr : AtBrace words (u ++ r')) : AtBrace words u := by
  obtain ⟨t, v, rfl⟩ := List.exists_cons_of_ne_nil h.ne_nil
  obtain ⟨m, -, hblock | ⟨a, hbranch, -, -⟩⟩ := h.block_of_brace hr.brace
  · obtain ⟨w, v, rfl, -⟩ := hblock.first
    exact hr
  · obtain ⟨w, v, rfl, -⟩ := hbranch.first
    exact hr

/-- No node begins with `{/if`. -/
theorem Item.not_atBrace_ifEnd {n u x r} (h : Item n u x r) (r' : List Token) :
    ¬ AtBrace [.ifEnd] (u ++ r') := by
  intro hr
  have hu := h.atBrace_append hr
  obtain ⟨t, v, rfl⟩ := List.exists_cons_of_ne_nil h.ne_nil
  obtain ⟨m, -, hblock | ⟨a, hbranch, -, -⟩⟩ := h.block_of_brace hu.brace
  · obtain ⟨w, v, rfl, hw⟩ := hblock.first
    have hk : w.kind = .ifEnd := List.mem_singleton.mp hu.2
    rw [hk] at hw
    revert hw
    decide
  · obtain ⟨w, v, rfl, hw⟩ := hbranch.first
    have hk : w.kind = .ifEnd := List.mem_singleton.mp hu.2
    rw [hk] at hw
    cases hw

end Grammar

/-! ## Cursors -/

theorem Cursor.kind_of_atBrace {c : Cursor} {words : List Kind}
    (h : Grammar.AtBrace words c.ahead) : c.current.kind = .exprStart := by
  obtain ⟨ts, s⟩ := c
  cases ts with
  | nil => cases h
  | cons t ts => exact h.brace

/-- A cursor looks one token further than the current one for the words behind a brace. -/
theorem Cursor.atBlock_iff {c : Cursor} {words : List Kind} (h : .eof ∉ words) :
    c.atBlock words = true ↔ Grammar.AtBrace words c.ahead := by
  obtain ⟨ts, s⟩ := c
  rcases ts with _ | ⟨t, _ | ⟨w, ts⟩⟩
  · simp [atBlock, isAt, Grammar.AtBrace]
  · simp [atBlock, following, h, Grammar.AtBrace]
  · rw [atBlock, Bool.and_eq_true, List.contains_iff_mem]
    exact and_congr_left fun _ => decide_eq_true_iff

/-- A cursor that looks for one of some words and sees it stands at a brace with one of
    them. -/
theorem Cursor.atBrace_of_atBlock {c : Cursor} {words : List Kind} {word : Kind}
    (h : c.atBlock [word] = true) (hword : word ∈ words) (heof : .eof ∉ words) :
    Grammar.AtBrace words c.ahead := by
  have hone : Kind.eof ∉ [word] := by
    intro hmem
    exact heof (List.mem_singleton.mp hmem ▸ hword)
  exact ((atBlock_iff hone).mp h).of_word hword

theorem Cursor.atBlock_eq_false {c : Cursor} {words : List Kind} {word : Kind}
    (h : ¬ Grammar.AtBrace words c.ahead) (hword : word ∈ words) (heof : .eof ∉ words) :
    c.atBlock [word] = false := by
  rw [Bool.eq_false_iff]
  intro hat
  exact h (atBrace_of_atBlock hat hword heof)

end TemplateSyntax
