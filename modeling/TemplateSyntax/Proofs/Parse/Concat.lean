import Mathlib.Control.Monad.Basic
import TemplateSyntax.Proofs.Grammar.Nodes.Exact
import TemplateSyntax.Tree.Equal

/-! # Templates One After Another

  No node that is read to its end depends on what stands behind it. So if some tokens are a
  template, whatever stands behind them is read as it would be read alone
  (`parse_append`).
-/

namespace TemplateSyntax

open Parse

/-- Tokens end where the last of them does, whatever stands in front. -/
theorem Cursor.stop_ofTokens_append (ts : List Token) {rest : List Token} (h : rest ≠ []) :
    (ofTokens (ts ++ rest)).stop = (ofTokens rest).stop := by
  have hlast : (ts ++ rest).getLast? = rest.getLast? := by
    rw [List.getLast?_append, List.getLast?_eq_some_getLast h]
    rfl
  unfold ofTokens
  rw [hlast]

/-- Tokens without an ending token that are a template write its nodes, all of them. -/
theorem body_of_parse {ts : List Token} {p : Program} (hend : ∀ t ∈ ts, t.kind ≠ .eof)
    (h : parse ts = .ok p) : Grammar.Body nestingLimit [] ts p.body := by
  obtain ⟨u, r, rfl, hr, hbody⟩ := Grammar.parse_eq_ok_iff.mp h
  cases r with
  | nil =>
    rw [List.append_nil]
    exact hbody
  | cons t r => exact absurd (hr t rfl) (hend t (by simp))

/-- The nodes of a template come first, then those of whatever stands behind it; and what
    is wrong behind it is wrong in the same way, at the same place. -/
theorem parse_append {ts₁ ts₂ : List Token} {p₁ : Program} (hend : ∀ t ∈ ts₁, t.kind ≠ .eof)
    (h₁ : parse ts₁ = .ok p₁) :
    (∀ p₂, parse ts₂ = .ok p₂ → parse (ts₁ ++ ts₂) = .ok ⟨p₁.body ++ p₂.body⟩) ∧
    ∀ e, parse ts₂ = .error e → parse (ts₁ ++ ts₂) = .error e := by
  have hbody := body_of_parse hend h₁
  have hresult : parse (ts₁ ++ ts₂) =
      (parse ts₂).map fun p₂ => ⟨p₁.body ++ p₂.body⟩ := by
    by_cases hne : ts₂ = []
    · have hnone : parse [] = .ok ⟨[]⟩ :=
        Grammar.parse_eq_ok_iff.mpr ⟨[], [], rfl, nofun, .nil⟩
      rw [hne, hnone, List.append_nil, h₁]
      show _ = Except.ok (Program.mk (p₁.body ++ []))
      rw [List.append_nil]
    -- The implied ending token is behind the second tokens in both runs.
    · have hcursor : Cursor.ofTokens (ts₁ ++ ts₂) = ⟨ts₁ ++ ts₂, (Cursor.ofTokens ts₂).stop⟩ := by
        rw [← Cursor.stop_ofTokens_append ts₁ hne]
        rfl
      rw [parse_eq_nodes, parse_eq_nodes, hcursor, Grammar.complete_nodes hbody]
      show Except.map _ (Except.map _ (nodes (Nested.within nestingLimit nestingLimit)
        (Cursor.ofTokens ts₂)).result) = _
      cases (nodes (Nested.within nestingLimit nestingLimit) (Cursor.ofTokens ts₂)).result <;> rfl
  constructor
  · intro p₂ h₂
    rw [hresult, h₂]
    rfl
  · intro e he
    rw [hresult, he]
    rfl

/-- Behind a condition with its closing brace, a text is read as it is alone, and a brace
    that closes nothing is what it is alone. -/
theorem parse_append_condition :
    let sign (kind : Kind) (text : String) : Token := ⟨kind, .at .start, text⟩
    let ts := [sign .exprStart "\x7b", sign .ifStart "if", sign .identifier "a",
      sign .exprEnd "\x7d", sign .text "x", sign .exprStart "\x7b", sign .ifEnd "/if",
      sign .exprEnd "\x7d"]
    let p : Program := ⟨[.ifBlock ⟨.identifier "a", [.text "x"], none⟩]⟩
    let e := ParseError.blaming (sign .exprEnd "\x7d") (.unknown .exprEnd "\x7d")
    (∀ t ∈ ts, t.kind ≠ .eof) ∧ parse ts = .ok p ∧
    parse [sign .text "y"] = .ok ⟨[.text "y"]⟩ ∧
    parse (ts ++ [sign .text "y"]) = .ok ⟨p.body ++ [.text "y"]⟩ ∧
    parse [sign .exprEnd "\x7d"] = .error e ∧
    parse (ts ++ [sign .exprEnd "\x7d"]) = .error e := by
  intro sign ts p e
  have hend : ∀ t ∈ ts, t.kind ≠ .eof := by decide
  have hp : parse ts = .ok p := by decide +kernel
  have htext : parse [sign .text "y"] = .ok ⟨[.text "y"]⟩ := by decide +kernel
  have hbrace : parse [sign .exprEnd "\x7d"] = .error e := by decide +kernel
  have hboth : parse (ts ++ [sign .text "y"]) = .ok ⟨p.body ++ [.text "y"]⟩ :=
    (parse_append hend hp).1 _ htext
  have hneither : parse (ts ++ [sign .exprEnd "\x7d"]) = .error e :=
    (parse_append hend hp).2 e hbrace
  exact ⟨hend, hp, htext, hboth, hbrace, hneither⟩

end TemplateSyntax
