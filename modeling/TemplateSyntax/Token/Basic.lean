import TemplateSyntax.Source.Position
import TemplateSyntax.Token.Kind

/-! # Tokens

  A token is a classified stretch of a source text together with the text that it
  stands for. The two differ for string literals only: the stretch takes in the
  quotes, and the text does not.
-/

namespace TemplateSyntax

/-- A classified stretch of a source text. -/
structure Token where
  kind : Kind
  span : Span
  text : String
deriving DecidableEq, Repr, Inhabited

/-- The tokens have one kind and one text, wherever they stand. -/
structure Token.Alike (t u : Token) : Prop where
  kind : t.kind = u.kind
  text : t.text = u.text

instance (t u : Token) : Decidable (t.Alike u) :=
  decidable_of_iff (t.kind = u.kind ∧ t.text = u.text)
    ⟨fun h => ⟨h.1, h.2⟩, fun h => ⟨h.kind, h.text⟩⟩

/-- The token that stands where the input ends. -/
def Token.ending (s : Span) : Token := ⟨.eof, s, ""⟩

@[simp] theorem Token.kind_ending (s : Span) : (Token.ending s).kind = .eof := rfl

@[simp] theorem Token.span_ending (s : Span) : (Token.ending s).span = s := rfl

end TemplateSyntax
