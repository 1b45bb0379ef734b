import TemplateSyntax.Proofs.Scan.Coverage
import TemplateSyntax.Proofs.Scan.Cut
import TemplateSyntax.Proofs.Scan.Discipline

/-! # Layout Does Not Matter

  Blanks may be put in anywhere between tokens, and the kinds and texts of the tokens stay
  what they are (`tokenize_spaced`). What must not be parted is a token, and what must not get
  blanks behind it is a token that would take them along: a text, a comment, and a string that
  is not closed (`Token.Admits`).

  A scan with the blanks goes along with one without them up to the place where they are put
  in, since no lexeme in front of it depends on what follows (`Lexeme.first_spaced`), and is
  the same behind it (`Scan.Spaced`).
-/

namespace TemplateSyntax

/-! ## Where Blanks May Be Put In -/

/-- A string without its closing quote: beside its text it covers one quote only. -/
def Token.IsOpen (t : Token) : Prop :=
  t.kind = .string ∧ t.span.stop = t.span.start + t.text.utf8ByteSize + 1

/-- Blanks at an offset neither part the token nor lengthen it. -/
structure Token.Admits (t : Token) (p : Nat) : Prop where
  outside : ¬ (t.span.start < p ∧ p < t.span.stop)
  behind : t.kind.runsOn = true → t.span.stop ≠ p
  closed : t.IsOpen → t.span.stop ≠ p

instance (t : Token) : Decidable t.IsOpen := inferInstanceAs (Decidable (_ ∧ _))

instance (t : Token) (p : Nat) : Decidable (t.Admits p) :=
  decidable_of_iff
    (¬ (t.span.start < p ∧ p < t.span.stop) ∧ (t.kind.runsOn = true → t.span.stop ≠ p) ∧
      (t.IsOpen → t.span.stop ≠ p))
    ⟨fun h => ⟨h.1, h.2.1, h.2.2⟩, fun h => ⟨h.outside, h.behind, h.closed⟩⟩

/-! ## Lexemes in Front of Blanks -/

/-- A lexeme within some characters is the same with blanks behind them, as long as it does not
    take these along. -/
theorem Lexeme.first_spaced {m : Modes} {c : Char} {y b z ws : List Char}
    (hws : ∀ w ∈ ws, isBlank w = true) (hcomplete : (first m c (y ++ b)).complete = true)
    (hl : c :: y = (first m c (y ++ b)).chars ++ z)
    (hz : Within (first m c (y ++ b)).modes z b)
    (hstop : (first m c (y ++ b)).kind.runsOn = true → z ≠ []) :
    first m c (y ++ (ws ++ b)) = first m c (y ++ b) := by
  rcases ws with _ | ⟨w, ws⟩
  · rfl
  · have hcut := first_of_append hcomplete hl hz
    rw [← hcut] at hcomplete hl hstop ⊢
    refine first_append (hws w List.mem_cons_self) m y (ws ++ b) hcomplete (.inr ?_)
    intro hruns hall
    rw [hall] at hl
    exact hstop hruns (List.self_eq_append_right.mp hl)

namespace Scan

section admits

variable {s : Scan} {gap y b : List Char} {c : Char} (hgap : ∀ g ∈ gap, isBlank g = true)
  (hc : isBlank c = false) (hr : s.rest = gap ++ c :: (y ++ b))
  (hadmits : ∀ t ∈ s.tokens, t.Admits (s.position.offset + byteLength (gap ++ c :: y)))
include hgap hc hr hadmits

/-- The next token begins in front of a place that it admits, so it ends there or before. -/
theorem lexeme_prefix_of_admits : (s.lexeme c (y ++ b)).chars <+: c :: y := by
  obtain ⟨rest, hrest⟩ := Lexeme.chars_prefix s.modes c (y ++ b)
  obtain ⟨ht, -⟩ := next_eq hgap hc hr hrest.symm
  have houtside := (hadmits _ s.next_mem_tokens).outside
  rw [ht] at houtside
  have houtside' :
      ¬ ((s.position.after gap).offset < s.position.offset + byteLength (gap ++ c :: y) ∧
        s.position.offset + byteLength (gap ++ c :: y) <
          (s.position.after (gap ++ (s.lexeme c (y ++ b)).chars)).offset) := houtside
  have hpos : 0 < byteLength (c :: y) := byteLength_pos (List.cons_ne_nil c y)
  simp only [Position.offset_after, byteLength_append] at houtside'
  refine prefix_of_byteLength_le (w := c :: (y ++ b)) ⟨rest, hrest⟩ ⟨b, rfl⟩ ?_
  omega

/-- If it ends there, it takes no blanks along and is not an open string. -/
theorem lexeme_of_admits {z : List Char} (hz : c :: y = (s.lexeme c (y ++ b)).chars ++ z) :
    ((s.lexeme c (y ++ b)).kind.runsOn = true → z ≠ []) ∧
      (s.lexeme c (y ++ b)).complete = true := by
  have hl : c :: (y ++ b) = (s.lexeme c (y ++ b)).chars ++ (z ++ b) := by
    rw [← List.append_assoc, ← hz, List.cons_append]
  obtain ⟨ht, -⟩ := next_eq hgap hc hr hl
  have hnext := hadmits _ s.next_mem_tokens
  have hstop : s.next.token.span.stop + byteLength z =
      s.position.offset + byteLength (gap ++ c :: y) := by
    rw [ht, hz]
    show (s.position.after (gap ++ (s.lexeme c (y ++ b)).chars)).offset + _ = _
    simp only [Position.offset_after, byteLength_append]
    omega
  constructor
  · rintro hruns rfl
    refine hnext.behind ?_ hstop
    rw [ht]
    exact hruns
  · by_contra hopen
    rw [Bool.not_eq_true] at hopen
    obtain ⟨hm, hq, huntil⟩ := Lexeme.string_of_open hopen
    have hlexeme : s.lexeme c (y ++ b) = ⟨.string, c :: (y ++ b), y ++ b, s.modes, false⟩ :=
      (Lexeme.first_eq_string hm hq _).trans (Lexeme.string_eq_of_open huntil)
    -- The string takes all there is, so that there is nothing behind the place.
    have hnil : z = [] := by
      rw [hlexeme] at hz
      have hlength := congrArg List.length hz
      simp only [List.length_append, List.length_cons] at hlength
      exact List.eq_nil_of_length_eq_zero (by omega)
    rw [hnil] at hstop
    refine hnext.closed ⟨?_, ?_⟩ hstop
    · rw [ht, hlexeme]
    · rw [ht, hlexeme]
      show (s.position.after (gap ++ c :: (y ++ b))).offset =
        (s.position.after gap).offset + (String.ofList (y ++ b)).utf8ByteSize + 1
      rw [utf8ByteSize_eq, String.toList_ofList, Position.offset_after, Position.offset_after,
        byteLength_append, byteLength, utf8Size_quote hq]
      omega

/-- Behind the lexeme the place is admitted by all tokens that are left. -/
theorem next_of_admits (hsaved : s.modes.saved.side = .outside) {z : List Char}
    (hz : c :: y = (s.lexeme c (y ++ b)).chars ++ z) :
    s.next.token.kind ≠ .eof ∧ s.next.scan.rest = z ++ b ∧
      s.next.scan.modes = (s.lexeme c (y ++ b)).modes ∧
      ∀ t ∈ s.next.scan.tokens, t.Admits (s.next.scan.position.offset + byteLength z) := by
  have hl : c :: (y ++ b) = (s.lexeme c (y ++ b)).chars ++ (z ++ b) := by
    rw [← List.append_assoc, ← hz, List.cons_append]
  obtain ⟨ht, hs⟩ := next_eq hgap hc hr hl
  have hne : s.next.token.kind ≠ .eof := by
    rw [ht]
    exact Kind.standsOn_ne_eof (Lexeme.sound_first hsaved).stands
  have hplace : s.next.scan.position.offset + byteLength z =
      s.position.offset + byteLength (gap ++ c :: y) := by
    rw [hs, hz]
    simp only [Position.offset_after, byteLength_append]
    omega
  refine ⟨hne, by rw [hs], by rw [hs], ?_⟩
  intro t ht'
  rw [hplace]
  exact hadmits t (mem_tokens_of_next hne ht')

/-- The lexeme is the same with blanks put in at the place. -/
theorem lexeme_spaced (hsaved : s.modes.saved.side = .outside) {z ws : List Char}
    (hws : ∀ w ∈ ws, isBlank w = true) (hz : c :: y = (s.lexeme c (y ++ b)).chars ++ z) :
    s.lexeme c (y ++ (ws ++ b)) = s.lexeme c (y ++ b) := by
  obtain ⟨hstop, hcomplete⟩ := lexeme_of_admits hgap hc hr hadmits hz
  obtain ⟨-, hrest, hmodes, hadmits'⟩ := next_of_admits hgap hc hr hadmits hsaved hz
  have hwithin : Lexeme.Within (s.lexeme c (y ++ b)).modes z b := by
    rintro d ds rfl hd
    have hfront : s.next.scan.rest = [] ++ d :: (ds ++ b) := hrest
    have hprefix := lexeme_prefix_of_admits (List.forall_mem_nil _) hd hfront hadmits'
    rwa [lexeme, hmodes] at hprefix
  exact Lexeme.first_spaced hws hcomplete hz hwithin hstop

end admits

/-! ## Two Scans -/

/-- The one scan is the other with the blanks `ws` put in in front of the characters `b`, at a
    place that the tokens admit, or both are past the blanks. -/
inductive Spaced (ws b : List Char) (s s' : Scan) : Prop
  | ahead (x : List Char) (hrest : s.rest = x ++ b) (hrest' : s'.rest = x ++ (ws ++ b))
      (hmodes : s.modes = s'.modes) (hsaved : s.modes.saved.side = .outside)
      (hadmits : ∀ t ∈ s.tokens, t.Admits (s.position.offset + byteLength x))
  | past (hrest : s.rest.dropWhile isBlank = s'.rest.dropWhile isBlank)
      (hmodes : s.modes = s'.modes)

variable {ws b : List Char} {s s' : Scan}

theorem step_past (hrest : s.rest.dropWhile isBlank = s'.rest.dropWhile isBlank)
    (hmodes : s.modes = s'.modes) :
    s.next.token.Alike s'.next.token ∧ Spaced ws b s.next.scan s'.next.scan := by
  obtain ⟨halike, hrest', hmodes'⟩ := next_alike hrest hmodes
  exact ⟨halike, .past (congrArg (List.dropWhile isBlank) hrest') hmodes'⟩

theorem Spaced.step (hws : ∀ w ∈ ws, isBlank w = true) (h : Spaced ws b s s') :
    s.next.token.Alike s'.next.token ∧ Spaced ws b s.next.scan s'.next.scan := by
  cases h with
  | past hrest hmodes => exact step_past hrest hmodes
  | ahead x hrest hrest' hmodes hsaved hadmits =>
    have hx := (List.takeWhile_append_dropWhile (p := isBlank) (l := x)).symm
    have hgap : ∀ g ∈ x.takeWhile isBlank, isBlank g = true := fun g => List.mem_takeWhile_imp
    rcases hlast : x.dropWhile isBlank with _ | ⟨c, y⟩
    -- Only blanks are left in front of the place, and those put in are more of them.
    · refine step_past ?_ hmodes
      have hblank := List.dropWhile_eq_nil_iff.mp hlast
      rw [hrest, hrest', List.dropWhile_append_of_pos hblank, List.dropWhile_append_of_pos hblank,
        List.dropWhile_append_of_pos hws]
    -- The next token is the same, and the one behind it begins in front of the place or there.
    · rw [hlast] at hx
      have hc : isBlank c = false := by
        have hnot := List.head?_dropWhile_not isBlank x
        rw [hlast] at hnot
        simpa using hnot
      rw [hx] at hadmits
      rw [hx, List.append_assoc, List.cons_append] at hrest hrest'
      obtain ⟨z, hz⟩ := lexeme_prefix_of_admits hgap hc hrest hadmits
      have hlexeme : s'.lexeme c (y ++ (ws ++ b)) = s.lexeme c (y ++ b) := by
        rw [← lexeme_spaced hgap hc hrest hadmits hsaved hws hz.symm, lexeme, lexeme, hmodes]
      obtain ⟨hne, hrest₁, hmodes₁, hadmits₁⟩ :=
        next_of_admits hgap hc hrest hadmits hsaved hz.symm
      have hbehind : ∀ r, c :: (y ++ r) = (s.lexeme c (y ++ b)).chars ++ (z ++ r) := by
        intro r
        rw [← List.cons_append, ← hz, List.append_assoc]
      obtain ⟨ht, -⟩ := next_eq hgap hc hrest (hbehind b)
      obtain ⟨ht', hs'⟩ := next_eq hgap hc hrest' (by rw [hlexeme]; exact hbehind (ws ++ b))
      rw [hlexeme] at ht' hs'
      constructor
      · rw [ht, ht']
        exact ⟨rfl, rfl⟩
      · refine .ahead z hrest₁ ?_ ?_ (next_fits hsaved hne).2.2 hadmits₁
        · rw [hs']
        · rw [hmodes₁, hs']

end Scan

/-- Blanks may be put in at any place of a source text that all its tokens admit: one that is
    not inside a token, nor right behind a text, a comment or a string that is not closed. The
    tokens have the same kinds and texts as before. -/
theorem tokenize_spaced {a b ws : String} (hws : ∀ c ∈ ws.toList, isBlank c = true)
    (h : ∀ t ∈ tokenize (a ++ b), t.Admits a.utf8ByteSize) :
    List.Forall₂ Token.Alike (tokenize (a ++ b)) (tokenize (a ++ ws ++ b)) := by
  have hstart : Scan.Spaced ws.toList b.toList (Scan.ofSource (a ++ b))
      (Scan.ofSource (a ++ ws ++ b)) := by
    refine .ahead a.toList ?_ ?_ rfl rfl ?_
    · exact String.toList_append
    · show (a ++ ws ++ b).toList = _
      rw [String.toList_append, String.toList_append, List.append_assoc]
    · show ∀ t ∈ tokenize (a ++ b), t.Admits (0 + byteLength a.toList)
      rw [Nat.zero_add, ← utf8ByteSize_eq]
      exact h
  refine Scan.forall₂_tokens (fun s s' hspaced => ?_) hstart
  obtain ⟨halike, hnext⟩ := hspaced.step hws
  exact ⟨halike, halike.kind, fun _ => hnext⟩

/-- A line is broken behind the first operand of a division. -/
theorem tokenize_spaced_operand :
    let a := "<p>\x7ba"
    let b := "/for\x7d</p>"
    let ws := "\r\n\t "
    (∀ c ∈ ws.toList, isBlank c = true) ∧
    (∀ t ∈ tokenize (a ++ b), t.Admits a.utf8ByteSize) ∧
    List.Forall₂ Token.Alike (tokenize (a ++ b)) (tokenize (a ++ ws ++ b)) := by
  intro a b ws
  have hall : ws.toList.all isBlank = true := by decide
  have hws : ∀ c ∈ ws.toList, isBlank c = true := List.all_eq_true.mp hall
  have hadmits : ∀ t ∈ tokenize (a ++ b), t.Admits a.utf8ByteSize := by decide +kernel
  exact ⟨hws, hadmits, tokenize_spaced hws hadmits⟩

end TemplateSyntax
