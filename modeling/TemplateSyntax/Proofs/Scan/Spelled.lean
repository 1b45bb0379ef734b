import TemplateSyntax.Proofs.Scan.Munch
import TemplateSyntax.Proofs.Scan.Quotes

/-! # Lexemes Written Out

  Whatever an expression block may hold can be written down with a space behind each lexeme and is
  read back just so (`tokenize_spelled`). How a lexeme of a kind is written is said by `Spelled`,
  class by class and without reference to the rules; each class has its rule, and no other rule
  gets hold of one of its members (`Lexeme.expression_of_spelled`).
-/

namespace TemplateSyntax

/-! ## How Lexemes Are Written -/

/-- The lexemes that are always written in one way: the braces' opening one, the operators, the
    punctuation marks and the words that close a block. -/
def fixedSpellings : List (String × Kind) :=
  [("\x7b", .exprStart), ("=", .equal), ("==", .equal), ("!", .exclamation), ("!=", .notEqual),
   ("<", .lessThan), ("<=", .lessEqual), (">", .greaterThan), (">=", .greaterEqual),
   ("&", .logicalAnd), ("&&", .logicalAnd), ("|", .logicalOr), ("||", .logicalOr),
   ("+", .plus), ("-", .minus), ("*", .multiplication), ("/", .division),
   ("(", .lParen), (")", .rParen), ("[", .lBracket), ("]", .rBracket),
   (",", .comma), (".", .period), (":", .colon), ("?", .questionMark), ("_", .underscore),
   ("/for", .forEnd), ("/if", .ifEnd), ("/switch", .switchEnd)]

/-- A lexeme of a kind that stands for the characters `us` is written in the characters `cs`. -/
inductive Spelled : Kind → List Char → List Char → Prop
  | fixed {x : String × Kind} (h : x ∈ fixedSpellings) : Spelled x.2 x.1.toList x.1.toList
  | integer {us : List Char} (h : Digits us) : Spelled .integer us us
  | float {whole fraction : List Char} (hwhole : Digits whole) (hfraction : Digits fraction) :
      Spelled .float (whole ++ '.' :: fraction) (whole ++ '.' :: fraction)
  | word {us : List Char} (h : IsWord us) (hne : us ≠ ['_']) :
      Spelled ((Kind.keyword? (.ofList us)).getD .identifier) us us
  | string {q : Char} {us : List Char} (hq : q = '"' ∨ q = '\'') (hun : Unquoted q us)
      (hends : endsInEscape us = false) : Spelled .string us (q :: (us ++ [q]))
  | invalid {c : Char} (hc : isBlank c = false) (h : ¬ BeginsLexeme c) :
      Spelled .invalid [c] [c]

/-- A lexeme of an expression block with a way to write it. -/
structure Spelling where
  kind : Kind
  /-- The characters that it stands for. -/
  content : List Char
  chars : List Char
  spelled : Spelled kind content chars

/-- An expression block that holds the lexemes, each with a space behind it. -/
def Spelling.block (ls : List Spelling) : List Char :=
  '\x7b' :: (ls.flatMap (fun l => l.chars ++ [' ']) ++ ['\x7d'])

/-! ## Rule by Rule -/

/-- No letter and no underscore is a digit. -/
theorem isDigit_of_isWordStart {c : Char} (h : isWordStart c = true) : c.isDigit = false := by
  rw [← Bool.not_eq_true]
  intro hdigit
  simp only [Char.isDigit, Bool.and_eq_true, decide_eq_true_eq] at hdigit
  unfold isWordStart Char.isAlpha Char.isUpper Char.isLower at h
  simp only [Bool.or_eq_true, Bool.and_eq_true, decide_eq_true_eq] at h
  rcases h with (⟨hupper, -⟩ | ⟨hlower, -⟩) | rfl
  · exact absurd (UInt32.le_trans hupper hdigit.2) (by decide)
  · exact absurd (UInt32.le_trans hlower hdigit.2) (by decide)
  · exact absurd hdigit.2 (by decide)

theorem isBlank_of_isDigit {c : Char} (h : c.isDigit = true) : isBlank c = false := by
  rw [← Bool.not_eq_true]
  intro hblank
  rw [(class_of_isBlank hblank).1] at h
  exact Bool.false_ne_true h

theorem isBlank_of_isWordStart {c : Char} (h : isWordStart c = true) : isBlank c = false := by
  rw [← Bool.not_eq_true]
  intro hblank
  have hword := isWordChar_of_isWordStart h
  rw [(class_of_isBlank hblank).2] at hword
  exact Bool.false_ne_true hword

namespace Lexeme

variable {m : Modes} {c : Char} {cs us : List Char}

/-- Behind the characters that have a rule of their own come the rules for classes. -/
theorem expression_of_not_mem (h : c ∉ "\"'\x7d/".toList ++ ['@']) :
    expression m c cs =
      if c.isDigit then number m (c :: cs)
      else if isWordStart c then word m (c :: cs) else symbol m c cs := by
  have hne : ∀ d ∈ "\"'\x7d/".toList ++ ['@'], c ≠ d := fun d hd hc => h (hc ▸ hd)
  have hquote : ¬ (c = '"' ∨ c = '\'') :=
    not_or.mpr ⟨hne '"' (by decide), hne '\'' (by decide)⟩
  unfold expression
  rw [if_neg hquote, if_neg (hne '\x7d' (by decide)), if_neg (hne '/' (by decide)),
    if_neg (hne '@' (by decide))]

/-- No character of a class has such a rule if none of these characters is in the class. -/
theorem not_mem_of_class {p : Char → Bool} {ds : List Char} (hds : ds.all (!p ·) = true)
    (hc : p c = true) : c ∉ ds := by
  intro hmem
  have hnot := List.all_eq_true.mp hds c hmem
  rw [hc] at hnot
  exact Bool.false_ne_true hnot

theorem expression_of_isDigit (h : c.isDigit = true) : expression m c cs = number m (c :: cs) := by
  rw [expression_of_not_mem (not_mem_of_class (by decide) h), if_pos h]

theorem expression_of_isWordStart (h : isWordStart c = true) :
    expression m c cs = word m (c :: cs) := by
  have hdigit : ¬ c.isDigit = true := Bool.eq_false_iff.mp (isDigit_of_isWordStart h)
  rw [expression_of_not_mem (not_mem_of_class (by decide) h), if_neg hdigit, if_pos h]

/-- Each of the fixed spellings has a rule that takes all of it. -/
theorem expression_of_fixed : ∀ x ∈ fixedSpellings, ∃ c cs, x.1.toList = c :: cs ∧
    isBlank c = false ∧ expression m c cs = plain x.2 x.1.toList m := by
  simp only [fixedSpellings, List.forall_mem_cons]
  and_intros
  all_goals first | exact ⟨_, _, rfl, rfl, rfl⟩ | exact nofun

theorem number_of_digits (h : Digits us) : number m us = plain .integer us m := by
  have hall : us.dropWhile Char.isDigit = [] := List.dropWhile_eq_nil_iff.mpr h.2
  have hnot : ∀ d rest, ¬ Pointed us d rest := by
    intro d rest hd
    exact List.cons_ne_nil _ _ (hd.1.symm.trans hall)
  rw [number_of_not_pointed hnot, List.takeWhile_eq_self_iff.mpr h.2]

theorem number_of_fraction {whole fraction : List Char} (hwhole : Digits whole)
    (hfraction : Digits fraction) :
    number m (whole ++ '.' :: fraction) = plain .float (whole ++ '.' :: fraction) m := by
  obtain ⟨d, ds, rfl⟩ := List.exists_cons_of_ne_nil hfraction.1
  obtain ⟨hd, hds⟩ := List.forall_mem_cons.mp hfraction.2
  have hstops : Stops Char.isDigit ('.' :: d :: ds) := by
    intro c hc
    cases hc
    rfl
  have hpointed : Pointed (whole ++ '.' :: d :: ds) d ds := by
    refine ⟨?_, hd⟩
    rw [List.dropWhile_append_of_pos hwhole.2, List.dropWhile_cons_of_neg (by decide)]
  rw [number_of_pointed hpointed, takeWhile_of_stops hwhole.2 hstops,
    List.takeWhile_eq_self_iff.mpr hds]

/-- A word is taken as a whole, and no underscore that goes on is punctuation. -/
theorem word_of_isWord (h : IsWord us) (hne : us ≠ ['_']) :
    word m us = plain ((Kind.keyword? (.ofList us)).getD .identifier) us m := by
  obtain ⟨c, cs, rfl, hc, hcs⟩ := h
  have hall : ∀ d ∈ c :: cs, isWordChar d = true :=
    List.forall_mem_cons.mpr ⟨isWordChar_of_isWordStart hc, hcs⟩
  have hlone : String.ofList (c :: cs) ≠ "_" := fun heq => hne (String.ofList_injective heq)
  rw [word, List.takeWhile_eq_self_iff.mpr hall, Kind.ofWord, if_neg hlone]

/-- Every operator and punctuation mark begins with one of these characters. -/
theorem find?_symbols_of_not_mem (h : c ∉ "\x7b=!<>&|+-*()[],.:?".toList) :
    symbols.find? (·.1.toList.isPrefixOf (c :: cs)) = none := by
  have hall : symbols.all
      (fun x => x.1.toList.head?.any ("\x7b=!<>&|+-*()[],.:?".toList.contains ·)) = true := by
    decide
  rw [List.find?_eq_none]
  intro x hx hprefix
  obtain ⟨d, hhead, hd⟩ := (Option.any_eq_true _ _).mp (List.all_eq_true.mp hall x hx)
  obtain ⟨ds, hspelling⟩ := List.head?_eq_some_iff.mp hhead
  rw [hspelling] at hprefix
  obtain ⟨r, hr⟩ := List.isPrefixOf_iff_prefix.mp hprefix
  obtain rfl : d = c := (List.cons.inj hr).1
  exact h (List.contains_iff_mem.mp hd)

/-- A character that begins no lexeme stands alone. -/
theorem expression_of_not_begins (h : ¬ BeginsLexeme c) :
    expression m c [] = plain .invalid [c] m := by
  by_cases hat : c = '@'
  · subst hat
    rfl
  · have hother : c ∉ "\"'\x7d/".toList := fun hmem => h (.inl hmem)
    have htable : c ∉ "\x7b=!<>&|+-*()[],.:?".toList := fun hmem => h (.inr (.inl hmem))
    have hdigit : ¬ c.isDigit = true := fun hdigit => h (.inr (.inr (.inl hdigit)))
    have hstart : ¬ isWordStart c = true := fun hstart => h (.inr (.inr (.inr hstart)))
    have hmem : c ∉ "\"'\x7d/".toList ++ ['@'] :=
      List.not_mem_append hother (mt List.mem_singleton.mp hat)
    have hnone : symbols.find? (·.1.toList.isPrefixOf [c]) = none :=
      find?_symbols_of_not_mem htable
    rw [expression_of_not_mem hmem, if_neg hdigit, if_neg hstart, symbol, hnone]

/-- Whatever is spelled is a lexeme by itself. -/
theorem expression_of_spelled {k : Kind} (m : Modes) (h : Spelled k us cs) :
    ∃ c ds, cs = c :: ds ∧ isBlank c = false ∧ expression m c ds = ⟨k, cs, us, m, true⟩ := by
  cases h with
  | fixed hx => exact expression_of_fixed _ hx
  | integer hdigits =>
    obtain ⟨c, ds, rfl⟩ := List.exists_cons_of_ne_nil hdigits.1
    have hc : c.isDigit = true := hdigits.2 c List.mem_cons_self
    refine ⟨c, ds, rfl, isBlank_of_isDigit hc, ?_⟩
    rw [expression_of_isDigit hc, number_of_digits hdigits]
    rfl
  | @float whole fraction hwhole hfraction =>
    have hnumber := number_of_fraction (m := m) hwhole hfraction
    obtain ⟨c, ds, rfl⟩ := List.exists_cons_of_ne_nil hwhole.1
    have hc : c.isDigit = true := hwhole.2 c List.mem_cons_self
    refine ⟨c, ds ++ '.' :: fraction, rfl, isBlank_of_isDigit hc, ?_⟩
    rw [expression_of_isDigit hc]
    exact hnumber
  | word hword hne =>
    have htaken := word_of_isWord (m := m) hword hne
    obtain ⟨c, ds, rfl, hc, hds⟩ := hword
    refine ⟨c, ds, rfl, isBlank_of_isWordStart hc, ?_⟩
    rw [expression_of_isWordStart hc]
    exact htaken
  | @string q us hq hun hends =>
    have hslash := (ne_of_quote hq).1
    have hbody : Body q us := (body_iff hslash).mpr ⟨hends, hun⟩
    refine ⟨q, us ++ [q], rfl, isBlank_quote hq, ?_⟩
    rw [expression, if_pos hq]
    exact string_of_body hslash hbody
  | @invalid c hc hnot => exact ⟨c, [], rfl, hc, expression_of_not_begins hnot⟩

end Lexeme

/-! ## Reading Back -/

namespace Scan

variable {s : Scan} {gap : List Char} (hgap : ∀ g ∈ gap, isBlank g = true)
include hgap

/-- A lexeme with a space behind it is read back. -/
theorem next_spelled {rest : List Char} (hm : s.modes.current = .expression) (l : Spelling)
    (hr : s.rest = gap ++ (l.chars ++ ' ' :: rest)) :
    s.next.token.kind = l.kind ∧ s.next.token.text = .ofList l.content ∧
      s.next.scan.rest = ' ' :: rest ∧ s.next.scan.modes = s.modes := by
  obtain ⟨c, cs, hchars, hc, hlexeme⟩ := Lexeme.expression_of_spelled s.modes l.spelled
  have hspace : isBlank ' ' = true := rfl
  have htaken : s.lexeme c (cs ++ ' ' :: rest) = ⟨l.kind, l.chars, l.content, s.modes, true⟩ := by
    rw [lexeme, Lexeme.first, hm]
    show Lexeme.expression s.modes c (cs ++ ' ' :: rest) = _
    rw [Lexeme.expression_append hspace s.modes cs rest (by rw [hlexeme]), hlexeme]
  have hr' : s.rest = gap ++ c :: (cs ++ ' ' :: rest) := by rw [hr, hchars, List.cons_append]
  have hsplit : c :: (cs ++ ' ' :: rest) = l.chars ++ ' ' :: rest := by
    rw [hchars, List.cons_append]
  exact next_lexeme hgap hc hr' htaken hsplit

/-- So is the brace that closes the block, and behind it the input ends in plain markup. -/
theorem tokens_closing (hm : s.modes = ⟨.expression, .text⟩) (hr : s.rest = gap ++ ['\x7d']) :
    s.tokens.map (fun t => (t.kind, t.text)) = [(.exprEnd, "\x7d"), (.eof, "")] ∧
      s.exhausted.modes = ⟨.text, .text⟩ := by
  have hlexeme : s.lexeme '\x7d' [] = .plain .exprEnd ['\x7d'] ⟨.text, .text⟩ := by
    rw [lexeme, hm]
    rfl
  have hsplit : ['\x7d'] = (s.lexeme '\x7d' []).chars ++ [] := by rw [hlexeme]; rfl
  obtain ⟨ht, hs⟩ := next_eq hgap (by decide) hr hsplit
  rw [hlexeme] at ht hs
  have hkind : s.next.token.kind = .exprEnd := by rw [ht]; rfl
  have hne : s.next.token.kind ≠ .eof := by rw [hkind]; decide
  have hend : s.next.scan.next.token.kind = .eof := by rw [hs]; rfl
  rw [tokens_of_ne_eof hne, tokens_of_eof hend, exhausted_of_ne_eof hne, exhausted_of_eof hend, ht,
    hs]
  exact ⟨rfl, rfl⟩

/-- All the lexemes of a block are read back. -/
theorem tokens_spelled (ls : List Spelling) (hm : s.modes = ⟨.expression, .text⟩)
    (hr : s.rest = gap ++ (ls.flatMap (fun l => l.chars ++ [' ']) ++ ['\x7d'])) :
    s.tokens.map (fun t => (t.kind, t.text)) =
        ls.map (fun l => (l.kind, .ofList l.content)) ++ [(.exprEnd, "\x7d"), (.eof, "")] ∧
      s.exhausted.modes = ⟨.text, .text⟩ := by
  -- Behind a lexeme its space is the gap in front of the next one.
  induction ls generalizing s gap with
  | nil => exact tokens_closing hgap hm hr
  | cons l ls ih =>
    have hrest : s.rest = gap ++ (l.chars ++
        ' ' :: (ls.flatMap (fun l => l.chars ++ [' ']) ++ ['\x7d'])) := by
      rw [hr]
      simp only [List.flatMap_cons, List.append_assoc, List.cons_append, List.nil_append]
    have hexpression : s.modes.current = .expression := by rw [hm]
    obtain ⟨hkind, htext, hbehind, hmodes⟩ := next_spelled hgap hexpression l hrest
    have hne : s.next.token.kind ≠ .eof := by
      intro heof
      have hscan := (next_of_eof (by rw [hm]; rfl) heof).2.2
      rw [hscan] at hbehind
      exact List.cons_ne_nil _ _ hbehind.symm
    have hspace : ∀ g ∈ [' '], isBlank g = true := List.forall_mem_singleton.mpr rfl
    obtain ⟨htokens, hend⟩ := ih hspace (hmodes.trans hm) hbehind
    rw [tokens_of_ne_eof hne, exhausted_of_ne_eof hne, List.map_cons, htokens, hkind, htext]
    exact ⟨rfl, hend⟩

end Scan

/-- Whatever the lexemes of an expression block are, and with whatever quotes its strings are
    written, they are read back one by one if each has a space behind it: the tokens have their
    kinds and stand for what they stand for, and behind the block the input ends in plain
    markup. -/
theorem tokenize_spelled (ls : List Spelling) :
    let source := String.ofList (Spelling.block ls)
    (tokenize source).map (fun t => (t.kind, t.text)) =
        (.exprStart, "\x7b") :: (ls.map (fun l => (l.kind, .ofList l.content)) ++
          [(.exprEnd, "\x7d"), (.eof, "")]) ∧
      (Scan.ofSource source).exhausted.modes.current = .text := by
  intro source
  let s := Scan.ofSource source
  have hrest : s.rest = Spelling.block ls := String.toList_ofList
  have hlexeme : ∀ cs, s.lexeme '\x7b' cs = .plain .exprStart ['\x7b'] ⟨.expression, .text⟩ :=
    fun _ => rfl
  have hnone : ∀ g ∈ ([] : List Char), isBlank g = true := nofun
  obtain ⟨ht, hs⟩ := Scan.next_eq hnone (by decide) hrest (by rw [hlexeme]; rfl)
  rw [hlexeme] at ht hs
  have hne : s.next.token.kind ≠ .eof := by rw [ht]; nofun
  obtain ⟨htokens, hend⟩ := Scan.tokens_spelled hnone ls (s := s.next.scan) (by rw [hs]; rfl)
    (by rw [hs]; rfl)
  constructor
  · show s.tokens.map _ = _
    rw [Scan.tokens_of_ne_eof hne, List.map_cons, htokens, ht]
    rfl
  · show s.exhausted.modes.current = _
    rw [Scan.exhausted_of_ne_eof hne, hend]

-- An at sign opens nothing inside a block of plain markup, and a quote may be escaped.
example : (tokenize "\x7b@ 'it\\'s' /for _ \x7d").map (fun t => (t.kind, t.text)) =
    [(.exprStart, "\x7b"), (.invalid, "@"), (.string, "it\\'s"), (.forEnd, "/for"),
      (.underscore, "_"), (.exprEnd, "\x7d"), (.eof, "")] := by
  decide +kernel

end TemplateSyntax
