import TemplateSyntax.Proofs.Scan.Automaton
import TemplateSyntax.Proofs.Scan.Cut
import TemplateSyntax.Proofs.Scan.Tiles
import TemplateSyntax.Proofs.Shape.Tokens

/-! # The Longest Lexeme

  Inside an expression block every rule takes as much as it can: what follows a word, a number, an
  operator or a word that closes a block does not go on with it, and an invalid character begins
  nothing at all (`Scan.expressions_munch`). What each kind asks of its characters and of the ones
  behind them is said by `Longest`, without reference to the rules.
-/

namespace TemplateSyntax

/-! ## What Follows a Lexeme -/

/-- The next of the characters, if there is one, is not of a class. -/
def Stops (p : Char → Bool) (v : List Char) : Prop := ∀ c ∈ v.head?, p c = false

/-- A word: a letter or an underscore, and then letters, digits and underscores. -/
def IsWord (us : List Char) : Prop :=
  ∃ c cs, us = c :: cs ∧ isWordStart c = true ∧ ∀ d ∈ cs, isWordChar d = true

/-- The words that close a block behind a slash. -/
def closingWords : List String := ["for", "if", "switch"]

/-- The characters, but the at sign, that a lexeme begins with in an expression block. -/
def BeginsLexeme (c : Char) : Prop :=
  c ∈ "\"'\x7d/".toList ∨ c ∈ "\x7b=!<>&|+-*()[],.:?".toList ∨ c.isDigit = true ∨
    isWordStart c = true

instance (c : Char) : Decidable (BeginsLexeme c) :=
  inferInstanceAs (Decidable (_ ∨ _ ∨ _ ∨ _))

/-- The operators of two characters whose first one is an operator as well. -/
def doubled : List (Char × Char) :=
  [('=', '='), ('!', '='), ('<', '='), ('>', '='), ('&', '&'), ('|', '|')]

/-- The characters `us` are a lexeme of a kind, as long as one can be in front of `v`. -/
def Longest (us v : List Char) : Kind → Prop
  | .underscore => us = ['_'] ∧ Stops isWordChar v
  | .forEnd => us = "/for".toList ∧ Stops isWordChar v
  | .ifEnd => us = "/if".toList ∧ Stops isWordChar v
  | .switchEnd => us = "/switch".toList ∧ Stops isWordChar v
  | .division =>
    us = ['/'] ∧ ∀ w ∈ closingWords, ∀ r, v = w.toList ++ r → ¬ Stops isWordChar r
  | .integer => Digits us ∧ Stops Char.isDigit v ∧ ∀ r, v = '.' :: r → Stops Char.isDigit r
  | .float =>
    (∃ whole fraction, us = whole ++ '.' :: fraction ∧ Digits whole ∧ Digits fraction) ∧
      Stops Char.isDigit v
  | .invalid => ∃ c, us = [c] ∧ ¬ BeginsLexeme c
  | k =>
    k.isWord = true →
      IsWord us ∧ Stops isWordChar v ∧ k = (Kind.keyword? (.ofList us)).getD .identifier

/-- A lexeme of an expression block, in front of the characters `v`, is as long as can be. -/
structure Munched (saved : Mode) (k : Kind) (us v : List Char) : Prop where
  longest : Longest us v k
  lone : us = ['_'] → k = .underscore
  double : ∀ p ∈ doubled, us = [p.1] → v.head? ≠ some p.2
  /-- An at sign is invalid unless it opens a block again, which it does not in plain markup. -/
  atSign : ∀ r, us ++ v = '@' :: r → (k = .invalid ↔ r.head? ≠ some '\x7b' ∨ saved = .text)

/-! ## Runs -/

section runs

variable {p : Char → Bool} {cs us v : List Char}

/-- What is taken as long as it is of a class is followed by something else. -/
theorem stops_of_takeWhile (hcs : cs = us ++ v) (hus : cs.takeWhile p = us) : Stops p v := by
  have hv : v = cs.dropWhile p := by
    have hsplit := List.takeWhile_append_dropWhile (p := p) (l := cs)
    rw [hus] at hsplit
    exact List.append_cancel_left (hcs.symm.trans hsplit.symm)
  intro c hc
  have hnot := List.head?_dropWhile_not p cs
  rw [← hv, Option.mem_def.mp hc] at hnot
  exact hnot

/-- Characters of a class that are followed by none of it are taken just so. -/
theorem takeWhile_of_stops (hus : ∀ c ∈ us, p c = true) (hv : Stops p v) :
    (us ++ v).takeWhile p = us := by
  rw [List.takeWhile_append_of_pos hus]
  cases v with
  | nil => rw [List.takeWhile_nil, List.append_nil]
  | cons c v =>
    have hc : ¬ p c = true := by
      rw [hv c rfl]
      exact Bool.false_ne_true
    rw [List.takeWhile_cons_of_neg hc, List.append_nil]

end runs

/-! ## Rule by Rule -/

/-- A word of a kind of words is as long as can be, if nothing goes on with it. -/
theorem longest_of_word {us v : List Char} (hus : IsWord us) (hv : Stops isWordChar v)
    (hne : String.ofList us ≠ "_") : Longest us v (Kind.ofWord (.ofList us)) := by
  have hword := Kind.isWord_ofWord hne
  have hkind : Kind.ofWord (.ofList us) = (Kind.keyword? (.ofList us)).getD .identifier :=
    if_neg hne
  revert hword hkind
  cases Kind.ofWord (.ofList us) <;>
    first
    | exact fun _ hkind _ => ⟨hus, hv, hkind⟩
    | exact fun hword _ => absurd hword Bool.false_ne_true

/-- Of an operator and of a punctuation mark nothing is asked. -/
theorem longest_of_mem_symbols {x : String × Kind} (hx : x ∈ Lexeme.symbols) (us v : List Char) :
    Longest us v x.2 := by
  have hk : x.2 ∈ Lexeme.symbols.map Prod.snd := List.mem_map_of_mem hx
  revert hk
  cases x.2 <;>
    first
    | exact fun _ hword => absurd hword Bool.false_ne_true
    | exact fun hk => absurd hk (by decide)

/-- A digit and all that go on with it are digits. -/
theorem digits_cons {c : Char} (hc : c.isDigit = true) (cs : List Char) :
    Digits (c :: cs.takeWhile Char.isDigit) := by
  have hdigits : Digits ((c :: cs).takeWhile Char.isDigit) := digits_takeWhile hc
  rwa [List.takeWhile_cons_of_pos hc] at hdigits

namespace Lexeme

variable {m : Modes} {c : Char} {cs v : List Char}

/-- A slash takes the word behind it if the two close a block, and no other. -/
theorem longest_slash (hl : '/' :: cs = (slash m cs).chars ++ v) :
    Longest (slash m cs).chars v (slash m cs).kind := by
  cases hk : Kind.closer? (.ofList (cs.takeWhile isWordChar)) with
  | some k =>
    have hslash : slash m cs = plain k ('/' :: cs.takeWhile isWordChar) m := by
      simp only [slash, hk]
    rw [hslash] at hl ⊢
    have hv : Stops isWordChar v := stops_of_takeWhile (List.cons.inj hl).2 rfl
    unfold Kind.closer? at hk
    split at hk <;> cases hk
    · next hword => exact ⟨congrArg _ (String.ofList_injective hword), hv⟩
    · next hword => exact ⟨congrArg _ (String.ofList_injective hword), hv⟩
    · next hword => exact ⟨congrArg _ (String.ofList_injective hword), hv⟩
  | none =>
    have hslash : slash m cs = plain .division ['/'] m := by
      simp only [slash, hk]
    rw [hslash] at hl ⊢
    constructor
    · rfl
    · rintro w hw r rfl hr
      have hwords : ∀ w ∈ closingWords,
          w.toList.all isWordChar = true ∧ Kind.closer? w ≠ none := by
        decide
      obtain ⟨hall, hcloser⟩ := hwords w hw
      have hword : ∀ c ∈ w.toList, isWordChar c = true := List.all_eq_true.mp hall
      obtain rfl : cs = w.toList ++ r := (List.cons.inj hl).2
      rw [takeWhile_of_stops hword hr, String.ofList_toList] at hk
      exact hcloser hk

theorem longest_atSign : Longest (atSign m cs).chars v (atSign m cs).kind := by
  unfold atSign
  split
  · nofun
  · exact ⟨'@', rfl, by decide⟩

/-- A number takes all its digits, and a point if there is a digit behind it. -/
theorem longest_number (hc : c.isDigit = true) (hl : c :: cs = (number m (c :: cs)).chars ++ v) :
    Longest (number m (c :: cs)).chars v (number m (c :: cs)).kind := by
  have hsplit := (List.takeWhile_append_dropWhile (p := Char.isDigit) (l := c :: cs)).trans hl
  by_cases hpoint : ∃ d rest, Pointed (c :: cs) d rest
  · obtain ⟨d, rest, hd⟩ := hpoint
    rw [number_of_pointed hd, chars_plain] at hsplit
    rw [number_of_pointed hd, chars_plain, kind_plain, List.takeWhile_cons_of_pos hc]
    have hrest : rest = rest.takeWhile Char.isDigit ++ v := by
      rw [hd.1, List.append_assoc] at hsplit
      simpa using List.append_cancel_left hsplit
    have hfraction := digits_cons hd.2 rest
    exact ⟨⟨_, _, rfl, digits_cons hc cs, hfraction⟩, stops_of_takeWhile hrest rfl⟩
  · have hnot : ∀ d rest, ¬ Pointed (c :: cs) d rest := fun d rest hd => hpoint ⟨d, rest, hd⟩
    rw [number_of_not_pointed hnot, chars_plain] at hl hsplit
    rw [number_of_not_pointed hnot, chars_plain, kind_plain, List.takeWhile_cons_of_pos hc]
    refine ⟨digits_cons hc cs, stops_of_takeWhile hl rfl, ?_⟩
    rintro r rfl d hd
    rw [← Bool.not_eq_true]
    intro hdigit
    obtain ⟨rest, rfl⟩ := List.head?_eq_some_iff.mp hd
    exact hnot d rest ⟨List.append_cancel_left hsplit, hdigit⟩

/-- A word takes all that goes on with it. -/
theorem longest_word (hc : isWordStart c = true) (hl : c :: cs = (word m (c :: cs)).chars ++ v) :
    Longest (word m (c :: cs)).chars v (word m (c :: cs)).kind := by
  have hrun : (c :: cs).takeWhile isWordChar = c :: cs.takeWhile isWordChar :=
    List.takeWhile_cons_of_pos (isWordChar_of_isWordStart hc)
  have hv : Stops isWordChar v := stops_of_takeWhile hl rfl
  rw [word, chars_plain, kind_plain, hrun]
  by_cases hlone : String.ofList (c :: cs.takeWhile isWordChar) = "_"
  · rw [hlone]
    exact ⟨String.ofList_injective hlone, hv⟩
  · exact longest_of_word ⟨c, _, rfl, hc, fun d hd => List.mem_takeWhile_imp hd⟩ hv hlone

/-- Each operator or punctuation mark of one character is in the table. -/
theorem exists_symbol (hc : c ∈ "\x7b=!<>&|+-*()[],.:?".toList) :
    ∃ x ∈ symbols, x.1.toList = [c] := by
  have hall : "\x7b=!<>&|+-*()[],.:?".toList.all
      (fun c => symbols.any (·.1.toList == [c])) = true := by
    decide
  obtain ⟨x, hx, hspelling⟩ := List.any_eq_true.mp (List.all_eq_true.mp hall c hc)
  exact ⟨x, hx, beq_iff_eq.mp hspelling⟩

/-- A character that no other rule is for and that the table does not have begins nothing. -/
theorem longest_symbol (hquote : ¬ (c = '"' ∨ c = '\'')) (hend : c ≠ '\x7d') (hslash : c ≠ '/')
    (hdigit : ¬ c.isDigit = true) (hstart : ¬ isWordStart c = true) :
    Longest (symbol m c cs).chars v (symbol m c cs).kind := by
  unfold symbol
  split
  · next spelling k hk => exact longest_of_mem_symbols (List.mem_of_find?_eq_some hk) _ _
  · next hnone =>
    refine ⟨c, rfl, ?_⟩
    rintro (hother | htable | hc | hc)
    · revert hother
      simpa [hend, hslash] using hquote
    · obtain ⟨x, hx, hspelling⟩ := exists_symbol htable
      have hnot := List.find?_eq_none.mp hnone x hx
      rw [hspelling] at hnot
      exact hnot (List.isPrefixOf_iff_prefix.mpr ⟨cs, rfl⟩)
    · exact hdigit hc
    · exact hstart hc

/-- Every rule for expressions takes as much as it can. -/
theorem longest_expression {l : Lexeme} (he : expression m c cs = l)
    (hl : c :: cs = l.chars ++ v) : Longest l.chars v l.kind := by
  unfold expression at he
  split at he
  · subst he
    nofun
  split at he
  · subst he
    nofun
  split at he
  · next hc =>
    subst hc he
    exact longest_slash hl
  split at he
  · subst he
    exact longest_atSign
  split at he
  · next hdigit =>
    subst he
    exact longest_number hdigit hl
  split at he
  · next hstart =>
    subst he
    exact longest_word hstart hl
  · next hquote hend hslash _ hdigit hstart =>
    subst he
    exact longest_symbol hquote hend hslash hdigit hstart

/-! ## By the First Character -/

theorem kind_of_lone (h : (expression m '_' cs).chars = ['_']) :
    (expression m '_' cs).kind = .underscore := by
  have hword : expression m '_' cs = word m ('_' :: cs) := rfl
  have hkind : (word m ('_' :: cs)).kind = .ofWord (.ofList (word m ('_' :: cs)).chars) := rfl
  rw [hword] at h ⊢
  rw [hkind, h]
  rfl

/-- In the table of operators the longer ones come first. -/
theorem chars_of_doubled : ∀ p ∈ doubled, ∀ cs,
    (expression m p.1 (p.2 :: cs)).chars = [p.1, p.2] := by
  intro p hp cs
  simp only [doubled, List.mem_cons, List.not_mem_nil, or_false] at hp
  rcases hp with rfl | rfl | rfl | rfl | rfl | rfl <;> rfl

/-- An at sign opens a block again if a brace follows in a block of a style or a script. -/
theorem kind_of_atSign (hs : m.saved.isMarkup = true) :
    (expression m '@' cs).kind = .invalid ↔ cs.head? ≠ some '\x7b' ∨ m.saved = .text := by
  have hsegment : m.saved.isSegment = true ↔ m.saved ≠ .text := by
    revert hs
    cases m.saved <;> decide
  show (atSign m cs).kind = .invalid ↔ _
  unfold atSign
  split
  · next h => exact iff_of_false nofun (not_or.mpr ⟨not_not_intro h.1, hsegment.mp h.2⟩)
  · next h =>
    rw [hsegment, not_and_or, not_not] at h
    exact iff_of_true rfl h

theorem munched_expression (hs : m.saved.isMarkup = true)
    (hl : c :: cs = (expression m c cs).chars ++ v) :
    Munched m.saved (expression m c cs).kind (expression m c cs).chars v := by
  constructor
  case longest => exact longest_expression rfl hl
  case lone =>
    intro hus
    have hc : c = '_' := by
      rw [hus] at hl
      exact (List.cons.inj hl).1
    subst hc
    exact kind_of_lone hus
  case double =>
    intro p hp hus hv
    obtain ⟨hc, hcs⟩ : c = p.1 ∧ cs = v := by
      rw [hus] at hl
      exact List.cons.inj hl
    obtain ⟨r, hr⟩ := List.head?_eq_some_iff.mp hv
    rw [hc, hcs, hr, chars_of_doubled p hp] at hus
    exact absurd (List.cons.inj hus).2 (List.cons_ne_nil _ _)
  case atSign =>
    intro r hr
    obtain ⟨rfl, rfl⟩ := List.cons.inj (hl.trans hr)
    exact kind_of_atSign hs

end Lexeme

/-! ## Every Token -/

namespace Scan

/-- Every token that is scanned in an expression block takes characters `us` of the source, which
    are as many as its kind can have: a word, a number, an operator or a word that closes a block
    is not gone on with by the characters `v` behind it, and an invalid character begins
    nothing. The mode that tells what an at sign is for is the saved one, in which the block was
    opened. -/
theorem expressions_munch (source : String) (n : Nat) :
    let s := (ofSource source).stepped n
    let t := s.next.token
    s.modes.current = .expression → t.kind ≠ .eof →
      ∃ u us v, source.toList = u ++ (us ++ v) ∧ t.span.start = byteLength u ∧
        t.span.stop = byteLength (u ++ us) ∧ (t.kind ≠ .string → t.text = .ofList us) ∧
        Munched s.modes.saved t.kind us v := by
  intro s t hm hne
  obtain ⟨before, hbehind⟩ := (behind_ofSource source).stepped n
  have hsettled : s.modes.Settled := settled_stepped Modes.settled_initial n
  obtain ⟨u, c, cs, v, -, hl, hsplit, ht⟩ := hbehind.next_taken hne
  have hexpression : Lexeme.expression s.modes c cs = s.lexeme c cs := by
    rw [lexeme, Lexeme.first, hm]
  have hsound : Lexeme.Sound s.modes (c :: cs) (s.lexeme c cs) :=
    Lexeme.sound_first (Mode.side_of_isMarkup hsettled.saved)
  have hmunched : Munched s.modes.saved (s.lexeme c cs).kind (s.lexeme c cs).chars v := by
    replace hl : c :: cs = (s.lexeme c cs).chars ++ v := hl
    rw [← hexpression] at hl ⊢
    exact Lexeme.munched_expression hsettled.saved hl
  have htoken : t = ⟨(s.lexeme c cs).kind, _, .ofList (s.lexeme c cs).content⟩ := ht
  rw [htoken]
  refine ⟨u, (s.lexeme c cs).chars, v, hsplit, Tiled.offset_start u, Tiled.offset_start _, ?_,
    hmunched⟩
  intro hstring
  exact congrArg String.ofList (hsound.content hstring)

/-- A number has one point, and no further one even if a digit follows that. -/
theorem expressions_munch_number :
    let s := (ofSource "\x7b12.5.6\x7d").stepped 1
    s.modes.current = .expression ∧ s.next.token.kind ≠ .eof ∧
      s.next.token = ⟨.float, ⟨1, 5, 1, 2⟩, "12.5"⟩ ∧
      ∃ v, Munched .text .float "12.5".toList v := by
  intro s
  have hm : s.modes.current = .expression := by decide +kernel
  have hsaved : s.modes.saved = .text := by decide +kernel
  have ht : s.next.token = ⟨.float, ⟨1, 5, 1, 2⟩, "12.5"⟩ := by decide +kernel
  have hne : s.next.token.kind ≠ .eof := by
    rw [ht]
    nofun
  obtain ⟨u, us, v, -, -, -, htext, hmunched⟩ := expressions_munch "\x7b12.5.6\x7d" 1 hm hne
  replace htext : s.next.token.text = .ofList us := htext (by rw [ht]; nofun)
  replace hmunched : Munched s.modes.saved s.next.token.kind us v := hmunched
  rw [ht] at htext
  rw [hsaved, ht, ← String.ofList_injective htext] at hmunched
  exact ⟨hm, hne, ht, v, hmunched⟩

end Scan

end TemplateSyntax
