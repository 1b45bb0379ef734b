import TemplateSyntax.Proofs.Scan.Local

/-! # Cutting Off What Follows

  A lexeme that ends within some characters is the same if those behind them are cut off
  (`Lexeme.first_of_append`). Two rules look further ahead than they take: a slash at the word
  behind it, and a stretch of text at the comment or marker that ends it. What they look at
  belongs to the next lexeme, so this one must end within the characters as well
  (`Lexeme.Within`).
-/

namespace TemplateSyntax

/-! ## Runs and Spellings -/

section cut

variable {u b : List Char}

/-- What is taken within some characters is taken of them alone. -/
theorem takeWhile_of_append {p : Char → Bool} (h : (u ++ b).takeWhile p <+: u) :
    u.takeWhile p = (u ++ b).takeWhile p := by
  by_cases hall : u.takeWhile p = u
  · rw [List.takeWhile_append, if_pos (congrArg List.length hall)] at h ⊢
    have hnil : b.takeWhile p <+: [] :=
      (List.prefix_append_right_inj u).mp (by rwa [List.append_nil])
    rw [List.prefix_nil.mp hnil, List.append_nil]
    exact hall
  · exact (takeWhile_append_of_ne hall b).symm

theorem dropWhile_of_append {p : Char → Bool} (h : (u ++ b).takeWhile p <+: u) :
    (u ++ b).dropWhile p = u.dropWhile p ++ b := by
  have hsplit : (u ++ b).takeWhile p ++ (u ++ b).dropWhile p =
      (u ++ b).takeWhile p ++ (u.dropWhile p ++ b) := by
    rw [List.takeWhile_append_dropWhile, ← takeWhile_of_append h, ← List.append_assoc,
      List.takeWhile_append_dropWhile]
  exact List.append_cancel_left hsplit

theorem isPrefixOf_append {w : List Char} (h : w.isPrefixOf u = true) (b : List Char) :
    w.isPrefixOf (u ++ b) = true :=
  List.isPrefixOf_iff_prefix.mpr
    ((List.isPrefixOf_iff_prefix.mp h).trans (List.prefix_append u b))

/-- The first element that passes a test is the first to pass a stricter one, if it does. -/
theorem find?_eq_of_imp {α : Type} {p q : α → Bool} {l : List α}
    (himp : ∀ a, q a = true → p a = true) (h : ∀ a, l.find? p = some a → q a = true) :
    l.find? q = l.find? p := by
  induction l with
  | nil => rfl
  | cons a l ih =>
    by_cases ha : p a = true
    · rw [List.find?_cons_of_pos ha] at h ⊢
      exact List.find?_cons_of_pos (h a rfl)
    · rw [List.find?_cons_of_neg ha] at h ⊢
      rw [List.find?_cons_of_neg fun hq => ha (himp a hq)]
      exact ih h

end cut

namespace Lexeme

/-- The lexeme at the front of the characters `z`, if there is one, does not go on into the
    characters `b` behind them. -/
def Within (m : Modes) (z b : List Char) : Prop :=
  ∀ d ds, z = d :: ds → isBlank d = false → (first m d (ds ++ b)).chars <+: d :: ds

/-! ## Markup -/

section markup

variable {m : Modes} {mode : Mode} {u b z : List Char}

theorem comment_of_append (h : (comment m (u ++ b)).chars <+: u) :
    comment m u = comment m (u ++ b) := by
  unfold comment
  rw [takeWhile_of_append h]

/-- A comment that ends within some characters has its slashes there. -/
theorem opensComment_of_append (hopens : opensComment (u ++ b) = true)
    (h : (comment m (u ++ b)).chars <+: u) : opensComment u = true := by
  obtain ⟨r, hr⟩ := List.isPrefixOf_iff_prefix.mp hopens
  have hslashes : "//".toList <+: (comment m (u ++ b)).chars := by
    rw [← hr]
    exact ⟨r.takeWhile (!isBreak ·), rfl⟩
  exact List.isPrefixOf_iff_prefix.mpr (hslashes.trans h)

theorem opensComment_eq_false (h : opensComment (u ++ b) = false) : opensComment u = false := by
  rw [Bool.eq_false_iff] at h ⊢
  exact fun hopens => h (isPrefixOf_append hopens b)

theorem marker?_of_append
    (h : ∀ k, mode.marker? (u ++ b) = some k → k.spelling.toList <+: u) :
    mode.marker? u = mode.marker? (u ++ b) :=
  find?_eq_of_imp (fun _ hopens => isPrefixOf_append hopens b)
    fun k hk => List.isPrefixOf_iff_prefix.mpr (h k hk)

/-- Of the blanks only line breaks end a stretch of text. -/
theorem endsText_of_isBlank {x : Char} (hx : isBlank x = true) (t : List Char) :
    endsText mode (x :: t) = isBreak x := by
  have hcomment : opensComment (x :: t) = false := opensComment_append hx [] t
  have hmarker : mode.marker? (x :: t) = mode.marker? [] := marker?_append hx [] t mode
  have hnone : mode.marker? [] = none := by cases mode <;> decide
  simp only [endsText_cons, hcomment, hmarker, hnone, Option.isSome_none, Bool.or_false]

/-- A stretch of text goes on to where it ends. -/
theorem endsText_of_textRun (h : u = textRun mode u ++ z) : endsText mode z = true := by
  induction u with
  | nil =>
    obtain rfl : z = [] := (List.append_eq_nil_iff.mp h.symm).2
    rfl
  | cons c cs ih =>
    rw [textRun] at h
    by_cases hc : endsText mode (c :: cs) = true
    · rw [if_pos hc] at h
      rwa [← List.nil_append z, ← h]
    · rw [if_neg hc] at h
      exact ih (List.cons.inj h).2

theorem endsText_extend (h : endsText mode u = true) (hne : u ≠ []) (b : List Char) :
    endsText mode (u ++ b) = true := by
  obtain ⟨c, cs, rfl⟩ := List.exists_cons_of_ne_nil hne
  simp only [List.cons_append, endsText_cons, Bool.or_eq_true] at h ⊢
  rcases h with (hbreak | hcomment) | hmarker
  · exact .inl (.inl hbreak)
  · exact .inl (.inr (isPrefixOf_append hcomment b))
  · right
    obtain ⟨k, hk, hopens⟩ := List.find?_isSome.mp hmarker
    exact List.find?_isSome.mpr ⟨k, hk, isPrefixOf_append hopens b⟩

/-- A stretch of text is the same without what follows, if it ends without it. -/
theorem textRun_of_append (h : u = textRun mode (u ++ b) ++ z) (hz : endsText mode z = true) :
    textRun mode u = textRun mode (u ++ b) := by
  induction u with
  | nil => exact (List.append_eq_nil_iff.mp h.symm).1.symm
  | cons c cs ih =>
    rw [List.cons_append] at h ⊢
    rw [textRun] at h
    rw [textRun, textRun]
    by_cases hc : endsText mode (c :: (cs ++ b)) = true
    · rw [if_pos hc] at h
      rw [if_pos hc, if_pos]
      rwa [h]
    · have hc' : ¬ endsText mode (c :: cs) = true := fun hends =>
        hc (endsText_extend hends (List.cons_ne_nil c cs) b)
      rw [if_neg hc] at h
      rw [if_neg hc, if_neg hc', ih (List.cons.inj h).2]

variable (hm : ∀ d ds, first m d ds = markup m (d :: ds))
include hm

/-- What ends a stretch of text ends it without what follows, if the next lexeme ends within
    the characters. -/
theorem endsText_of_within (h : endsText m.current (z ++ b) = true) (hz : Within m z b) :
    endsText m.current z = true := by
  rcases z with _ | ⟨d, ds⟩
  · rfl
  · by_cases hd : isBlank d = true
    · rw [List.cons_append, endsText_of_isBlank hd] at h
      rwa [endsText_of_isBlank hd]
    · have hprefix := hz d ds rfl (Bool.eq_false_iff.mpr hd)
      rw [hm, ← List.cons_append] at hprefix
      have hbreak : isBreak d = false := isBreak_eq_false (Bool.eq_false_iff.mpr hd)
      simp only [List.cons_append, endsText_cons, hbreak, Bool.false_or, Bool.or_eq_true] at h ⊢
      by_cases hcomment : opensComment (d :: ds ++ b) = true
      · rw [markup, if_pos hcomment] at hprefix
        exact .inl (opensComment_of_append hcomment hprefix)
      · right
        have hmarker := h.resolve_left hcomment
        rw [markup, if_neg hcomment] at hprefix
        rw [marker?_of_append fun k hk => ?_]
        · exact hmarker
        · rw [hk] at hprefix
          exact hprefix

theorem markup_of_append (hl : u = (markup m (u ++ b)).chars ++ z)
    (hz : Within (markup m (u ++ b)).modes z b) : markup m u = markup m (u ++ b) := by
  have hprefix : (markup m (u ++ b)).chars <+: u := ⟨z, hl.symm⟩
  by_cases hcomment : opensComment (u ++ b) = true
  · have hmarkup : markup m (u ++ b) = comment m (u ++ b) := if_pos hcomment
    rw [hmarkup] at hprefix ⊢
    rw [markup, if_pos (opensComment_of_append hcomment hprefix), comment_of_append hprefix]
  · have hcomment' := opensComment_eq_false (Bool.eq_false_iff.mpr hcomment)
    cases hk : m.current.marker? (u ++ b) with
    | some k =>
      have hmarkup : markup m (u ++ b) = plain k.kind k.spelling.toList (m.enter k.enters) := by
        rw [markup, if_neg hcomment, hk]
      rw [hmarkup] at hprefix ⊢
      have hmarker : m.current.marker? u = some k := by
        rw [marker?_of_append, hk]
        intro k' hk'
        rw [hk] at hk'
        cases hk'
        exact hprefix
      rw [markup, hcomment', if_neg Bool.false_ne_true, hmarker]
    | none =>
      have hmarkup : markup m (u ++ b) =
          plain m.current.textKind (textRun m.current (u ++ b)) m := by
        rw [markup, if_neg hcomment, hk]
      have hmarker : m.current.marker? u = none := by
        rw [marker?_of_append, hk]
        intro k' hk'
        rw [hk] at hk'
        cases hk'
      rw [hmarkup] at hl hz ⊢
      have hends : endsText m.current (z ++ b) = true := by
        refine endsText_of_textRun (u := u ++ b) ?_
        conv => lhs; rw [hl]
        exact List.append_assoc _ _ _
      have hrun := textRun_of_append hl (endsText_of_within hm hends hz)
      rw [markup, hcomment', if_neg Bool.false_ne_true, hmarker]
      exact congrArg (plain m.current.textKind · m) hrun

end markup

/-! ## Expressions -/

section expression

variable {m : Modes} {c : Char} {u b y z : List Char}

theorem word_of_append (h : (word m (u ++ b)).chars <+: u) : word m u = word m (u ++ b) := by
  unfold word
  rw [takeWhile_of_append h]

theorem digits_prefix_number (m : Modes) (cs : List Char) :
    cs.takeWhile Char.isDigit <+: (number m cs).chars := by
  unfold number
  dsimp only
  split
  · split
    · exact List.prefix_append _ _
    · exact List.prefix_refl _
  · exact List.prefix_refl _

/-- Behind the digits come a point and a digit. -/
def Pointed (cs : List Char) (d : Char) (rest : List Char) : Prop :=
  cs.dropWhile Char.isDigit = '.' :: d :: rest ∧ d.isDigit = true

theorem number_of_pointed {cs rest : List Char} {d : Char} (h : Pointed cs d rest) :
    number m cs =
      plain .float (cs.takeWhile Char.isDigit ++ '.' :: d :: rest.takeWhile Char.isDigit) m := by
  unfold number
  rw [h.1]
  exact if_pos h.2

theorem number_of_not_pointed {cs : List Char} (h : ∀ d rest, ¬ Pointed cs d rest) :
    number m cs = plain .integer (cs.takeWhile Char.isDigit) m := by
  unfold number
  dsimp only
  split
  · next d rest hdrop => exact if_neg fun hd => h d rest ⟨hdrop, hd⟩
  · rfl

/-- A number that ends in front of the cut has its point and its digits there, and one that
    ends in front of a point has no digit behind this. -/
theorem number_of_append (h : (number m (u ++ b)).chars <+: u) :
    number m u = number m (u ++ b) := by
  have hdigits := (digits_prefix_number m (u ++ b)).trans h
  have htake := takeWhile_of_append hdigits
  have hdrop := dropWhile_of_append hdigits
  by_cases hpoint : ∃ d rest, Pointed (u ++ b) d rest
  · obtain ⟨d, rest, hd⟩ := hpoint
    rw [number_of_pointed hd, chars_plain, ← htake] at h
    -- The point and the digit stand in front of the cut.
    conv at h => rhs; rw [← List.takeWhile_append_dropWhile (p := Char.isDigit) (l := u)]
    obtain ⟨r, hr⟩ := (List.prefix_append_right_inj _).mp h
    have hrest : rest.takeWhile Char.isDigit ++ r ++ b = rest := by
      have hbehind := hd.1
      rw [hdrop, ← hr] at hbehind
      simpa using hbehind
    have hd' : Pointed u d (rest.takeWhile Char.isDigit ++ r) := ⟨hr.symm, hd.2⟩
    have hrun : (rest.takeWhile Char.isDigit ++ r ++ b).takeWhile Char.isDigit <+:
        rest.takeWhile Char.isDigit ++ r := by
      rw [hrest]
      exact List.prefix_append _ _
    rw [number_of_pointed hd', number_of_pointed hd, htake, takeWhile_of_append hrun, hrest]
  · have hnot : ∀ d rest, ¬ Pointed (u ++ b) d rest := fun d rest hd => hpoint ⟨d, rest, hd⟩
    have hnot' : ∀ d rest, ¬ Pointed u d rest := fun d rest hd =>
      hnot d (rest ++ b) ⟨by rw [hdrop, hd.1]; rfl, hd.2⟩
    rw [number_of_not_pointed hnot', number_of_not_pointed hnot, htake]

/-- A word that closes a block behind a slash begins like `for`, `if` or `switch`. -/
theorem exists_head_of_closer? {cs : List Char} {k : Kind}
    (h : Kind.closer? (.ofList cs) = some k) :
    ∃ d ds, cs = d :: ds ∧ (d = 'f' ∨ d = 'i' ∨ d = 's') := by
  unfold Kind.closer? at h
  split at h
  · next hcs => exact ⟨'f', _, String.ofList_injective hcs, .inl rfl⟩
  · next hcs => exact ⟨'i', _, String.ofList_injective hcs, .inr (.inl rfl)⟩
  · next hcs => exact ⟨'s', _, String.ofList_injective hcs, .inr (.inr rfl)⟩
  · cases h

/-- Behind a slash a word that closes no block is not cut to one that does. -/
theorem slash_of_append (hm : m.current = .expression)
    (hl : '/' :: y = (slash m (y ++ b)).chars ++ z)
    (hz : Within (slash m (y ++ b)).modes z b) : slash m y = slash m (y ++ b) := by
  cases hk : Kind.closer? (.ofList ((y ++ b).takeWhile isWordChar)) with
  | some k =>
    have hslash : slash m (y ++ b) = plain k ('/' :: (y ++ b).takeWhile isWordChar) m := by
      simp only [slash, hk]
    rw [hslash] at hl
    have hrun : (y ++ b).takeWhile isWordChar <+: y := ⟨z, (List.cons.inj hl).2.symm⟩
    unfold slash
    rw [takeWhile_of_append hrun]
  | none =>
    have hslash : slash m (y ++ b) = plain .division ['/'] m := by
      simp only [slash, hk]
    rw [hslash] at hl hz ⊢
    obtain rfl : y = z := (List.cons.inj hl).2
    have hnone : Kind.closer? (.ofList (y.takeWhile isWordChar)) = none := by
      rw [Option.eq_none_iff_forall_ne_some]
      intro k hk'
      obtain ⟨d, ds, hrun, hd⟩ := exists_head_of_closer? hk'
      have hy : ∃ e, y = d :: e := by
        obtain ⟨r, hr⟩ := List.takeWhile_prefix (l := y) isWordChar
        exact ⟨ds ++ r, by rw [← hr, hrun]; rfl⟩
      obtain ⟨e, rfl⟩ := hy
      -- The word behind the slash is the next lexeme.
      have hword : first m d (e ++ b) = word m (d :: e ++ b) := by
        rw [first, hm]
        rcases hd with rfl | rfl | rfl <;> rfl
      have hblank : isBlank d = false := by rcases hd with rfl | rfl | rfl <;> rfl
      have hprefix := hz d e rfl hblank
      rw [modes_plain, hword] at hprefix
      rw [takeWhile_of_append hprefix, hk] at hk'
      cases hk'
    simp only [slash, hnone]

theorem atSign_of_append (h : (atSign m (y ++ b)).chars <+: '@' :: y) :
    atSign m y = atSign m (y ++ b) := by
  rcases y with _ | ⟨d, ds⟩
  · have hnot : ¬ (([] ++ b).head? = some '{' ∧ m.saved.isSegment = true) := by
      intro hbrace
      rw [atSign, if_pos hbrace] at h
      exact absurd h.length_le (by simp)
    rw [atSign, atSign, if_neg hnot]
    exact if_neg (by simp)
  · rfl

theorem symbol_of_append (h : (symbol m c (y ++ b)).chars <+: c :: y) :
    symbol m c y = symbol m c (y ++ b) := by
  have hfind : symbols.find? (·.1.toList.isPrefixOf (c :: y)) =
      symbols.find? (·.1.toList.isPrefixOf (c :: (y ++ b))) := by
    refine find?_eq_of_imp (fun s hs => isPrefixOf_append hs b) fun s hs => ?_
    unfold symbol at h
    rw [hs] at h
    exact List.isPrefixOf_iff_prefix.mpr h
  unfold symbol
  rw [hfind]

/-- A string that is closed in front of the cut is closed there. -/
theorem string_of_append (hc : c = '"' ∨ c = '\'') (h : (string m c (y ++ b)).chars <+: c :: y)
    (hclosed : (string m c (y ++ b)).complete = true) :
    string m c y = string m c (y ++ b) := by
  have hslash : c ≠ '\\' := (ne_of_quote hc).1
  have hclosed' : (untilQuote c (y ++ b)).2 = true := hclosed
  obtain ⟨r, hr⟩ := h
  have hy : y = (untilQuote c (y ++ b)).1 ++ c :: r := by
    simpa [string, hclosed'] using hr.symm
  have huntil : untilQuote c y = untilQuote c (y ++ b) := by
    conv => lhs; rw [hy]
    rw [untilQuote_of_body hslash (body_untilQuote hclosed')]
    exact Prod.ext rfl hclosed'.symm
  unfold string
  rw [huntil]

theorem expression_of_append (hm : m.current = .expression)
    (hcomplete : (expression m c (y ++ b)).complete = true)
    (hl : c :: y = (expression m c (y ++ b)).chars ++ z)
    (hz : Within (expression m c (y ++ b)).modes z b) :
    expression m c y = expression m c (y ++ b) := by
  have hprefix : (expression m c (y ++ b)).chars <+: c :: y := ⟨z, hl.symm⟩
  unfold expression at hcomplete hl hz hprefix ⊢
  split
  · next hq =>
    rw [if_pos hq] at hcomplete hprefix
    exact string_of_append hq hprefix hcomplete
  next hq =>
  split
  · rfl
  next hbrace =>
  rw [if_neg hq, if_neg hbrace] at hprefix hl hz
  split
  · next hslash =>
    rw [if_pos hslash] at hl hz
    rw [hslash] at hl
    exact slash_of_append hm hl hz
  next hslash =>
  rw [if_neg hslash] at hprefix
  split
  · next hat =>
    rw [if_pos hat, hat] at hprefix
    exact atSign_of_append hprefix
  next hat =>
  rw [if_neg hat] at hprefix
  split
  · next hd =>
    rw [if_pos hd] at hprefix
    exact number_of_append hprefix
  next hd =>
  rw [if_neg hd] at hprefix
  split
  · next hw =>
    rw [if_pos hw] at hprefix
    exact word_of_append hprefix
  next hw =>
  rw [if_neg hw] at hprefix
  exact symbol_of_append hprefix

end expression

/-! ## All Rules -/

/-- A lexeme that ends as it should, and within some characters, is the same without those
    that follow, if the next one ends within the characters as well. -/
theorem first_of_append {m : Modes} {c : Char} {y b z : List Char}
    (hcomplete : (first m c (y ++ b)).complete = true)
    (hl : c :: y = (first m c (y ++ b)).chars ++ z)
    (hz : Within (first m c (y ++ b)).modes z b) : first m c y = first m c (y ++ b) := by
  cases hm : m.current with
  | text | css | js =>
    have hfirst : ∀ d ds, first m d ds = markup m (d :: ds) := by
      intro d ds
      rw [first, hm]
    rw [hfirst] at hl hz
    rw [hfirst, hfirst]
    exact markup_of_append hfirst hl hz
  | comment =>
    have hfirst : ∀ d ds, first m d ds = comment m (d :: ds) := by
      intro d ds
      rw [first, hm]
    rw [hfirst] at hl
    rw [hfirst, hfirst]
    exact comment_of_append ⟨z, hl.symm⟩
  | expression =>
    have hfirst : ∀ d ds, first m d ds = expression m d ds := by
      intro d ds
      rw [first, hm]
    rw [hfirst] at hcomplete hl hz
    rw [hfirst, hfirst]
    exact expression_of_append hm hcomplete hl hz

end Lexeme

end TemplateSyntax
