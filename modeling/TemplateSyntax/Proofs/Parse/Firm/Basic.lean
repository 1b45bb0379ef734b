import TemplateSyntax.Proofs.Parse.InStep.Basic

/-! # Firm Parsers

  A parser reads from left to right, and so the tokens far behind those that it has read have no
  say in what it does (`Parse.Firm`). How far it looks is told in two degrees. To have read an
  expression the next token has been looked at (`Near`); to have read a row of nodes, the token
  behind a brace as well (`Far`), which may be a word that ends the row.

  For errors this is not enough. An error is decided if the tokens up to the one to blame suffice
  for it, and a look behind a brace may be one too many. It is none if no error is ever met at a
  brace that has been looked behind; which of the two degrees of agreement the tokens in front
  of a parser have is therefore told as well. Contracts of two degrees, one in front of a parser
  and one behind it, compose as parsers do.
-/

namespace TemplateSyntax

open Parse

/-! ## Lists That Agree -/

/-- The lists have the same first token. -/
inductive Near : List Token → List Token → Prop
  | intro (t : Token) (ts us : List Token) : Near (t :: ts) (t :: us)

/-- The lists have the same first token, and if it is a brace the same second one. -/
inductive Far : List Token → List Token → Prop
  | other {t : Token} (ht : t.kind ≠ .exprStart) (ts us : List Token) : Far (t :: ts) (t :: us)
  | behind (t : Token) {ts us : List Token} (h : Near ts us) : Far (t :: ts) (t :: us)

/-- Lists that agree in the degree `L` do so in the degree `B` with the same tokens in front. -/
class Extends (B L : List Token → List Token → Prop) : Prop where
  extend (u : List Token) {ts us : List Token} (h : L ts us) : B (u ++ ts) (u ++ us)

section lists

variable {ts us : List Token} {B : List Token → List Token → Prop}

theorem Near.append (h : Near ts us) (u : List Token) : Near (u ++ ts) (u ++ us) := by
  cases u with
  | nil => exact h
  | cons t u => exact .intro t _ _

theorem Far.near (h : Far ts us) : Near ts us := by
  cases h with
  | other => exact .intro _ _ _
  | behind => exact .intro _ _ _

theorem Far.append (h : Far ts us) (u : List Token) : Far (u ++ ts) (u ++ us) := by
  cases u with
  | nil => exact h
  | cons t u => exact .behind t (h.near.append u)

instance : Extends Near Near := ⟨fun u _ _ h => h.append u⟩

instance : Extends Near Far := ⟨fun u _ _ h => h.near.append u⟩

instance : Extends Far Far := ⟨fun u _ _ h => h.append u⟩

/-- Lists that agree in some degree have the same first token. -/
theorem near_of_extends [Extends Near B] (h : B ts us) : Near ts us := Extends.extend [] h

end lists

section cursors

variable {c d : Cursor}

theorem Near.current (h : Near c.ahead d.ahead) : d.current = c.current := by
  obtain ⟨ts, s⟩ := c
  obtain ⟨us, s'⟩ := d
  cases (show Near ts us from h)
  rfl

/-- Behind a brace both cursors are followed by the same token. -/
theorem Far.following (h : Far c.ahead d.ahead) (hk : c.current.kind = .exprStart) :
    d.following = c.following := by
  obtain ⟨ts, s⟩ := c
  obtain ⟨us, s'⟩ := d
  cases (show Far ts us from h) with
  | other ht => exact absurd hk ht
  | behind t hnear =>
    cases hnear
    rfl

theorem Far.atBlock (h : Far c.ahead d.ahead) (words : List Kind) :
    d.atBlock words = c.atBlock words := by
  unfold Cursor.atBlock Cursor.isAt
  rw [h.near.current]
  by_cases hk : c.current.kind = .exprStart
  · rw [h.following hk]
  · rw [decide_eq_false hk, Bool.false_and, Bool.false_and]

end cursors

/-! ## Decided Errors -/

/-- The causes that the tokens up to the one to blame decide on: a token that is not the right
    one there, and a number that cannot be read. -/
def Cause.isDecided : Cause → Bool
  | .unexpected _ _ | .unknown _ _ | .badInteger _ _ | .badDecimal _ _ => true
  | .tooDeep _ | .ended _ => false

namespace Parse

variable {α β : Type} {B M L : List Token → List Token → Prop} {c : Cursor}

/-- Behind the tokens `u` the token `t` is to blame for the error, whatever comes next. -/
structure Settles (B : List Token → List Token → Prop) (p : Parse α) (c : Cursor)
    (e : ParseError) (u : List Token) (t : Token) : Prop where
  ahead : ∃ r, c.ahead = u ++ t :: r
  blame : e = .blaming t e.cause
  fits : e.cause.Fits t ∨ e.cause.FitsNumber t
  agree (r : List Token) : B c.ahead (u ++ t :: r)
  fails (r : List Token) (s : Span) : ∃ d, Fails p ⟨u ++ t :: r, s⟩ e d

/-- What the parser reads at the cursor it reads as well if the tokens behind are replaced by
    others that agree with them in the degree `L`. A decided error is met however the tokens
    behind the one to blame are replaced, and then the tokens ahead agree with those that there
    were in the degree `B`. -/
structure Firm (B L : List Token → List Token → Prop) (p : Parse α) (c : Cursor) : Prop where
  reads {a : α} {c' : Cursor} (h : Reads p c a c') : ∃ u, c.ahead = u ++ c'.ahead ∧
    ∀ r s, L c'.ahead r → Reads p ⟨u ++ r, s⟩ a ⟨r, s⟩
  fails {e : ParseError} {c' : Cursor} (h : Fails p c e c') (hd : e.cause.isDecided = true) :
    ∃ u t, Settles B p c e u t

/-- What fails with the other parser fails with this one. -/
theorem Settles.imp {p : Parse α} {q : Parse β} {e : ParseError} {u : List Token} {t : Token}
    (h : Settles B p c e u t)
    (hq : ∀ r s d, Fails p ⟨u ++ t :: r, s⟩ e d → ∃ d', Fails q ⟨u ++ t :: r, s⟩ e d') :
    Settles B q c e u t := by
  refine ⟨h.ahead, h.blame, h.fits, h.agree, ?_⟩
  intro r s
  obtain ⟨d, hfails⟩ := h.fails r s
  exact hq r s d hfails

/-- The tokens that have been read in front stand in front of those that decide. -/
theorem Settles.behind {p : Parse α} {q : Parse β} {c₁ : Cursor} {e : ParseError}
    {u v : List Token} {t : Token} (h : Settles M p c₁ e v t) (hu : c.ahead = u ++ c₁.ahead)
    (hB : ∀ r, M c₁.ahead r → B c.ahead (u ++ r))
    (hq : ∀ r s d, M c₁.ahead r → Fails p ⟨r, s⟩ e d → ∃ d', Fails q ⟨u ++ r, s⟩ e d') :
    Settles B q c e (u ++ v) t := by
  obtain ⟨r₀, hahead⟩ := h.ahead
  refine ⟨⟨r₀, by rw [hu, hahead, List.append_assoc]⟩, h.blame, h.fits, ?_, ?_⟩
  · intro r
    rw [List.append_assoc]
    exact hB _ (h.agree r)
  · intro r s
    obtain ⟨d, hfails⟩ := h.fails r s
    rw [List.append_assoc]
    exact hq _ s d (h.agree r) hfails

/-- Tokens that agree behind some that have been read agree in front of them. -/
theorem extend_ahead [Extends B M] {c₁ : Cursor} {u r : List Token}
    (hu : c.ahead = u ++ c₁.ahead) (hr : M c₁.ahead r) : B c.ahead (u ++ r) := by
  rw [hu]
  exact Extends.extend u hr

/-! ### Sequencing -/

theorem firm_pure {a : α} : Firm B L (pure a) c := by
  constructor
  · intro a' c' h
    obtain ⟨rfl, rfl⟩ := reads_pure.mp h
    exact ⟨[], rfl, fun r s _ => reads_pure.mpr ⟨rfl, rfl⟩⟩
  · intro e c' h _
    exact absurd h not_fails_pure

/-- A parser that meets no decided error where it is. -/
theorem firm_of_not_reads {p : Parse α} (hreads : ∀ a c', ¬ Reads p c a c')
    (hfails : ∀ e c', Fails p c e c' → e.cause.isDecided = false) : Firm B L p c := by
  constructor
  · intro a c' h
    exact absurd h (hreads a c')
  · intro e c' h hd
    rw [hfails e c' h] at hd
    cases hd

/-- Tokens that agree behind the first parser agree in front of it, those that it has read
    included. -/
theorem firm_bind_of [Extends M L] {p : Parse α} {f : α → Parse β}
    (hback : ∀ a c₁ u r, Reads p c a c₁ → c.ahead = u ++ c₁.ahead → M c₁.ahead r →
      B c.ahead (u ++ r))
    (hp : Firm B M p c) (hf : ∀ a c₁, Reads p c a c₁ → Firm M L (f a) c₁) :
    Firm B L (p >>= f) c := by
  constructor
  · intro b c' h
    obtain ⟨a, c₁, ha, hb⟩ := reads_bind.mp h
    obtain ⟨u, hu, hread⟩ := hp.reads ha
    obtain ⟨v, hv, hread'⟩ := (hf a c₁ ha).reads hb
    refine ⟨u ++ v, by rw [hu, hv, List.append_assoc], ?_⟩
    intro r s hr
    rw [List.append_assoc]
    exact reads_bind.mpr ⟨a, ⟨v ++ r, s⟩, hread (v ++ r) s (extend_ahead hv hr), hread' r s hr⟩
  · intro e c' h hd
    rcases fails_bind.mp h with he | ⟨a, c₁, ha, he⟩
    · obtain ⟨u, t, hsettles⟩ := hp.fails he hd
      exact ⟨u, t, hsettles.imp fun r s d hfails => ⟨d, fails_bind.mpr (.inl hfails)⟩⟩
    · obtain ⟨u, hu, hread⟩ := hp.reads ha
      obtain ⟨v, t, hsettles⟩ := (hf a c₁ ha).fails he hd
      refine ⟨u ++ v, t, hsettles.behind hu (fun r => hback a c₁ u r ha hu) ?_⟩
      intro r s d hr hfails
      exact ⟨d, fails_bind.mpr (.inr ⟨a, ⟨r, s⟩, hread r s hr, hfails⟩)⟩

theorem firm_bind [Extends B M] [Extends M L] {p : Parse α} {f : α → Parse β}
    (hp : Firm B M p c) (hf : ∀ a c₁, Reads p c a c₁ → Firm M L (f a) c₁) :
    Firm B L (p >>= f) c := by
  apply firm_bind_of _ hp hf
  intro a c₁ u r _ hu hr
  exact extend_ahead hu hr

theorem firm_map [Extends B L] [Extends L L] {p : Parse α} {f : α → β} (hp : Firm B L p c) :
    Firm B L (f <$> p) c := by
  rw [map_eq_pure_bind]
  exact firm_bind hp fun _ _ _ => firm_pure

/-- Where a parser is firm though a brace has been looked behind, it is firm if none has been. -/
theorem Firm.near {p : Parse α} (h : Firm Far L p c) : Firm Near L p c := by
  constructor
  · exact h.reads
  · intro e c' he hd
    obtain ⟨u, t, hsettles⟩ := h.fails he hd
    exact ⟨u, t, hsettles.ahead, hsettles.blame, hsettles.fits, fun r => (hsettles.agree r).near,
      hsettles.fails⟩

/-- Parsers that something known chooses between. -/
theorem firm_cond {b : Prop} [Decidable b] {p q : Parse α} (hp : b → Firm B L p c)
    (hq : ¬ b → Firm B L q c) : Firm B L (if b then p else q) c := by
  by_cases hb : b
  · rw [if_pos hb]
    exact hp hb
  · rw [if_neg hb]
    exact hq hb

/-- A parser that does what another one does wherever the tokens agree in some degree. -/
theorem Firm.congr [Extends M B] [Extends M L] {p q : Parse α} (h : Firm B L q c)
    (hc : p c = q c) (hpq : ∀ d : Cursor, M c.ahead d.ahead → p d = q d) : Firm B L p c := by
  constructor
  · intro a c' ha
    obtain ⟨u, hu, hread⟩ := h.reads (show Reads q c a c' by rw [Reads, ← hc]; exact ha)
    refine ⟨u, hu, ?_⟩
    intro r s hr
    have hsame : p ⟨u ++ r, s⟩ = q ⟨u ++ r, s⟩ := hpq ⟨u ++ r, s⟩ (extend_ahead hu hr)
    rw [Reads, hsame]
    exact hread r s hr
  · intro e c' he hd
    obtain ⟨u, t, hsettles⟩ := h.fails (show Fails q c e c' by rw [Fails, ← hc]; exact he) hd
    refine ⟨u, t, hsettles.imp ?_⟩
    intro r s d hfails
    have hsame : p ⟨u ++ t :: r, s⟩ = q ⟨u ++ t :: r, s⟩ :=
      hpq ⟨_, s⟩ (Extends.extend [] (hsettles.agree r))
    refine ⟨d, ?_⟩
    rw [Fails, hsame]
    exact hfails

/-- Parsers that the cursor chooses between, without looking further than agreed. -/
theorem firm_branch [Extends M B] [Extends M L] {b : Cursor → Bool} {p q : Parse α}
    (hb : ∀ d : Cursor, M c.ahead d.ahead → b d = b c) (hp : b c = true → Firm B L p c)
    (hq : b c = false → Firm B L q c) : Firm B L (branch b p q) c := by
  cases hc : b c with
  | true =>
    apply (hp hc).congr (M := M)
    · exact branch_of_true hc
    · intro d hd
      exact branch_of_true ((hb d hd).trans hc)
  | false =>
    apply (hq hc).congr (M := M)
    · exact branch_of_false hc
    · intro d hd
      exact branch_of_false ((hb d hd).trans hc)

/-! ### Single Tokens -/

theorem firm_current [Extends Near L] : Firm B L current c := by
  constructor
  · intro t c' h
    obtain ⟨rfl, rfl⟩ := reads_current.mp h
    refine ⟨[], rfl, ?_⟩
    intro r s hr
    have hsame : (Cursor.mk r s).current = c'.current := Near.current (near_of_extends hr)
    exact reads_current.mpr ⟨hsame.symm, rfl⟩
  · intro e c' h _
    exact absurd h not_fails_current

/-- A look at the current token. -/
theorem firm_look [Extends Near B] [Extends B B] [Extends B L] {f : Token → Parse α}
    (hf : Firm B L (f c.current) c) : Firm B L (current >>= f) c := by
  apply firm_bind (M := B) firm_current
  intro t c₁ ht
  obtain ⟨rfl, rfl⟩ := reads_current.mp ht
  exact hf

theorem firm_following (hk : c.current.kind = .exprStart) : Firm B Far following c := by
  constructor
  · intro t c' h
    obtain ⟨rfl, rfl⟩ := reads_following.mp h
    refine ⟨[], rfl, ?_⟩
    intro r s hr
    have hsame : (Cursor.mk r s).following = c'.following := Far.following hr hk
    exact reads_following.mpr ⟨hsame.symm, rfl⟩
  · intro e c' h _
    exact absurd h not_fails_following

theorem firm_advance [Extends Near L] : Firm B L advance c := by
  constructor
  · intro t c' h
    obtain ⟨rfl, rfl⟩ := reads_advance.mp h
    obtain ⟨ts, s₀⟩ := c
    cases ts with
    | nil =>
      -- With nothing left no other tokens agree.
      refine ⟨[], rfl, ?_⟩
      intro r s hr
      cases near_of_extends hr
    | cons t ts => exact ⟨[t], rfl, fun r s _ => reads_advance.mpr ⟨rfl, rfl⟩⟩
  · intro e c' h _
    exact absurd h not_fails_advance

theorem firm_report {note : ParseNote} : Firm B L (report note) c := by
  constructor
  · intro a c' h
    obtain rfl := reads_report.mp h
    exact ⟨[], rfl, fun r s _ => reads_report.mpr rfl⟩
  · intro e c' h _
    exact absurd h not_fails_report

/-- The current token is to blame, and nothing behind it has been looked at. -/
theorem settles_current {p : Parse α} {e : ParseError} (hne : c.ahead ≠ [])
    (hB : ∀ ts us, B (c.current :: ts) (c.current :: us)) (hblame : e = .blaming c.current e.cause)
    (hfits : e.cause.Fits c.current)
    (hfails : ∀ d : Cursor, d.current = c.current → Fails p d e d) :
    Settles B p c e [] c.current := by
  obtain ⟨ts, s₀⟩ := c
  obtain ⟨t, ts, rfl⟩ := List.exists_cons_of_ne_nil hne
  exact ⟨⟨ts, rfl⟩, hblame, .inl hfits, fun r => hB ts r, fun r s => ⟨_, hfails ⟨t :: r, s⟩ rfl⟩⟩

theorem firm_fail {cause : Cause} (hne : c.ahead ≠ [])
    (hB : ∀ ts us, B (c.current :: ts) (c.current :: us)) (hfits : cause.Fits c.current) :
    Firm B L (fail cause : Parse α) c := by
  constructor
  · intro a c' h
    exact absurd h not_reads_fail
  · intro e c' h _
    obtain ⟨rfl, rfl⟩ := fails_fail.mp h
    refine ⟨[], _, settles_current hne hB rfl hfits ?_⟩
    intro d hd
    exact fails_fail.mpr ⟨by rw [hd], rfl⟩

theorem firm_tooDeep {limit : Nat} : Firm B L (fail (.tooDeep limit) : Parse α) c := by
  apply firm_of_not_reads
  · exact fun _ _ => not_reads_fail
  · intro e c' h
    rw [(fails_fail.mp h).1]
    rfl

/-- A token that is unexpected is to blame itself; where the input ends nothing is decided. -/
theorem firm_unexpected {x : Expected} (hB : ∀ ts us, B (c.current :: ts) (c.current :: us)) :
    Firm B L (unexpected x : Parse α) c := by
  by_cases hend : c.atEnd = true
  · apply firm_of_not_reads
    · exact fun _ _ => not_reads_unexpected
    · intro e c' h
      rw [(fails_unexpected.mp h).1, if_pos hend]
      rfl
  · have hkind : c.current.kind ≠ .eof := fun hk => hend (decide_eq_true hk)
    have hne : c.ahead ≠ [] := Cursor.ahead_ne_nil (Bool.eq_false_iff.mpr hend)
    constructor
    · intro a c' h
      exact absurd h not_reads_unexpected
    · intro e c' h _
      obtain ⟨he, rfl⟩ := fails_unexpected.mp h
      rw [if_neg hend] at he
      subst he
      refine ⟨[], _, settles_current hne hB rfl ⟨hkind, rfl⟩ ?_⟩
      intro d hd
      have hend' : ¬ d.atEnd = true := by
        rw [Cursor.atEnd, Cursor.isAt, hd]
        exact hend
      exact fails_unexpected.mpr ⟨by rw [if_neg hend', hd], rfl⟩

theorem firm_expect [Extends Near B] [Extends Near L] {k : Kind}
    (hB : c.current.kind ≠ k → ∀ ts us, B (c.current :: ts) (c.current :: us)) :
    Firm B L (expect k) c := by
  apply firm_branch (M := Near)
  · intro d hd
    show decide (d.current.kind = k) = decide (c.current.kind = k)
    rw [hd.current]
  · intro _
    exact firm_advance
  · intro hk
    exact firm_unexpected (hB (of_decide_eq_false hk))

/-- A token that may be anything is read first. -/
theorem firm_bind_read [Extends Near L] {f : Token → Parse α}
    (hf : ∀ t c₁, Firm Near L (f t) c₁) : Firm Near L (advance >>= f) c :=
  firm_bind (M := Near) firm_advance fun t c₁ _ => hf t c₁

/-- A token of a kind is read first. -/
theorem firm_bind_expect [Extends Near L] {k : Kind} {f : Token → Parse α}
    (hf : ∀ t c₁, Firm Near L (f t) c₁) : Firm Near L (expect k >>= f) c :=
  firm_bind (M := Near) (firm_expect fun _ => .intro c.current) fun t c₁ _ => hf t c₁

/-! ### Behind the First Token -/

/-- Whatever agrees in its first token agrees in two with one more token in front. -/
theorem Far.of_advance {u r : List Token} (hu : c.ahead = u ++ c.advance.ahead)
    (hr : Near c.advance.ahead r) : Far c.ahead (u ++ r) := by
  obtain ⟨ts, s⟩ := c
  cases ts with
  | nil => cases hr
  | cons t ts =>
    obtain rfl : [t] = u := List.append_cancel_right hu
    exact .behind t hr

/-- Behind a token that is read at once it does not matter that it may be a brace. -/
theorem firm_bind_token [Extends Near L] {p : Parse Token} {f : Token → Parse α}
    (hp : Firm Far Near p c) (hadvance : ∀ t c₁, Reads p c t c₁ → c₁ = c.advance)
    (hf : ∀ t, Firm Near L (f t) c.advance) : Firm Far L (p >>= f) c := by
  apply firm_bind_of _ hp
  · intro t c₁ ht
    rw [hadvance t c₁ ht]
    exact hf t
  · intro t c₁ u r ht hu hr
    rw [hadvance t c₁ ht] at hu hr
    exact Far.of_advance hu hr

theorem firm_bind_advance [Extends Near L] {f : Token → Parse α}
    (hf : ∀ t, Firm Near L (f t) c.advance) : Firm Far L (advance >>= f) c := by
  apply firm_bind_token firm_advance _ hf
  intro t c₁ ht
  exact (reads_advance.mp ht).2

/-- Only where there is no brace none may be expected. -/
theorem firm_bind_brace [Extends Near L] {f : Token → Parse α}
    (hf : ∀ t, Firm Near L (f t) c.advance) : Firm Far L (expect .exprStart >>= f) c := by
  apply firm_bind_token (firm_expect fun hk => .other hk) _ hf
  intro t c₁ ht
  exact (reads_expect.mp ht).2.2

/-! ### Numbers -/

/-- A number that cannot be read is to blame, though the parser has moved over it. -/
theorem firm_number {f : Token → Parse α} (hne : c.ahead ≠ [])
    (hf : (∃ a, f c.current = pure a) ∨
      ∃ cause, f c.current = reject (.blaming c.current cause) ∧ cause.FitsNumber c.current) :
    Firm Near Near (advance >>= f) c := by
  rcases hf with ⟨a, ha⟩ | ⟨cause, hreject, hfits⟩
  · apply firm_bind (M := Near) firm_advance
    intro t c₁ ht
    rw [(reads_advance.mp ht).1, ha]
    exact firm_pure
  · obtain ⟨ts, s₀⟩ := c
    obtain ⟨t, ts, rfl⟩ := List.exists_cons_of_ne_nil hne
    replace hreject : f t = reject (.blaming t cause) := hreject
    constructor
    · intro a c' h
      obtain ⟨t', c₁, ht, ha⟩ := reads_bind.mp h
      obtain ⟨rfl, rfl⟩ := reads_advance.mp ht
      rw [hreject] at ha
      exact absurd ha not_reads_reject
    · intro e c' h _
      obtain ⟨t', c₁, ht, he⟩ := (fails_bind.mp h).resolve_left not_fails_advance
      obtain rfl : t' = t := (reads_advance.mp ht).1
      rw [hreject] at he
      obtain ⟨rfl, -⟩ := fails_reject.mp he
      refine ⟨[], t', ⟨ts, rfl⟩, rfl, .inr hfits, fun r => .intro t' ts r, ?_⟩
      intro r s
      have hagain : Fails (f t') ⟨r, s⟩ (.blaming t' cause) ⟨r, s⟩ := by
        rw [hreject]
        exact fails_reject.mpr ⟨rfl, rfl⟩
      exact ⟨⟨r, s⟩, fails_bind.mpr (.inr ⟨t', ⟨r, s⟩, reads_advance.mpr ⟨rfl, rfl⟩, hagain⟩)⟩

/-! ### Repetition -/

/-- Rounds that are firm are the same behind tokens that agree. -/
theorem Rounds.firm [Extends B B] {select : Cursor → Option (Parse α)}
    (hselect : ∀ c d : Cursor, B c.ahead d.ahead → select d = select c)
    (hitem : ∀ c item, select c = some item → Firm B B item c) {c' : Cursor} {as : List α}
    (h : Rounds select c as c') : ∃ u, c.ahead = u ++ c'.ahead ∧
      ∀ r s, B c'.ahead r → Rounds select ⟨u ++ r, s⟩ as ⟨r, s⟩ := by
  induction h with
  | @done c hs =>
    refine ⟨[], rfl, ?_⟩
    intro r s hr
    exact .done ((hselect c ⟨r, s⟩ hr).trans hs)
  | @round c c₁ c' item a as hs hi hlt _ ih =>
    obtain ⟨u, hu, hread⟩ := (hitem c item hs).reads hi
    obtain ⟨v, hv, hrounds⟩ := ih
    refine ⟨u ++ v, by rw [hu, hv, List.append_assoc], ?_⟩
    intro r s hr
    have hmid : B c₁.ahead (v ++ r) := extend_ahead hv hr
    have hfront : B c.ahead (u ++ (v ++ r)) := extend_ahead hu hmid
    rw [List.append_assoc]
    refine .round ((hselect c ⟨_, s⟩ hfront).trans hs) (hread _ s hmid) ?_ (hrounds r s hr)
    rw [hu, List.length_append] at hlt
    simp only [List.length_append]
    omega
  | @stalled c c' item a hs hi hge =>
    obtain ⟨u, hu, hread⟩ := (hitem c item hs).reads hi
    refine ⟨u, hu, ?_⟩
    intro r s hr
    have hfront : B c.ahead (u ++ r) := extend_ahead hu hr
    refine .stalled ((hselect c ⟨_, s⟩ hfront).trans hs) (hread r s hr) ?_
    rw [hu, List.length_append] at hge
    simp only [List.length_append]
    omega

/-- A loop is firm if what it selects is, and nothing further is looked at to select it. -/
theorem firm_many [Extends B B] {select : Cursor → Option (Parse α)}
    (hselect : ∀ c d : Cursor, B c.ahead d.ahead → select d = select c)
    (hitem : ∀ c item, select c = some item → Firm B B item c) (c : Cursor) :
    Firm B B (many select) c := by
  constructor
  · intro as c' h
    obtain ⟨u, hu, hrounds⟩ := h.rounds.firm hselect hitem
    exact ⟨u, hu, fun r s hr => (hrounds r s hr).reads⟩
  · intro e c' h hd
    -- Every round before the one that fails leaves fewer tokens ahead.
    induction hn : c.ahead.length using Nat.strongRecOn generalizing c with
    | _ n ih =>
      obtain ⟨item, hs, hfail | ⟨a, c₁, hread, hlt, hfail⟩⟩ := h.round
      · obtain ⟨u, t, hsettles⟩ := (hitem c item hs).fails hfail hd
        refine ⟨u, t, hsettles.imp ?_⟩
        intro r s d hfails
        exact ⟨d, hfails.many_first ((hselect c ⟨_, s⟩ (hsettles.agree r)).trans hs)⟩
      · obtain ⟨u, hu, hread'⟩ := (hitem c item hs).reads hread
        obtain ⟨v, t, hsettles⟩ := ih c₁.ahead.length (hn ▸ hlt) c₁ hfail rfl
        refine ⟨u ++ v, t, hsettles.behind hu (fun r => extend_ahead hu) ?_⟩
        intro r s d hr hfails
        have hsame := (hselect c ⟨u ++ r, s⟩ (extend_ahead hu hr)).trans hs
        refine ⟨d, hfails.many_later hsame (hread' r s hr) ?_⟩
        rw [hu, List.length_append] at hlt
        simp only [List.length_append]
        omega

end Parse

end TemplateSyntax
