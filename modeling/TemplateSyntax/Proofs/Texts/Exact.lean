import Mathlib.Control.Monad.Basic
import TemplateSyntax.Proofs.Texts.Accounts
import TemplateSyntax.Proofs.Texts.Found
import TemplateSyntax.Tree.Equal

/-! # Every Text Is Read Once

  The texts of a template are the texts of its tokens, from left to right, but for those that
  stand between the header of a switch block and its first part (`texts_of_parse`).

  What some tokens tell is counted along the grammar. The account of a row of nodes goes with
  the headers that the parser finds in this row; those that it finds behind the row are left
  to what follows (`Grammar.Body.tells`).
-/

namespace TemplateSyntax

open Parse

theorem strayNode_texts (a : Alternate) : (strayNode a).texts = a.texts := by
  cases a <;> rfl

theorem strayNode_switches (a : Alternate) : (strayNode a).switches = a.switches := by
  cases a <;> rfl

namespace Grammar

/-! ## Accounts along the Grammar -/

section

variable (limit : Nat) (s : Span)

/-- Some tokens have an account. From their beginning on the parser finds the headers of this
    account, and then what it finds behind them. -/
def TellsAt (place : Cursor → Place) (u r : List Token) (ss : List String)
    (switches : Bool) : Prop :=
  ∃ heads, Accounts heads u r ss switches ∧
    ∀ d, Finds limit (place ⟨u ++ r, s⟩) d ↔ heads d ∨ Finds limit (place ⟨r, s⟩) d

/-- The tokens of a block from its brace on have an account. What the parser finds in the
    block are the headers of this account. -/
def TellsIn (n : Nat) (u r : List Token) (ss : List String) (switches : Bool) : Prop :=
  ∃ heads, Accounts heads u r ss switches ∧ ∀ d, FindsIn limit n ⟨u ++ r, s⟩ d ↔ heads d

/-- The tokens of a condition behind its brace have an account. What the parser finds behind
    the header are the headers of this account. -/
def TellsBehind (n : Nat) (u r : List Token) (ss : List String) (switches : Bool) : Prop :=
  ∃ heads e c, Accounts heads u r ss switches ∧ Reads (ifHeader (.within limit n)) ⟨u ++ r, s⟩ e c ∧
    ∀ d, Finds limit (.nodes n [.elseStart, .ifEnd] c) d ↔ heads d

end

variable {limit n : Nat} {s : Span} {place : Cursor → Place} {words : List Kind}
  {u v w r : List Token} {ss ss' : List String} {switches switches' : Bool} {t : Token}

theorem tellsAt_nil : TellsAt limit s place [] r [] false :=
  ⟨_, .silent silent_nil, fun _ => (iff_of_eq (false_or _)).symm⟩

theorem TellsAt.append (h₁ : TellsAt limit s place u (v ++ r) ss switches)
    (h₂ : TellsAt limit s place v r ss' switches') :
    TellsAt limit s place (u ++ v) r (ss ++ ss') (switches || switches') := by
  obtain ⟨heads₁, haccount₁, hfinds₁⟩ := h₁
  obtain ⟨heads₂, haccount₂, hfinds₂⟩ := h₂
  refine ⟨_, haccount₁.append haccount₂, ?_⟩
  intro d
  rw [List.append_assoc, hfinds₁ d, hfinds₂ d, or_assoc]

/-- A block in a row of nodes tells what it tells by itself. -/
theorem TellsIn.tellsAt {x : Node} (h : TellsIn limit s n u r ss switches)
    (hx : Item (n + 1) u x r) (heof : .eof ∉ words) (hw : ¬ AtBrace words u) :
    TellsAt limit s (.nodes (n + 1) words) u r ss switches := by
  obtain ⟨heads, haccount, hfinds⟩ := h
  refine ⟨heads, haccount, ?_⟩
  intro d
  rw [finds_block hx heof hw]
  exact or_congr_left (hfinds d)

/-- A text in a row of nodes tells itself. -/
theorem tellsAt_leaf {x : Node} (h : Piece n [t] x) (ht : t.kind.isLeaf = true)
    (heof : .eof ∉ words) (hw : ¬ AtBrace words [t]) :
    TellsAt limit s (.nodes n words) [t] r [t.text] false := by
  have hbrace : t.kind ≠ .exprStart := by
    intro hk
    rw [hk] at ht
    cases ht
  refine ⟨_, .leaf ht, ?_⟩
  intro d
  rw [false_or]
  exact finds_leaf h hbrace heof hw

/-- A block tells what the nodes behind its header tell, up to where these end. -/
theorem TellsAt.tellsIn (h : TellsAt limit s (.nodes n words) w (v ++ r) ss switches)
    (hu : Silent u) (henters : Enters limit n ⟨u ++ (w ++ (v ++ r)), s⟩
      (.nodes n words ⟨w ++ (v ++ r), s⟩))
    (hend : ∀ d, ¬ Finds limit (.nodes n words ⟨v ++ r, s⟩) d) (hv : Silent v) :
    TellsIn limit s n (u ++ (w ++ v)) r ss switches := by
  obtain ⟨heads, haccount, hfinds⟩ := h
  refine ⟨heads, .behind hu (haccount.before hv), ?_⟩
  intro d
  rw [List.append_assoc, List.append_assoc, findsIn_nodes henters, hfinds d]
  exact or_iff_left (hend d)

/-- A block without a header tells nothing. -/
theorem tellsIn_silent (hu : Silent (t :: u))
    (hfirst : ∀ w ∈ u.head?, w.kind.opensBlock = false ∨ w.kind = .importStart) (hne : u ≠ []) :
    TellsIn limit s n (t :: u) r [] false := by
  refine ⟨_, .silent hu, ?_⟩
  intro d
  obtain ⟨w, v, rfl⟩ := List.exists_cons_of_ne_nil hne
  rw [iff_false]
  apply not_findsIn
  intro _
  have hfollowing : (Cursor.mk (t :: w :: v ++ r) s).following.kind = w.kind := rfl
  rcases hfirst w rfl with hw | hw
  · exact headerAt_eq_none (by rw [hfollowing]; exact hw)
  · rw [headerAt, hfollowing, hw]

/-- A switch block tells what its parts tell, and nothing of what is passed over in front of
    them. -/
theorem TellsAt.tellsIn_switch {j : List Token}
    (h : TellsAt limit s (.parts n) w (v ++ r) ss switches) (hu : Silent u)
    (henters : Enters limit n ⟨u ++ (j ++ (w ++ (v ++ r))), s⟩
      (.parts n ⟨j ++ (w ++ (v ++ r)), s⟩))
    (hj : Passed j) (hnext : AtBrace caseEnds (w ++ (v ++ r)))
    (hend : AtBrace [.switchEnd] (v ++ r)) (hv : Silent v) :
    TellsIn limit s n (u ++ (j ++ (w ++ v))) r ss true := by
  obtain ⟨heads, haccount, hfinds⟩ := h
  have hnext' : AtBrace caseEnds ((w ++ v) ++ r) := by
    rw [List.append_assoc]
    exact hnext
  have hinner := (Accounts.passed (s := s) hj hnext').append (haccount.before hv)
  refine ⟨_, .behind hu hinner, ?_⟩
  intro d
  rw [List.append_assoc, List.append_assoc, List.append_assoc, findsIn_iff henters]
  rw [finds_passed hj hnext, hfinds d, or_iff_left (not_finds_switchEnd hend)]
  -- What is left over is the header of the block itself.
  apply or_congr_left
  constructor
  · intro hd
    cases hd
    rfl
  · rintro rfl
    rfl

/-- An alternate at the end of a condition's nodes tells what it tells by itself. -/
theorem TellsIn.tellsAt_else (h : TellsIn limit s n u r ss switches)
    (hu : AtBrace [.elseStart] (u ++ r)) (hr : AtBrace [.ifEnd] r) :
    TellsAt limit s (.nodes (n + 1) [.elseStart, .ifEnd]) u r ss switches := by
  obtain ⟨heads, haccount, hfinds⟩ := h
  refine ⟨heads, haccount, ?_⟩
  intro d
  have hend : ¬ Finds limit (.nodes (n + 1) [.elseStart, .ifEnd] ⟨r, s⟩) d :=
    not_finds_closed hr (by decide) (by decide) rfl
  rw [finds_else hu (by decide) (by decide), or_iff_left hend]
  exact hfinds d

/-- A condition tells what its nodes and its alternate tell. -/
theorem TellsAt.tellsBehind {word stop : Token} {e : Expr}
    (h : TellsAt limit s (.nodes n [.elseStart, .ifEnd]) w r ss switches)
    (hk : word.kind = .ifStart) (he : Conditional n u e) (hs : stop.kind = .exprEnd)
    (hr : AtBrace [.ifEnd] r) :
    TellsBehind limit s n (word :: (u ++ stop :: w)) r ss switches := by
  obtain ⟨heads, haccount, hfinds⟩ := h
  have hread : Reads (ifHeader (.within limit n)) ⟨word :: (u ++ stop :: (w ++ r)), s⟩ e
      ⟨w ++ r, s⟩ := reads_ifHeader hk he hs
  have haccount' : Accounts heads (word :: (u ++ stop :: w)) r ss switches :=
    .cons hk (by decide) (.behind he.silent (.cons hs (by decide) haccount))
  refine ⟨heads, e, ⟨w ++ r, s⟩, haccount', ?_, ?_⟩
  · rw [List.cons_append, List.append_assoc, List.cons_append]
    exact hread
  · intro d
    have hend : ¬ Finds limit (.nodes n [.elseStart, .ifEnd] ⟨r, s⟩) d :=
      not_finds_closed hr (by decide) (by decide) rfl
    rw [hfinds d, or_iff_left hend]

theorem TellsBehind.tellsIn {b : IfBlock} (h : TellsBehind limit s n u (v ++ r) ss switches)
    (hu : Condition n u b) (ht : t.kind = .exprStart) (hv : Silent v) :
    TellsIn limit s n (t :: (u ++ v)) r ss switches := by
  obtain ⟨heads, e, c, haccount, hread, hfinds⟩ := h
  obtain ⟨word, w, rfl, hk⟩ := hu.first
  refine ⟨heads, .cons ht (by decide) (haccount.before hv), ?_⟩
  intro d
  rw [List.cons_append, List.append_assoc]
  exact (findsIn_nodes (enters_condition ht hk hread)).trans (hfinds d)

theorem TellsBehind.tellsIn_else {b : IfBlock} {word : Token}
    (h : TellsBehind limit s n u r ss switches) (hu : Condition n u b)
    (ht : t.kind = .exprStart) (hk : word.kind = .elseStart) :
    TellsIn limit s n (t :: word :: u) r ss switches := by
  obtain ⟨heads, e, c, haccount, hread, hfinds⟩ := h
  obtain ⟨word', w, rfl, hk'⟩ := hu.first
  refine ⟨heads, .cons ht (by decide) (.cons hk (by decide) haccount), ?_⟩
  intro d
  exact (findsIn_nodes (enters_elseIf ht hk hk' hread)).trans (hfinds d)

/-- A part of a switch block tells what its nodes tell. -/
theorem TellsAt.tellsAt_part {x : Case} (h : TellsAt limit s (.nodes n caseEnds) w r ss switches)
    (hu : Silent u) (hx : Part n (u ++ w) x)
    (hheader : ReadsPartHeader (.within limit n) ⟨(u ++ w) ++ r, s⟩ ⟨w ++ r, s⟩)
    (hr : AtBrace caseEnds r) : TellsAt limit s (.parts n) (u ++ w) r ss true := by
  obtain ⟨heads, haccount, hfinds⟩ := h
  obtain ⟨word, hword, hat⟩ := hr.exists_word
  have hopens : ∀ word ∈ caseEnds, word.opensBlock = false := by decide
  refine ⟨heads, .behind hu haccount.noisy, ?_⟩
  intro d
  have hend : ¬ Finds limit (.nodes n caseEnds ⟨r, s⟩) d :=
    not_finds_closed hat hword (by decide) (hopens word hword)
  rw [finds_part hx hr hheader, hfinds d, or_iff_left hend]

mutual

/-- Nodes tell their texts. -/
theorem Body.tells {n words u xs} (h : Body n words u xs) (heof : .eof ∉ words)
    (r : List Token) (hr : words = [.ifEnd] → AtBrace [.ifEnd] r) :
    TellsAt limit s (.nodes n words) u r (Node.rowTexts xs) (Node.rowSwitches xs) :=
  match h with
  | .nil => tellsAt_nil
  | .cons h hw hs => (h.tells heof hw _).append (hs.tells heof r hr)
  | .stray hw ht h => by
    have hend := hr hw
    have hitem := Item.stray ht h hend
    rw [Node.rowTexts, Node.rowTexts, List.append_nil, strayNode_texts, Node.rowSwitches,
      Node.rowSwitches, Bool.or_false, strayNode_switches]
    refine (h.tells r ht hend).tellsAt hitem heof ?_
    rw [hw]
    intro hat
    exact hitem.not_atBrace_ifEnd r (hat.append r)
termination_by structural h

/-- A node tells its texts. -/
theorem Piece.tells {n words u x} (h : Piece n u x) (heof : .eof ∉ words)
    (hw : ¬ AtBrace words u) (r : List Token) :
    TellsAt limit s (.nodes n words) u r x.texts x.switches :=
  match h with
  | .text ht => tellsAt_leaf (.text ht) (by rw [Kind.isLeaf, ht]; rfl) heof hw
  | .comment ht => tellsAt_leaf (.comment ht) (by rw [ht]; rfl) heof hw
  | .block ht h => (h.tells r ht).tellsAt (.piece (.block ht h)) heof hw
termination_by structural h

/-- A block tells its texts. -/
theorem Block.tells {n u x} (h : Block n u x) (r : List Token) {t : Token}
    (ht : t.kind = .exprStart) : TellsIn limit s n (t :: u) r x.texts x.switches :=
  match h with
  | .condition h hv =>
    (h.tells _ hv.atBrace).tellsIn h ht (hv.silent (by decide))
  | .switch (u := u) (j := j) (w := w) (v := v) (e := e) hk he hs hj hp hv => by
    have hheader : Reads (switchHeader (.within limit n))
        ⟨_ :: (u ++ _ :: (j ++ (w ++ (v ++ r)))), s⟩ e ⟨j ++ (w ++ (v ++ r)), s⟩ :=
      reads_switchHeader hk he hs
    have hsilent := silent_cons ht (by decide) (silent_cons hk (by decide)
      (silent_append he.silent (silent_cons hs (by decide) silent_nil)))
    have hparts := hp.tells (v ++ r) hv.atBrace
    have hblock := hparts.tellsIn_switch hsilent (by simpa using enters_switch ht hk hheader) hj
      (hp.atBrace hv.atBrace) hv.atBrace (hv.silent (by decide))
    rw [Node.texts, Node.switches]
    simpa using hblock
  | .loop (i := i) (u := u) (w := w) (v := v) (e := e) hk hname hi hl he hs hb hv => by
    have hheader : Reads (forHeader (.within limit n))
        ⟨_ :: _ :: (i ++ _ :: (u ++ _ :: (w ++ (v ++ r)))), s⟩ (_, _, e) ⟨w ++ (v ++ r), s⟩ :=
      reads_forHeader hk hname hi hl he hs
    have hsilent := silent_cons ht (by decide) (silent_cons hk (by decide)
      (silent_cons hname (by decide) (silent_append hi.silent
        (silent_cons hl (by decide) (silent_append he.silent
          (silent_cons hs (by decide) silent_nil))))))
    have hnodes := hb.tells (by decide) (v ++ r) nofun
    have hblock := hnodes.tellsIn hsilent (by simpa using enters_loop ht hk hheader)
      (fun d => not_finds_closed hv.atBrace (by decide) (by decide) rfl) (hv.silent (by decide))
    rw [Node.texts, Node.switches]
    simpa using hblock
  | .importFile hk hp hs => by
    have hsilent := silent_cons ht (by decide) (silent_cons hk (by decide)
      (silent_cons hp (by decide) (silent_cons hs (by decide) silent_nil)))
    refine tellsIn_silent hsilent ?_ nofun
    intro w hw
    cases hw
    exact .inr hk
  | .empty hs => by
    have hsilent := silent_cons ht (by decide) (silent_cons hs (by decide) silent_nil)
    refine tellsIn_silent hsilent ?_ nofun
    intro w hw
    cases hw
    exact .inl (by rw [hs]; rfl)
  | .interpolation he hw hs => by
    have hsilent := silent_cons ht (by decide) (silent_append he.silent
      (silent_cons hs (by decide) silent_nil))
    refine tellsIn_silent hsilent ?_ (by simp)
    obtain ⟨word, v, rfl, -⟩ := he.first
    intro w' hw'
    cases hw'
    exact .inl (hw word rfl)
termination_by structural h

/-- A condition and its alternates tell their texts. -/
theorem Condition.tells {n u b} (h : Condition n u b) (r : List Token)
    (hr : AtBrace [.ifEnd] r) : TellsBehind limit s n u r b.texts b.switches :=
  match h with
  | .alone hk he hs hb => by
    rw [IfBlock.texts, IfBlock.switches, Alternate.texts?, Alternate.switches?, List.append_nil,
      Bool.or_false]
    exact (hb.tells (by decide) r nofun).tellsBehind hk he hs hr
  | .chained hk he hs hb ht ha => by
    have hbranch := ha.tells r ht hr
    obtain ⟨t, v, rfl, hword⟩ := ha.first
    have halternate := hbranch.tellsAt_else ⟨ht, List.mem_singleton.mpr hword⟩ hr
    exact ((hb.tells (by decide) _ nofun).append halternate).tellsBehind hk he hs hr
termination_by structural h

/-- An alternate tells its texts. -/
theorem Branch.tells {n u a} (h : Branch n u a) (r : List Token) {t : Token}
    (ht : t.kind = .exprStart) (hr : AtBrace [.ifEnd] r) :
    TellsIn limit s n (t :: u) r a.texts a.switches :=
  match h with
  | .elseIf hk h => (h.tells r hr).tellsIn_else h ht hk
  | .otherwise (u := u) hk hs hb => by
    have hsilent := silent_cons ht (by decide) (silent_cons hk (by decide)
      (silent_cons hs (by decide) silent_nil))
    have hnodes := hb.tells (by decide) ([] ++ r) fun _ => hr
    have hblock := hnodes.tellsIn hsilent (enters_otherwise ht hk hs)
      (fun d => not_finds_closed hr (by decide) (by decide) rfl) silent_nil
    rw [Alternate.texts, Alternate.switches]
    simpa using hblock
termination_by structural h

/-- The parts of a switch block tell their texts. -/
theorem Parts.tells {n u xs} (h : Parts n u xs) (r : List Token)
    (hr : AtBrace [.switchEnd] r) :
    TellsAt limit s (.parts n) u r (Case.rowTexts xs) (!xs.isEmpty) :=
  match h with
  | .nil => tellsAt_nil
  | .cons h hs => (h.tells _ (hs.atBrace hr)).append (hs.tells r hr)
termination_by structural h

/-- A part of a switch block tells its texts. -/
theorem Part.tells {n u x} (h : Part n u x) (r : List Token) (hr : AtBrace caseEnds r) :
    TellsAt limit s (.parts n) u r x.texts true :=
  match h with
  | .case (u := u) (w := w) ht hk he hs hb => by
    have hsilent := silent_cons ht (by decide) (silent_cons hk (by decide)
      (silent_append he.silent (silent_cons hs (by decide) silent_nil)))
    have hnodes := hb.tells (by decide) r nofun
    have hpart := hnodes.tellsAt_part hsilent (by simpa using Part.case ht hk he hs hb)
      (by simpa using readsPartHeader_case ht hk he hs) hr
    rw [Case.texts]
    simpa using hpart
  | .default ht hk hs hb => by
    have hsilent := silent_cons ht (by decide) (silent_cons hk (by decide)
      (silent_cons hs (by decide) silent_nil))
    have hnodes := hb.tells (by decide) r nofun
    exact hnodes.tellsAt_part hsilent (.default ht hk hs hb) (readsPartHeader_default ht hk hs) hr
termination_by structural h

end

end Grammar

/-! ## Texts of Templates -/

/-- The parser passes over the tokens `v` in their first place: they begin behind the header
    of a switch block that it reads, in front of the first brace with a word of a case. -/
def PassedOver (ts v : List Token) : Prop :=
  ∃ d, Finds nestingLimit (.nodes nestingLimit [] (.ofTokens ts)) d ∧ Between d.ahead v

/-- The texts of a template are those of its tokens, but for the ones that the parser passes
    over in front of the first part of a switch block. Without a switch block these are all
    of them; and once a part has been read, nothing more is passed over. -/
theorem texts_of_parse {ts : List Token} {p : Program} (h : parse ts = .ok p) :
    Tells (PassedOver ts) ts p.texts ∧
    (p.switches = false → p.texts = leafTexts ts) ∧
    ∀ left c xs c', Reads (switchParts (.within nestingLimit left)) c xs c' →
      ∃ (k : Nat) (parts : List Case), xs = List.replicate k none ++ parts.map some := by
  obtain ⟨u, r, rfl, hr, hbody⟩ := Grammar.parse_eq_ok_iff.mp h
  have hcounted : Grammar.TellsAt nestingLimit (Cursor.ofTokens (u ++ r)).stop
      (.nodes nestingLimit []) u r p.texts p.switches := hbody.tells nofun r nofun
  obtain ⟨heads, haccount, hfinds⟩ := hcounted
  -- The headers of the account are all that the parser finds, for nothing is found at the end.
  have hheads : ∀ d, Finds nestingLimit (.nodes nestingLimit [] (.ofTokens (u ++ r))) d ↔
      heads d := by
    intro d
    exact (hfinds d).trans (or_iff_left (Grammar.not_finds_end hr))
  have hrest : ∀ out, Tells out r [] := by
    intro out
    cases r with
    | nil => exact .nil
    | cons t r => exact .ending (hr t rfl)
  constructor
  · have htells := haccount.tells (PassedOver (u ++ r)) [] ?_ (hrest _)
    · rw [List.append_nil] at htells
      exact htells
    · intro v _
      exact exists_congr fun d => and_congr_left fun _ => hheads d
  constructor
  · intro hswitches
    have htells := haccount.tells (fun _ => False) [] ?_ (hrest _)
    · rw [List.append_nil] at htells
      exact htells.unique (tells_leafTexts _)
    · intro v _
      rw [false_iff]
      rintro ⟨d, hd, -⟩
      exact haccount.quiet hswitches d hd
  · intro left c xs c' hread
    obtain ⟨j, w, parts, -, -, -, hxs, -, -⟩ :=
      Grammar.sound_switchParts (Grammar.soundNodes_within nestingLimit left) hread
    exact ⟨j.length, parts, hxs⟩

/-- In `y{switch a}z{case 1}x{/switch}` the text between the header and the case is passed
    over, which by itself it is not. -/
theorem texts_of_parse_switch :
    let sign (kind : Kind) (text : String) : Token := ⟨kind, .at .start, text⟩
    let ts := [sign .text "y", sign .exprStart "\x7b", sign .switchStart "switch",
      sign .identifier "a", sign .exprEnd "\x7d", sign .text "z", sign .exprStart "\x7b",
      sign .caseStart "case", sign .integer "1", sign .exprEnd "\x7d", sign .text "x",
      sign .exprStart "\x7b", sign .switchEnd "/switch", sign .exprEnd "\x7d"]
    let p : Program :=
      ⟨[.text "y", .switchBlock (.identifier "a") [.case [.int 1] [.text "x"]]]⟩
    parse ts = .ok p ∧ p.texts = ["y", "x"] ∧ leafTexts ts = ["y", "z", "x"] ∧
    Tells (PassedOver ts) ts ["y", "x"] ∧
    parse [sign .text "z"] = .ok ⟨[.text "z"]⟩ ∧
    (Program.mk [.text "z"]).switches = false ∧ leafTexts [sign .text "z"] = ["z"] := by
  intro sign ts p
  have hp : parse ts = .ok p := by decide +kernel
  have htext : parse [sign .text "z"] = .ok ⟨[.text "z"]⟩ := by decide +kernel
  have hall : leafTexts ts = ["y", "z", "x"] := by decide
  have htold : Tells (PassedOver ts) ts ["y", "x"] := (texts_of_parse hp).1
  have hone := (texts_of_parse htext).2.1 rfl
  exact ⟨hp, rfl, hall, htold, htext, rfl, hone.symm⟩

end TemplateSyntax
