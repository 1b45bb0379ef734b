import TemplateSyntax.Proofs.Parse.InStep.Program

/-! # Positions Among Tokens

  Behind tokens whose last one ends no input, an ending token stands that they imply
  (`stored`). A parser never moves over the first ending token among them (`firstEnd`), and
  cursors up to there are told by how many tokens are behind them (`Cursor.behind`).

  Lists of tokens may agree from a position on up to their first ending tokens
  (`SameAhead`). Parsers are in step on two such lists (`alike_together`), and whatever
  stands behind the ending tokens is never looked at.
-/

namespace TemplateSyntax

open Parse

/-- The tokens, and the ending token that they imply if their last one is none. -/
def stored (ts : List Token) : List Token :=
  if ts.getLast?.any (·.kind = .eof) then ts else ts ++ [.ending (Cursor.ofTokens ts).stop]

/-- How many tokens stand in front of the first ending token. -/
def firstEnd (ts : List Token) : Nat := (stored ts).findIdx (·.kind = .eof)

/-- The cursor behind so many of some tokens. -/
def Cursor.behind (ts : List Token) (k : Nat) : Cursor := ⟨ts.drop k, (Cursor.ofTokens ts).stop⟩

section stored

variable {ts us : List Token} {j k : Nat}

/-! ## Stored Tokens -/

theorem stored_of_last {t : Token} (h : ts.getLast? = some t) (ht : t.kind = .eof) :
    stored ts = ts := by
  unfold stored
  rw [h]
  exact if_pos (decide_eq_true ht)

/-- The last of the stored tokens ends the input. -/
theorem getLast?_stored (ts : List Token) : ∃ t, (stored ts).getLast? = some t ∧ t.kind = .eof := by
  unfold stored
  split
  · next h =>
    obtain ⟨t, ht, hk⟩ := (Option.any_eq_true _ _).mp h
    exact ⟨t, ht, of_decide_eq_true hk⟩
  · exact ⟨_, List.getLast?_concat, rfl⟩

theorem firstEnd_lt (ts : List Token) : firstEnd ts < (stored ts).length := by
  obtain ⟨t, ht, hk⟩ := getLast?_stored ts
  exact List.findIdx_lt_length_of_exists ⟨t, List.mem_of_getLast? ht, decide_eq_true hk⟩

theorem firstEnd_le (ts : List Token) : firstEnd ts ≤ ts.length := by
  have hlt := firstEnd_lt ts
  unfold stored at hlt
  split at hlt
  · omega
  · rw [List.length_append, List.length_singleton] at hlt
    omega

/-- The input ends at the first ending token. -/
theorem exists_firstEnd (ts : List Token) :
    ∃ t, (stored ts)[firstEnd ts]? = some t ∧ t.kind = .eof := by
  refine ⟨_, List.getElem?_eq_getElem (firstEnd_lt ts), ?_⟩
  exact of_decide_eq_true (List.findIdx_getElem (w := firstEnd_lt ts))

/-- In front of it the input does not end. -/
theorem kind_ne_eof {t : Token} (ht : (stored ts)[k]? = some t) (hk : k < firstEnd ts) :
    t.kind ≠ .eof := by
  obtain ⟨hlt, rfl⟩ := List.getElem?_eq_some_iff.mp ht
  exact of_decide_eq_false (List.not_of_lt_findIdx hk)

/-- No other position is like this. -/
theorem firstEnd_eq {t : Token} (ht : (stored ts)[k]? = some t) (hend : t.kind = .eof)
    (hfront : ∀ i < k, ∀ u, (stored ts)[i]? = some u → u.kind ≠ .eof) : firstEnd ts = k := by
  obtain ⟨u, hu, hueof⟩ := exists_firstEnd ts
  -- Of two positions like this, the later one would have an ending token in front of it.
  rcases Nat.lt_trichotomy k (firstEnd ts) with hlt | heq | hgt
  · exact absurd hend (kind_ne_eof ht hlt)
  · exact heq.symm
  · exact absurd hueof (hfront _ hgt u hu)

/-! ## Cursors at Positions -/

@[simp] theorem Cursor.behind_zero (ts : List Token) : Cursor.behind ts 0 = .ofTokens ts := rfl

@[simp] theorem Cursor.advance_behind : (Cursor.behind ts k).advance = .behind ts (k + 1) := by
  simp only [behind, advance, List.tail_drop]

/-- Up to the first ending token, the cursor is at the stored token of its position. -/
theorem getElem?_stored (hk : k ≤ firstEnd ts) :
    (stored ts)[k]? = some (Cursor.behind ts k).current := by
  have hlt : k < (stored ts).length := Nat.lt_of_le_of_lt hk (firstEnd_lt ts)
  by_cases hin : k < ts.length
  · have hcurrent : (Cursor.behind ts k).current = ts[k] := by
      simp only [Cursor.behind, Cursor.current, List.headD_eq_head?_getD, List.head?_drop,
        List.getElem?_eq_getElem hin, Option.getD_some]
    rw [hcurrent, ← List.getElem?_eq_getElem hin]
    unfold stored
    split
    · rfl
    · exact List.getElem?_append_left hin
  -- Behind the last token only the implied one is left.
  · unfold stored at hlt ⊢
    split at hlt
    · exact absurd hlt hin
    · next hlast =>
      rw [List.length_append, List.length_singleton] at hlt
      obtain rfl : k = ts.length := by omega
      rw [if_neg hlast, List.getElem?_concat_length]
      simp [Cursor.behind]

theorem kind_eq_eof_iff (hk : k ≤ firstEnd ts) :
    (Cursor.behind ts k).current.kind = .eof ↔ k = firstEnd ts := by
  have hcurrent := getElem?_stored hk
  constructor
  · intro heof
    by_contra hne
    exact kind_ne_eof hcurrent (by omega) heof
  · rintro rfl
    obtain ⟨t, ht, heof⟩ := exists_firstEnd ts
    rw [hcurrent] at ht
    cases ht
    exact heof

/-! ## Lists That Agree -/

/-- From a position of `ts` on, the tokens of `us` stand ahead, up to the first ending token. -/
structure SameAhead (ts us : List Token) (j : Nat) : Prop where
  ends : j + firstEnd us = firstEnd ts
  tokens (k : Nat) (hk : k ≤ firstEnd us) : (stored ts)[j + k]? = (stored us)[k]?

theorem sameAhead_of_tokens (hj : j ≤ firstEnd ts)
    (h : ∀ k, j + k ≤ firstEnd ts → (stored ts)[j + k]? = (stored us)[k]?) :
    SameAhead ts us j := by
  have hends : firstEnd us = firstEnd ts - j := by
    obtain ⟨t, ht, heof⟩ := exists_firstEnd ts
    have hhere := h (firstEnd ts - j) (by omega)
    rw [Nat.add_sub_cancel' hj, ht] at hhere
    refine firstEnd_eq hhere.symm heof fun i hi u hu => ?_
    rw [← h i (by omega)] at hu
    exact kind_ne_eof hu (by omega)
  exact ⟨by omega, fun k hk => h k (by omega)⟩

theorem sameAhead_refl (ts : List Token) : SameAhead ts ts 0 :=
  sameAhead_of_tokens (Nat.zero_le _) fun k _ => by rw [Nat.zero_add]

/-- The tokens that are left at a position, as tokens by themselves. -/
theorem sameAhead_drop (hj : j ≤ firstEnd ts) : SameAhead ts ((stored ts).drop j) j := by
  have hlt : j < (stored ts).length := Nat.lt_of_le_of_lt hj (firstEnd_lt ts)
  obtain ⟨t, ht, heof⟩ := getLast?_stored ts
  have hlast : ((stored ts).drop j).getLast? = some t := by
    rw [List.getLast?_drop, if_neg (by omega), ht]
  refine sameAhead_of_tokens hj fun k _ => ?_
  rw [stored_of_last hlast heof, List.getElem?_drop]

/-- The first ending token hides what stands behind it. -/
theorem sameAhead_of_take
    (h : (stored us).take (firstEnd ts + 1) = (stored ts).take (firstEnd ts + 1)) :
    SameAhead ts us 0 := by
  refine sameAhead_of_tokens (Nat.zero_le _) fun k hk => ?_
  have hlt : k < firstEnd ts + 1 := by omega
  rw [Nat.zero_add, ← List.getElem?_take_of_lt hlt, ← h, List.getElem?_take_of_lt hlt]

/-! ## Cursors That Stay Together -/

/-- The cursors are at the same token of two lists that agree. -/
def Together (ts us : List Token) (j : Nat) (c d : Cursor) : Prop :=
  ∃ k ≤ firstEnd us, c = .behind ts (j + k) ∧ d = .behind us k

theorem Together.current (h : SameAhead ts us j) {c d : Cursor} (hcd : Together ts us j c d) :
    c.current = d.current := by
  obtain ⟨k, hk, rfl, rfl⟩ := hcd
  have hends := h.ends
  have htoken := h.tokens k hk
  rw [getElem?_stored hk, getElem?_stored (by omega)] at htoken
  exact Option.some.inj htoken

theorem Together.advance {c d : Cursor} (hcd : Together ts us j c d)
    (hne : d.current.kind ≠ .eof) : Together ts us j c.advance d.advance := by
  obtain ⟨k, hk, rfl, rfl⟩ := hcd
  -- Up to the first ending token only that one ends the input, so it is still ahead.
  have hless : k ≠ firstEnd us := fun heq => hne ((kind_eq_eof_iff hk).mpr heq)
  exact ⟨k + 1, by omega, Cursor.advance_behind, Cursor.advance_behind⟩

/-- How many tokens are ahead tells how many are behind. -/
theorem length_ahead_behind_lt {i : Nat} (hi : i ≤ firstEnd ts) (hk : k ≤ firstEnd ts) :
    (Cursor.behind ts i).ahead.length < (Cursor.behind ts k).ahead.length ↔ k < i := by
  have hle := firstEnd_le ts
  simp only [Cursor.behind, List.length_drop]
  omega

/-- A cursor up to the first ending token has one position. -/
theorem Cursor.behind_inj {i : Nat} (hi : i ≤ firstEnd ts) (hk : k ≤ firstEnd ts)
    (h : Cursor.behind ts i = .behind ts k) : i = k := by
  have hle := firstEnd_le ts
  have hlength : (Cursor.behind ts i).ahead.length = (Cursor.behind ts k).ahead.length := by rw [h]
  simp only [behind, List.length_drop] at hlength
  omega

/-- Cursors at the same position stay alike if the tokens there are. -/
theorem alike_of_together (hends : j + firstEnd us = firstEnd ts)
    (h : ∀ {c d : Cursor}, Together ts us j c d → c.current.Alike d.current) :
    Alike (Together ts us j) where
  kind hcd := (h hcd).kind
  text hcd := (h hcd).text
  advance hcd hne := hcd.advance ((h hcd).kind ▸ hne)
  further := by
    rintro c c' d d' ⟨k, hk, rfl, rfl⟩ ⟨i, hi, rfl, rfl⟩
    rw [length_ahead_behind_lt hi hk, length_ahead_behind_lt (by omega) (by omega)]
    omega

theorem alike_together (h : SameAhead ts us j) : Alike (Together ts us j) :=
  alike_of_together h.ends fun hcd => by
    rw [hcd.current h]
    exact ⟨rfl, rfl⟩

end stored

end TemplateSyntax
