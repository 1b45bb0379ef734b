import TemplateSyntax.Proofs.Scan.Automaton
import TemplateSyntax.Proofs.Scan.Tiles

/-! # Schedules of Pulls

  Tokens may be asked for one by one or all at once, in any order and for as long as one likes.
  Whatever the schedule, pulls in a row are so many single steps (`Scan.pulls_eq_steps`), and so
  many steps give the tokens of the source text and then its ending token over and over
  (`Scan.upcoming_eq`), for a scan that has come to the end of the input stays there
  (`Scan.stepped_of_eof`). So neither the tokens nor the modes behind them tell one schedule from
  another (`Scan.pulls_agree`).
-/

namespace TemplateSyntax

namespace Scan

/-- The scan behind pulls in a row. -/
def behindPulls (s : Scan) : List Pull → Scan
  | [] => s
  | p :: ps => (s.pull p).2.behindPulls ps

/-! ## Steps in a Row -/

section steps

variable (s : Scan) (n m : Nat)

theorem stepped_add : s.stepped (n + m) = (s.stepped n).stepped m := by
  induction n generalizing s with
  | zero => rw [Nat.zero_add]; rfl
  | succ n ih =>
    rw [Nat.succ_add]
    exact ih s.next.scan

theorem upcoming_add : s.upcoming (n + m) = s.upcoming n ++ (s.stepped n).upcoming m := by
  induction n generalizing s with
  | zero => rw [Nat.zero_add]; rfl
  | succ n ih =>
    rw [Nat.succ_add, upcoming_succ, upcoming_succ, ih s.next.scan]
    rfl

/-- All the tokens up to the end of the input are those of as many steps. -/
theorem tokens_eq_upcoming :
    s.tokens = s.upcoming s.tokens.length ∧ s.exhausted = s.stepped s.tokens.length := by
  induction s using steps.induct with
  | case1 s heof =>
    rw [tokens_of_eof heof, exhausted_of_eof heof]
    exact ⟨rfl, rfl⟩
  | case2 s hne ih =>
    obtain ⟨htokens, hscan⟩ := ih
    rw [tokens_of_ne_eof hne, exhausted_of_ne_eof hne]
    constructor
    · rw [List.length_cons, upcoming_succ, ← htokens]
    · exact hscan

end steps

/-! ## Pulls Are Steps -/

/-- A pull takes as many steps as it gives tokens. -/
theorem pull_eq_steps (s : Scan) (p : Pull) :
    (s.pull p).1 = s.upcoming (s.pull p).1.length ∧
      (s.pull p).2 = s.stepped (s.pull p).1.length := by
  cases p with
  | next => exact ⟨rfl, rfl⟩
  | all => exact s.tokens_eq_upcoming

/-- So do pulls in a row. -/
theorem pulls_eq_steps (s : Scan) (ps : List Pull) :
    s.pulled ps = s.upcoming (s.pulled ps).length ∧
      s.behindPulls ps = s.stepped (s.pulled ps).length := by
  induction ps generalizing s with
  | nil => exact ⟨rfl, rfl⟩
  | cons p ps ih =>
    obtain ⟨htokens, hscan⟩ := s.pull_eq_steps p
    obtain ⟨ihtokens, ihscan⟩ := ih (s.pull p).2
    constructor
    · calc s.pulled (p :: ps)
          = (s.pull p).1 ++ (s.pull p).2.pulled ps := rfl
        _ = s.upcoming (s.pull p).1.length ++
              (s.stepped (s.pull p).1.length).upcoming ((s.pull p).2.pulled ps).length := by
            rw [← htokens, ← hscan, ← ihtokens]
        _ = s.upcoming (s.pulled (p :: ps)).length := by
            rw [← upcoming_add, pulled, List.length_append]
    · calc s.behindPulls (p :: ps)
          = (s.pull p).2.behindPulls ps := rfl
        _ = (s.stepped (s.pull p).1.length).stepped ((s.pull p).2.pulled ps).length := by
            rw [← hscan, ← ihscan]
        _ = s.stepped (s.pulled (p :: ps)).length := by
            rw [← stepped_add, pulled, List.length_append]

/-! ## At the End of the Input -/

section ended

variable {s : Scan} (hsaved : s.modes.saved.side = .outside)
include hsaved

/-- A further step at the end of the input gives the ending token again and changes nothing. -/
theorem next_next_of_eof (h : s.next.token.kind = .eof) :
    s.next.scan.next.token = s.next.token ∧ s.next.scan.next.scan = s.next.scan := by
  obtain ⟨-, ht, hs⟩ := next_of_eof hsaved h
  rw [ht, hs]
  exact ⟨rfl, rfl⟩

/-- The scan stays at the end of the input. -/
theorem stepped_of_eof (h : s.next.token.kind = .eof) (n : Nat) :
    s.stepped (n + 1) = s.next.scan ∧ s.upcoming n = List.replicate n s.next.token := by
  induction n generalizing s with
  | zero => exact ⟨rfl, rfl⟩
  | succ n ih =>
    obtain ⟨htoken, hscan⟩ := next_next_of_eof hsaved h
    have hsaved' : s.next.scan.modes.saved.side = .outside := by
      rw [(next_of_eof hsaved h).2.2]
      exact hsaved
    have hend : s.next.scan.next.token.kind = .eof := by rw [htoken]; exact h
    obtain ⟨ihscan, ihtokens⟩ := ih hsaved' hend
    constructor
    · show s.next.scan.stepped (n + 1) = s.next.scan
      rw [ihscan, hscan]
    · rw [upcoming_succ, ihtokens, htoken]
      rfl

/-! ## The Tokens of So Many Steps -/

/-- So many steps give tokens up to the end of the input, and behind these the last of them over
    and over. -/
theorem upcoming_eq {e : Token} (he : s.tokens.getLast? = some e) (n : Nat) :
    s.upcoming n = s.tokens.take n ++ List.replicate (n - s.tokens.length) e := by
  induction s using steps.induct generalizing n with
  | case1 s heof =>
    rw [tokens_of_eof heof] at he ⊢
    obtain rfl : s.next.token = e := Option.some.inj he
    rw [(stepped_of_eof hsaved heof n).2]
    cases n with
    | zero => rfl
    | succ n =>
      rw [List.take_succ_cons, List.take_nil, List.length_singleton, Nat.add_sub_cancel]
      rfl
  | case2 s hne ih =>
    cases n with
    | zero => rw [List.take_zero, Nat.zero_sub]; rfl
    | succ n =>
      have hlast : s.next.scan.tokens.getLast? = some e := by
        rw [tokens_of_ne_eof hne] at he
        rwa [List.getLast?_cons_of_ne_nil s.next.scan.tokens_ne_nil] at he
      rw [upcoming_succ, ih (next_fits hsaved hne).2.2 hlast n, tokens_of_ne_eof hne,
        List.take_succ_cons, List.length_cons, Nat.succ_sub_succ, List.cons_append]

/-- Behind so many steps the tokens that are left are those not given yet, and at the end of the
    input the last one again. -/
theorem tokens_stepped (n : Nat) :
    (s.stepped n).tokens = s.tokens.drop (min n (s.tokens.length - 1)) := by
  induction s using steps.induct generalizing n with
  | case1 s heof =>
    obtain ⟨htoken, -⟩ := next_next_of_eof hsaved heof
    have hone : s.tokens.drop (min n (s.tokens.length - 1)) = s.tokens := by
      rw [tokens_of_eof heof, List.length_singleton, Nat.sub_self, Nat.min_zero, List.drop_zero]
    rw [hone]
    cases n with
    | zero => rfl
    | succ n =>
      rw [(stepped_of_eof hsaved heof n).1, tokens_of_eof heof, tokens_of_eof, htoken]
      rw [htoken]
      exact heof
  | case2 s hne ih =>
    cases n with
    | zero => rw [Nat.zero_min, List.drop_zero]; rfl
    | succ n =>
      have hpos := List.length_pos_iff.mpr s.next.scan.tokens_ne_nil
      have hmin : min (n + 1) s.next.scan.tokens.length =
          min n (s.next.scan.tokens.length - 1) + 1 := by omega
      show (s.next.scan.stepped n).tokens = _
      rw [ih (next_fits hsaved hne).2.2 n, tokens_of_ne_eof hne, List.length_cons,
        Nat.add_sub_cancel, hmin, List.drop_succ_cons]

/-- Steps behind the end of the input change nothing. -/
theorem stepped_min (n : Nat) : s.stepped n = s.stepped (min n s.tokens.length) := by
  induction s using steps.induct generalizing n with
  | case1 s heof =>
    rw [tokens_of_eof heof, List.length_singleton]
    cases n with
    | zero => rfl
    | succ n =>
      rw [Nat.min_eq_right (Nat.le_add_left 1 n)]
      exact (stepped_of_eof hsaved heof n).1
  | case2 s hne ih =>
    rw [tokens_of_ne_eof hne, List.length_cons]
    cases n with
    | zero => rw [Nat.zero_min]
    | succ n =>
      rw [Nat.succ_min_succ]
      exact ih (next_fits hsaved hne).2.2 n

end ended

/-! ## Any Schedule -/

/-- Whatever the schedule of pulls, the tokens that it has given are those of the source text, as
    many as have been asked for, with the ending token repeated behind them. To ask for all tokens
    then gives those not given yet up to the ending token, or this alone. And the mode in force
    is the one behind as many single steps, none of which changes it behind the ending token. -/
theorem pulls_agree (source : String) (ps : List Pull) :
    let s := ofSource source
    let count := (s.pulled ps).length
    let last := Token.ending (.at (Position.start.after source.toList))
    (tokenize source).getLast? = some last ∧ (∀ t ∈ (tokenize source).dropLast, t.kind ≠ .eof) ∧
    s.pulled ps = (tokenize source).take count ++
      List.replicate (count - (tokenize source).length) last ∧
    ((s.behindPulls ps).pull .all).1 =
      (tokenize source).drop (min count ((tokenize source).length - 1)) ∧
    (s.behindPulls ps).modes = (s.stepped (min count (tokenize source).length)).modes := by
  intro s count last
  have hsaved : s.modes.saved.side = .outside := rfl
  have hlast : s.tokens.getLast? = some last := (tiled_tokenize source).getLast?_eq
  obtain ⟨us, hus, hne⟩ := (tiled_tokenize source).eq_concat
  obtain ⟨htokens, hscan⟩ := s.pulls_eq_steps ps
  constructor
  · exact hlast
  constructor
  · rw [hus, List.dropLast_concat]
    exact hne
  constructor
  · rw [htokens]
    exact upcoming_eq hsaved hlast count
  constructor
  · show (s.behindPulls ps).tokens = _
    rw [hscan]
    exact tokens_stepped hsaved count
  · rw [hscan, stepped_min hsaved]
    rfl

-- The string that is not closed takes the blanks, and whoever asks for more gets the end again.
example : (ofSource "\x7b'a ").pulled [.next, .all, .next] =
    tokenize "\x7b'a " ++ [.ending ⟨4, 4, 1, 5⟩] := by
  decide +kernel

end Scan

end TemplateSyntax
