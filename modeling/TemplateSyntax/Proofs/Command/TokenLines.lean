import TemplateSyntax.Command
import TemplateSyntax.Number.Integer
import TemplateSyntax.Proofs.Text.Quoted

/-! # Reading Token Lines

  The lines that show some tokens are read back: how many they are, and for each where the token
  begins, of which kind it is and what its text is (`token_lines_read`). The fields of a line are
  told apart by the blanks that fill it up, for neither a number nor the name of a kind has any
  (`TokenRecord.read?_line`). No text breaks a line, for every character of a line is printable
  (`Token.printable_line`).
-/

namespace TemplateSyntax

/-- What the line of a token says. -/
structure TokenRecord where
  line : Nat
  column : Nat
  kind : Kind
  text : String
deriving DecidableEq, Repr

/-- What there is to say of a token. -/
def Token.record (t : Token) : TokenRecord := ⟨t.span.line, t.span.column, t.kind, t.text⟩

/-! ## Layout -/

theorem not_mem_toDigits {c : Char} (hc : c.isDigit = false) (n : Nat) :
    c ∉ Nat.toDigits 10 n := by
  intro h
  have hdigit := Nat.isDigit_of_mem_toDigits (by decide) (by decide) h
  exact Bool.false_ne_true (hc.symm.trans hdigit)

/-- Some characters, none of which is a blank or unprintable, such as the digits of a number or
    the name of a kind. -/
structure TokenRecord.IsField (cs : List Char) : Prop where
  ne_nil : cs ≠ []
  not_blank : ' ' ∉ cs
  printable : Text.Printable cs

theorem isField_toDigits (n : Nat) : TokenRecord.IsField (Nat.toDigits 10 n) where
  ne_nil := Nat.toDigits_ne_nil
  not_blank := not_mem_toDigits rfl n
  printable := Text.printable_toDigits (by decide) (by decide) n

theorem isField_name (k : Kind) : TokenRecord.IsField k.name.toList where
  ne_nil := by cases k <;> decide
  not_blank := by cases k <;> decide
  printable := Text.printable_of_all (by cases k <;> decide)

/-- A text that is filled up has at least the blank behind it that stands in front of the next
    field. -/
theorem toList_padRight (width : Nat) (s : String) :
    ∃ k, (padRight width s).toList ++ [' '] = s.toList ++ ' ' :: List.replicate k ' ' := by
  refine ⟨width - s.length, ?_⟩
  rw [padRight, String.toList_append, String.toList_ofList, List.append_assoc,
    ← List.replicate_succ', List.replicate_succ]

/-- The line of a token: two numbers with a colon between them, the name of a kind, and a text in
    quotes, with blanks in between. -/
theorem Token.toList_line (t : Token) : ∃ j k, t.line.toList =
    Nat.toDigits 10 t.span.line ++ ':' :: (Nat.toDigits 10 t.span.column ++ ' ' ::
      (List.replicate j ' ' ++ (t.kind.name.toList ++ ' ' ::
        (List.replicate k ' ' ++ (Text.quoted t.text).toList)))) := by
  obtain ⟨j, hj⟩ := toList_padRight 8 (toString t.span.line ++ ":" ++ toString t.span.column)
  obtain ⟨k, hk⟩ := toList_padRight 15 t.kind.name
  refine ⟨j, k, ?_⟩
  calc t.line.toList
      = ((padRight 8 (toString t.span.line ++ ":" ++ toString t.span.column)).toList ++ [' ']) ++
          ((padRight 15 t.kind.name).toList ++ [' ']) ++ (Text.quoted t.text).toList := by
        simp [Token.line]
    _ = _ := by
        rw [hj, hk]
        simp

/-- Every character of a line is printable. -/
theorem Token.printable_line (t : Token) : Text.Printable t.line.toList := by
  obtain ⟨j, k, hline⟩ := t.toList_line
  have hcolon : Text.isUnprintable ':' = false := by decide
  have hblank : Text.isUnprintable ' ' = false := by decide
  simp only [hline, Text.printable_append, Text.printable_cons]
  exact ⟨(isField_toDigits _).printable, hcolon, (isField_toDigits _).printable, hblank,
    Text.printable_replicate hblank j, (isField_name t.kind).printable, hblank,
    Text.printable_replicate hblank k, Text.printable_quoted t.text⟩

/-- No character of a line ends it. -/
theorem Token.unbroken_line (t : Token) : ∀ c ∈ t.line.toList, isBreak c = false := by
  intro c hc
  have hprintable := t.printable_line c hc
  by_cases hbreak : isBreak c = true
  · have hcases : c = '\n' ∨ c = '\r' := by simpa [isBreak] using hbreak
    rcases hcases with rfl | rfl <;> exact absurd hprintable (by decide)
  · exact Bool.not_eq_true _ ▸ hbreak

-- A line feed in a text is a letter behind a backslash in the line.
example : (⟨.text, .at .start, "a\nb"⟩ : Token).line = "1:1      text            \"a\\nb\"" := by
  decide +kernel

/-! ## Reading a Line -/

/-- The number that some decimal digits write. -/
def number? (cs : List Char) : Option Nat :=
  if cs ≠ [] ∧ cs.all Char.isDigit then some (digitsValue cs) else none

theorem number?_toDigits (n : Nat) : number? (Nat.toDigits 10 n) = some n := by
  have hdigits : (Nat.toDigits 10 n).all Char.isDigit = true :=
    List.all_eq_true.mpr fun _ h => Nat.isDigit_of_mem_toDigits (by decide) (by decide) h
  rw [number?, if_pos ⟨Nat.toDigits_ne_nil, hdigits⟩, digitsValue_toDigits]

/-- What stands behind blanks. -/
def dropBlanks (cs : List Char) : List Char := cs.dropWhile (· = ' ')

theorem dropBlanks_replicate {cs : List Char} (h : cs.head? ≠ some ' ') (k : Nat) :
    dropBlanks (List.replicate k ' ' ++ cs) = cs := by
  rw [dropBlanks, List.dropWhile_append_of_pos (by simp)]
  cases cs with
  | nil => rfl
  | cons c cs =>
    have hc : c ≠ ' ' := fun hc => h (congrArg some hc)
    rw [List.dropWhile_cons_of_neg (by simpa using hc)]

theorem TokenRecord.IsField.head {cs : List Char} (h : TokenRecord.IsField cs) (rest : List Char) :
    (cs ++ rest).head? ≠ some ' ' := by
  obtain ⟨c, cs, rfl⟩ := List.exists_cons_of_ne_nil h.ne_nil
  intro hc
  exact h.not_blank (Option.some.inj hc ▸ List.mem_cons_self)

namespace TokenRecord

/-- What a line says, field by field. -/
def read? (cs : List Char) : Option TokenRecord := do
  let (line, cs) ← Text.upTo? ':' cs
  let (column, cs) ← Text.upTo? ' ' cs
  let (name, cs) ← Text.upTo? ' ' (dropBlanks cs)
  let text ← Text.unquoted? (dropBlanks cs)
  return ⟨← number? line, ← number? column, ← Kind.ofName? (.ofList name), .ofList text⟩

/-- The line of a token says what there is to say of it. -/
theorem read?_line (t : Token) : read? t.line.toList = some t.record := by
  obtain ⟨j, k, hline⟩ := t.toList_line
  have hcolon : ':' ∉ Nat.toDigits 10 t.span.line := not_mem_toDigits rfl _
  have hname := isField_name t.kind
  have hquote : (Text.quoted t.text).toList.head? ≠ some ' ' := by
    rw [Text.quoted, String.toList_ofList, List.head?_cons]
    decide
  -- Each field ends at the first colon, blank or quote, as none stands in the field itself.
  simp only [read?, hline, Text.upTo?_append hcolon, Option.bind_eq_bind, Option.bind_some,
    Text.upTo?_append (isField_toDigits _).not_blank, dropBlanks_replicate (hname.head _),
    Text.upTo?_append hname.not_blank, dropBlanks_replicate hquote, Text.unquoted?_quoted,
    number?_toDigits, String.ofList_toList, Kind.ofName?_name, Option.pure_def]
  rfl

end TokenRecord

/-! ## All Lines -/

/-- What is written when some lines are, each with a line feed behind it. -/
def written (lines : List String) : String := .join (lines.map (· ++ "\n"))

/-- The lines of what is written, each up to its line feed. -/
def linesOf (s : String) : List String := (s.toList.splitOn '\n').dropLast.map .ofList

theorem splitOn_written_cons {l : String} (h : '\n' ∉ l.toList) (lines : List String) :
    (written (l :: lines)).toList.splitOn '\n' =
      l.toList :: (written lines).toList.splitOn '\n' := by
  have hl : ∀ c ∈ l.toList, (c == '\n') = false := fun c hc =>
    beq_false_of_ne fun heq => h (heq ▸ hc)
  have happend : (written (l :: lines)).toList = l.toList ++ '\n' :: (written lines).toList := by
    simp [written, String.toList_join]
  rw [happend]
  calc (l.toList ++ '\n' :: (written lines).toList).splitOn '\n'
      = l.toList.splitOn '\n' ++ (written lines).toList.splitOn '\n' :=
        List.splitOnP_append_cons _ _ (beq_self_eq_true '\n')
    _ = [l.toList] ++ (written lines).toList.splitOn '\n' :=
        congrArg (· ++ (written lines).toList.splitOn '\n') (List.splitOnP_eq_singleton hl)

theorem linesOf_written {lines : List String} (h : ∀ l ∈ lines, '\n' ∉ l.toList) :
    linesOf (written lines) = lines := by
  induction lines with
  | nil => rfl
  | cons l lines ih =>
    -- What the last line feed has behind it is dropped, and the lines in front of it are not.
    have hrest : (written lines).toList.splitOn '\n' ≠ [] := List.splitOnP_ne_nil _ _
    rw [linesOf, splitOn_written_cons (h l List.mem_cons_self), List.dropLast_cons_of_ne_nil hrest,
      List.map_cons, String.ofList_toList]
    exact congrArg (l :: ·) (ih fun l' hl' => h l' (List.mem_cons_of_mem l hl'))

/-- What some lines say, line by line. -/
def TokenRecord.readLines? (s : String) : Option (List TokenRecord) :=
  (linesOf s).mapM (read? ·.toList)

/-- Each token is shown on a line of its own. -/
theorem linesOf_tokens (ts : List Token) :
    linesOf (written (ts.map Token.line)) = ts.map Token.line := by
  apply linesOf_written
  intro l hl hbreak
  obtain ⟨t, -, rfl⟩ := List.mem_map.mp hl
  exact absurd (t.unbroken_line _ hbreak) (by decide)

theorem TokenRecord.readLines?_tokens (ts : List Token) :
    readLines? (written (ts.map Token.line)) = some (ts.map Token.record) := by
  have hread : (read? ·.toList) ∘ Token.line = fun t => some t.record := funext read?_line
  rw [readLines?, linesOf_tokens, List.mapM_map, hread]
  exact List.mapM_pure

/-- What is written to show some tokens has one line for each of them, no text breaks a line, and
    the place, the kind and the text of each token are read back. So two lists of tokens are
    written alike only if they are alike in all of this, and what the command shows of a source
    text tells what its tokens are. -/
theorem token_lines_read :
    (∀ ts : List Token,
      linesOf (written (ts.map Token.line)) = ts.map Token.line ∧
      (∀ t ∈ ts, Text.Printable t.line.toList ∧ ∀ c ∈ t.line.toList, isBreak c = false) ∧
      TokenRecord.readLines? (written (ts.map Token.line)) = some (ts.map Token.record)) ∧
    (∀ ts us : List Token, written (ts.map Token.line) = written (us.map Token.line) →
      ts.map Token.record = us.map Token.record) ∧
    ∀ path verbosity source, TokenRecord.readLines?
        (written (Request.respondTo ⟨.tokens, path, verbosity⟩ source).stdout) =
      some ((tokenize source).map Token.record) := by
  constructor
  · intro ts
    exact ⟨linesOf_tokens ts, fun t _ => ⟨t.printable_line, t.unbroken_line⟩,
      TokenRecord.readLines?_tokens ts⟩
  constructor
  · intro ts us h
    have hread := TokenRecord.readLines?_tokens ts
    rw [h, TokenRecord.readLines?_tokens us] at hread
    exact (Option.some.inj hread).symm
  · intro path verbosity source
    exact TokenRecord.readLines?_tokens (tokenize source)

end TemplateSyntax
