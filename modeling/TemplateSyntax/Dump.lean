/-! # Dumps

  A dump shows a value by the names of its parts: records with named fields, tuples
  with unnamed ones, and lists. It is set on one line, or as a block with one part a
  line, each level indented further and each part followed by a comma.
-/

namespace TemplateSyntax

/-- A value to be shown. -/
inductive Dump where
  /-- A text that stands for itself. -/
  | atom (text : String)
  | record (name : String) (fields : List (String × Dump))
  | tuple (name : String) (items : List Dump)
  | list (items : List Dump)
deriving Repr, Inhabited

namespace Dump

/-- A value that may be missing. -/
def option : Option Dump → Dump
  | none => .atom "None"
  | some d => .tuple "Some" [d]

/-! ### On One Line -/

/-- Parts with commas between them. -/
def joinParts (parts : List String) : String := String.intercalate ", " parts

mutual

/-- A value on one line. -/
def inline : Dump → String
  | .atom text => text
  | .record name fields => name ++ " \x7b " ++ joinParts (inlineFields fields) ++ " \x7d"
  | .tuple name items => name ++ "(" ++ joinParts (inlineItems items) ++ ")"
  | .list items => "[" ++ joinParts (inlineItems items) ++ "]"

/-- Each field on one line. -/
def inlineFields : List (String × Dump) → List String
  | [] => []
  | (name, d) :: rest => (name ++ ": " ++ d.inline) :: inlineFields rest

/-- Each item on one line. -/
def inlineItems : List Dump → List String
  | [] => []
  | d :: rest => d.inline :: inlineItems rest

end

/-! ### As a Block -/

/-- The blanks before a part at a level. -/
def indentation (level : Nat) : String :=
  .ofList (List.replicate (4 * level) ' ')

/-- Lines of parts between an opening and a closing mark. -/
def enclose (level : Nat) (opening : String) (lines : List String) (closing : String) :
    String :=
  opening ++ "\n" ++ String.join lines ++ indentation level ++ closing

mutual

/-- A value as a block that begins at a level. -/
def block (level : Nat) : Dump → String
  | .atom text => text
  | .record name fields =>
    enclose level (name ++ " \x7b") (fieldLines (level + 1) fields) "\x7d"
  | .tuple name items => enclose level (name ++ "(") (itemLines (level + 1) items) ")"
  | .list [] => "[]"
  | .list (d :: rest) => enclose level "[" (itemLines (level + 1) (d :: rest)) "]"

/-- Each field on lines of its own. -/
def fieldLines (level : Nat) : List (String × Dump) → List String
  | [] => []
  | (name, d) :: rest =>
    (indentation level ++ name ++ ": " ++ d.block level ++ ",\n") :: fieldLines level rest

/-- Each item on lines of its own. -/
def itemLines (level : Nat) : List Dump → List String
  | [] => []
  | d :: rest => (indentation level ++ d.block level ++ ",\n") :: itemLines level rest

end

end Dump

end TemplateSyntax
