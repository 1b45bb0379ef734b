import TemplateSyntax.Diagnostic
import TemplateSyntax.Log
import TemplateSyntax.Tree.Dump

/-! # Commands

  The command line: it shows the tokens or the tree of a template, or checks whether
  the template compiles. A response is a function of the request and of what the file
  holds; reading the file is left to the caller.
-/

namespace TemplateSyntax

/-- The version of this program. -/
def version : String := "0.1.0"

/-- What to do with a template. -/
inductive Action where
  /-- Show its tokens. -/
  | tokens
  /-- Show its tree. -/
  | ast
  /-- Say whether it compiles. -/
  | check
deriving DecidableEq, Repr

/-- What reading a file came to. -/
inductive FileContent where
  | missing
  /-- It cannot be read, for the given reason. -/
  | unreadable (reason : String)
  | bytes (content : ByteArray)

/-- The reason why a directory cannot be read as a file. -/
def FileContent.directory : FileContent := .unreadable "Is a directory (os error 21)"

/-- A command line. -/
structure Request where
  action : Action
  path : String
  /-- How many times more detail is asked for. -/
  verbosity : Nat
deriving DecidableEq, Repr

/-- What a command leaves behind: its exit code and the lines it writes. -/
structure Response where
  code : Nat
  stdout : List String
  stderr : List String
deriving DecidableEq, Repr

/-! ### Token Lines -/

/-- A text filled up with blanks to a width. -/
def padRight (width : Nat) (s : String) : String :=
  s ++ .ofList (List.replicate (width - s.length) ' ')

/-- The line of a token: where it begins, its kind, and its text in quotes. -/
def Token.line (t : Token) : String :=
  padRight 8 (toString t.span.line ++ ":" ++ toString t.span.column) ++ " "
    ++ padRight 15 t.kind.name ++ " " ++ Text.quoted t.text

/-! ### Responses -/

namespace Request

/-- A record of the command line itself. -/
def infoRecord (message : String) : LogRecord := ⟨.info, "nano::cli", message⟩

/-- The source text of a template, or what is wrong with the file. -/
def source (r : Request) : FileContent → Except String String
  | .missing => .error ("file not found: " ++ r.path)
  | .unreadable reason => .error ("cannot read " ++ r.path ++ ": " ++ reason)
  | .bytes content =>
    match String.fromUTF8? content with
    | some text => .ok text
    | none => .error ("cannot read " ++ r.path ++ ": stream did not contain valid UTF-8")

/-- The lines that the request's level lets through. -/
def logged (r : Request) (records : List LogRecord) : List String :=
  logLines (some (.ofVerbosity r.verbosity)) records

/-- The response when something went wrong. -/
def refuse (r : Request) (records : List LogRecord) (message : String) : Response :=
  ⟨1, [], r.logged records ++ ["Error: " ++ message]⟩

/-- The response on a template whose source text is at hand. -/
def respondTo (r : Request) (text : String) : Response :=
  let records := [infoRecord ("read " ++ toString text.utf8ByteSize ++ " bytes from " ++ r.path)]
  match r.action with
  | .tokens =>
    ⟨0, (tokenize text).map Token.line, r.logged (records ++ tokenizeLog text)⟩
  | .ast =>
    match compile text with
    | .ok program => ⟨0, [program.dump.block 0], r.logged (records ++ compileLog text)⟩
    | .error e => r.refuse (records ++ compileLog text) (r.path ++ ": " ++ e.message)
  | .check =>
    match compile text with
    | .ok program =>
      let count := infoRecord (toString program.body.length ++ " top-level nodes")
      ⟨0, [], r.logged (records ++ compileLog text ++ [count]) ++ ["OK: " ++ r.path]⟩
    | .error e => r.refuse (records ++ compileLog text) (r.path ++ ": " ++ e.message)

/-- The response to a request, given what reading the file came to. -/
def respond (r : Request) (file : FileContent) : Response :=
  match r.source file with
  | .ok text => r.respondTo text
  | .error message => r.refuse [] message

/-! ### Command Lines -/

/-- The action that a word of the command line names. -/
def action? : String → Option Action
  | "tokens" => some .tokens
  | "ast" => some .ast
  | "check" => some .check
  | _ => none

/-- How many times an option asks for more detail, if that is what it does. -/
def detail? (option : String) : Option Nat :=
  if option = "--verbose" then some 1
  else
    match option.toList with
    | '-' :: 'v' :: vs => if vs.all (· = 'v') then some (vs.length + 1) else none
    | _ => none

/-- The request of a command line: an action and a path, with options anywhere. -/
def ofArguments? (arguments : List String) : Option Request :=
  let isOption (a : String) : Bool := a.startsWith "-" && a ≠ "-"
  let (options, words) := arguments.partition isOption
  match options.mapM detail?, words with
  | some details, [word, path] =>
    (action? word).map fun action => ⟨action, path, details.foldl (· + ·) 0⟩
  | _, _ => none

end Request

end TemplateSyntax
