import TemplateSyntax.Parse.Program

/-! # Log Records

  What scanning and parsing report, as records with a level and a target. The more
  verbose a level, the more records it lets through.
-/

namespace TemplateSyntax

/-- How much detail a record gives. -/
inductive LogLevel where
  | warn | info | debug | trace
deriving DecidableEq, Repr

namespace LogLevel

/-- The name of a level in a log line. -/
def name : LogLevel → String
  | warn => "WARN"
  | info => "INFO"
  | debug => "DEBUG"
  | trace => "TRACE"

/-- The place of a level among the levels, the least verbose first. -/
def rank : LogLevel → Nat
  | warn => 0
  | info => 1
  | debug => 2
  | trace => 3

/-- The level that a number of requests for more detail selects. -/
def ofVerbosity : Nat → LogLevel
  | 0 => warn
  | 1 => info
  | 2 => debug
  | _ => trace

end LogLevel

/-- One report. -/
structure LogRecord where
  level : LogLevel
  target : String
  message : String
deriving DecidableEq, Repr

namespace LogRecord

/-- Whether a record is let through at a level. Without a level none is. -/
def isShownAt (r : LogRecord) : Option LogLevel → Bool
  | none => false
  | some most => r.level.rank ≤ most.rank

/-- The line of a record. -/
def line (r : LogRecord) : String :=
  "[" ++ r.level.name ++ "][" ++ r.target ++ "] " ++ r.message

end LogRecord

/-- The lines of the records that a level lets through. -/
def logLines (most : Option LogLevel) (records : List LogRecord) : List String :=
  (records.filter (·.isShownAt most)).map LogRecord.line

/-! ### Scanning -/

/-- A place as line and column. -/
def Position.pair (p : Position) : String := toString p.line ++ ":" ++ toString p.column

/-- A record of the scanner. -/
def scannerRecord (level : LogLevel) (message : String) : LogRecord :=
  ⟨level, "nano::scanner", message⟩

/-- The record of a note. -/
def ScanNote.record : ScanNote → LogRecord
  | modeChange old new place =>
    scannerRecord .trace (old.name ++ " -> " ++ new.name ++ " at " ++ place.pair)
  | unterminated place =>
    scannerRecord .debug ("unterminated string starting at " ++ place.pair)

/-- What is reported while a source text is scanned. -/
def tokenizeLog (source : String) : List LogRecord :=
  let scan := Scan.ofSource source
  scan.notes.map ScanNote.record
    ++ [scannerRecord .debug ("scanned " ++ toString scan.tokens.length ++ " tokens")]

/-! ### Parsing -/

/-- A record of the parser. -/
def parserRecord (message : String) : LogRecord := ⟨.debug, "nano::parser", message⟩

/-- The record of a note. -/
def ParseNote.record : ParseNote → LogRecord
  | failed error => parserRecord error.message
  | skipped token =>
    parserRecord
      ("skipping " ++ token.kind.name ++ " \"" ++ token.text ++ "\" between switch cases")
  | parsed count => parserRecord ("parsed " ++ toString count ++ " top-level nodes")

/-- What is reported while a source text is compiled. -/
def compileLog (source : String) : List LogRecord :=
  tokenizeLog source
    ++ (Parse.program (.ofTokens (tokenize source))).notes.map ParseNote.record

end TemplateSyntax
