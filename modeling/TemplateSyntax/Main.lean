import TemplateSyntax.Command

/-! # Command Line

  Reads the file that the arguments name, writes the response, and exits with its
  code.
-/

namespace TemplateSyntax

/-- The number and the wording of an operating system error. -/
def systemError : IO.Error → Option (UInt32 × String)
  | .alreadyExists _ code details | .inappropriateType _ code details
  | .interrupted _ code details | .invalidArgument _ code details
  | .noFileOrDirectory _ code details | .noSuchThing _ code details
  | .permissionDenied _ code details | .resourceExhausted _ code details =>
    some (code, details)
  | .hardwareFault code details | .illegalOperation code details
  | .otherError code details | .protocolError code details
  | .resourceBusy code details | .resourceVanished code details
  | .timeExpired code details | .unsatisfiedConstraints code details
  | .unsupportedOperation code details => some (code, details)
  | .unexpectedEof | .userError _ => none

/-- What reading a file comes to. -/
def readFile (path : String) : IO FileContent := do
  try
    return .bytes (← IO.FS.readBinFile path)
  catch e =>
    match e, systemError e with
    | .noFileOrDirectory .., _ => return .missing
    | _, some (code, details) =>
      return .unreadable (details ++ " (os error " ++ toString code ++ ")")
    | _, none => return .unreadable (toString e)

end TemplateSyntax

open TemplateSyntax

/-- Answers one command line. -/
def main (arguments : List String) : IO UInt32 := do
  match Request.ofArguments? arguments with
  | none =>
    IO.eprintln "usage: [-v ...] (tokens | ast | check) PATH"
    return 2
  | some request =>
    let response := request.respond (← readFile request.path)
    for line in response.stdout do IO.println line
    for line in response.stderr do IO.eprintln line
    return .ofNat response.code
