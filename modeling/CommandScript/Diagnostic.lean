import CommandScript.Dialect.Document
import CommandScript.Language

/-
  Diagnostics: what is reported about a script that cannot
  be found, read, parsed or run. A diagnostic is a headline,
  notes that explain it, and help on what to try next.

  Key definitions include:
    * `Diagnostic`
    * `Diagnostic.render`
    * `Diagnostic.scriptNotFound`
    * `Diagnostic.scriptUnreadable`
    * `Diagnostic.invalidDialect`
    * `Diagnostic.parseFailed`
    * `Diagnostic.runFailed`
-/

namespace CommandScript

/- A report of one failure. -/
structure Diagnostic where
  headline : String
  notes : List String
  helps : List String
deriving DecidableEq, Repr

namespace Diagnostic

/- A report on the terminal, one line after another. -/
def render (d : Diagnostic) : String :=
  "error: " ++ d.headline ++ "\n" ++
    String.join
      (d.notes.map fun note => "  note: " ++ note ++ "\n") ++
    String.join
      (d.helps.map fun help => "  help: " ++ help ++ "\n")

/- A script that is nowhere among the paths tried. -/
def scriptNotFound
    (name : String)
    (tried : List String) : Diagnostic where
  headline := "Script '" ++ name ++ "' not found"
  notes := tried.map fun path => "Tried " ++ path
  helps :=
    [ "Check the path, or pass '-' to read the script " ++
        "from stdin" ]

/- A script that is there but cannot be read. -/
def scriptUnreadable
    (name reason : String) : Diagnostic where
  headline := "Failed to read script " ++ name
  notes := [reason]
  helps := []

/- A standard input that cannot be read. -/
def inputUnreadable (reason : String) : Diagnostic where
  headline := "Failed to read script from stdin"
  notes := [reason]
  helps := []

/- A dialect file that is of no use, for some reason. -/
def invalidDialect
    (name reason : String) : Diagnostic where
  headline := "Invalid syntax definition " ++ name
  notes := [reason]
  helps :=
    [ "Valid keys are group_open, group_close and " ++
        "comment_prefixes" ]

/- What explains a parse error, given the known kinds. -/
def parseNotes
    (kinds : List String) : ParseError → List String
| .unknownKind _ _ =>
    ["Available kinds: " ++ String.intercalate ", " kinds]
| .configuration _ _ (.notConfigurable _) =>
    ["This command kind takes no parameters"]
| _ => []

/- What to try about a parse error. -/
def parseHelps : ParseError → List String
| .unknownKind _ _ =>
    ["List command kinds with: cmdconf kinds"]
| .unexpectedClose _ | .unclosedGroup _ =>
    [ "Check that every group open marker has a matching " ++
        "close marker" ]
| .malformed _ _ =>
    [ "Commands are written as: kind key=value " ++
        "key=\"quoted value\"" ]
| .configuration _ _ _ => []

/- A script that cannot be parsed. -/
def parseFailed
    (script : String)
    (kinds : List String)
    (cause : ParseError) : Diagnostic where
  headline := script ++ ": " ++ cause.message
  notes := parseNotes kinds cause
  helps := parseHelps cause

/- Where and why a run failed. -/
def runHeadline
    (script : String)
    (cause : CommandError) : String :=
  match cause.location with
  | some location =>
      script ++ ":" ++ toString location.line ++ ": " ++
        location.kind ++ " failed: " ++
        cause.rootCause.message
  | none => script ++ ": " ++ cause.message

/- A script of which a command failed. -/
def runFailed
    (script : String)
    (cause : CommandError) : Diagnostic where
  headline := runHeadline script cause
  notes :=
    [ if cause.rootCause = .cancelled then
        "The run was interrupted"
      else "Commands after the failing one were not run" ]
  helps := []

end Diagnostic

end CommandScript
