/-
  The errors that commands report when they run, and where
  in a script they arose.

  Key definitions include:
    * `Location`
    * `CommandError`
    * `CommandError.located`
    * `CommandError.location`
    * `CommandError.rootCause`
    * `CommandResult`
-/

namespace CommandScript

/- The kind and the source line of a command. -/
structure Location where
  kind : String
  line : Nat
deriving DecidableEq, Repr

/- Why a command has failed. -/
inductive CommandError where
| failed (message : String)
| cancelled
| alreadyCompleted
| alreadyStarted
| raisedAt (location : Location) (source : CommandError)
deriving DecidableEq, Repr

namespace CommandError

/- The wording of a command error. -/
def message : CommandError → String
| .failed text => text
| .cancelled => "cancelled"
| .alreadyCompleted =>
    "command group has already completed"
| .alreadyStarted =>
    "command group was already started and " ++
      "cannot be run again"
| .raisedAt location source =>
    location.kind ++ " (line " ++ toString location.line ++
      "): " ++ source.message

/- The outermost location of an error. -/
def location : CommandError → Option Location
| .raisedAt location _ => some location
| _ => none

/- The error without its locations. -/
def rootCause : CommandError → CommandError
| .raisedAt _ source => source.rootCause
| cause => cause

/- Give an error a location, unless it has one. -/
def located
    (location : Location) : CommandError → CommandError
| .raisedAt inner source => .raisedAt inner source
| cause => .raisedAt location cause

end CommandError

/- What a command comes to when it ends. -/
inductive CommandResult where
| succeeded
| failed (cause : CommandError)
deriving DecidableEq, Repr

end CommandScript
