import CommandScript.Attempt
import CommandScript.Dictionary
import CommandScript.Duration.Phrase
import CommandScript.Number.Decimal
import CommandScript.Text.Quoted

/-
  The textual parameters of one command, the readings of
  their values, and the errors of a configuration.

  Key definitions include:
    * `Params`
    * `ConfigError`
    * `Reading`
    * `Params.parse`
    * `Params.duration`
    * `Params.denyUnknown`
-/

namespace CommandScript

/- Parameters by their names. -/
abbrev Params :=
  Dictionary String

------------------------------------------------------------
-- Errors
------------------------------------------------------------

/- Why a text is no single character. -/
inductive CharacterError where
| empty
| several
deriving DecidableEq, Repr

/- Why the value of a parameter is refused. -/
inductive ValueError where
| integer (cause : IntegerError)
| literal (cause : LiteralError)
| truth
| character (cause : CharacterError)
| seconds (cause : SecondsError)
| phrase (cause : PhraseError)
| combinedWithSeconds
deriving DecidableEq, Repr

/- Why a command cannot be configured. -/
inductive ConfigError where
| missingParameter (key : String)
| invalidValue
    (key value : String)
    (reason : ValueError)
| unknownParameter (key : String)
| notConfigurable (key : String)
deriving DecidableEq, Repr

namespace CharacterError

/- The wording of a character error. -/
def message : CharacterError → String
| .empty => "cannot parse char from empty string"
| .several => "too many characters in string"

end CharacterError

namespace ValueError

/- The wording of a value error. -/
def message : ValueError → String
| .integer cause => cause.message
| .literal cause => cause.message
| .truth => "provided string was not `true` or `false`"
| .character cause => cause.message
| .seconds cause => cause.message
| .phrase cause => cause.message
| .combinedWithSeconds => "cannot be combined with seconds"

end ValueError

namespace ConfigError

/- The wording of a configuration error. -/
def message : ConfigError → String
| .missingParameter key =>
    "missing required parameter: " ++ key
| .invalidValue key value reason =>
    "invalid value " ++ Text.quote value ++
      " for parameter " ++ key ++ ": " ++ reason.message
| .unknownParameter key => "unknown parameter: " ++ key
| .notConfigurable key =>
    "command takes no parameters, got: " ++ key

end ConfigError

------------------------------------------------------------
-- Readings of Values
------------------------------------------------------------

/- A way to read the text of a value. -/
abbrev Reading (α : Type) :=
  List Char → Except ValueError α

namespace Reading

/- Read an integer of a range. -/
def integer (range : IntegerRange) : Reading Int :=
  fun s => (range.read s).mapError .integer

/- Read a double-precision number. -/
def number : Reading Binary64 :=
  fun s => (Binary64.read s).mapError .literal

/- Read a truth value. -/
def truth : Reading Bool :=
  fun s =>
    if s = "true".toList then .ok true
    else if s = "false".toList then .ok false
    else .error .truth

/- Read a single character. -/
def character : Reading Char
| [] => .error (.character .empty)
| [c] => .ok c
| _ => .error (.character .several)

/- Take the text as it is. -/
def text : Reading String :=
  fun s => .ok (String.ofList s)

end Reading

------------------------------------------------------------
-- Parameters
------------------------------------------------------------

namespace Params

/- The value of a parameter that must be there. -/
def require
    (params : Params)
    (key : String) : Except ConfigError String :=
  match params.get? key with
  | some value => .ok value
  | none => .error (.missingParameter key)

/- Read the value of a parameter that may be missing. -/
def parse
    {α : Type}
    (params : Params)
    (reading : Reading α)
    (key : String) : Except ConfigError (Option α) :=
  match params.get? key with
  | none => .ok none
  | some raw =>
      match reading raw.toList with
      | .ok value => .ok (some value)
      | .error reason => .error (.invalidValue key raw reason)

/- Read the value of a parameter that must be there. -/
def parseRequired
    {α : Type}
    (params : Params)
    (reading : Reading α)
    (key : String) : Except ConfigError α :=
  match params.parse reading key with
  | .ok (some value) => .ok value
  | .ok none => .error (.missingParameter key)
  | .error cause => .error cause

/-
  Read a duration: any number literal is a number of
  seconds, any other text is a phrase.
-/
def readDuration
    (raw : List Char) : Attempt ValueError Duration :=
  match Binary64.read raw with
  | .ok value =>
      Attempt.ofExcept
        ((Duration.ofSeconds value).mapError .seconds)
  | .error _ => (Phrase.read raw).wrap .phrase

/- Read the duration under a key, if there is one. -/
def duration
    (params : Params)
    (key : String) :
    Attempt ConfigError (Option Duration) :=
  match params.get? key with
  | none => .ok none
  | some raw =>
      Attempt.wrap (.invalidValue key raw)
        ((readDuration raw.toList).map some)

/- Refuse the first key that is not among the allowed. -/
def denyUnknown
    (params : Params)
    (allowed : List String) : Except ConfigError Unit :=
  match params.keys.find? fun key => !allowed.contains key with
  | some key => .error (.unknownParameter key)
  | none => .ok ()

/- Refuse any parameter, naming the first. -/
def denyAll (params : Params) : Except ConfigError Unit :=
  match params.keys with
  | [] => .ok ()
  | key :: _ => .error (.notConfigurable key)

end Params

end CommandScript
