import CommandScript.CommandError

/-
  The log of a script: what is noted while a text is read
  and while its commands run, and under which commands.

  Key definitions include:
    * `Level`
    * `Remark`
    * `Notice`
    * `Entry`
    * `Entry.line`
-/

namespace CommandScript

/- How much a notice matters. -/
inductive Level where
| debug
| info
| warn
| error
deriving DecidableEq, Repr

namespace Level

/- The word for a level. -/
def word : Level → String
| .debug => "DEBUG"
| .info => "INFO"
| .warn => "WARN"
| .error => "ERROR"

/-
  Whether a level is worth a line. Warnings and errors
  always are, the rest only if more is asked for.
-/
def isShown (verbosity : Nat) : Level → Bool
| .warn | .error => true
| .debug | .info => 0 < verbosity

end Level

/- What a command notes about itself while it runs. -/
inductive Remark where
| waiting (milliseconds : Nat)
deriving DecidableEq, Repr

/- What can be noted in a log. -/
inductive Notice where
| constructed (location : Location) (params : Nat)
| parsed (commands depth : Nat)
| replaced (kind : String)
| starting
| completed
| failed (error : String)
| remark (remark : Remark)
| cancelling
deriving DecidableEq, Repr

namespace Notice

/- The level of a notice. -/
def level : Notice → Level
| .replaced _ => .warn
| .failed _ => .error
| .cancelling => .info
| _ => .debug

/- The wording of a notice. -/
def message : Notice → String
| .constructed _ _ => "command"
| .parsed _ _ => "parsed config"
| .replaced _ =>
    "command kind re-registered, " ++
      "replacing previous constructor"
| .starting => "starting"
| .completed => "completed"
| .failed _ => "failed"
| .remark (.waiting _) => "waiting"
| .cancelling => "cancellation requested"

/- What a notice is about, as keys with values. -/
def details : Notice → List (String × String)
| .constructed location params =>
    [ ("line", toString location.line),
      ("kind", location.kind),
      ("params", toString params) ]
| .parsed commands depth =>
    [ ("commands", toString commands),
      ("depth", toString depth) ]
| .replaced kind => [("kind", kind)]
| .failed error => [("error", error)]
| .remark (.waiting milliseconds) =>
    [("duration_ms", toString milliseconds)]
| _ => []

end Notice

/-
  A notice and the commands it stands under, the outermost
  first.
-/
structure Entry where
  notice : Notice
  path : List Location
deriving DecidableEq, Repr

namespace Entry

/- An entry as a line of a log. -/
def line (e : Entry) : String :=
  e.notice.level.word ++ " " ++
    String.join
      (e.path.map fun location =>
        location.kind ++ ":" ++ toString location.line ++
          ": ") ++
    e.notice.message ++
    String.join
      (e.notice.details.map fun detail =>
        " " ++ detail.1 ++ "=" ++ detail.2) ++
    "\n"

end Entry

end CommandScript
