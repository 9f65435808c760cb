import CommandScript.Builtin
import CommandScript.CommandLine.Request
import CommandScript.Outline
import CommandScript.Script
import CommandScript.Tree.Run

/-
  What a program leaves for its user: how it ends, what it
  prints and when, what it reports as errors, and its log.

  Key definitions include:
    * `Exit`
    * `Report`
    * `Script.check`
    * `Script.run`
-/

namespace CommandScript

/- How a program ends. -/
inductive Exit where
| success
| failure
| misuse
| aborted
deriving DecidableEq, Repr

namespace Exit

/- The exit code of an ending. -/
def code : Exit → Nat
| .success => 0
| .failure => 1
| .misuse => 2
| .aborted => 101

end Exit

/-
  What a program leaves for its user, and the moment at
  which it ends.
-/
structure Report where
  exit : Exit
  output : Console
  errors : String
  log : List Entry
  ended : Nat
deriving DecidableEq, Repr

namespace Report

/- A text is printed, and all is well. -/
def success (text : String) : Report where
  exit := .success
  output := ⟨[⟨0, text⟩]⟩
  errors := ""
  log := []
  ended := 0

/- Nothing is printed, and an error is reported. -/
def failure
    (exit : Exit)
    (errors : String) : Report where
  exit := exit
  output := Console.empty
  errors := errors
  log := []
  ended := 0

/- Put entries in front of the log. -/
def after
    (log : List Entry)
    (r : Report) : Report :=
  { r with log := log ++ r.log }

/- The lines of the log that are worth to be shown. -/
def logLines
    (verbosity : Nat)
    (r : Report) : List String :=
  (r.log.filter fun entry =>
    entry.notice.level.isShown verbosity).map Entry.line

end Report

namespace Script

/- The language of the builtin commands in a dialect. -/
def language (dialect : Dialect) : Language Builtin where
  registry := Builtin.registry
  dialect := dialect

/- What is left of a script that cannot be parsed. -/
def rejected
    (s : Script)
    (language : Language Builtin) :
    Halt ParseError → Report
| .error cause =>
    Report.failure .failure
      (Diagnostic.parseFailed s.name
        language.registry.kinds cause).render
| .aborted => Report.failure .aborted ""

/-
  Parse a script and go on with its tree. Nothing is printed
  if it cannot be parsed.
-/
def parsed
    (s : Script)
    (dialect : Dialect)
    (next : Group Builtin → Report) : Report :=
  let language := language dialect
  let report :=
    match language.parse s.text with
    | .ok root => next root
    | .error halt => s.rejected language halt
  report.after (language.log s.text)

/- An outline in a format. -/
def outlineText
    (format : Format)
    (outline : Outline Builtin) : String :=
  match format with
  | .text => outline.text
  | .json => outline.json.pretty 0 ++ "\n"

/- Show the tree of a script without running it. -/
def check
    (s : Script)
    (dialect : Dialect)
    (format : Format) : Report :=
  s.parsed dialect fun root =>
    Report.success (outlineText format ⟨s.name, root⟩)

/- What is left of a script that has run. -/
def ran
    {σ : Type}
    (s : Script)
    (output : σ → Console)
    (p : Passage (Group Builtin) σ) : Report :=
  let leaving (exit : Exit) (errors : String) : Report :=
    { exit
      output := output p.world.state
      errors
      log := p.log
      ended := p.world.clock }
  match p.ending with
  | .finished .succeeded => leaving .success ""
  | .finished (.failed cause) =>
      leaving .failure
        (Diagnostic.runFailed s.name cause).render
  | .dropped => leaving .aborted ""

/- Run a tree on a sink. -/
def runOn
    {σ : Type} [Sink σ]
    (sink : σ)
    (root : Group Builtin) : Passage (Group Builtin) σ :=
  root.run Builtin.routine Plan.undisturbed
    (World.initial sink)

/- Run a script, whose output may be discarded. -/
def run
    (s : Script)
    (dialect : Dialect)
    (quiet : Bool) : Report :=
  s.parsed dialect fun root =>
    if quiet then
      s.ran (fun _ => Console.empty)
        (runOn Discard.discard root)
    else s.ran id (runOn Console.empty root)

end Script

end CommandScript
