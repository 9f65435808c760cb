import CommandScript.CommandLine.Help
import CommandScript.CommandLine.Report

/-
  The program behind a command line. It sets up its log,
  reads the dialect that it is given, and then does what it
  is asked to do; the first thing that fails ends it.

  Key definitions include:
    * `CommandLine.Failure`
    * `CommandLine.prepareLog`
    * `CommandLine.loadDialect`
    * `CommandLine.perform`
    * `CommandLine.program`
-/

namespace CommandScript

namespace CommandLine

------------------------------------------------------------
-- Failures
------------------------------------------------------------

/- Why a program ends before its task is done. -/
inductive Failure where
| logging (reason : String)
| diagnosed (diagnostic : Diagnostic)
| aborted
deriving DecidableEq, Repr

namespace Failure

/- What is left of a program that ends with a failure. -/
def report : Failure → Report
| .logging reason =>
    Report.failure .failure
      ("error: failed to set up logging: " ++ reason ++
        "\n")
| .diagnosed diagnostic =>
    Report.failure .failure diagnostic.render
| .aborted => Report.failure .aborted ""

end Failure

------------------------------------------------------------
-- Steps
------------------------------------------------------------

variable {m : Type → Type} [Monad m] [Files m]

/- Go on with a value, or end with a diagnostic. -/
def orDiagnose
    {α : Type}
    (step : m (Except Diagnostic α)) :
    ExceptT Failure m α := do
  match ← (step : m _) with
  | .ok value => return value
  | .error diagnostic => throw (.diagnosed diagnostic)

/-
  Make the directory of a log file, and the file itself if
  it is missing. A log file that cannot be opened aborts the
  program.
-/
def openLog (path : String) : ExceptT Failure m Unit := do
  let directory := Path.parent path
  match ← (Files.makeDirectories directory : m _) with
  | .error cause => throw (.logging cause.message)
  | .ok () =>
      match Path.fileName? path with
      | none =>
          throw
            (.logging
              ("log file path has no file name: " ++ path))
      | some name =>
          let file := Path.child directory name
          match ← (Files.openAppend file : m _) with
          | .error _ => throw .aborted
          | .ok () => return

/- Set up the log. Without a file there is nothing to do. -/
def prepareLog :
    Option String → ExceptT Failure m Unit
| none => return
| some path => openLog path

/- Read a dialect from a file. -/
def loadDialectFile
    (path : String) : m (Except Diagnostic Dialect) := do
  match ← (Files.readText path : m _) with
  | .error cause =>
      return .error
        (Diagnostic.invalidDialect path
          ("failed to read " ++ path ++ ": " ++
            cause.message))
  | .ok text =>
      match Dialect.ofDocument text with
      | .ok dialect => return .ok dialect
      | .error cause =>
          return .error
            (Diagnostic.invalidDialect path cause.message)

/- The dialect of a file, or else the standard one. -/
def loadDialect :
    Option String → m (Except Diagnostic Dialect)
| none => return .ok Dialect.standard
| some path => loadDialectFile path

/- The kinds of the builtin commands, in a format. -/
def kindsText : Format → String
| .text => KindList.text Builtin.registry.kinds
| .json =>
    (KindList.json Builtin.registry.kinds).pretty 0 ++ "\n"

/- Do a task that needs a dialect. -/
def performIn
    (dialect : Dialect) :
    Task → ExceptT Failure m Report
| .run argument quiet => do
    let script ← orDiagnose (Script.load argument)
    return script.run dialect quiet
| .check argument format => do
    let script ← orDiagnose (Script.load argument)
    return script.check dialect format
| .kinds format =>
    return Report.success (kindsText format)
| .completions shell =>
    return Report.success (Help.completion shell)

/- Do a task. Completions need no dialect. -/
def perform
    (settings : Settings)
    (task : Task) : ExceptT Failure m Report := do
  prepareLog settings.logFile
  match task with
  | .completions shell =>
      return Report.success (Help.completion shell)
  | task => do
      let dialect ←
        orDiagnose (loadDialect settings.dialect)
      performIn dialect task

/- Answer a request. -/
def answer : Request → m Report
| .help topic => return Report.success (Help.text topic)
| .version => return Report.success Help.version
| .perform settings task => do
    match ← (perform settings task).run with
    | .ok report => return report
    | .error failure => return failure.report

/- What a program with some arguments leaves. -/
def program (arguments : List String) : m Report :=
  match Request.ofArguments arguments with
  | .ok request => answer request
  | .error cause =>
      return Report.failure .misuse (Help.misuse cause)

end CommandLine

end CommandScript
