import CommandScript.Diagnostic
import CommandScript.Files
import CommandScript.Files.Path

/-
  Scripts: texts with the names they are reported by. A
  script is read from a file, whose extension may be left
  out, or from the standard input.

  Key definitions include:
    * `Script`
    * `Script.candidates`
    * `Script.load`
-/

namespace CommandScript

/- A text and the name it is reported by. -/
structure Script where
  name : String
  text : String
deriving DecidableEq, Repr

namespace Script

/- The extension that can be left out. -/
def extension : String := "cfg"

/- The name of a script read from the standard input. -/
def inputName : String := "<stdin>"

/- The argument that stands for the standard input. -/
def inputMark : String := "-"

/- The paths that an argument can stand for. -/
def candidates (argument : String) : List String :=
  match Path.extension? argument with
  | some _ => [argument]
  | none =>
      [argument, Path.withExtension argument extension]

section Loading

variable {m : Type → Type} [Monad m] [Files m]

/- The first path that leads to a file. -/
def firstFile? : List String → m (Option String)
| [] => pure none
| path :: rest => do
    if ← Files.isFile path then return some path
    else firstFile? rest

/- Read the standard input as a script. -/
def loadInput : m (Except Diagnostic Script) := do
  match ← (Files.readInput : m _) with
  | .ok text => return .ok ⟨inputName, text⟩
  | .error cause =>
      return .error
        (Diagnostic.inputUnreadable cause.message)

/- Read a file as a script. -/
def loadFile
    (path : String) : m (Except Diagnostic Script) := do
  match ← (Files.readText path : m _) with
  | .ok text => return .ok ⟨path, text⟩
  | .error cause =>
      return .error
        (Diagnostic.scriptUnreadable path cause.message)

/- Read the script that an argument stands for. -/
def load
    (argument : String) :
    m (Except Diagnostic Script) := do
  if argument = inputMark then loadInput
  else
    match ← (firstFile? (candidates argument) : m _) with
    | some path => loadFile path
    | none =>
        return .error
          (Diagnostic.scriptNotFound argument
            (candidates argument))

end Loading

end Script

end CommandScript
