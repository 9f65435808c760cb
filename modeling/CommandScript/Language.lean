import CommandScript.Dialect
import CommandScript.Invocation
import CommandScript.Registry

/-
  Languages of scripts: the command kinds that a script can
  use and the dialect it is written in. A script is read
  line by line into a tree; the groups that are still open
  are kept on a stack.

  Key definitions include:
    * `ParseError`
    * `Draft`
    * `Language`
    * `Language.step`
    * `Language.parse`
    * `Language.log`
-/

namespace CommandScript

------------------------------------------------------------
-- Errors
------------------------------------------------------------

/- Why a text is no script, and on which line. -/
inductive ParseError where
| unknownKind (kind : String) (line : Nat)
| unexpectedClose (line : Nat)
| unclosedGroup (line : Nat)
| malformed (line : Nat) (source : LineError)
| configuration
    (kind : String)
    (line : Nat)
    (source : ConfigError)
deriving DecidableEq, Repr

namespace ParseError

/- The line an error was found on. -/
def line : ParseError → Nat
| .unknownKind _ line => line
| .unexpectedClose line => line
| .unclosedGroup line => line
| .malformed line _ => line
| .configuration _ line _ => line

/- Whether group markers do not match up. -/
def isUnbalanced : ParseError → Bool
| .unexpectedClose _ | .unclosedGroup _ => true
| _ => false

/- What was found on the line, in words. -/
def finding : ParseError → String
| .unknownKind kind _ => "unknown command kind: " ++ kind
| .unexpectedClose _ =>
    "group closed without a matching open"
| .unclosedGroup _ =>
    "group opened here is never closed"
| .malformed _ source =>
    "malformed line: " ++ source.message
| .configuration kind _ source =>
    "invalid configuration for " ++ kind ++ ": " ++
      source.message

/- The wording of a parse error. -/
def message (e : ParseError) : String :=
  "line " ++ toString e.line ++ ": " ++ e.finding

end ParseError

------------------------------------------------------------
-- Drafts
------------------------------------------------------------

/- A group that is still open, and the line it opened on. -/
structure Frame (κ : Type) where
  line : Nat
  children : List (Node κ)

/-
  A tree that is being built: the children of the root, and
  the open groups, the innermost first.
-/
structure Draft (κ : Type) where
  root : List (Node κ)
  frames : List (Frame κ)

namespace Draft

variable {κ : Type}

/- The draft of an empty text. -/
def empty : Draft κ where
  root := []
  frames := []

/- Append a node to the innermost open group. -/
def add
    (d : Draft κ)
    (node : Node κ) : Draft κ :=
  match d.frames with
  | [] => { d with root := d.root ++ [node] }
  | frame :: outer =>
      { d with
        frames :=
          { frame with
            children := frame.children ++ [node] } ::
            outer }

/- Open a group. -/
def openGroup
    (d : Draft κ)
    (line : Nat) : Draft κ :=
  { d with frames := ⟨line, []⟩ :: d.frames }

/- Close the innermost open group, if there is one. -/
def closeGroup? (d : Draft κ) : Option (Draft κ) :=
  match d.frames with
  | [] => none
  | frame :: outer =>
      some
        ({ d with frames := outer }.add
          (.group frame.line .idle frame.children))

/-
  The finished tree. The group that was opened first is the
  one to report if any is still open.
-/
def finish (d : Draft κ) : Attempt ParseError (Group κ) :=
  match d.frames.getLast? with
  | none => .ok ⟨.idle, d.root⟩
  | some frame =>
      Attempt.reject (.unclosedGroup frame.line)

end Draft

------------------------------------------------------------
-- Parsing
------------------------------------------------------------

/- The kinds and the dialect of a script. -/
structure Language (κ : Type) where
  registry : Registry κ
  dialect : Dialect

namespace Language

variable {κ : Type}

/- The command that an invocation on a line calls for. -/
def construct
    (l : Language κ)
    (number : Nat)
    (invocation : Invocation) : Attempt ParseError κ :=
  match l.registry.construct
      invocation.kind invocation.params with
  | none =>
      Attempt.reject (.unknownKind invocation.kind number)
  | some command =>
      command.wrap (.configuration invocation.kind number)

/- The node that a command line stands for. -/
def command
    (l : Language κ)
    (number : Nat)
    (line : List Char) : Attempt ParseError (Node κ) := do
  let invocation ←
    Attempt.wrap (.malformed number)
      (Attempt.ofExcept (Invocation.read line))
  let command ← l.construct number invocation
  return .leaf ⟨invocation.kind, number⟩ command

/- Read one numbered line on top of a draft. -/
def step
    (l : Language κ)
    (draft : Draft κ)
    (line : Nat × List Char) :
    Attempt ParseError (Draft κ) :=
  match l.dialect.role line.2 with
  | .skipped => .ok draft
  | .opening => .ok (draft.openGroup line.1)
  | .closing =>
      match draft.closeGroup? with
      | some draft => .ok draft
      | none => Attempt.reject (.unexpectedClose line.1)
  | .command text =>
      (l.command line.1 text).map draft.add

/- Read a text into a tree. -/
def parse
    (l : Language κ)
    (text : String) : Attempt ParseError (Group κ) := do
  let draft ←
    (Text.numberedLines text.toList).foldlM
      l.step Draft.empty
  draft.finish

------------------------------------------------------------
-- Log
------------------------------------------------------------

/- What is noted for a line whose command is constructed. -/
def lineLog
    (l : Language κ)
    (line : Nat × List Char) : List Entry :=
  match l.dialect.role line.2 with
  | .command text =>
      match Invocation.read text with
      | .ok invocation =>
          [⟨.constructed ⟨invocation.kind, line.1⟩
            invocation.params.size, []⟩]
      | .error _ => []
  | _ => []

/-
  What is noted while a text is read: an entry for every
  command up to the first refused line, and a summary if
  there is none.
-/
def log
    (l : Language κ)
    (text : String) : List Entry :=
  let numbered := Text.numberedLines text.toList
  match l.parse text with
  | .ok root =>
      numbered.flatMap l.lineLog ++
        [⟨.parsed root.commandCount root.depth, []⟩]
  | .error (.error (.unclosedGroup _)) =>
      numbered.flatMap l.lineLog
  | .error (.error cause) =>
      (numbered.filter fun line => line.1 < cause.line).flatMap
        l.lineLog
  | .error .aborted => []

end Language

end CommandScript
