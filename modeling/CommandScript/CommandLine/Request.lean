/-
  What the arguments of a command line ask for. Arguments
  are read from left to right; the first that is wrong, or
  that asks for help or for the version, settles the matter.

  Key definitions include:
    * `Verb`
    * `Switch`
    * `Task`
    * `Request`
    * `UsageError`
    * `Options`
    * `Progress.step`
    * `Request.ofArguments`
-/

namespace CommandScript

------------------------------------------------------------
-- Verbs
------------------------------------------------------------

/- What can be done, as named on a command line. -/
inductive Verb where
| run
| check
| kinds
| completions
| help
deriving DecidableEq, Repr

namespace Verb

/- All verbs. -/
def all : List Verb :=
  [.run, .check, .kinds, .completions, .help]

/- The word for a verb. -/
def word : Verb → String
| .run => "run"
| .check => "check"
| .kinds => "kinds"
| .completions => "completions"
| .help => "help"

/- The verb that a word names. -/
def ofWord? (text : String) : Option Verb :=
  all.find? fun verb => verb.word == text

end Verb

/- How a report is laid out. -/
inductive Format where
| text
| json
deriving DecidableEq, Repr

namespace Format

/- The word for a format. -/
def word : Format → String
| .text => "text"
| .json => "json"

/- The format that a word names. -/
def ofWord? (name : String) : Option Format :=
  [text, json].find? fun format => format.word == name

end Format

/- The shells that command lines can be completed in. -/
inductive Shell where
| bash
| elvish
| fish
| powershell
| zsh
deriving DecidableEq, Repr

namespace Shell

/- The word for a shell. -/
def word : Shell → String
| .bash => "bash"
| .elvish => "elvish"
| .fish => "fish"
| .powershell => "powershell"
| .zsh => "zsh"

/- The shell that a word names. -/
def ofWord? (name : String) : Option Shell :=
  [bash, elvish, fish, powershell, zsh].find? fun shell =>
    shell.word == name

end Shell

------------------------------------------------------------
-- Requests
------------------------------------------------------------

/- What holds for all tasks. -/
structure Settings where
  dialect : Option String
  logFile : Option String
  verbosity : Nat
deriving DecidableEq, Repr

/- What is to be done, and with what. -/
inductive Task where
| run (script : String) (quiet : Bool)
| check (script : String) (format : Format)
| kinds (format : Format)
| completions (shell : Shell)
deriving DecidableEq, Repr

/-
  What a command line asks for: help in general or on one
  verb, the version, or a task.
-/
inductive Request where
| help (topic : Option Verb)
| version
| perform (settings : Settings) (task : Task)
deriving DecidableEq, Repr

------------------------------------------------------------
-- Switches
------------------------------------------------------------

/- What an option can be about. -/
inductive Switch where
| dialect
| logFile
| verbose
| quiet
| format
| help
| version
deriving DecidableEq, Repr

namespace Switch

/- All switches. -/
def all : List Switch :=
  [.dialect, .logFile, .verbose, .quiet, .format, .help,
    .version]

/- The long name of a switch. -/
def name : Switch → String
| .dialect => "syntax"
| .logFile => "log-file"
| .verbose => "verbose"
| .quiet => "quiet"
| .format => "format"
| .help => "help"
| .version => "version"

/- The letter of a switch. -/
def letter? : Switch → Option Char
| .verbose => some 'v'
| .quiet => some 'q'
| .help => some 'h'
| .version => some 'V'
| _ => none

/- Whether a switch needs a value. -/
def takesValue : Switch → Bool
| .dialect | .logFile | .format => true
| _ => false

/- Whether a switch can be given more than once. -/
def repeats (switch : Switch) : Bool :=
  switch = .verbose

/- Whether a switch is known before or behind a verb. -/
def isKnown
    (verb : Option Verb) : Switch → Bool
| .dialect | .logFile | .verbose | .help => true
| .quiet => verb = some .run
| .format => verb = some .check || verb = some .kinds
| .version => verb.isNone

/- The switch of a long name. -/
def ofName?
    (verb : Option Verb)
    (text : String) : Option Switch :=
  all.find? fun switch =>
    switch.isKnown verb && switch.name == text

/- The switch of a letter. -/
def ofLetter?
    (verb : Option Verb)
    (letter : Char) : Option Switch :=
  all.find? fun switch =>
    switch.isKnown verb && switch.letter? == some letter

end Switch

------------------------------------------------------------
-- Errors
------------------------------------------------------------

/- Why a command line makes no sense. -/
inductive UsageError where
| unknownOption (option : String)
| missingValue (switch : Switch)
| unexpectedValue (switch : Switch)
| invalidValue (value : String)
| repeated (switch : Switch)
| unexpectedArgument (argument : String)
| unknownVerb (word : String)
| missingVerb
| missingArgument (verb : Verb)
deriving DecidableEq, Repr

namespace UsageError

/- The wording of a usage error. -/
def message : UsageError → String
| .unknownOption option => "unknown option " ++ option
| .missingValue switch =>
    "option --" ++ switch.name ++ " needs a value"
| .unexpectedValue switch =>
    "option --" ++ switch.name ++ " takes no value"
| .invalidValue value => "invalid value '" ++ value ++ "'"
| .repeated switch =>
    "option --" ++ switch.name ++ " is given twice"
| .unexpectedArgument argument =>
    "unexpected argument '" ++ argument ++ "'"
| .unknownVerb word => "unknown command '" ++ word ++ "'"
| .missingVerb => "a command is required"
| .missingArgument verb =>
    "command " ++ verb.word ++ " needs an argument"

end UsageError

------------------------------------------------------------
-- Words
------------------------------------------------------------

/-
  The forms of an argument: an option by its long name, with
  or without a value, options by their letters, the mark
  behind which nothing is an option, and a plain text.
-/
inductive Word where
| long (name : String) (value : Option String)
| short (letters : List Char)
| mark
| plain (text : String)
deriving DecidableEq, Repr

namespace Word

/- An option by its long name. -/
def ofLong (s : List Char) : Word :=
  match s.dropWhile (· ≠ '=') with
  | [] => .long (String.ofList s) none
  | _ :: value =>
      .long (String.ofList (s.takeWhile (· ≠ '=')))
        (some (String.ofList value))

/- The form of an argument. -/
def ofString (argument : String) : Word :=
  match argument.toList with
  | ['-', '-'] => .mark
  | '-' :: '-' :: name => ofLong name
  | '-' :: c :: letters => .short (c :: letters)
  | _ => .plain argument

end Word

------------------------------------------------------------
-- Options Given
------------------------------------------------------------

/- An option as it was given. -/
inductive Given where
| dialect (path : String)
| logFile (path : String)
| verbose
| quiet
| format (format : Format)
deriving DecidableEq, Repr

namespace Given

/- What an option is about. -/
def switch : Given → Switch
| .dialect _ => .dialect
| .logFile _ => .logFile
| .verbose => .verbose
| .quiet => .quiet
| .format _ => .format

/- The path of a dialect, if an option gives one. -/
def dialect? : Given → Option String
| .dialect path => some path
| _ => none

/- The path of a log file, if an option gives one. -/
def logFile? : Given → Option String
| .logFile path => some path
| _ => none

/- The format, if an option gives one. -/
def format? : Given → Option Format
| .format layout => some layout
| _ => none

end Given

/-
  Why reading stops early: a request is complete whatever
  follows, or something is wrong.
-/
inductive Stop where
| answered (request : Request)
| refused (cause : UsageError)
deriving DecidableEq, Repr

/- A switch with its value, as an option. -/
def Switch.give
    (value : String) : Switch → Except Stop Given
| .dialect =>
    if value.isEmpty then
      .error (.refused (.invalidValue value))
    else .ok (.dialect value)
| .logFile =>
    if value.isEmpty then
      .error (.refused (.invalidValue value))
    else .ok (.logFile value)
| .format =>
    match Format.ofWord? value with
    | some layout => .ok (.format layout)
    | none => .error (.refused (.invalidValue value))
| switch => .error (.refused (.unexpectedValue switch))

/- A switch without a value, as an option or a request. -/
def Switch.flip
    (verb : Option Verb) : Switch → Except Stop Given
| .verbose => .ok .verbose
| .quiet => .ok .quiet
| .help => .error (.answered (.help verb))
| .version => .error (.answered .version)
| switch => .error (.refused (.missingValue switch))

------------------------------------------------------------
-- Options in a Row
------------------------------------------------------------

/-
  An option that is not finished: it waits for its value, or
  it has one that was not looked at yet.
-/
inductive Unsettled where
| nothing
| waiting (switch : Switch)
| holding (switch : Switch) (value : String)
deriving DecidableEq, Repr

/- The options read so far on one side of the verb. -/
structure Options where
  given : List Given
  unsettled : Unsettled
deriving DecidableEq, Repr

namespace Options

/- No options. -/
def empty : Options where
  given := []
  unsettled := .nothing

/- Take an option; few can be taken twice. -/
def take
    (o : Options)
    (option : Given) : Except Stop Options :=
  if !option.switch.repeats &&
      o.given.any (fun earlier =>
        decide (earlier.switch = option.switch)) then
    .error (.refused (.repeated option.switch))
  else .ok ⟨o.given ++ [option], .nothing⟩

/- Finish the option that is not finished. -/
def settle (o : Options) : Except Stop Options :=
  match o.unsettled with
  | .nothing => .ok o
  | .waiting switch =>
      .error (.refused (.missingValue switch))
  | .holding switch value => do
      o.take (← switch.give value)

/- Read an option by its long name. -/
def long
    (verb : Option Verb)
    (name : String)
    (value : Option String)
    (o : Options) : Except Stop Options :=
  match Switch.ofName? verb name, value with
  | none, _ =>
      .error (.refused (.unknownOption ("--" ++ name)))
  | some switch, some value => do
      o.take (← switch.give value)
  | some switch, none =>
      if switch.takesValue then
        .ok { o with unsettled := .waiting switch }
      else do
        o.take (← switch.flip verb)

/- Read an option by its letter. -/
def letter
    (verb : Option Verb)
    (o : Options)
    (c : Char) : Except Stop Options :=
  match Switch.ofLetter? verb c with
  | none =>
      .error
        (.refused
          (.unknownOption ("-" ++ String.singleton c)))
  | some switch => do
      o.take (← switch.flip verb)

end Options

------------------------------------------------------------
-- Progress
------------------------------------------------------------

/-
  What has been read: the verb, the options in front of it,
  the options behind it, its argument, and whether the mark
  was seen behind which nothing is an option. Until the verb
  is read, options are gathered as if they stood behind it.
-/
structure Progress where
  verb : Option Verb
  outer : Options
  options : Options
  argument : Option String
  literal : Bool
deriving DecidableEq, Repr

namespace Progress

/- Before the first argument. -/
def start : Progress where
  verb := none
  outer := Options.empty
  options := Options.empty
  argument := none
  literal := false

/- Find something wrong. -/
def refuse {α : Type} (cause : UsageError) : Except Stop α :=
  .error (.refused cause)

/-
  Take the verb. A value that an option in front of it holds
  is not looked at before the end.
-/
def takeVerb
    (p : Progress)
    (text : String) : Except Stop Progress :=
  if p.literal then refuse (.unexpectedArgument text)
  else
    match Verb.ofWord? text with
    | none => refuse (.unknownVerb text)
    | some verb =>
        .ok
          { p with
            verb := some verb
            outer := p.options
            options := Options.empty }

/- Take the verb that help is asked for. -/
def takeTopic
    (p : Progress)
    (text : String) : Except Stop Progress :=
  if p.argument.isSome || (Verb.ofWord? text).isNone then
    refuse (.unknownVerb text)
  else .ok { p with argument := some text }

/- Take the argument of a verb. -/
def takeArgument
    (p : Progress)
    (verb : Verb)
    (text : String) : Except Stop Progress := do
  let options ← p.options.settle
  if verb = .kinds ∨ p.argument.isSome then
    refuse (.unexpectedArgument text)
  else if verb = .completions ∧ (Shell.ofWord? text).isNone
  then refuse (.invalidValue text)
  else .ok { p with options, argument := some text }

/- Read a plain text, which may be the value of an option. -/
def plain
    (p : Progress)
    (text : String) : Except Stop Progress :=
  match p.options.unsettled, p.literal with
  | .waiting switch, false =>
      .ok
        { p with
          options :=
            { p.options with
              unsettled := .holding switch text } }
  | _, _ =>
      match p.verb with
      | none => p.takeVerb text
      | some verb => p.takeArgument verb text

/- Read an argument. -/
def step
    (p : Progress)
    (argument : String) : Except Stop Progress :=
  if p.verb = some .help then p.takeTopic argument
  else if p.literal then p.plain argument
  else
    match Word.ofString argument with
    | .plain text => p.plain text
    | .mark => .ok { p with literal := true }
    | .long name value => do
        let options ←
          (← p.options.settle).long p.verb name value
        .ok { p with options }
    | .short letters => do
        let options ←
          letters.foldlM (Options.letter p.verb)
            (← p.options.settle)
        .ok { p with options }

/-
  A setting. One behind the verb replaces the same setting
  in front of it.
-/
def setting?
    {α : Type}
    (p : Progress)
    (get? : Given → Option α) : Option α :=
  (p.options.given.findSome? get?).or
    (p.outer.given.findSome? get?)

/- How often more is asked to be logged. -/
def verbosity (p : Progress) : Nat :=
  match p.options.given.count .verbose with
  | 0 => p.outer.given.count .verbose
  | n => n

/- The settings. -/
def settings (p : Progress) : Settings where
  dialect := p.setting? Given.dialect?
  logFile := p.setting? Given.logFile?
  verbosity := p.verbosity

/- The format, which is text if none is given. -/
def format (p : Progress) : Format :=
  (p.setting? Given.format?).getD .text

/- The task that a verb and its argument stand for. -/
def task? (p : Progress) : Verb → Option Task
| .run =>
    p.argument.map fun script =>
      .run script (p.options.given.contains .quiet)
| .check =>
    p.argument.map fun script => .check script p.format
| .kinds => some (.kinds p.format)
| .completions =>
    (p.argument.bind Shell.ofWord?).map .completions
| .help => none

/- The request when there are no more arguments. -/
def finish (p : Progress) : Except Stop Request :=
  match p.verb with
  | none => refuse .missingVerb
  | some .help =>
      .ok (.help (p.argument.bind Verb.ofWord?))
  | some verb => do
      let options ← p.options.settle
      let outer ← p.outer.settle
      let settled := { p with options, outer }
      match settled.task? verb with
      | some task => .ok (.perform settled.settings task)
      | none => refuse (.missingArgument verb)

end Progress

/- What a command line asks for. -/
def Request.ofArguments
    (arguments : List String) : Except UsageError Request :=
  match
    arguments.foldlM Progress.step Progress.start >>=
      Progress.finish
  with
  | .ok request => .ok request
  | .error (.answered request) => .ok request
  | .error (.refused cause) => .error cause

end CommandScript
