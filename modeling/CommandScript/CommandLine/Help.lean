import CommandScript.CommandLine.Request

/-
  The texts about the command line itself: its version, its
  help, and scripts that complete it in shells.

  Key definitions include:
    * `Help.version`
    * `Help.text`
    * `Help.completion`
-/

namespace CommandScript

namespace Help

/- The name of the program. -/
def program : String := "cmdconf"

/- The program with its version. -/
def version : String := program ++ " 0.1.0\n"

/- How a verb is used. -/
def usage : Verb → String
| .run => "run <SCRIPT> [-q|--quiet]"
| .check => "check <SCRIPT> [--format text|json]"
| .kinds => "kinds [--format text|json]"
| .completions =>
    "completions <bash|elvish|fish|powershell|zsh>"
| .help => "help [COMMAND]"

/- What a verb is for. -/
def purpose : Verb → String
| .run => "Parse and run a script"
| .check =>
    "Parse a script and show its command tree " ++
      "without running it"
| .kinds => "List the available command kinds"
| .completions => "Generate shell completions"
| .help => "Print this message or the help of a command"

/- Options that go with every verb. -/
def options : String :=
  "Options:\n" ++
    "  --syntax <FILE>    Syntax definition (TOML)\n" ++
    "  -v, --verbose      More log output\n" ++
    "  --log-file <FILE>  Write logs to this file\n" ++
    "  -h, --help         Print help\n"

/- Help in general. -/
def overview : String :=
  program ++ " - compile and run command config scripts\n\n" ++
    "Usage: " ++ program ++ " [OPTIONS] <COMMAND>\n\n" ++
    "Commands:\n" ++
    String.join
      (Verb.all.map fun verb =>
        "  " ++ usage verb ++ "\n      " ++ purpose verb ++
          "\n") ++
    "\n" ++ options ++
    "  -V, --version      Print version\n"

/- Help in general or on one verb. -/
def text : Option Verb → String
| none => overview
| some verb =>
    purpose verb ++ "\n\nUsage: " ++ program ++ " " ++
      usage verb ++ " [OPTIONS]\n\n" ++ options

/- What is reported about a command line without sense. -/
def misuse (cause : UsageError) : String :=
  "error: " ++ cause.message ++ "\n\nUsage: " ++ program ++
    " [OPTIONS] <COMMAND>\n\nFor more information, try " ++
    "'--help'.\n"

/- All verbs in a row. -/
def words : String :=
  String.intercalate " " (Verb.all.map Verb.word)

/- A script that completes verbs in a shell. -/
def completion : Shell → String
| .bash =>
    "complete -o default -W '" ++ words ++ "' " ++ program ++
      "\n"
| .elvish =>
    "set edit:completion:arg-completer[" ++ program ++
      "] = \x7b|@args| put " ++ words ++ " \x7d\n"
| .fish =>
    "complete -c " ++ program ++
      " -n __fish_use_subcommand -a '" ++ words ++ "'\n"
| .powershell =>
    "Register-ArgumentCompleter -Native -CommandName " ++
      program ++ " -ScriptBlock \x7b param($word) '" ++
      words ++ "'.Split(' ') | Where-Object \x7b " ++
      "$_.StartsWith($word) \x7d \x7d\n"
| .zsh =>
    "#compdef " ++ program ++ "\n_arguments '1:command:(" ++
      words ++ ")' '*:file:_files'\n"

end Help

end CommandScript
