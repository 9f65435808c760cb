import CommandScript.CommandLine

/-
  The program as it meets the system: files, streams, the
  clock and the exit code. What it does is decided by
  `CommandLine.program`.

  Key definitions include:
    * `Terminal.failure`
    * `Terminal.present`
    * `main`
-/

namespace CommandScript

namespace Terminal

/- The number of an error, which may come negated. -/
def errorNumber (code : UInt32) : UInt32 :=
  if code < 0x80000000 then code else 0 - code

/- A failure of the system, as one of files. -/
def failure (cause : IO.Error) : FileError :=
  match cause with
  | .noFileOrDirectory _ _ _ => .notFound
  | .alreadyExists _ _ _ => .exists
  | .inappropriateType _ code _ =>
      if errorNumber code = 20 then .notDirectory
      else .isDirectory
  | .invalidArgument _ code _ =>
      if errorNumber code = 36 then .nameTooLong
      else .other (toString cause)
  | cause => .other (toString cause)

/- Do something that may fail, and see what came of it. -/
def capture
    {α : Type}
    (action : IO α) : IO (Except FileError α) := do
  match ← action.toBaseIO with
  | .ok value => return .ok value
  | .error cause => return .error (failure cause)

/- Read a stream to its end. -/
partial def readAll
    (stream : IO.FS.Stream)
    (bytes : ByteArray) : IO ByteArray := do
  let more ← stream.read 65536
  if more.isEmpty then return bytes
  else readAll stream (bytes ++ more)

/- The text of bytes that are read somehow. -/
def readText
    (action : IO ByteArray) :
    IO (Except FileError String) := do
  return (← capture action).bind Files.decode

/- Accept a failure where there is a directory already. -/
def unlessDirectory
    (path : String)
    (result : Except FileError Unit) :
    IO (Except FileError Unit) := do
  match result with
  | .ok () => return .ok ()
  | .error cause =>
      match ← capture (IO.FS.readBinFile path) with
      | .error .isDirectory => return .ok ()
      | _ => return .error cause

/- Make a directory, after those that lead to it. -/
partial def makeDirectories
    (path : String) : IO (Except FileError Unit) := do
  match ← capture (IO.FS.createDir path) with
  | .error .notFound =>
      match ← makeDirectories (Path.parent path) with
      | .ok () =>
          unlessDirectory path
            (← capture (IO.FS.createDir path))
      | failed => return failed
  | result => unlessDirectory path result

instance : Files IO where
  isFile path := do
    match ← (IO.FS.readBinFile path).toBaseIO with
    | .ok _ => return true
    | .error (.permissionDenied _ _ _) => return true
    | .error _ => return false
  readText path := readText (IO.FS.readBinFile path)
  readInput :=
    readText do
      readAll (← IO.getStdin) ByteArray.empty
  makeDirectories path := makeDirectories path
  openAppend path :=
    capture do
      let _ ← IO.FS.Handle.mk path .append

/- The longest single wait, in milliseconds. -/
def longestWait : Nat := 1000000

/- Wait for some nanoseconds. -/
def wait (length : Nat) : IO Unit := do
  let milliseconds := length / Duration.perMillisecond
  for _ in [0 : milliseconds / longestWait] do
    IO.sleep longestWait.toUInt32
  IO.sleep (milliseconds % longestWait).toUInt32

/- Print output, every piece of it at its moment. -/
def display
    (output : Console)
    (ended : Nat) : IO Unit := do
  let stream ← IO.getStdout
  let mut clock := 0
  for chunk in output.chunks do
    wait (chunk.moment - clock)
    clock := chunk.moment
    stream.putStr chunk.text
    stream.flush
  wait (ended - clock)

/- The settings that a command line gives. -/
def settings? (arguments : List String) : Option Settings :=
  match Request.ofArguments arguments with
  | .ok (.perform settings _) => some settings
  | _ => none

/- Write a log to its file, or else to the error stream. -/
def writeLog
    (settings : Settings)
    (report : Report) : IO Unit := do
  let text := String.join (report.logLines settings.verbosity)
  match settings.logFile with
  | some path =>
      let _ ← capture do
        (← IO.FS.Handle.mk path .append).putStr text
  | none => (← IO.getStderr).putStr text

/- Present a report to the user. -/
def present
    (settings : Option Settings)
    (report : Report) : IO UInt32 := do
  display report.output report.ended
  if let some settings := settings then
    writeLog settings report
  (← IO.getStderr).putStr report.errors
  return report.exit.code.toUInt32

end Terminal

end CommandScript

/- Run the program. -/
def main (arguments : List String) : IO UInt32 := do
  let report : CommandScript.Report ←
    CommandScript.CommandLine.program arguments
  CommandScript.Terminal.present
    (CommandScript.Terminal.settings? arguments) report
