/-
  What a program asks of the files around it.

  Key definitions include:
    * `FileError`
    * `FileError.message`
    * `Files`
-/

namespace CommandScript

/- Why a file cannot be used. -/
inductive FileError where
| notFound
| notDirectory
| isDirectory
| exists
| nameTooLong
| invalidText
| other (message : String)
deriving DecidableEq, Repr

namespace FileError

/- The wording of a file error. -/
def message : FileError → String
| .notFound => "No such file or directory (os error 2)"
| .notDirectory => "Not a directory (os error 20)"
| .isDirectory => "Is a directory (os error 21)"
| .exists => "File exists (os error 17)"
| .nameTooLong => "File name too long (os error 36)"
| .invalidText => "stream did not contain valid UTF-8"
| .other text => text

end FileError

/-
  The means of a program to look at files, to read them and
  its standard input as texts, to make directories with all
  that lead to them, and to open a file for appending.
-/
class Files (m : Type → Type) where
  isFile : String → m Bool
  readText : String → m (Except FileError String)
  readInput : m (Except FileError String)
  makeDirectories : String → m (Except FileError Unit)
  openAppend : String → m (Except FileError Unit)

/- The text that the bytes of a file encode. -/
def Files.decode
    (bytes : ByteArray) : Except FileError String :=
  match String.fromUTF8? bytes with
  | some text => .ok text
  | none => .error .invalidText

end CommandScript
