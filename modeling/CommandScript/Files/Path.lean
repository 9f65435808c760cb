/-
  Paths as texts: their components, file names, extensions
  and parents.

  Key definitions include:
    * `Path.components`
    * `Path.fileName?`
    * `Path.extension?`
    * `Path.withExtension`
    * `Path.parent`
    * `Path.child`
-/

namespace CommandScript

namespace Path

/- Whether a path starts at the root. -/
def isAbsolute (path : String) : Bool :=
  path.toList.head? = some '/'

/-
  The components of a path. Repeated slashes and components
  of one point are left out.
-/
def components (path : String) : List String :=
  ((path.toList.splitOn '/').map String.ofList).filter
    fun part => part != "" && part != "."

/- The name of the file that a path leads to. -/
def fileName? (path : String) : Option String :=
  (components path).getLast?.filter (· != "..")

/-
  The part of a name after its last point. A point at the
  start of a name begins no extension.
-/
def extensionOf? (name : String) : Option String :=
  let parts := name.toList.splitOn '.'
  match parts.reverse with
  | last :: before :: earlier =>
      if before.isEmpty && earlier.isEmpty then none
      else some (String.ofList last)
  | _ => none

/- The extension of the file that a path leads to. -/
def extension? (path : String) : Option String :=
  (fileName? path).bind extensionOf?

/- What ends a path behind its file name, in reverse. -/
def dropTail : List Char → List Char
| '/' :: rest => dropTail rest
| '.' :: '/' :: rest => dropTail ('/' :: rest)
| s => s

/-
  A path whose file name has no extension, with one. A path
  that leads to no file name is left as it is.
-/
def withExtension
    (path : String)
    (extension : String) : String :=
  match fileName? path with
  | none => path
  | some _ =>
      String.ofList (dropTail path.toList.reverse).reverse ++
        "." ++ extension

/-
  The directory that a path lies in: the text in front of
  the last component, as it was written. It is a point for a
  path of one component, and the root for one right below
  the root.
-/
def parent (path : String) : String :=
  let name := dropTail path.toList.reverse
  let leading := dropTail (name.dropWhile (· ≠ '/'))
  if !leading.isEmpty then String.ofList leading.reverse
  else if isAbsolute path then "/"
  else "."

/- The path of a name in a directory. -/
def child
    (directory name : String) : String :=
  if directory.endsWith "/" then directory ++ name
  else directory ++ "/" ++ name

end Path

end CommandScript
