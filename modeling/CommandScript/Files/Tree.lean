import CommandScript.Dictionary
import CommandScript.Files
import CommandScript.Files.Path

/-
  A tree of files kept as a value, with a working directory
  in it, and what a program asks of it and of its standard
  input.

  Key definitions include:
    * `FileTree`
    * `FileTree.resolve`
    * `FileTree.makeDirectories`
    * `FileTree.openAppend`
    * `FileTree.standard`
    * `Surroundings`
-/

namespace CommandScript

------------------------------------------------------------
-- Trees
------------------------------------------------------------

/-
  A device of the system: one that takes what is written to
  it and has nothing to read, or the standard input.
-/
inductive Device where
| output
| input
deriving DecidableEq, Repr

/- A file with its bytes, a directory, or a device. -/
inductive FileEntry where
| file (bytes : ByteArray)
| directory
| device (device : Device)

/-
  Entries by their paths from the root, components joined by
  slashes, and the components of the working directory. The
  root itself has no entry.
-/
structure FileTree where
  entries : Dictionary FileEntry
  here : List String

/- Where a path leads. -/
structure Place where
  components : List String
  entry : FileEntry

namespace FileTree

/- The key of an entry. -/
def key (components : List String) : String :=
  String.intercalate "/" components

/- The most bytes that a name can have. -/
def longestName : Nat := 255

/- The most bytes that a path can have. -/
def longestPath : Nat := 4095

/- A directory as a place. -/
def directory (components : List String) : Place where
  components := components
  entry := .directory

/- Put an entry at some components. -/
def put
    (tree : FileTree)
    (components : List String)
    (entry : FileEntry) : FileTree :=
  { tree with
    entries := tree.entries.insert (key components) entry }

------------------------------------------------------------
-- Following Paths
------------------------------------------------------------

/- Follow a name inside a directory. -/
def enter
    (tree : FileTree)
    (components : List String)
    (name : String) : Except FileError Place :=
  if name = ".." then .ok (directory components.dropLast)
  else if longestName < name.utf8ByteSize then
    .error .nameTooLong
  else
    let there := components ++ [name]
    match tree.entries.get? (key there) with
    | some entry => .ok ⟨there, entry⟩
    | none => .error .notFound

/- Follow a name from a place. -/
def follow
    (tree : FileTree)
    (place : Place)
    (name : String) : Except FileError Place :=
  match place.entry with
  | .directory => tree.enter place.components name
  | _ => .error .notDirectory

/- Follow some names from a place. -/
def walk
    (tree : FileTree)
    (start : Place)
    (names : List String) : Except FileError Place :=
  names.foldlM tree.follow start

/- Where a path starts. -/
def origin
    (tree : FileTree)
    (path : String) : Place :=
  directory (if Path.isAbsolute path then [] else tree.here)

/- Whether the end of a path demands a directory. -/
def demandsDirectory (path : String) : Bool :=
  match (path.toList.splitOn '/').getLast? with
  | some last => last = [] || last = ['.']
  | none => false

/- Follow a path to its end. -/
def resolve
    (tree : FileTree)
    (path : String) : Except FileError Place := do
  if path.isEmpty then .error .notFound
  else if longestPath < path.utf8ByteSize then
    .error .nameTooLong
  else
    let place ←
      tree.walk (tree.origin path) (Path.components path)
    match place.entry with
    | .directory => .ok place
    | _ =>
        if demandsDirectory path then .error .notDirectory
        else .ok place

/- Whether a path leads to a file. -/
def isFile
    (tree : FileTree)
    (path : String) : Bool :=
  match tree.resolve path with
  | .ok ⟨_, .file _⟩ => true
  | _ => false

/- The bytes that a path leads to, given the input. -/
def read
    (tree : FileTree)
    (input : ByteArray)
    (path : String) : Except FileError ByteArray :=
  match tree.resolve path with
  | .ok ⟨_, .file bytes⟩ => .ok bytes
  | .ok ⟨_, .directory⟩ => .error .isDirectory
  | .ok ⟨_, .device .output⟩ => .ok ByteArray.empty
  | .ok ⟨_, .device .input⟩ => .ok input
  | .error cause => .error cause

/- Whether a path leads to the standard input. -/
def isInput
    (tree : FileTree)
    (path : String) : Bool :=
  match tree.resolve path with
  | .ok ⟨_, .device .input⟩ => true
  | _ => false

------------------------------------------------------------
-- Making Directories
------------------------------------------------------------

/- Whether some names lead to a directory. -/
def isDirectory
    (tree : FileTree)
    (start : Place)
    (names : List String) : Bool :=
  match tree.walk start names with
  | .ok ⟨_, .directory⟩ => true
  | _ => false

/- Make one directory inside another. -/
def makeDirectory
    (tree : FileTree)
    (start : Place)
    (leading : List String)
    (name : String) : Except FileError FileTree := do
  let place ← tree.walk start leading
  match tree.follow place name with
  | .ok _ => .error .exists
  | .error .notFound =>
      .ok
        (tree.put (place.components ++ [name]) .directory)
  | .error cause => .error cause

/-
  What came of making a directory. That it could not be made
  is no error where there is one.
-/
def settle
    (tree : FileTree)
    (start : Place)
    (names : List String) :
    Except FileError FileTree →
      FileTree × Except FileError Unit
| .ok made => (made, .ok ())
| .error cause =>
    ( tree,
      if tree.isDirectory start names then .ok ()
      else .error cause )

/-
  Make the directory that some names lead to, given in
  reverse, after those that lead to it if they are missing.
  What is made before an error stays.
-/
def makeAlong
    (tree : FileTree)
    (start : Place) :
    List String → FileTree × Except FileError Unit
| [] => (tree, .ok ())
| name :: leading =>
    let before := leading.reverse
    let names := before ++ [name]
    match tree.makeDirectory start before name with
    | .error .notFound =>
        match makeAlong tree start leading with
        | (tree, .ok ()) =>
            tree.settle start names
              (tree.makeDirectory start before name)
        | failed => failed
    | made => tree.settle start names made

/- Make the directories along a path. -/
def makeDirectories
    (tree : FileTree)
    (path : String) : FileTree × Except FileError Unit :=
  if longestPath < path.utf8ByteSize then
    (tree, .error .nameTooLong)
  else
    tree.makeAlong (tree.origin path)
      (Path.components path).reverse

------------------------------------------------------------
-- Adding Files
------------------------------------------------------------

/- Make an empty file that is missing. -/
def create
    (tree : FileTree)
    (path : String) : Except FileError FileTree := do
  let place ←
    tree.walk (tree.origin path)
      (Path.components path).dropLast
  match place.entry, Path.fileName? path with
  | .directory, some name =>
      .ok
        (tree.put (place.components ++ [name])
          (.file ByteArray.empty))
  | _, _ => .error .notFound

/- Open a file for appending, made empty if there is none. -/
def openAppend
    (tree : FileTree)
    (path : String) : Except FileError FileTree :=
  match tree.resolve path with
  | .ok ⟨_, .directory⟩ => .error .isDirectory
  | .ok _ => .ok tree
  | .error .notFound => tree.create path
  | .error cause => .error cause

/- Add an entry, and the directories that lead to it. -/
def add
    (tree : FileTree)
    (path : String)
    (entry : FileEntry) : FileTree :=
  let start := (tree.origin path).components
  let names := Path.components path
  let leading :=
    (List.range names.length).tail.foldl
      (fun (tree : FileTree) length =>
        tree.put (start ++ names.take length) .directory)
      tree
  leading.put (start ++ names) entry

------------------------------------------------------------
-- Listings
------------------------------------------------------------

/-
  The path of an entry from the working directory, if it is
  inside; the path of a directory ends in a slash.
-/
def listed?
    (tree : FileTree)
    (entry : String × FileEntry) : Option String :=
  let start := (key tree.here ++ "/").toList
  if start.isPrefixOf entry.1.toList then
    let path :=
      String.ofList (entry.1.toList.drop start.length)
    match entry.2 with
    | .directory => some (path ++ "/")
    | _ => some path
  else none

/- All paths inside the working directory, in order. -/
def paths (tree : FileTree) : List String :=
  (tree.entries.toList.filterMap tree.listed?).mergeSort
    fun a b => decide (a ≤ b)

------------------------------------------------------------
-- The Standard Tree
------------------------------------------------------------

/- The directories that a system is sure to have. -/
def systemDirectories : List String :=
  [ "/bin", "/boot", "/dev", "/dev/fd", "/dev/mqueue",
    "/dev/pts", "/dev/shm", "/etc", "/etc/opt",
    "/etc/profile.d", "/etc/skel", "/etc/ssl", "/home",
    "/lib", "/lib64", "/media", "/mnt", "/opt", "/proc",
    "/proc/1", "/proc/self", "/proc/sys", "/root", "/run",
    "/run/lock", "/sbin", "/srv", "/sys", "/sys/bus",
    "/sys/class", "/sys/devices", "/sys/fs",
    "/sys/kernel", "/tmp", "/usr", "/usr/bin",
    "/usr/games", "/usr/include", "/usr/lib", "/usr/lib64",
    "/usr/libexec", "/usr/local", "/usr/local/bin",
    "/usr/local/etc", "/usr/local/games",
    "/usr/local/include", "/usr/local/lib",
    "/usr/local/man", "/usr/local/sbin",
    "/usr/local/share", "/usr/local/src", "/usr/sbin",
    "/usr/share", "/usr/share/doc", "/usr/src", "/var",
    "/var/cache", "/var/lib", "/var/local", "/var/lock",
    "/var/log", "/var/mail", "/var/opt", "/var/run",
    "/var/spool", "/var/tmp" ]

/- The devices that a system is sure to have. -/
def systemDevices : List (String × Device) :=
  [ ("/dev/null", .output), ("/dev/full", .output),
    ("/dev/stdout", .output), ("/dev/stderr", .output),
    ("/dev/stdin", .input) ]

/-
  The tree that a program is started in: what a system is
  sure to have, and an empty working directory.
-/
def standard : FileTree :=
  let start : FileTree :=
    ⟨Dictionary.empty, ["tmp", "work"]⟩
  let withDirectories :=
    systemDirectories.foldl
      (fun tree path => tree.add path .directory) start
  let withDevices :=
    systemDevices.foldl
      (fun tree entry => tree.add entry.1 (.device entry.2))
      withDirectories
  withDevices.put start.here .directory

end FileTree

------------------------------------------------------------
-- Surroundings
------------------------------------------------------------

/- The files around a program and its standard input. -/
structure Surroundings where
  files : FileTree
  input : ByteArray

namespace Surroundings

/- Leave some files behind. -/
def leave
    (change : FileTree → FileTree × Except FileError Unit) :
    StateM Surroundings (Except FileError Unit) :=
  fun s =>
    let (files, result) := change s.files
    (result, { s with files })

/- Leave the files as they are if they cannot be changed. -/
def orSame
    (change : FileTree → Except FileError FileTree)
    (files : FileTree) : FileTree × Except FileError Unit :=
  match change files with
  | .ok changed => (changed, .ok ())
  | .error cause => (files, .error cause)

/- The surroundings after their input has been read. -/
def drained (s : Surroundings) : Surroundings :=
  { s with input := ByteArray.empty }

/- Read the text that a path leads to. -/
def readText
    (path : String) :
    StateM Surroundings (Except FileError String) :=
  fun s =>
    ( (s.files.read s.input path).bind Files.decode,
      if s.files.isInput path then s.drained else s )

instance : Files (StateM Surroundings) where
  isFile path := fun s => (s.files.isFile path, s)
  readText := readText
  readInput := fun s => (Files.decode s.input, s.drained)
  makeDirectories path :=
    leave fun files => files.makeDirectories path
  openAppend path :=
    leave (orSame fun files => files.openAppend path)

end Surroundings

end CommandScript
