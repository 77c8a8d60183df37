/-
  Files, and trees of files below a working directory.

  A `FileTree` is given by its files; directories exist as far as files need them.  What lies outside
  of the working directory is not known: no file is found there.
-/
import WordMachine.Path

namespace WordMachine

/-- Why a file was not read. -/
inductive FileError where
  /-- There is nothing at the path. -/
  | notFound
  /-- There is a directory at the path. -/
  | isDirectory
  /-- The path goes on behind a file. -/
  | notDirectory
  /-- The path holds a character that no path may hold. -/
  | badPath
  deriving DecidableEq, Repr

/-- How a command gets at files. -/
structure Files where
  /-- The bytes of the file at a path. -/
  read : Path → Except FileError (List UInt8)
  /-- Is there anything at the path that a text names? -/
  holds : String → Except FileError Bool

/-- The files below a working directory. -/
structure FileTree where
  /-- The names that lead to each file, with the bytes of the file. -/
  files : List (List String × List UInt8)

namespace FileTree

/-- The tree with files at the given paths. -/
def ofFiles (files : List (String × List UInt8)) : FileTree :=
  ⟨files.map fun (path, bytes) => ((Path.ofString path).names, bytes)⟩

/-- A place that a path leads to. -/
inductive Place where
  /-- A directory below the working directory, or that directory itself. -/
  | directory (names : List String)
  /-- A directory that does not lie below the working directory. -/
  | outside
  /-- A file. -/
  | file (bytes : List UInt8)
  deriving DecidableEq, Repr

/-- Is there a file below a directory? -/
def isDirectory (t : FileTree) (names : List String) : Bool :=
  names.isEmpty || t.files.any fun file => names.isPrefixOf file.1 && names ≠ file.1

/-- The place with the given names. -/
def lookup (t : FileTree) (names : List String) : Except FileError Place :=
  match t.files.reverse.lookup names with
  | some bytes => .ok (.file bytes)
  | none => if t.isDirectory names then .ok (.directory names) else .error .notFound

/-- Goes from a place to one with a given name in it. -/
def enter (t : FileTree) (place : Place) (name : String) : Except FileError Place :=
  match place with
  | .file _ => .error .notDirectory
  | .outside => if name = "." ∨ name = "" ∨ name = ".." then .ok .outside else .error .notFound
  | .directory names =>
    if name = "." ∨ name = "" then .ok place
    else if name = ".." then
      if names.isEmpty then .ok .outside else .ok (.directory names.dropLast)
    else t.lookup (names ++ [name])

/-- Goes along names. -/
def walk (t : FileTree) (place : Place) (names : List String) : Except FileError Place :=
  names.foldlM t.enter place

/-- Is there anything at the path that a text names?  A slash at the end asks for a directory. -/
def holds (t : FileTree) (text : String) : Except FileError Bool :=
  if text.toList.contains '\x00' then .error .badPath
  else if text.isEmpty then .ok false
  else
    let start := if text.toList.head? = some '/' then Place.outside else .directory []
    match Path.segments text with
    | [] => .ok false
    | first :: rest =>
      let found := do
        let place ← if first.isEmpty then pure start else t.enter start first
        t.walk place rest
      .ok (found.toBool)

/-- The bytes of the file at a path. -/
def read (t : FileTree) (path : Path) : Except FileError (List UInt8) :=
  if path.names.any (·.toList.contains '\x00') then .error .badPath
  else
    let start := if path.root.isEmpty then Place.directory [] else .outside
    match t.walk start path.names with
    | .error e => .error e
    | .ok (.file bytes) => .ok bytes
    | .ok _ => .error .isDirectory

/-- Access to the files of a tree. -/
def access (t : FileTree) : Files := ⟨t.read, t.holds⟩

end FileTree

end WordMachine
