/-
  Paths of files.

  A path is a sequence of names.  Empty names and names for the same directory are dropped when a
  path is read, names for the directory above are kept.
-/
namespace WordMachine

/-- A path. -/
structure Path where
  /-- The slashes at the start: none, one, or two. -/
  root : String
  /-- The names. -/
  names : List String
  deriving DecidableEq, Repr

namespace Path

/-- The texts between slashes. -/
def segmentsFrom (current : Array Char) (done : Array String) : List Char → Array String
  | [] => done.push (String.ofList current.toList)
  | c :: rest =>
    if c = '/' then segmentsFrom #[] (done.push (String.ofList current.toList)) rest
    else segmentsFrom (current.push c) done rest

/-- The texts between the slashes of a text. -/
def segments (text : String) : List String := (segmentsFrom #[] #[] text.toList).toList

/-- Reads a path.  Exactly two slashes at the start are kept, any other number of them is one. -/
def ofString (text : String) : Path where
  root := match (text.toList.takeWhile (· = '/')).length with
    | 0 => ""
    | 2 => "//"
    | _ => "/"
  names := (segments text).filter fun name => name ≠ "" ∧ name ≠ "."

/-- The text of a path. -/
def text (p : Path) : String :=
  if p.root = "" ∧ p.names = [] then "." else p.root ++ "/".intercalate p.names

/-- The last name of a path. -/
def name (p : Path) : String := p.names.getLastD ""

/-- The end of a name from its last point on; there is none if that point is the first or the last
character. -/
def suffixOf (name : List Char) : List Char :=
  let tail := name.reverse.takeWhile (· ≠ '.')
  if tail.isEmpty ∨ name.length ≤ tail.length + 1 then [] else '.' :: tail.reverse

/-- The suffix of the last name of a path. -/
def suffix (p : Path) : String := String.ofList (suffixOf p.name.toList)

end Path

end WordMachine
