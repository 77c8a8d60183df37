/-
  Configuration texts: sections of keys and values.

  `Toml.parse` reads a text into the entries of its outermost table.  Every value, table and statement
  takes at least one character off the text, so twice the length of the text bounds how deep its
  readers call each other.
-/
import WordMachine.Toml.Scalar
import WordMachine.Toml.Table

namespace WordMachine

namespace Toml

/-! ### Keys -/

/-- The characters of keys without quotation marks. -/
def isBareKeyChar (c : Char) : Bool :=
  ('a' ≤ c && c ≤ 'z') || ('A' ≤ c && c ≤ 'Z') || Decimal.isDigit c || c = '-' || c = '_'

/-- A part of a key. -/
def keyPart : Parse String := do
  match ← Parse.peek with
  | some '\'' => literalString
  | some '"' => basicString
  | some c =>
    if isBareKeyChar c then
      let text ← get
      set (text.dropWhile isBareKeyChar)
      return String.ofList (text.takeWhile isBareKeyChar)
    else Parse.refuse
  | none => Parse.refuse

/-- The parts of a key that follow dots. -/
def moreKeyParts : Nat → Parse (List String)
  | 0 => Parse.refuse
  | fuel + 1 => do
    if ← Parse.take? "." then
      skipBlanks
      let part ← keyPart
      skipBlanks
      return part :: (← moreKeyParts fuel)
    else return []

/-- A key: parts with dots between them, and the blanks behind it.  It has at least one part. -/
def key : Parse (List String) := do
  let first ← keyPart
  skipBlanks
  return first :: (← moreKeyParts ((← get).length + 1))

/-! ### Values -/

mutual

/-- A value. -/
def value : Nat → Parse Value
  | 0 => Parse.refuse
  | fuel + 1 => do
    match ← Parse.peek with
    | some '"' | some '\'' => return .text (← anyString)
    | some '[' =>
      Parse.expect "["
      skipLines
      return .list (← items fuel #[])
    | some '\x7b' =>
      Parse.expect "\x7b"
      skipBlanks
      if ← Parse.take? "\x7d" then return .table []
      return .table (← inlineEntries fuel [] .none)
    | _ =>
      if ← Parse.take? "true" then return .truth true
      else if ← Parse.take? "false" then return .truth false
      else scalar

/-- The items of a list up to its closing bracket.  A comma may stand before it. -/
def items : Nat → Array Value → Parse (List Value)
  | 0, _ => Parse.refuse
  | fuel + 1, done => do
    if ← Parse.take? "]" then return done.toList
    let item ← value fuel
    skipLines
    if ← Parse.take? "]" then return (done.push item).toList
    Parse.expect ","
    skipLines
    items fuel (done.push item)

/-- The entries of a table in one line up to its closing brace. -/
def inlineEntries : Nat → Entries → Protection → Parse Entries
  | 0, _, _ => Parse.refuse
  | fuel + 1, entries, protection => do
    let path ← key
    Parse.expect "="
    skipBlanks
    let item ← value fuel
    if protection.isFrozen path then Parse.refuse
    let entries ← (entries.updateAt false (Entries.insertNew (path.getLastD "") item) path.dropLast :
      Except Error Entries)
    skipBlanks
    if ← Parse.take? "\x7d" then return entries
    Parse.expect ","
    let protection := match item with
      | .list _ | .table _ => protection.freeze path
      | _ => protection
    skipBlanks
    inlineEntries fuel entries protection

end

/-! ### Statements -/

/-- What has been read of a text. -/
structure Document where
  /-- The entries of the outermost table. -/
  entries : Entries
  /-- The path of the current section. -/
  header : List String
  /-- The protected paths. -/
  protection : Protection

/-- The header of a section. -/
def tableHeader (d : Document) : Parse Document := do
  Parse.expect "["
  skipBlanks
  let path ← key
  if d.protection.isDeclared path || d.protection.isFrozen path then Parse.refuse
  let entries ← (d.entries.updateAt true .ok path : Except Error Entries)
  Parse.expect "]"
  return ⟨entries, path, d.protection.declare path⟩

/-- The header of a section that is the next table of a list. -/
def listHeader (d : Document) : Parse Document := do
  Parse.expect "[["
  skipBlanks
  let path ← key
  if d.protection.isFrozen path then Parse.refuse
  let entries ← (d.entries.updateAt true (Entries.appendTable (path.getLastD "")) path.dropLast :
    Except Error Entries)
  Parse.expect "]]"
  return ⟨entries, path, (d.protection.release path).declare path⟩

/-- The proper beginnings of a path, without the empty one. -/
def properPrefixes (path : List String) : List (List String) :=
  (List.range' 1 (path.length - 1)).map path.take

/-- A key with its value. -/
def assignment (d : Document) : Parse Document := do
  let path ← key
  Parse.expect "="
  skipBlanks
  let item ← value (2 * (← get).length + 2)
  let parents := (properPrefixes path).map (d.header ++ ·)
  if parents.any d.protection.isDeclared then Parse.refuse
  let protection := parents.foldl .postpone d.protection
  if protection.isFrozen (d.header ++ path.dropLast) then Parse.refuse
  let entries ← (d.entries.updateAt true (Entries.insertNew (path.getLastD "") item)
    (d.header ++ path.dropLast) : Except Error Entries)
  let protection := match item with
    | .list _ | .table _ => protection.freeze (d.header ++ path)
    | _ => protection
  return ⟨entries, d.header, protection⟩

/-- A statement, which may be missing, and a comment up to the end of the line. -/
def statement (d : Document) : Parse Document := do
  skipBlanks
  let next ← match ← Parse.peek with
    | none | some '\n' | some '#' => pure d
    | some '[' =>
      let d := { d with protection := d.protection.endSection }
      if ← Parse.startsWith "[[" then listHeader d else tableHeader d
    | some _ => assignment d
  skipBlanks
  skipComment
  match ← Parse.peek with
  | none => return next
  | some _ =>
    Parse.expect "\n"
    return next

/-- The statements of a text. -/
def statements : Nat → Document → Parse Document
  | 0, _ => Parse.refuse
  | fuel + 1, d => do
    match ← Parse.peek with
    | none => return d
    | some _ => statements fuel (← statement d)

/-- The entries of the outermost table of a text. -/
def parse (text : List Char) : Except Error Entries :=
  (statements (text.length + 1) ⟨[], [], .none⟩ text).map fun (d, _) => d.entries

end Toml

end WordMachine
