/-
  Strings of a configuration text.

  Basic strings stand between double quotation marks and know escapes; literal strings stand between
  single ones and do not.  Long strings, between three marks, may go over several lines.
-/
import WordMachine.Toml.Parse

namespace WordMachine

namespace Toml

/-! ### Basic strings -/

/-- What the next character of a basic string is part of. -/
inductive Mode where
  /-- The text. -/
  | plain
  /-- An escape: the backslash has been read. -/
  | escape
  /-- A numeric escape, with digits to come and the value so far. -/
  | code (need value : Nat)
  /-- The blanks between a backslash and the end of its line. -/
  | lineEnd
  /-- The blanks and line ends after such a line end. -/
  | trim
  deriving DecidableEq, Repr

/-- The value of a hexadecimal digit. -/
def hexDigit? (c : Char) : Option Nat :=
  if '0' ≤ c ∧ c ≤ '9' then some (c.toNat - '0'.toNat)
  else if 'a' ≤ c ∧ c ≤ 'f' then some (c.toNat - 'a'.toNat + 10)
  else if 'A' ≤ c ∧ c ≤ 'F' then some (c.toNat - 'A'.toNat + 10)
  else none

/-- The character that a one-letter escape stands for. -/
def escaped? (c : Char) : Option Char :=
  match c with
  | 'b' => some '\x08'
  | 't' => some '\t'
  | 'n' => some '\n'
  | 'f' => some '\x0c'
  | 'r' => some '\r'
  | '"' => some '"'
  | '\\' => some '\\'
  | _ => none

/-- Takes up to two quotation marks off a text: a long string may end with them. -/
def extraMarks (mark : Char) (done : Array Char) : List Char → String × List Char
  | c :: rest =>
    if c = mark then
      match rest with
      | d :: rest' =>
        if d = mark then (String.ofList ((done.push mark).push mark).toList, rest')
        else (String.ofList (done.push mark).toList, rest)
      | [] => (String.ofList (done.push mark).toList, [])
    else (String.ofList done.toList, c :: rest)
  | [] => (String.ofList done.toList, [])

/-- Reads a basic string up to its closing marks. -/
def basicFrom (long : Bool) (mode : Mode) (done : Array Char) :
    List Char → Except Error (String × List Char)
  | [] => .error .malformed
  | c :: rest =>
    match mode with
    | .escape =>
      if long ∧ isBlank c then basicFrom long .lineEnd done rest
      else if long ∧ c = '\n' then basicFrom long .trim done rest
      else if c = 'u' then basicFrom long (.code 4 0) done rest
      else if c = 'U' then basicFrom long (.code 8 0) done rest
      else match escaped? c with
        | some e => basicFrom long .plain (done.push e) rest
        | none => .error .malformed
    | .code need value =>
      match hexDigit? c with
      | none => .error .malformed
      | some d =>
        let value := 16 * value + d
        if 1 < need then basicFrom long (.code (need - 1) value) done rest
        else if value.isValidChar then basicFrom long .plain (done.push (Char.ofNat value)) rest
        else .error .malformed
    | .lineEnd =>
      if isBlank c then basicFrom long .lineEnd done rest
      else if c = '\n' then basicFrom long .trim done rest
      else .error .malformed
    | mode =>
      if mode = .trim ∧ isBlankOrEnd c then basicFrom long .trim done rest
      else if c = '"' then
        if long then
          match rest with
          | '"' :: '"' :: rest' => .ok (extraMarks '"' done rest')
          | _ => basicFrom long .plain (done.push c) rest
        else .ok (String.ofList done.toList, rest)
      else if c = '\\' then basicFrom long .escape done rest
      else if isControl c ∧ ¬(long ∧ c = '\n') then .error .malformed
      else basicFrom long .plain (done.push c) rest

/-! ### Literal strings -/

/-- Reads a literal string up to its closing marks. -/
def literalFrom (long : Bool) (done : Array Char) :
    List Char → Except Error (String × List Char)
  | [] => .error .malformed
  | c :: rest =>
    if c = '\'' then
      if long then
        match rest with
        | '\'' :: '\'' :: rest' => .ok (extraMarks '\'' done rest')
        | _ => literalFrom long (done.push c) rest
      else .ok (String.ofList done.toList, rest)
    else if isControl c ∧ ¬(long ∧ c = '\n') then .error .malformed
    else literalFrom long (done.push c) rest

/-! ### Strings as parts of a text -/

/-- A basic string in one line. -/
def basicString : Parse String := do
  Parse.expect "\""
  fun text => basicFrom false .plain #[] text

/-- A literal string in one line. -/
def literalString : Parse String := do
  Parse.expect "'"
  fun text => literalFrom false #[] text

/-- A string of any kind.  A line feed right after the marks of a long string is dropped. -/
def anyString : Parse String := do
  if ← Parse.take? "\"\"\"" then
    let _ ← Parse.take? "\n"
    fun text => basicFrom true .plain #[] text
  else if ← Parse.take? "'''" then
    let _ ← Parse.take? "\n"
    fun text => literalFrom true #[] text
  else if ← Parse.startsWith "\"" then basicString
  else literalString

end Toml

end WordMachine
