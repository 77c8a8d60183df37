/-
  The arguments of a command line.

  Options and operands may stand in any order.  An option with a value takes it from behind an equals
  sign (long names), from the rest of its word (short names) or from the next word, whatever that
  word looks like.  Short names of options without a value may share a word.  Behind `--` everything
  is an operand.
-/
namespace WordMachine

namespace Options

/-- An option that a command knows. -/
structure Declaration where
  /-- The long name, with its hyphens. -/
  long : String
  /-- The short name. -/
  short : Option Char
  /-- Does the option take a value? -/
  hasValue : Bool
  deriving DecidableEq, Repr

/-- An option on a command line. -/
structure Occurrence where
  /-- The long name of the option. -/
  name : String
  /-- Its value; empty if it takes none. -/
  value : String
  deriving DecidableEq, Repr

/-- The options and operands of a command line, each in order. -/
structure Arguments where
  /-- The options. -/
  options : List Occurrence
  /-- The operands. -/
  operands : List String
  deriving DecidableEq, Repr

/-- A part of a command line on the way to an option. -/
inductive Pending where
  /-- Between words. -/
  | word
  /-- An option still has to get its value from the next word. -/
  | value (name : String)
  /-- Only operands follow. -/
  | operands
  deriving DecidableEq, Repr

/-- Reads short names that share a word; the last of them may still have to get its value. -/
def readShort (known : List Declaration) (done : List Occurrence) :
    List Char → Option (List Occurrence × Pending)
  | [] => some (done, .word)
  | c :: rest =>
    match known.find? (·.short = some c) with
    | none => none
    | some option =>
      if option.hasValue then
        if rest.isEmpty then some (done, .value option.long)
        else some (done ++ [⟨option.long, String.ofList rest⟩], .word)
      else readShort known (done ++ [⟨option.long, ""⟩]) rest

/-- Reads a word that starts with a hyphen. -/
def readOption (known : List Declaration) (word : List Char) :
    Option (List Occurrence × Pending) :=
  let name := word.takeWhile (· ≠ '=')
  let explicit := (word.dropWhile (· ≠ '=')).tail?
  match known.find? (·.long = String.ofList name) with
  | some option =>
    match option.hasValue, explicit with
    | true, some value => some ([⟨option.long, String.ofList value⟩], .word)
    | true, none => some ([], .value option.long)
    | false, none => some ([⟨option.long, ""⟩], .word)
    | false, some _ => none
  | none =>
    match word with
    | '-' :: '-' :: _ => none
    | _ => readShort known [] word.tail

/-- Reads the words of a command line. -/
def readWords (known : List Declaration) (pending : Pending) (done : Arguments) :
    List String → Option Arguments
  | [] => match pending with
    | .value _ => none
    | _ => some done
  | word :: rest =>
    match pending with
    | .value name =>
      readWords known .word { done with options := done.options ++ [⟨name, word⟩] } rest
    | .operands =>
      readWords known .operands { done with operands := done.operands ++ [word] } rest
    | .word =>
      if word = "--" then readWords known .operands done rest
      else if word.toList.head? = some '-' ∧ word ≠ "-" then
        match readOption known word.toList with
        | none => none
        | some (options, pending) =>
          readWords known pending { done with options := done.options ++ options } rest
      else readWords known .word { done with operands := done.operands ++ [word] } rest

/-- The options and operands of a command line, if all its options are known and used as declared. -/
def read? (known : List Declaration) (words : List String) : Option Arguments :=
  readWords known .word ⟨[], []⟩ words

namespace Arguments

/-- Is there an occurrence of an option? -/
def has (a : Arguments) (name : String) : Bool := a.options.any (·.name = name)

/-- The value of the last occurrence of an option. -/
def last? (a : Arguments) (name : String) : Option String :=
  (a.options.reverse.find? (·.name = name)).map (·.value)

/-- Of the given options, the one that occurs last. -/
def lastOf? (a : Arguments) (names : List String) : Option String :=
  (a.options.reverse.find? (names.contains ·.name)).map (·.name)

/-- The value of the last occurrence of an option, read as a number or a path: nothing if there is no
occurrence, and a failure if the value cannot be read. -/
def parse? {α : Type} (a : Arguments) (name : String) (read : String → Option α) :
    Option (Option α) :=
  match a.last? name with
  | none => some none
  | some value => (read value).map some

end Arguments

end Options

end WordMachine
