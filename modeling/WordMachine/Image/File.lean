/-
  Images in files.

  The format of an image follows from the suffix of its file unless it is given.  Text images are
  read as UTF-8, and all line ends in them count the same.
-/
import WordMachine.FileTree
import WordMachine.Image.Binary
import WordMachine.Image.Textual
import WordMachine.Log
import WordMachine.Text.Utf8

namespace WordMachine

namespace Image

/-- The two formats of images. -/
inductive Format where
  | text
  | binary
  deriving DecidableEq, Repr

namespace Format

/-- The name of a format in log lines. -/
def name : Format → String
  | text => "text"
  | binary => "binary"

/-- The format that a suffix stands for; capital letters count as small ones. -/
def ofPath (path : Path) : Format :=
  let suffix := path.suffix.map Char.toLower
  if suffix = ".txt" ∨ suffix = ".prog" then .text else .binary

end Format

/-- Why an image was not read from a file. -/
inductive FileReadError where
  /-- The file was not read. -/
  | file (error : FileError)
  /-- The bytes of a text image are not UTF-8. -/
  | notUtf8
  /-- The file holds no image. -/
  | image (error : ImageError)
  /-- A numeral has too many digits. -/
  | longNumeral
  deriving DecidableEq, Repr

/-- The text of a file: its characters, with all line ends alike. -/
def fileText? (bytes : List UInt8) : Option (List Char) :=
  (Utf8.decode? bytes).map Text.normalizeLines

/-- The image that the bytes of a file stand for. -/
def ofBytes (format : Format) (bytes : List UInt8) : Except FileReadError (List Int) :=
  match format with
  | .binary => (Binary.decode bytes).mapError .image
  | .text =>
    match fileText? bytes with
    | none => .error .notUtf8
    | some text =>
      match Textual.decode text with
      | .ok words => .ok words
      | .error (.image e) => .error (.image e)
      | .error .longNumeral => .error .longNumeral

/-- Reads an image from a file, with the log lines about it.  The format is the one given, or else
the one that the path stands for. -/
def load (files : Files) (path : Path) (format : Option Format) :
    List LogLine × Except FileReadError (List Int) :=
  let format := format.getD (.ofPath path)
  let loading := LogLine.debug s!"Loading {format.name} image {path.text}"
  let answer : Except FileReadError (List Int) := match files.read path with
    | .error e => .error (.file e)
    | .ok bytes => ofBytes format bytes
  match answer with
  | .error e => ([loading], .error e)
  | .ok words => ([loading, .info s!"Image {path.name}: {words.length} words"], .ok words)

end Image

end WordMachine
