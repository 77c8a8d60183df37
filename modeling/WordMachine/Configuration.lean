/-
  Settings from a configuration file.
-/
import WordMachine.Image.File
import WordMachine.Settings
import WordMachine.Toml.Document

namespace WordMachine

/-- Why a configuration file gave no settings. -/
inductive ConfigurationError where
  /-- The file was not read. -/
  | file (error : FileError)
  /-- The bytes of the file are not UTF-8. -/
  | notUtf8
  /-- The file is no configuration. -/
  | toml (error : Toml.Error)
  /-- The configuration holds no settings. -/
  | settings (error : SettingsError)
  deriving DecidableEq, Repr

namespace Configuration

/-- The settings in the bytes of a file. -/
def ofBytes (bytes : List UInt8) : Except ConfigurationError Settings :=
  match Image.fileText? bytes with
  | none => .error .notUtf8
  | some text =>
    match Toml.parse text with
    | .error e => .error (.toml e)
    | .ok entries => (Settings.ofConfiguration entries).mapError .settings

/-- Reads the settings in a file. -/
def load (files : Files) (path : Path) : Except ConfigurationError Settings :=
  match files.read path with
  | .error e => .error (.file e)
  | .ok bytes => ofBytes bytes

end Configuration

end WordMachine
