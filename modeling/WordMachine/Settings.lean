/-
  Settings of a run.

  Settings are layered: each layer gives values to some of the five settings, and a later layer wins
  over an earlier one.  A setting that is given the null value keeps what it has.
-/
import WordMachine.Value

namespace WordMachine

/-- The settings.  They keep whatever values they are given. -/
structure Settings where
  /-- Is every instruction logged before it is executed? -/
  trace : Value
  /-- Is the state logged after every instruction? -/
  dump : Value
  /-- After how many instructions is a run given up? -/
  maxSteps : Value
  /-- After how many seconds is a run given up? -/
  timeLimit : Value
  /-- Is the image a text?  The null value leaves that to the name of the file. -/
  textImage : Value
  deriving Repr

/-- Why settings were not changed. -/
inductive SettingsError where
  /-- A name is not the name of a setting. -/
  | unknown (name : String)
  /-- What should hold the settings is no table. -/
  | notTable
  deriving DecidableEq, Repr

/-- The wording of an unknown setting. -/
def SettingsError.unknownMessage (name : String) : String := s!"Unknown setting {name}"

namespace Settings

/-- Nothing is logged, and no limit is set. -/
def default : Settings := ⟨.truth false, .truth false, .null, .null, .null⟩

instance : Inhabited Settings := ⟨default⟩

/-- The names of the settings. -/
inductive Key where
  | trace
  | dump
  | maxSteps
  | timeLimit
  | textImage
  deriving DecidableEq, Repr

namespace Key

/-- The name of a setting in a configuration. -/
def name : Key → String
  | trace => "trace"
  | dump => "dump"
  | maxSteps => "max_steps"
  | timeLimit => "time_limit"
  | textImage => "text_image"

/-- All settings. -/
def all : List Key := [trace, dump, maxSteps, timeLimit, textImage]

/-- The setting with a name. -/
def ofName? (text : String) : Option Key := all.find? (·.name = text)

@[simp] theorem ofName?_name (key : Key) : ofName? key.name = some key := by
  cases key <;> decide

end Key

/-- The value of a setting. -/
def get (s : Settings) : Key → Value
  | .trace => s.trace
  | .dump => s.dump
  | .maxSteps => s.maxSteps
  | .timeLimit => s.timeLimit
  | .textImage => s.textImage

/-- Gives a value to a setting. -/
def put (s : Settings) (key : Key) (value : Value) : Settings :=
  match key with
  | .trace => { s with trace := value }
  | .dump => { s with dump := value }
  | .maxSteps => { s with maxSteps := value }
  | .timeLimit => { s with timeLimit := value }
  | .textImage => { s with textImage := value }

/-- Gives a value to a setting, unless it is the null value. -/
def give (s : Settings) (key : Key) : Value → Settings
  | .null => s
  | value => s.put key value

/-- Gives values to settings, in order. -/
def giveAll (s : Settings) (layer : List (Key × Value)) : Settings :=
  layer.foldl (fun s (key, value) => s.give key value) s

@[simp] theorem get_put_self (s : Settings) (key : Key) (value : Value) :
    (s.put key value).get key = value := by
  cases key <;> rfl

theorem get_put_of_ne (s : Settings) {key other : Key} (value : Value) (h : key ≠ other) :
    (s.put key value).get other = s.get other := by
  cases key <;> cases other <;> first | rfl | exact absurd rfl h

/-! ### Layers of a configuration -/

/-- The first name in a table that is not the name of a setting. -/
def firstUnknown? (entries : List (String × Value)) : Option String :=
  (entries.find? fun entry => (Key.ofName? entry.1).isNone).map (·.1)

/-- The settings that a table names. -/
def layerOf (entries : List (String × Value)) : List (Key × Value) :=
  entries.filterMap fun (name, value) => (Key.ofName? name).map (·, value)

/-- Lays a table over the settings.  A single unknown name leaves all settings as they are. -/
def update (s : Settings) (entries : List (String × Value)) : Except SettingsError Settings :=
  match firstUnknown? entries with
  | some name => .error (.unknown name)
  | none => .ok (s.giveAll (layerOf entries))

/-- The section of a configuration that holds the settings. -/
def sectionName : String := "synvm"

/-- What is reported for the first item of a list that is not the name of a setting. -/
def firstForeign? (items : List Value) : Option String :=
  (items.find? fun
    | .text name => (Key.ofName? name).isNone
    | _ => true).map Value.plain

/-- The settings that a configuration gives.  Where a text or a list stands in place of the table,
its characters or items are taken for names before it is refused. -/
def ofConfiguration (entries : List (String × Value)) : Except SettingsError Settings :=
  match entries.lookup sectionName with
  | none => .ok default
  | some (.table layer) => default.update layer
  | some (.text text) =>
    match text.toList with
    | [] => .error .notTable
    | c :: _ => .error (.unknown (String.singleton c))
  | some (.list items) =>
    match firstForeign? items with
    | some name => .error (.unknown name)
    | none => .error .notTable
  | some _ => .error .notTable

end Settings

end WordMachine
