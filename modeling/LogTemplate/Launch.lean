import LogTemplate.Builtin
import LogTemplate.Miner
import LogTemplate.Settings.Parse

/-!
# Launching

A run is set up from environment variables and files. A file of run settings comes first, variables
override it, and the settings of the vocabulary are built in or stand in a file of their own.

* `Surroundings` is what a run sees of the system;
* `RunSettings.load` finds the settings of a run;
* `launch` gives these settings and a miner that has seen nothing yet.
-/

namespace LogTemplate

open Toml

/-! ### Surroundings -/

/-- What a path leads to. -/
inductive File where
  | missing
  /-- It cannot be read, or is not UTF-8. -/
  | unreadable
  | text (content : Text)

/-- The values of environment variables, and the files. -/
structure Surroundings where
  environment : Text → Option Text
  file : Text → File

/-! ### Settings of a run -/

/-- Settings of a run. -/
structure RunSettings where
  /-- The file of the settings of the vocabulary, if these are not built in. -/
  vocabularyPath : Option Text := none
  format : InputFormat := .text
  /-- The records of a batch; zero stands for all. -/
  batchSize : Nat := 10000
  /-- Services that may be handled at the same time, which the results do not show. -/
  maxWorkers : Nat := 4
  /-- Examples that are kept of a template. -/
  maxExamples : Nat := 5
  deriving DecidableEq, Repr, Inhabited

/-- Why a run cannot be set up. -/
inductive LaunchError where
  | noWorkers
  | emptyPath
  /-- The file of run settings cannot be read. -/
  | unreadable
  /-- The file of run settings is malformed. -/
  | malformed
  /-- The vocabulary cannot be built. -/
  | vocabulary (e : SettingsError)
  deriving DecidableEq, Repr

namespace LaunchError

/-- What is wrong with run settings that are well formed. -/
def detail? : LaunchError → Option Text
  | noWorkers => some "max_workers must be > 0".toList
  | emptyPath => some "sequence_config path is empty".toList
  | _ => none

/-- The wording of an error of the run settings' content. -/
def message? (e : LaunchError) : Option Text :=
  e.detail?.map ("Invalid configuration: ".toList ++ ·)

end LaunchError

/-- A value without content. -/
def Toml.Value.isEmpty : Value → Bool
  | .table _ [] | .array [] => true
  | _ => false

/-- The format that a value names, by itself or as the key of a value without content. -/
def InputFormat.ofValue? (value : Value) : Option InputFormat :=
  let ofExactName? (name : Text) : Option InputFormat :=
    [InputFormat.text, InputFormat.json].find? (·.name = name)
  match value with
  | .string name => ofExactName? name
  | .table _ [(name, value)] => if value.isEmpty then ofExactName? name else none
  | _ => none

namespace RunSettings

/-- Numbers in settings have 64 bits. -/
def numberLimit : Nat := Nat.pow 2 64

/-- The run settings of the entries of a document. -/
def ofEntries? (entries : Entries) : Option RunSettings := do
  let start : RunSettings := {}
  let number (name : String) (default : Nat) : Option Nat :=
    entries.field? name (·.number? numberLimit) default
  return {
    vocabularyPath := ←
      entries.field? "sequence_config" (fun value => value.text?.map some) start.vocabularyPath
    format := ← entries.field? "input_format" InputFormat.ofValue? start.format
    batchSize := ← number "batch_size" start.batchSize
    maxWorkers := ← number "max_workers" start.maxWorkers
    maxExamples := ← number "max_examples" start.maxExamples }

/-- Let environment variables override the settings. One that does not hold what it should is
passed over. -/
def override (environment : Text → Option Text) (s : RunSettings) : RunSettings :=
  let number? (name : String) : Option Nat :=
    (environment name.toList).bind (Text.toNatBelow? numberLimit)
  { vocabularyPath := environment "MINER_SEQUENCE_CONFIG".toList <|> s.vocabularyPath
    format := ((environment "MINER_INPUT_FORMAT".toList).bind InputFormat.ofName?).getD s.format
    batchSize := (number? "MINER_BATCH_SIZE").getD s.batchSize
    maxWorkers := (number? "MINER_MAX_WORKERS").getD s.maxWorkers
    maxExamples := (number? "MINER_MAX_EXAMPLES").getD s.maxExamples }

/-- The first fault of the settings. -/
def fault? (s : RunSettings) : Option LaunchError :=
  if s.maxWorkers = 0 then some .noWorkers
  else if s.vocabularyPath = some [] then some .emptyPath
  else none

/-- The path of the file of run settings when no variable names one. -/
def defaultPath : Text := "/etc/miner/miner.toml".toList

/-- The settings of the file of run settings, which may be missing. -/
def ofFile : File → Except LaunchError RunSettings
  | .missing => .ok {}
  | .unreadable => .error .unreadable
  | .text content =>
    match (Entries.parse? content).bind ofEntries? with
    | some s => .ok s
    | none => .error .malformed

/-- The settings of a run. -/
def load (around : Surroundings) : Except LaunchError RunSettings := do
  let path := (around.environment "MINER_CONFIG_FILE".toList).getD defaultPath
  let s := (← ofFile (around.file path)).override around.environment
  match s.fault? with
  | some fault => .error fault
  | none => .ok s

/-- The settings of the vocabulary. -/
def vocabularySettings (around : Surroundings) (s : RunSettings) : Except SettingsError Settings :=
  match s.vocabularyPath with
  | none => .ok .builtin
  | some path =>
    match around.file path with
    | .missing | .unreadable => .error .unreadable
    | .text content => Settings.parse content

end RunSettings

/-- The settings of a run, and the miner at its beginning. -/
def launch (around : Surroundings) : Except LaunchError (RunSettings × Miner) := do
  let s ← RunSettings.load around
  match s.vocabularySettings around >>= Vocabulary.ofSettings with
  | .error e => .error (.vocabulary e)
  | .ok vocabulary => .ok (s, { vocabulary, store := { maxExamples := s.maxExamples } })

end LogTemplate
