import RepoSurvey.Failure
import RepoSurvey.Settings.Codec
import RepoSurvey.Settings.Environment
import RepoSurvey.Toml.Parser

/-!
# RepoSurvey.Settings.Load

Settings from two files and the environment. Missing files are empty, and missing tables hold the
defaults.
-/

namespace RepoSurvey

/-- What stands at a path. -/
inductive FileContent where
  | absent
  /-- A file stands where the path goes on. -/
  | beneathFile
  /-- The path, or a name in it, is too long. -/
  | overlong
  /-- The path holds a zero character, which no name may hold. -/
  | unnamed
  | directory
  | bytes (bs : List UInt8)

namespace Settings

inductive LoadFault where
  | malformed (file : String)
  | isDirectory (file : String)
  /-- Some settings cannot be read as what they should be. -/
  | invalid (kind : Kind) (first : Fault) (more : List Fault)
  | unreadNumber
  /-- A number of the log rotation is infinite. -/
  | infiniteNumber
  /-- A number of the log rotation is of a type that stands for no number. -/
  | noNumber
  /-- The bytes of a file are not well-formed UTF-8. -/
  | undecodable
  | integerTooLong
  | tooDeep
  /-- Something else stands in place of a table. -/
  | noTable
  /-- Something else stands in place of the table or the file name of the log. -/
  | noLogText
deriving DecidableEq, Repr

def LoadFault.message : LoadFault → String
  | malformed file | isDirectory file => "Cannot load config file " ++ file
  | invalid .. | unreadNumber => "Invalid configuration"
  | infiniteNumber => "A number of the log rotation is infinite"
  | noNumber => "A number of the log rotation is no number"
  | undecodable => "A config file is not UTF-8"
  | integerTooLong => "A config file holds an integer of too many digits"
  | tooDeep => "A config file is nested too deeply"
  | noTable => "A setting stands where a table should be"
  | noLogText => "The table or the file of the log is something else"

/-- The outcome of reading a value as part of the settings. -/
def orInvalid {α : Type} (kind : Kind) : Decoded α → Except LoadFault α
  | .ok a => .ok a
  | .failed f fs => .error (.invalid kind f fs)

/-! ## Files -/

/-- The tables of a file. The paths of the two files are fixed and short, so of what may stand at a
path `overlong` does not come up here. -/
def readFileTables (name : String) : FileContent → Except LoadFault Fields
  | .absent | .beneathFile | .overlong | .unnamed => .ok []
  | .directory => .error (.isDirectory name)
  | .bytes bs =>
    match Text.Utf8.decode? bs with
    | none => .error .undecodable
    | some text =>
      match Toml.parse text with
      | .ok fs => .ok fs
      | .error .malformed => .error (.malformed name)
      | .error .integerTooLong => .error .integerTooLong
      | .error .tooDeep => .error .tooDeep

def defaultFile : String := "default.toml"

def developmentFile : String := "development.toml"

def readTables (default development : FileContent) : Except LoadFault Fields := do
  let base ← readFileTables defaultFile default
  let later ← readFileTables developmentFile development
  return merge base later

/-! ## Tables -/

/-- The value of a key; absent, empty and zero values count as an empty table. -/
def tableValue (config : Fields) (name : String) : Value :=
  match config.get? name with
  | some v => if v.isTruthy then v else .object []
  | none => .object []

def readTable {α : Type} (config : Fields) (name : String) (kind : Kind) (c : Codec α) :
    Except LoadFault α :=
  match tableValue config name with
  | .object fs => orInvalid kind (c.read (.object fs))
  | _ => .error .noTable

def logFileName : Option Value → Except LoadFault String
  | some (.text s) => .ok (Text.trim s)
  | some v => if v.isTruthy then .error .noLogText else .ok ""
  | none => .ok ""

def rotationNumber (default : Int) : Option Value → Except LoadFault Int
  | none => .ok default
  | some v =>
    match v.toInteger with
    | .ok n => .ok n
    | .error .outOfRange => .error .infiniteNumber
    | .error .unreadNumber => .error .unreadNumber
    | .error _ => .error .noNumber

def ofTables (config : Fields) : Except LoadFault Settings := do
  let analysis ← readTable config "analysis" .analysisOptions AnalysisOptions.codec
  let limits ← readTable config "limits" .limits Limits.codec
  let validation ← readTable config "validation" .scoringOptions ScoringOptions.codec
  match tableValue config "logging" with
  | .object log =>
    let logFile ← logFileName (Fields.get? log "file")
    let maxMb ← rotationNumber 5 (Fields.get? log "log_rotation_max_mb")
    let backups ← rotationNumber 3 (Fields.get? log "log_rotation_backups")
    let level := (Fields.get? log "level").getD (.text "INFO")
    let logLevel ← orInvalid .settings ((Decoded.text level).under (.key "log_level"))
    return {
      analysis, limits, validation, logLevel, logFile
      logRotationMaxMb := maxMb
      logRotationBackups := backups }
  | _ => .error .noLogText

/-! ## Loading -/

/-- The settings, and the variables that were ignored. -/
structure Loaded where
  settings : Except LoadFault Settings
  ignored : List (String × String) := []

def load (env : Environment) (default development : FileContent) : Loaded :=
  match readTables default development with
  | .error e => { settings := .error e }
  | .ok tables =>
    let r := applyEnvironment env tables
    { settings := match r.config with
        | some config => ofTables config
        | none => .error .noTable
      ignored := r.ignored }

def Loaded.warnings (l : Loaded) : List String := l.ignored.map fun i => ignoredWarning i.1 i.2

end Settings

end RepoSurvey
