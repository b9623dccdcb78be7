import RepoSurvey.Text.Blank
import RepoSurvey.Text.Case
import RepoSurvey.Text.Quoted
import RepoSurvey.Text.Split
import RepoSurvey.Value.Integer

/-!
# RepoSurvey.Settings.Environment

The tables of settings files before they are read as settings: one file over another, and the
environment over both. An empty variable counts as unset, and a number that a variable does not
spell leaves the tables as they were.
-/

namespace RepoSurvey.Settings

/-! ## Files over files -/

/-- Puts one field of a later file over an earlier one: tables are merged, all else replaces. -/
def mergeField (base : Fields) (f : String × Value) : Fields :=
  match f.2, base.get? f.1 with
  | .object later, some (.object earlier) => base.put f.1 (.object (Keyed.putAll earlier later))
  | v, _ => base.put f.1 v

/-- Puts a later file over an earlier one, one level deep. -/
def merge (base later : Fields) : Fields := later.foldl mergeField base

/-! ## The environment over files -/

abbrev Environment := List (String × String)

/-- The value of a variable that is set and not empty. -/
def Environment.get? (env : Environment) (name : String) : Option String :=
  (env.lookup name).filter (· ≠ "")

/-- What a variable says about a setting. -/
inductive Reading where
  | unset
  | value (v : Value)
  /-- The variable is set, but spells no integer. -/
  | ignored (name raw : String)

structure Override where
  table : String
  key : String
  names : List String
  read : Environment → Reading

namespace Override

/-- A setting taken from the first of some variables that is set. -/
def ofText (table key : String) (names : List String) (f : String → Value) : Override where
  table := table
  key := key
  names := names
  read env :=
    match names.findSome? env.get? with
    | some s => .value (f s)
    | none => .unset

def ofInteger (table key name : String) : Override where
  table := table
  key := key
  names := [name]
  read env :=
    match env.get? name with
    | some s =>
      match Decimal.integer s with
      | .ok n => .value (.int n)
      | .error _ => .ignored name s
    | none => .unset

end Override

/-- The patterns of a list with commas. -/
def patternList (s : String) : List String := ((Text.split ',' s).map Text.trim).filter (· ≠ "")

def overrides : List Override := [
  .ofText "logging" "level" ["ARCHLENS_LOG_LEVEL", "LOG_LEVEL"] fun s => .text (Text.upper s),
  .ofText "logging" "file" ["LOG_FILE"] fun s => .text (Text.trim s),
  .ofInteger "limits" "max_dependency_edges" "ARCHLENS_MAX_EDGES",
  .ofInteger "limits" "max_workers" "ARCHLENS_MAX_WORKERS",
  .ofText "validation" "cycle_detection" ["ARCHLENS_CYCLE_DETECTION"]
    fun s => .text (Text.lower (Text.trim s)),
  .ofText "analysis" "exclude_patterns" ["ARCHLENS_EXCLUDE"]
    fun s => Value.texts (patternList s)]

def variableNames : List String := overrides.flatMap (·.names)

/-- Sets a key of a table, which is made where it is not there; none if something else stands in
its place. -/
def setIn (table key : String) (v : Value) (config : Fields) : Option Fields :=
  match config.get? table with
  | none => some (config.put table (.object [(key, v)]))
  | some (.object fs) => some (config.put table (.object (Fields.put fs key v)))
  | some _ => none

/-- The tables after the environment, none if a table to change is no table, and the variables
that were ignored with their values. -/
structure Overridden where
  config : Option Fields
  ignored : List (String × String) := []

/-- Applies overrides in order, up to the first that finds no table. -/
def applyOverrides (env : Environment) : List Override → Fields → Overridden
  | [], config => { config := some config }
  | o :: os, config =>
    match o.read env with
    | .unset => applyOverrides env os config
    | .ignored name raw =>
      let r := applyOverrides env os config
      { r with ignored := (name, raw) :: r.ignored }
    | .value v =>
      match setIn o.table o.key v config with
      | some config => applyOverrides env os config
      | none => { config := none }

def applyEnvironment (env : Environment) (config : Fields) : Overridden :=
  applyOverrides env overrides config

def ignoredWarning (name raw : String) : String :=
  "Invalid " ++ name ++ " env value: " ++ Text.quoted raw ++ ", ignoring"

end RepoSurvey.Settings
