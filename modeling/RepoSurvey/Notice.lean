import RepoSurvey.Report
import RepoSurvey.Value

/-!
# RepoSurvey.Notice

The notices given in the course of the work, with their level, the part of the program that gives
them, and the fields that they carry.
-/

namespace RepoSurvey

inductive Level where
  | notset | debug | info | warning | error | critical
deriving DecidableEq, Repr

instance : Named Level where
  all := [.notset, .debug, .info, .warning, .error, .critical]
  name
    | .notset => "notset"
    | .debug => "debug"
    | .info => "info"
    | .warning => "warning"
    | .error => "error"
    | .critical => "critical"

def Level.rank : Level → Nat
  | .notset => 0
  | .debug => 10
  | .info => 20
  | .warning => 30
  | .error => 40
  | .critical => 50

/-- What can be wrong with a package manifest. -/
inductive WorkspaceFault where
  | unreadable (reason : String)
  | notAnObject
  | unsupportedValue
deriving DecidableEq, Repr

def WorkspaceFault.message : WorkspaceFault → String
  | .unreadable reason => reason
  | .notAnObject => "top-level value is not an object"
  | .unsupportedValue => "unsupported workspaces value"

/-- The parts of the program that give notices. -/
inductive Origin where
  | analysis | workspaces | assessment | drift | service
deriving DecidableEq, Repr

inductive Notice where
  | recordInvalid (position errors : Nat)
  | optionsInvalid (errors : Nat)
  | analysisStarted (repository : Value) (files excluded : Nat)
  | edgesTruncated (repository : Value) (discovered : Nat) (kept : Int)
  | analysisCompleted (repository : Value) (files : Int) (edges : Nat) (primaryLanguage : String)
      (monorepo : Bool)
  | workspaceInvalid (path : String) (fault : WorkspaceFault)
  | monorepoDetected (root : String) (workspaces : List String)
  | notAMapping (received : Value)
  | shapeMismatch (keys : List String)
  | assessed (repository : String) (score : Int) (badge : Badge) (issues : Nat)
  | driftComputed (repository : String) (delta : Int) (regressions improvements : Nat)
  | driftSkipped (repository : String)

namespace Notice

def level : Notice → Level
  | recordInvalid .. | optionsInvalid .. | workspaceInvalid .. | notAMapping .. |
    shapeMismatch .. => .warning
  | monorepoDetected .. | driftSkipped .. => .debug
  | _ => .info

/-- The part of the program that gives a notice. -/
def origin : Notice → Origin
  | workspaceInvalid .. | monorepoDetected .. => .workspaces
  | notAMapping .. | shapeMismatch .. | assessed .. => .assessment
  | driftComputed .. => .drift
  | driftSkipped .. => .service
  | _ => .analysis

def event : Notice → String
  | recordInvalid .. => "manifest_record_invalid"
  | optionsInvalid .. => "analysis_config_invalid"
  | analysisStarted .. => "analysis_started"
  | edgesTruncated .. => "dependency_edges_truncated"
  | analysisCompleted .. => "analysis_completed"
  | workspaceInvalid .. => "workspace_config_invalid"
  | monorepoDetected .. => "monorepo_detected"
  | notAMapping .. | shapeMismatch .. => "snapshot_schema_mismatch"
  | assessed .. => "validation_completed"
  | driftComputed .. => "drift_computed"
  | driftSkipped .. => "drift_skipped"

/-- A word for the type of a value. -/
def typeWord : Value → String
  | .null => "null"
  | .bool _ => "flag"
  | .int _ | .long _ => "integer"
  | .real _ => "number"
  | .text _ => "text"
  | .bytes _ => "bytes"
  | .list _ => "list"
  | .object _ => "object"
  | .moment _ => "moment"
  | .record _ => "record"

def fields : Notice → Fields
  | recordInvalid position errors => [("position", .int position), ("errors", .int errors)]
  | optionsInvalid errors => [("errors", .int errors)]
  | analysisStarted repository files excluded =>
    [("repository", repository), ("files", .int files), ("excluded", .int excluded)]
  | edgesTruncated repository discovered kept =>
    [("repository", repository), ("discovered", .int discovered), ("kept", .int kept)]
  | analysisCompleted repository files edges primaryLanguage monorepo =>
    [("repository", repository), ("files", .int files), ("edges", .int edges),
      ("primary_language", .text primaryLanguage), ("monorepo", .bool monorepo)]
  | workspaceInvalid path fault => [("path", .text path), ("error", .text fault.message)]
  | monorepoDetected root workspaces =>
    [("root", .text root), ("workspaces", Value.texts workspaces)]
  | notAMapping received =>
    [("reason", .text "not a mapping"), ("received", .text (typeWord received))]
  | shapeMismatch keys => [("fields", Value.texts keys)]
  | assessed repository score badge issues =>
    [("repository", .text repository), ("score", .int score),
      ("badge", .text (Named.name badge)), ("issues", .int issues)]
  | driftComputed repository delta regressions improvements =>
    [("repository", .text repository), ("delta", .int delta), ("regressions", .int regressions),
      ("improvements", .int improvements)]
  | driftSkipped repository =>
    [("repository", .text repository), ("reason", .text "no_baseline")]

end Notice

end RepoSurvey
