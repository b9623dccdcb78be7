import RepoSurvey.Binary64
import RepoSurvey.Named

/-!
# RepoSurvey.Report

What an assessment of a snapshot says: scores by category, the issues found, a checklist, the
risk of every top-level directory and of the dependency graph; and what changed between two
snapshots.
-/

namespace RepoSurvey

/-- How grave an issue is. -/
inductive Severity where
  | low | medium | high | critical
deriving DecidableEq, Repr

instance : Named Severity where
  all := [.low, .medium, .high, .critical]
  name
    | .low => "low"
    | .medium => "medium"
    | .high => "high"
    | .critical => "critical"

/-- The category whose score an issue lowers. -/
inductive Category where
  | consistency | completeness | security | structural
deriving DecidableEq, Repr

instance : Named Category where
  all := [.consistency, .completeness, .security, .structural]
  name
    | .consistency => "consistency"
    | .completeness => "completeness"
    | .security => "security"
    | .structural => "structure"

inductive RiskLevel where
  | low | medium | high | critical
deriving DecidableEq, Repr

instance : Named RiskLevel where
  all := [.low, .medium, .high, .critical]
  name
    | .low => "low"
    | .medium => "medium"
    | .high => "high"
    | .critical => "critical"

/-- The outcome of a line of the checklist. -/
inductive Outcome where
  | pass | warn | fail
deriving DecidableEq, Repr

instance : Named Outcome where
  all := [.pass, .warn, .fail]
  name
    | .pass => "pass"
    | .warn => "warn"
    | .fail => "fail"

/-- The verdict that sums up a score. -/
inductive Badge where
  | elite | highIntegrity | stable | debt | failure
deriving DecidableEq, Repr

instance : Named Badge where
  all := [.elite, .highIntegrity, .stable, .debt, .failure]
  name
    | .elite => "ELITE_ARCH"
    | .highIntegrity => "HIGH_INTEGRITY"
    | .stable => "STABLE_BUILD"
    | .debt => "DEBT_WARNING"
    | .failure => "CRITICAL_FAILURE"

structure Issue where
  id : String
  severity : Severity
  category : Category
  message : String
  suggestion : Option String := none
  autoFixable : Bool := false
deriving DecidableEq, Repr

structure Check where
  label : String
  status : Outcome
  message : String
deriving DecidableEq, Repr

structure CategoryScores where
  consistency : Int := 100
  completeness : Int := 100
  security : Int := 100
  structural : Int := 100
deriving DecidableEq, Repr

namespace CategoryScores

def get (s : CategoryScores) : Category → Int
  | .consistency => s.consistency
  | .completeness => s.completeness
  | .security => s.security
  | .structural => s.structural

def set (s : CategoryScores) (c : Category) (n : Int) : CategoryScores :=
  match c with
  | .consistency => { s with consistency := n }
  | .completeness => { s with completeness := n }
  | .security => { s with security := n }
  | .structural => { s with structural := n }

theorem get_set (s : CategoryScores) (c d : Category) (n : Int) :
    (s.set c n).get d = if c = d then n else s.get d := by
  cases c <;> cases d <;> rfl

end CategoryScores

/-- The risk of one top-level directory. -/
structure HeatNode where
  path : String
  riskScore : Int
  riskLevel : RiskLevel
  fileCount : Int
deriving DecidableEq, Repr

/-- Aggregates over the dependency graph. -/
structure RiskMetrics where
  fanInMax : Int := 0
  fanOutMax : Int := 0
  couplingIndex : Binary64 := Binary64.zero false
  isolationScore : Binary64 := Binary64.ofRat 100
  hasCircularDeps : Bool := false
  hotspotPaths : List String := []
deriving DecidableEq, Repr

structure Report where
  score : Int
  categories : CategoryScores := {}
  issues : List Issue := []
  checks : List Check := []
  heatmap : List HeatNode := []
  recommendations : List String := []
  riskMetrics : RiskMetrics := {}
  summaryBadge : Badge := .failure
  updatedAt : Int := 0
deriving DecidableEq, Repr

/-- What changed from a baseline to a current snapshot. -/
structure Drift where
  previousScore : Int := 0
  currentScore : Int := 0
  delta : Int := 0
  addedFiles : Int := 0
  removedFiles : Int := 0
  newDependencies : Int := 0
  regressions : List String := []
  improvements : List String := []
  timestamp : Int := 0
deriving DecidableEq, Repr

end RepoSurvey
