import RepoSurvey.Risk
import RepoSurvey.Rule
import RepoSurvey.Snapshot.Recovery
import RepoSurvey.Value.Integer

/-!
# RepoSurvey.Assessment

From a snapshot to a report. Each category starts at one hundred, or at the value given for it,
and every rule that fires takes its penalty once.
-/

namespace RepoSurvey.Assessment

/-- Starts categories at given values; names that are no categories do not matter. -/
def starting (scores : CategoryScores) : Fields → Except Failure CategoryScores
  | [] => .ok scores
  | (name, v) :: rest =>
    match (Named.find? name : Option Category) with
    | none => starting scores rest
    | some c =>
      match v.toInteger with
      | .ok n => starting (scores.set c (Score.clamp n)) rest
      | .error e => .error e

/-- The rules that fire, with their messages. -/
def fired (s : Snapshot) (risk : RiskMetrics) : List (Rule × String) :=
  Rule.all.filterMap fun r => (r.message? s risk).map fun m => (r, m)

def penalise (scores : CategoryScores) (r : Rule) : CategoryScores :=
  scores.set r.category (max 0 (scores.get r.category - r.penalty))

def checkOf (s : Snapshot) (risk : RiskMetrics) (r : Rule) : Check :=
  match r.message? s risk with
  | none => ⟨r.label, .pass, "No findings"⟩
  | some m => ⟨r.label, .fail, m⟩

def criticalFirst (issues : List Issue) : List Issue :=
  issues.filter (·.severity = .critical) ++ issues.filter (·.severity ≠ .critical)

/-- The report on a snapshot, with given values for some categories to start at. -/
def report (options : ScoringOptions) (now : Int) (start : Fields) (s : Snapshot) :
    Except Failure Report := do
  let buckets := Risk.buckets (s.entries.map (·.path)) s.dependencies
  let risk := Risk.metrics s.dependencies buckets options.cycleDetection
  let scores ← starting {} start
  let found := fired s risk
  let categories := (found.map (·.1)).foldl penalise scores
  let issues := criticalFirst (found.map fun f => f.1.issue f.2)
  let score ← Score.final categories
  let heatmap ← Risk.heatmap buckets
  return {
    score
    categories
    issues
    checks := Rule.all.map (checkOf s risk) ++ Check.informational s
    heatmap
    recommendations := issues.map fun i => i.suggestion.getD ""
    riskMetrics := risk
    summaryBadge := Score.badge (.int score)
    updatedAt := now }

def run (options : ScoringOptions) (now : Int) (start : Fields) (metadata : Value) :
    Logged Report := do
  let s ← Snapshot.recover metadata
  let r ← Logged.ofExcept (report options now start s)
  Logged.notice (.assessed s.name r.score r.summaryBadge r.issues.length)
  pure r

end RepoSurvey.Assessment
