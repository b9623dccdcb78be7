import RepoSurvey.Decimal.Layout
import RepoSurvey.Logged
import RepoSurvey.Snapshot

/-!
# RepoSurvey.Drift

What changed from a baseline to a current snapshot. A snapshot without a report counts as scored
zero.
-/

namespace RepoSurvey.Drift

/-- A growth by more files than this is remarked on. -/
def growthLimit : Int := 50

def cyclesRemark : String := "New architectural dependency cycles introduced."

def growthRemark : String := "Significant expansion of code surface without modularization."

/-- Whether the report of a snapshot tells of cycles. -/
def hasCycles (s : Snapshot) : Bool := (s.validation.map (·.riskMetrics.hasCircularDeps)).getD false

/-- How many distinct texts of a list are missing in another. -/
def missing (xs ys : List String) : Int := (xs.eraseDups.filter fun x => !ys.contains x).length

def healthRemark (verb : String) (amount : Int) : Except Failure String :=
  match Binary64.ofInt? amount with
  | some x => .ok ("Overall health " ++ verb ++ " by " ++ Decimal.onePlace x ++ "%")
  | none => .error .outOfRange

def worsened (current baseline : Snapshot) : Except Failure (List String) := do
  let delta := current.score - baseline.score
  let health ← if delta < 0 then (healthRemark "decreased" (-delta)).map ([·]) else .ok []
  let cycles := if hasCycles current && !hasCycles baseline then [cyclesRemark] else []
  let growth :=
    if baseline.totalFiles + growthLimit < current.totalFiles then [growthRemark] else []
  return health ++ cycles ++ growth

def improved (current baseline : Snapshot) : Except Failure (List String) :=
  let delta := current.score - baseline.score
  if 0 < delta then (healthRemark "increased" delta).map ([·]) else .ok []

def between (now : Int) (current baseline : Snapshot) : Except Failure Drift := do
  let regressions ← worsened current baseline
  let improvements ← improved current baseline
  let paths (s : Snapshot) := s.entries.map (·.path)
  let keys (s : Snapshot) := s.dependencies.map (·.key)
  return {
    previousScore := baseline.score
    currentScore := current.score
    delta := current.score - baseline.score
    addedFiles := missing (paths current) (paths baseline)
    removedFiles := missing (paths baseline) (paths current)
    newDependencies := missing (keys current) (keys baseline)
    regressions
    improvements
    timestamp := now }

def run (now : Int) (current baseline : Snapshot) : Logged Drift := do
  let d ← Logged.ofExcept (between now current baseline)
  Logged.notice (.driftComputed current.name d.delta d.regressions.length d.improvements.length)
  pure d

end RepoSurvey.Drift
