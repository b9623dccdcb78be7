import RepoSurvey.Number
import RepoSurvey.Report

/-!
# RepoSurvey.Score

Weights, thresholds and rounding. Halves are rounded up.
-/

namespace RepoSurvey.Score

/-- The greatest integer that is not above the number and a half. -/
def roundHalfUp (x : Binary64) : Except Failure Int :=
  (x.add (Binary64.ofRat (1 / 2))).floor.mapError Failure.ofNoInteger

/-- Moves a value into a range. A value that is not less than `high` becomes `high`, and what is
then not greater than `low` becomes `low`. -/
def clampBy {α : Type} (lt : α → α → Bool) (low high value : α) : α :=
  let v := if lt value high then value else high
  if lt low v then v else low

def clamp (n : Int) : Int := clampBy (fun a b => a < b) 0 100 n

theorem clamp_eq (n : Int) : clamp n = max 0 (min 100 n) := by
  simp only [clamp, clampBy, decide_eq_true_eq]
  split <;> split <;> omega

/-- The categories and their weights, in the order in which they are added. -/
def weights : List (Category × Rat) := [
  (.security, 35 / 100), (.structural, 25 / 100), (.consistency, 20 / 100),
  (.completeness, 20 / 100)]

def weighted (score : Int) (weight : Rat) : Except Failure Binary64 :=
  match Binary64.ofInt? score with
  | some x => .ok (x.mul (Binary64.ofRat weight))
  | none => .error .outOfRange

/-- The weighted sum of some categories, added from the first on and rounded after each term. A sum
that makes up for what the rounding loses can differ from it in the last place. -/
def weightedSum (s : CategoryScores) (acc : Binary64) :
    List (Category × Rat) → Except Failure Binary64
  | [] => .ok acc
  | (c, w) :: rest =>
    match weighted (s.get c) w with
    | .ok x => weightedSum s (acc.add x) rest
    | .error e => .error e

/-- The score of a repository: the weighted sum of its categories, rounded and kept in range. -/
def final (s : CategoryScores) : Except Failure Int :=
  match weightedSum s (Binary64.zero false) weights with
  | .ok x => (roundHalfUp x).map clamp
  | .error e => .error e

def badge (score : Number) : Badge :=
  if score.atLeast 90 then .elite
  else if score.atLeast 80 then .highIntegrity
  else if score.atLeast 70 then .stable
  else if score.atLeast 50 then .debt
  else .failure

def riskLevel (risk : Number) : RiskLevel :=
  if risk.exceeds 70 then .critical
  else if risk.exceeds 45 then .high
  else if risk.exceeds 20 then .medium
  else .low

end RepoSurvey.Score
