import RepoSurvey.Decoded

/-!
# RepoSurvey.Failure

Why an operation yields nothing.
-/

namespace RepoSurvey

inductive Kind where
  | sourceFile | symbolCounts | entry | languageShare | edge | philosophy | milestone | snapshot
  | issue | check | categoryScores | heatNode | riskMetrics | report | drift
  | analysisOptions | limits | scoringOptions | settings
deriving DecidableEq, Repr

/-- What stops an operation. -/
inductive Failure where
  /-- A record of some kind cannot be read. -/
  | invalid (kind : Kind) (first : Fault) (more : List Fault)
  /-- A number is beyond the range of the numbers computed with. -/
  | outOfRange
  /-- A value that should be a number spells none. -/
  | unreadNumber
  /-- A value is of a type that stands for no number. -/
  | noNumber
  /-- A value has no items to go through. -/
  | noSequence
  /-- A record has no field of a name. -/
  | noField
  | malformedText
  | tooDeep
deriving DecidableEq, Repr

/-- A reading as the outcome of an operation. -/
def Decoded.orFail {α : Type} (kind : Kind) : Decoded α → Except Failure α
  | .ok a => .ok a
  | .failed f fs => .error (.invalid kind f fs)

end RepoSurvey
