import RepoSurvey.Analysis
import RepoSurvey.Assessment
import RepoSurvey.Drift
import RepoSurvey.Graph.Diagram

/-!
# RepoSurvey.Service

The operations offered to callers, under the settings of the program. Every operation yields a
new value; the times at which things are made are given by the caller.
-/

namespace RepoSurvey

/-- The snapshot with further documents, which replace those of the same name. -/
def Snapshot.withDocumentation (s : Snapshot) (documents : Fields) : Snapshot :=
  { s with documentation :=
      Keyed.putAll s.documentation (documents.map fun d => (d.1, d.2.display)) }

namespace Settings

/-- Analyses a manifest; without options of its own, under those of the settings. -/
def analyze (settings : Settings) (now : Int) (name : Value) (manifest : List Value)
    (options : Value) : Logged Snapshot :=
  match options with
  | .null => Analysis.run settings.limits now name manifest
      (.record (.analysisOptions settings.analysis))
  | options => Analysis.run settings.limits now name manifest options

def assess (settings : Settings) (now : Int) (metadata : Value) : Logged Report :=
  Assessment.run settings.validation now [] metadata

/-- Analyses a manifest and attaches the report on the snapshot. -/
def analyzeAndAssess (settings : Settings) (analyzed assessed : Int) (name : Value)
    (manifest : List Value) (options : Value) : Logged Snapshot := do
  let s ← settings.analyze analyzed name manifest options
  let r ← settings.assess assessed (.record (.snapshot s))
  pure (s.withValidation r)

/-- Compares a snapshot with its baseline, if there is one. -/
def drift (now : Int) (current : Snapshot) (baseline : Option Snapshot) :
    Logged (Option Drift) :=
  match baseline with
  | none => do
    Logged.notice (.driftSkipped current.name)
    pure none
  | some baseline => do
    let d ← Drift.run now current baseline
    pure (some d)

/-- The diagram of some dependencies; without a limit of its own, under that of the settings. -/
def diagram (settings : Settings) (edges : List Edge) (limit : Option Int) : String :=
  Graph.diagram edges (limit.getD settings.limits.maxGraphEdges)

end Settings

end RepoSurvey
