import RepoSurvey.Named

/-!
# RepoSurvey.Settings

The options of an analysis, the limits on its size, and the settings of the whole program.
-/

namespace RepoSurvey

structure AnalysisOptions where
  /-- A path that contains one of these, whatever its case, is left out. -/
  excludePatterns : List String := []
  projectType : String := "auto"
  /-- Parts of paths and the project type that each of them stands for; the first match counts. -/
  customVocabulary : List (String × String) := []
  customPhilosophy : Option String := none
  targetRoadmap : Option (List String) := none
deriving DecidableEq, Repr

structure Limits where
  maxDependencyEdges : Int := 1000
  maxGraphEdges : Int := 60
  maxWorkers : Int := 4
deriving DecidableEq, Repr

/-- How circular dependencies are recognised: by the coupling index or by a search of the graph. -/
inductive CycleDetection where
  | heuristic | graph
deriving DecidableEq, Repr

instance : Named CycleDetection where
  all := [.heuristic, .graph]
  name
    | .heuristic => "heuristic"
    | .graph => "graph"

structure ScoringOptions where
  cycleDetection : CycleDetection := .heuristic
deriving DecidableEq, Repr

structure Settings where
  analysis : AnalysisOptions := {}
  limits : Limits := {}
  validation : ScoringOptions := {}
  logLevel : String := "INFO"
  logFile : String := ""
  logRotationMaxMb : Int := 5
  logRotationBackups : Int := 3
deriving DecidableEq, Repr

end RepoSurvey
