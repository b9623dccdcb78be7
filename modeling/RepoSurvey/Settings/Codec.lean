import RepoSurvey.Codec
import RepoSurvey.Value.Display

/-!
# RepoSurvey.Settings.Codec

How options and settings are read and written. The milestones of a roadmap may be given as texts
or as objects that name them.
-/

namespace RepoSurvey

/-- The keys under which an object names a milestone; the first that is present counts. -/
def milestoneKeys : List String := ["milestone", "title", "label"]

/-- The text of a milestone, if the value names one. -/
def milestoneText? : Value → Option String
  | .object fs =>
    ((milestoneKeys.filterMap (Fields.get? fs)).find? Value.isTruthy).map Value.display
  | v => if v.isTruthy then some v.display else none

/-- A list of milestones as a list of texts; other values stay as they are. -/
def milestoneTexts : Value → Value
  | .list vs => Value.texts ((Value.mergedItems vs).filterMap milestoneText?)
  | v => v

def AnalysisOptions.codec : Codec AnalysisOptions :=
  .record (fun | .analysisOptions x => some x | _ => none) {} [
    .optional ⟨"excludePatterns", "exclude_patterns"⟩ (.list .text) (·.excludePatterns)
      fun v x => { x with excludePatterns := v },
    .optional ⟨"projectType", "project_type"⟩ .text (·.projectType)
      fun v x => { x with projectType := v },
    .optional ⟨"customVocabulary", "custom_vocabulary"⟩ (.mapping .text) (·.customVocabulary)
      fun v x => { x with customVocabulary := v },
    .optional ⟨"customPhilosophy", "custom_philosophy"⟩ (.optional .text) (·.customPhilosophy)
      fun v x => { x with customPhilosophy := v },
    .optional ⟨"targetRoadmap", "target_roadmap"⟩
      (Codec.after (.optional (.list .text)) milestoneTexts) (·.targetRoadmap)
      fun v x => { x with targetRoadmap := v }]

def Limits.codec : Codec Limits :=
  .record (fun | .limits x => some x | _ => none) {} [
    .optional (.plain "max_dependency_edges") (.integerFrom 0) (·.maxDependencyEdges)
      fun v x => { x with maxDependencyEdges := v },
    .optional (.plain "max_graph_edges") (.integerFrom 0) (·.maxGraphEdges)
      fun v x => { x with maxGraphEdges := v },
    .optional (.plain "max_workers") (.integerFrom 1) (·.maxWorkers)
      fun v x => { x with maxWorkers := v }]

def ScoringOptions.codec : Codec ScoringOptions :=
  .record (fun | .scoringOptions x => some x | _ => none) {} [
    .optional (.plain "cycle_detection") .literal (·.cycleDetection)
      fun v x => { x with cycleDetection := v }]

def Settings.codec : Codec Settings :=
  .record (fun | .settings x => some x | _ => none) {} [
    .optional (.plain "analysis") AnalysisOptions.codec (·.analysis)
      fun v x => { x with analysis := v },
    .optional (.plain "limits") Limits.codec (·.limits) fun v x => { x with limits := v },
    .optional (.plain "validation") ScoringOptions.codec (·.validation)
      fun v x => { x with validation := v },
    .optional (.plain "log_level") .text (·.logLevel) fun v x => { x with logLevel := v },
    .optional (.plain "log_file") .text (·.logFile) fun v x => { x with logFile := v },
    .optional (.plain "log_rotation_max_mb") .integer (·.logRotationMaxMb)
      fun v x => { x with logRotationMaxMb := v },
    .optional (.plain "log_rotation_backups") .integer (·.logRotationBackups)
      fun v x => { x with logRotationBackups := v }]

end RepoSurvey
