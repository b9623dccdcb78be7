import RepoSurvey.Codec

/-!
# RepoSurvey.Report.Codec

How reports and what they consist of are read and written.
-/

namespace RepoSurvey

def Issue.codec : Codec Issue :=
  .record (fun | .issue x => some x | _ => none)
    { id := "", severity := .low, category := .consistency, message := "" } [
    .required (.plain "id") .text (·.id) fun v x => { x with id := v },
    .required (.plain "severity") .named (·.severity) fun v x => { x with severity := v },
    .required (.plain "category") .named (·.category) fun v x => { x with category := v },
    .required (.plain "message") .text (·.message) fun v x => { x with message := v },
    .optional (.plain "suggestion") (.optional .text) (·.suggestion)
      fun v x => { x with suggestion := v },
    .optional ⟨"autoFixable", "auto_fixable"⟩ .flag (·.autoFixable)
      fun v x => { x with autoFixable := v }]

def Check.codec : Codec Check :=
  .record (fun | .check x => some x | _ => none) { label := "", status := .pass, message := "" } [
    .required (.plain "label") .text (·.label) fun v x => { x with label := v },
    .required (.plain "status") .named (·.status) fun v x => { x with status := v },
    .required (.plain "message") .text (·.message) fun v x => { x with message := v }]

def CategoryScores.codec : Codec CategoryScores :=
  .record (fun | .categoryScores x => some x | _ => none) {} [
    .optional (.plain "consistency") .integer (·.consistency) fun v x => { x with consistency := v },
    .optional (.plain "completeness") .integer (·.completeness)
      fun v x => { x with completeness := v },
    .optional (.plain "security") .integer (·.security) fun v x => { x with security := v },
    .optional (.plain "structure") .integer (·.structural) fun v x => { x with structural := v }]

def HeatNode.codec : Codec HeatNode :=
  .record (fun | .heatNode x => some x | _ => none)
    { path := "", riskScore := 0, riskLevel := .low, fileCount := 0 } [
    .required (.plain "path") .text (·.path) fun v x => { x with path := v },
    .required ⟨"riskScore", "risk_score"⟩ .integer (·.riskScore)
      fun v x => { x with riskScore := v },
    .required ⟨"riskLevel", "risk_level"⟩ .named (·.riskLevel)
      fun v x => { x with riskLevel := v },
    .required ⟨"fileCount", "file_count"⟩ .integer (·.fileCount)
      fun v x => { x with fileCount := v }]

def RiskMetrics.codec : Codec RiskMetrics :=
  .record (fun | .riskMetrics x => some x | _ => none) {} [
    .optional ⟨"fanInMax", "fan_in_max"⟩ .integer (·.fanInMax) fun v x => { x with fanInMax := v },
    .optional ⟨"fanOutMax", "fan_out_max"⟩ .integer (·.fanOutMax)
      fun v x => { x with fanOutMax := v },
    .optional ⟨"couplingIndex", "coupling_index"⟩ .number (·.couplingIndex)
      fun v x => { x with couplingIndex := v },
    .optional ⟨"isolationScore", "isolation_score"⟩ .number (·.isolationScore)
      fun v x => { x with isolationScore := v },
    .optional ⟨"hasCircularDeps", "has_circular_deps"⟩ .flag (·.hasCircularDeps)
      fun v x => { x with hasCircularDeps := v },
    .optional ⟨"hotspotPaths", "hotspot_paths"⟩ (.list .text) (·.hotspotPaths)
      fun v x => { x with hotspotPaths := v }]

def Report.codec : Codec Report :=
  .record (fun | .report x => some x | _ => none) { score := 0 } [
    .required (.plain "score") .integer (·.score) fun v x => { x with score := v },
    .optional (.plain "categories") CategoryScores.codec (·.categories)
      fun v x => { x with categories := v },
    .optional (.plain "issues") (.list Issue.codec) (·.issues) fun v x => { x with issues := v },
    .optional (.plain "checks") (.list Check.codec) (·.checks) fun v x => { x with checks := v },
    .optional (.plain "heatmap") (.list HeatNode.codec) (·.heatmap)
      fun v x => { x with heatmap := v },
    .optional (.plain "recommendations") (.list .text) (·.recommendations)
      fun v x => { x with recommendations := v },
    .optional ⟨"riskMetrics", "risk_metrics"⟩ RiskMetrics.codec (·.riskMetrics)
      fun v x => { x with riskMetrics := v },
    .optional ⟨"summaryBadge", "summary_badge"⟩ .named (·.summaryBadge)
      fun v x => { x with summaryBadge := v },
    .optional ⟨"updatedAt", "updated_at"⟩ .integer (·.updatedAt)
      fun v x => { x with updatedAt := v }]

def Drift.codec : Codec Drift :=
  .record (fun | .drift x => some x | _ => none) {} [
    .optional ⟨"previousScore", "previous_score"⟩ .integer (·.previousScore)
      fun v x => { x with previousScore := v },
    .optional ⟨"currentScore", "current_score"⟩ .integer (·.currentScore)
      fun v x => { x with currentScore := v },
    .optional (.plain "delta") .integer (·.delta) fun v x => { x with delta := v },
    .optional ⟨"addedFiles", "added_files"⟩ .integer (·.addedFiles)
      fun v x => { x with addedFiles := v },
    .optional ⟨"removedFiles", "removed_files"⟩ .integer (·.removedFiles)
      fun v x => { x with removedFiles := v },
    .optional ⟨"newDependencies", "new_dependencies"⟩ .integer (·.newDependencies)
      fun v x => { x with newDependencies := v },
    .optional (.plain "regressions") (.list .text) (·.regressions)
      fun v x => { x with regressions := v },
    .optional (.plain "improvements") (.list .text) (·.improvements)
      fun v x => { x with improvements := v },
    .optional (.plain "timestamp") .integer (·.timestamp) fun v x => { x with timestamp := v }]

end RepoSurvey
