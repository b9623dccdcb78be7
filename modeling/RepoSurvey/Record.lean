import RepoSurvey.Failure
import RepoSurvey.Settings
import RepoSurvey.Snapshot

/-!
# RepoSurvey.Record

Values that have already been read: one of every kind that there is.
-/

namespace RepoSurvey

/-- A value that has already been read. -/
inductive Record where
  | sourceFile (file : SourceFile)
  | symbolCounts (counts : SymbolCounts)
  | entry (entry : Entry)
  | languageShare (share : LanguageShare)
  | edge (edge : Edge)
  | philosophy (philosophy : Philosophy)
  | milestone (milestone : Milestone)
  | snapshot (snapshot : Snapshot)
  | issue (issue : Issue)
  | check (check : Check)
  | categoryScores (scores : CategoryScores)
  | heatNode (node : HeatNode)
  | riskMetrics (metrics : RiskMetrics)
  | report (report : Report)
  | drift (drift : Drift)
  | analysisOptions (options : AnalysisOptions)
  | limits (limits : Limits)
  | scoringOptions (options : ScoringOptions)
  | settings (settings : Settings)
deriving DecidableEq, Repr

namespace Record

def kind : Record → Kind
  | sourceFile _ => .sourceFile
  | symbolCounts _ => .symbolCounts
  | entry _ => .entry
  | languageShare _ => .languageShare
  | edge _ => .edge
  | philosophy _ => .philosophy
  | milestone _ => .milestone
  | snapshot _ => .snapshot
  | issue _ => .issue
  | check _ => .check
  | categoryScores _ => .categoryScores
  | heatNode _ => .heatNode
  | riskMetrics _ => .riskMetrics
  | report _ => .report
  | drift _ => .drift
  | analysisOptions _ => .analysisOptions
  | limits _ => .limits
  | scoringOptions _ => .scoringOptions
  | settings _ => .settings

end Record

end RepoSurvey
