import RepoSurvey.Decimal.Layout
import RepoSurvey.Record
import RepoSurvey.Text.Case
import RepoSurvey.Text.Quoted

/-!
# RepoSurvey.Record.Shown

The texts of records. A record by itself is the list of its fields with their values; inside other
texts it also names its type.
-/

namespace RepoSurvey

/-! ## Parts of records -/

namespace Shown

def constant : Option Bool → String
  | none => "None"
  | some true => "True"
  | some false => "False"

def flag (b : Bool) : String := constant (some b)

def integer (n : Int) : String := toString n

def number (x : Binary64) : String := Decimal.plain.write x

def text (s : String) : String := Text.quoted s

variable {α : Type}

/-- A list of things that are shown in some way. -/
def list (f : α → String) (as : List α) : String :=
  "[" ++ ", ".intercalate (as.map f) ++ "]"

def optional (f : α → String) : Option α → String
  | none => constant none
  | some a => f a

def mapping (fs : List (String × String)) : String :=
  "\x7b" ++ ", ".intercalate (fs.map fun f => text f.1 ++ ": " ++ text f.2) ++ "\x7d"

/-- A member of a finite type, with the name of the type. -/
def member [Named α] (type : String) (a : α) : String :=
  "<" ++ type ++ "." ++ Text.upper (Named.name a) ++ ": " ++ text (Named.name a) ++ ">"

end Shown

/-- The fields of a record with the texts of their values. -/
abbrev Parts := List (String × String)

namespace Parts

/-- Fields and values with a text between them. -/
def joined (separator : String) (ps : Parts) : String :=
  separator.intercalate (ps.map fun p => p.1 ++ "=" ++ p.2)

def named (ps : Parts) (type : String) : String := type ++ "(" ++ ps.joined ", " ++ ")"

end Parts

/-- The name of a kind of record in texts. -/
def Kind.typeName : Kind → String
  | sourceFile => "RawFile"
  | symbolCounts => "SymbolCounts"
  | entry => "FileEntry"
  | languageShare => "LanguageDetection"
  | edge => "DependencyEdge"
  | philosophy => "Philosophy"
  | milestone => "RoadmapItem"
  | snapshot => "RepositoryMetadata"
  | issue => "ValidationIssue"
  | check => "ValidationCheck"
  | categoryScores => "CategoryScores"
  | heatNode => "HeatmapNode"
  | riskMetrics => "RiskMetrics"
  | report => "ValidationReport"
  | drift => "DriftReport"
  | analysisOptions => "AnalysisConfig"
  | limits => "LimitsConfig"
  | scoringOptions => "ValidationConfig"
  | settings => "AppConfig"

/-! ## Files and entries -/

def SourceFile.parts (f : SourceFile) : Parts := [
  ("name", Shown.text f.path),
  ("size", Shown.integer f.size),
  ("entry_type", Shown.member "EntryType" f.entryType),
  ("content", Shown.optional Shown.text f.content)]

def SymbolCounts.parts (s : SymbolCounts) : Parts := [
  ("classes", Shown.integer s.classes),
  ("functions", Shown.integer s.functions),
  ("exports", Shown.integer s.exports)]

def Entry.parts (e : Entry) : Parts := [
  ("path", Shown.text e.path),
  ("name", Shown.text e.name),
  ("size", Shown.integer e.size),
  ("entry_type", Shown.member "EntryType" e.entryType),
  ("extension", Shown.text e.extension),
  ("language", Shown.text e.language),
  ("symbols", e.symbols.parts.named Kind.symbolCounts.typeName)]

def LanguageShare.parts (l : LanguageShare) : Parts := [
  ("language", Shown.text l.language),
  ("file_count", Shown.integer l.fileCount),
  ("percentage", Shown.integer l.percentage)]

def Edge.parts (e : Edge) : Parts := [
  ("source", Shown.text e.source),
  ("target", Shown.text e.target),
  ("kind", Shown.member "EdgeKind" e.kind)]

def Philosophy.parts (p : Philosophy) : Parts := [
  ("statement", Shown.text p.statement),
  ("source", Shown.text p.source)]

def Milestone.parts (m : Milestone) : Parts := [
  ("milestone", Shown.text m.milestone),
  ("phase", Shown.text m.phase)]

/-! ## Reports -/

def Issue.parts (i : Issue) : Parts := [
  ("id", Shown.text i.id),
  ("severity", Shown.member "Severity" i.severity),
  ("category", Shown.member "IssueCategory" i.category),
  ("message", Shown.text i.message),
  ("suggestion", Shown.optional Shown.text i.suggestion),
  ("auto_fixable", Shown.flag i.autoFixable)]

def Check.parts (c : Check) : Parts := [
  ("label", Shown.text c.label),
  ("status", Shown.member "CheckStatus" c.status),
  ("message", Shown.text c.message)]

def CategoryScores.parts (s : CategoryScores) : Parts := [
  ("consistency", Shown.integer s.consistency),
  ("completeness", Shown.integer s.completeness),
  ("security", Shown.integer s.security),
  ("structure", Shown.integer s.structural)]

def HeatNode.parts (n : HeatNode) : Parts := [
  ("path", Shown.text n.path),
  ("risk_score", Shown.integer n.riskScore),
  ("risk_level", Shown.member "RiskLevel" n.riskLevel),
  ("file_count", Shown.integer n.fileCount)]

def RiskMetrics.parts (m : RiskMetrics) : Parts := [
  ("fan_in_max", Shown.integer m.fanInMax),
  ("fan_out_max", Shown.integer m.fanOutMax),
  ("coupling_index", Shown.number m.couplingIndex),
  ("isolation_score", Shown.number m.isolationScore),
  ("has_circular_deps", Shown.flag m.hasCircularDeps),
  ("hotspot_paths", Shown.list Shown.text m.hotspotPaths)]

def Report.parts (r : Report) : Parts := [
  ("score", Shown.integer r.score),
  ("categories", r.categories.parts.named Kind.categoryScores.typeName),
  ("issues", Shown.list (fun i => i.parts.named Kind.issue.typeName) r.issues),
  ("checks", Shown.list (fun c => c.parts.named Kind.check.typeName) r.checks),
  ("heatmap", Shown.list (fun n => n.parts.named Kind.heatNode.typeName) r.heatmap),
  ("recommendations", Shown.list Shown.text r.recommendations),
  ("risk_metrics", r.riskMetrics.parts.named Kind.riskMetrics.typeName),
  ("summary_badge", Shown.member "SummaryBadge" r.summaryBadge),
  ("updated_at", Shown.integer r.updatedAt)]

def Drift.parts (d : Drift) : Parts := [
  ("previous_score", Shown.integer d.previousScore),
  ("current_score", Shown.integer d.currentScore),
  ("delta", Shown.integer d.delta),
  ("added_files", Shown.integer d.addedFiles),
  ("removed_files", Shown.integer d.removedFiles),
  ("new_dependencies", Shown.integer d.newDependencies),
  ("regressions", Shown.list Shown.text d.regressions),
  ("improvements", Shown.list Shown.text d.improvements),
  ("timestamp", Shown.integer d.timestamp)]

/-! ## Snapshots -/

def Snapshot.parts (s : Snapshot) : Parts := [
  ("name", Shown.text s.name),
  ("total_files", Shown.integer s.totalFiles),
  ("total_size", Shown.integer s.totalSize),
  ("total_symbols", Shown.integer s.totalSymbols),
  ("primary_language", Shown.text s.primaryLanguage),
  ("languages", Shown.list (fun l => l.parts.named Kind.languageShare.typeName) s.languages),
  ("structure", Shown.list (fun e => e.parts.named Kind.entry.typeName) s.entries),
  ("dependencies", Shown.list (fun e => e.parts.named Kind.edge.typeName) s.dependencies),
  ("is_monorepo", Shown.flag s.isMonorepo),
  ("workspaces", Shown.list Shown.text s.workspaces),
  ("project_type", Shown.text s.projectType),
  ("philosophy", s.philosophy.parts.named Kind.philosophy.typeName),
  ("roadmap", Shown.list (fun m => m.parts.named Kind.milestone.typeName) s.roadmap),
  ("documentation", Shown.mapping s.documentation),
  ("validation", Shown.optional (fun r => r.parts.named Kind.report.typeName) s.validation),
  ("analyzed_at", Shown.integer s.analyzedAt)]

/-! ## Settings -/

def AnalysisOptions.parts (o : AnalysisOptions) : Parts := [
  ("exclude_patterns", Shown.list Shown.text o.excludePatterns),
  ("project_type", Shown.text o.projectType),
  ("custom_vocabulary", Shown.mapping o.customVocabulary),
  ("custom_philosophy", Shown.optional Shown.text o.customPhilosophy),
  ("target_roadmap", Shown.optional (Shown.list Shown.text) o.targetRoadmap)]

def Limits.parts (l : Limits) : Parts := [
  ("max_dependency_edges", Shown.integer l.maxDependencyEdges),
  ("max_graph_edges", Shown.integer l.maxGraphEdges),
  ("max_workers", Shown.integer l.maxWorkers)]

def ScoringOptions.parts (o : ScoringOptions) : Parts := [
  ("cycle_detection", Shown.text (Named.name o.cycleDetection))]

def Settings.parts (s : Settings) : Parts := [
  ("analysis", s.analysis.parts.named Kind.analysisOptions.typeName),
  ("limits", s.limits.parts.named Kind.limits.typeName),
  ("validation", s.validation.parts.named Kind.scoringOptions.typeName),
  ("log_level", Shown.text s.logLevel),
  ("log_file", Shown.text s.logFile),
  ("log_rotation_max_mb", Shown.integer s.logRotationMaxMb),
  ("log_rotation_backups", Shown.integer s.logRotationBackups)]

namespace Record

def parts : Record → Parts
  | sourceFile x => x.parts
  | symbolCounts x => x.parts
  | entry x => x.parts
  | languageShare x => x.parts
  | edge x => x.parts
  | philosophy x => x.parts
  | milestone x => x.parts
  | snapshot x => x.parts
  | issue x => x.parts
  | check x => x.parts
  | categoryScores x => x.parts
  | heatNode x => x.parts
  | riskMetrics x => x.parts
  | report x => x.parts
  | drift x => x.parts
  | analysisOptions x => x.parts
  | limits x => x.parts
  | scoringOptions x => x.parts
  | settings x => x.parts

/-- The text of a record by itself. -/
def text (r : Record) : String := r.parts.joined " "

/-- The text of a record inside another text. -/
def inner (r : Record) : String := r.parts.named r.kind.typeName

end Record

end RepoSurvey
