import RepoSurvey.Path
import RepoSurvey.Report.Codec

/-!
# RepoSurvey.Snapshot.Codec

How snapshots and what they consist of are read and written. An entry without a name takes the
last segment of its path.
-/

namespace RepoSurvey

def SymbolCounts.codec : Codec SymbolCounts :=
  .record (fun | .symbolCounts x => some x | _ => none) {} [
    .optional (.plain "classes") .integer (·.classes) fun v x => { x with classes := v },
    .optional (.plain "functions") .integer (·.functions) fun v x => { x with functions := v },
    .optional (.plain "exports") .integer (·.exports) fun v x => { x with exports := v }]

/-- Names an object by its path if it has a path and no name. -/
def namedByPath : Value → Value
  | .object fs =>
    match ((Fields.last? fs "name").getD .null).isTruthy, Fields.last? fs "path" with
    | false, some (.text path) =>
      .object (Fields.drop fs "name" ++ [("name", .text (Path.lastSegment path))])
    | _, _ => .object fs
  | v => v

def Entry.codec : Codec Entry :=
  Codec.after (.record (fun | .entry x => some x | _ => none) { path := "", name := "" } [
    .required (.plain "path") .text (·.path) fun v x => { x with path := v },
    .required (.plain "name") .text (·.name) fun v x => { x with name := v },
    .optional (.plain "size") .integer (·.size) fun v x => { x with size := v },
    .optional ⟨"type", "entry_type"⟩ .named (·.entryType) fun v x => { x with entryType := v },
    .optional (.plain "extension") .text (·.extension) fun v x => { x with extension := v },
    .optional (.plain "language") .text (·.language) fun v x => { x with language := v },
    .optional (.plain "symbols") SymbolCounts.codec (·.symbols)
      fun v x => { x with symbols := v }]) namedByPath

def LanguageShare.codec : Codec LanguageShare :=
  .record (fun | .languageShare x => some x | _ => none)
    { language := "", fileCount := 0, percentage := 0 } [
    .required (.plain "language") .text (·.language) fun v x => { x with language := v },
    .required ⟨"fileCount", "file_count"⟩ .integer (·.fileCount)
      fun v x => { x with fileCount := v },
    .required (.plain "percentage") .integer (·.percentage) fun v x => { x with percentage := v }]

def Edge.codec : Codec Edge :=
  .record (fun | .edge x => some x | _ => none) { source := "", target := "" } [
    .required (.plain "source") .text (·.source) fun v x => { x with source := v },
    .required (.plain "target") .text (·.target) fun v x => { x with target := v },
    .optional ⟨"type", "kind"⟩ .named (·.kind) fun v x => { x with kind := v }]

def Philosophy.codec : Codec Philosophy :=
  .record (fun | .philosophy x => some x | _ => none) {} [
    .optional (.plain "statement") .text (·.statement) fun v x => { x with statement := v },
    .optional (.plain "source") .text (·.source) fun v x => { x with source := v }]

def Milestone.codec : Codec Milestone :=
  .record (fun | .milestone x => some x | _ => none) { milestone := "" } [
    .required (.plain "milestone") .text (·.milestone) fun v x => { x with milestone := v },
    .optional (.plain "phase") .text (·.phase) fun v x => { x with phase := v }]

namespace Snapshot

def slots : List (Slot Snapshot) := [
  .required (.plain "name") .text (·.name) fun v x => { x with name := v },
  .optional ⟨"totalFiles", "total_files"⟩ .integer (·.totalFiles)
    fun v x => { x with totalFiles := v },
  .optional ⟨"totalSize", "total_size"⟩ .integer (·.totalSize)
    fun v x => { x with totalSize := v },
  .optional ⟨"totalSymbols", "total_symbols"⟩ .integer (·.totalSymbols)
    fun v x => { x with totalSymbols := v },
  .optional ⟨"primaryLanguage", "primary_language"⟩ .text (·.primaryLanguage)
    fun v x => { x with primaryLanguage := v },
  .optional (.plain "languages") (.list LanguageShare.codec) (·.languages)
    fun v x => { x with languages := v },
  .optional (.plain "structure") (.list Entry.codec) (·.entries)
    fun v x => { x with entries := v },
  .optional (.plain "dependencies") (.list Edge.codec) (·.dependencies)
    fun v x => { x with dependencies := v },
  .optional ⟨"isMonorepo", "is_monorepo"⟩ .flag (·.isMonorepo)
    fun v x => { x with isMonorepo := v },
  .optional (.plain "workspaces") (.list .text) (·.workspaces)
    fun v x => { x with workspaces := v },
  .optional ⟨"projectType", "project_type"⟩ .text (·.projectType)
    fun v x => { x with projectType := v },
  .optional (.plain "philosophy") Philosophy.codec (·.philosophy)
    fun v x => { x with philosophy := v },
  .optional (.plain "roadmap") (.list Milestone.codec) (·.roadmap)
    fun v x => { x with roadmap := v },
  .optional (.plain "documentation") (.mapping .text) (·.documentation)
    fun v x => { x with documentation := v },
  .optional (.plain "validation") (.optional Report.codec) (·.validation)
    fun v x => { x with validation := v },
  .optional ⟨"analyzedAt", "analyzed_at"⟩ .integer (·.analyzedAt)
    fun v x => { x with analyzedAt := v }]

def codec : Codec Snapshot :=
  .record (fun | .snapshot x => some x | _ => none) { name := "" } slots

/-- A snapshot as a value without the times at which it and its report were made. -/
def comparable (s : Snapshot) : Value :=
  let untimed (v : Value) : Value :=
    match v with
    | .object fs => .object (Fields.drop fs "updatedAt")
    | v => v
  .object <| (Fields.drop (Slot.fields slots .camel s) "analyzedAt").map fun f =>
    if f.1 == "validation" then (f.1, untimed f.2) else f

end Snapshot

end RepoSurvey
