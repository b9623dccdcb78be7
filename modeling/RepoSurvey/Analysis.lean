import RepoSurvey.Family
import RepoSurvey.Graph.Adjacency
import RepoSurvey.Language
import RepoSurvey.Manifest.Codec
import RepoSurvey.Project
import RepoSurvey.Score
import RepoSurvey.Settings.Codec
import RepoSurvey.Workspace

/-!
# RepoSurvey.Analysis

From a manifest to a snapshot. Records that cannot be read are skipped, excluded paths are left
out of everything but the search for workspaces, and each file is scanned on its own.
-/

namespace RepoSurvey.Analysis

/-! ## Input -/

/-- The records of a manifest that can be read; `position` is the place of the first. -/
def readRecords (position : Nat) : List Value → Logged (List SourceFile)
  | [] => pure []
  | v :: vs =>
    match SourceFile.read? v with
    | none => Logged.fail .outOfRange
    | some (.ok file) => do
      let files ← readRecords (position + 1) vs
      pure (file :: files)
    | some (.failed _ more) => do
      Logged.notice (.recordInvalid position (more.length + 1))
      readRecords (position + 1) vs

/-- The options of an analysis; where they cannot be read, those that hold without any. -/
def readOptions (v : Value) : Logged AnalysisOptions :=
  match v with
  | .null => pure {}
  | v =>
    match AnalysisOptions.codec.read v with
    | .ok options => pure options
    | .failed _ more => do
      Logged.notice (.optionsInvalid (more.length + 1))
      pure {}

/-- Whether a path contains one of the patterns, which are in lower case. -/
def isExcluded (patterns : List String) (path : String) : Bool :=
  patterns.any (Text.contains (Text.lower path))

/-- The patterns that exclude anything, in lower case. -/
def exclusions (options : AnalysisOptions) : List String :=
  (options.excludePatterns.filter (· ≠ "")).map Text.lower

def kept (options : AnalysisOptions) (files : List SourceFile) : List SourceFile :=
  files.filter fun f => !isExcluded (exclusions options) f.path

/-! ## Scanning -/

/-- A file that was scanned: its entry and its dependencies. -/
structure Scanned where
  entry : Entry
  edges : List Edge
deriving DecidableEq, Repr

/-- The symbols and dependencies in the content of a file. -/
def scanContent (ix : PathIndex) (language : String) (f : SourceFile) :
    SymbolCounts × List Edge :=
  match f.content with
  | none => ({}, [])
  | some content =>
    let family := Family.ofLanguage language
    (family.symbols content, family.edges f.path content ix)

def packageEdges (packages : Option Workspace.Packages) (path : String) : List Edge :=
  match packages with
  | some ps => if Path.baseName path = Workspace.manifestName then ps.edges path else []
  | none => []

def scan (ix : PathIndex) (packages : Option Workspace.Packages) (f : SourceFile) : Scanned :=
  let extension := Path.extension f.path
  let language := Language.ofExtension extension
  let (symbols, edges) := scanContent ix language f
  { entry := {
      path := f.path
      name := Path.baseName f.path
      size := f.size
      entryType := f.entryType
      extension
      language
      symbols }
    edges := edges ++ packageEdges packages f.path }

/-! ## Languages -/

/-- The share of a count in a total, in percent; it is never infinite. -/
def percentage (count total : Nat) : Int :=
  let share := Binary64.ofRat ((count : Rat) / (max 1 total : Nat))
  (Score.roundHalfUp (share.mul (Binary64.ofRat 100))).toOption.getD 0

/-- The languages by falling number of files; of equal ones the first seen comes first. -/
def languageShares (entries : List Entry) : List LanguageShare :=
  let languages := entries.map (·.language)
  let shares := languages.eraseDups.map fun l =>
    { language := l
      fileCount := languages.count l
      percentage := percentage (languages.count l) entries.length : LanguageShare }
  shares.mergeSort fun a b => b.fileCount ≤ a.fileCount

def noLanguage : String := "Unknown"

/-! ## Snapshots -/

/-- The packages that are linked: those of a monorepo. -/
def linkedPackages (workspace : Workspace.Info) (files : List SourceFile) :
    Logged (Option Workspace.Packages) :=
  if workspace.isMonorepo then do
    let ps ← Workspace.Packages.ofFiles files
    pure (some ps)
  else pure none

/-- All dependencies of the kept files, in the order of the manifest. -/
def allEdges (packages : Option Workspace.Packages) (files : List SourceFile) : List Edge :=
  let ix := PathIndex.ofList (files.map (·.path))
  (files.map (scan ix packages)).flatMap (·.edges)

def total : List Int → Int
  | [] => 0
  | n :: ns => n + total ns

def snapshot (limits : Limits) (now : Int) (name : String) (options : AnalysisOptions)
    (workspace : Workspace.Info) (packages : Option Workspace.Packages)
    (files : List SourceFile) : Snapshot :=
  let ix := PathIndex.ofList (files.map (·.path))
  let entries := files.map fun f => (scan ix packages f).entry
  let languages := languageShares entries
  { name
    totalFiles := entries.length
    totalSize := total (entries.map (·.size))
    totalSymbols := total (entries.map (·.symbols.total))
    primaryLanguage := (languages.head?.map (·.language)).getD noLanguage
    languages
    entries
    dependencies := Graph.upTo limits.maxDependencyEdges (allEdges packages files)
    isMonorepo := workspace.isMonorepo
    workspaces := workspace.workspaces
    projectType := Project.type (files.map (·.path)) options
    philosophy := Project.philosophy files options
    roadmap := Project.roadmap options
    analyzedAt := now }

/-- The name of a repository, which must be a text. -/
def readName (name : Value) : Logged String :=
  Logged.ofExcept (((Decoded.text name).under (.key "name")).orFail .snapshot)

def ofRecords (limits : Limits) (now : Int) (name : Value) (options : AnalysisOptions)
    (files : List SourceFile) : Logged Snapshot := do
  let files' := kept options files
  Logged.notice (.analysisStarted name files.length (files.length - files'.length))
  let workspace ← Workspace.detect files
  let packages ← linkedPackages workspace files'
  let edges := allEdges packages files'
  if limits.maxDependencyEdges < edges.length then
    Logged.notice (.edgesTruncated name edges.length limits.maxDependencyEdges)
  let text ← readName name
  let s := snapshot limits now text options workspace packages files'
  Logged.notice (.analysisCompleted name s.totalFiles s.dependencies.length s.primaryLanguage
    s.isMonorepo)
  pure s

def run (limits : Limits) (now : Int) (name : Value) (manifest : List Value) (options : Value) :
    Logged Snapshot := do
  let files ← readRecords 0 manifest
  let options ← readOptions options
  ofRecords limits now name options files

end RepoSurvey.Analysis
