import RepoSurvey.Report

/-!
# RepoSurvey.Snapshot

One repository at one point in time: its classified files, the dependencies between them, its
languages and the narrative that goes with it.
-/

namespace RepoSurvey

/-- Whether a path is a file or a directory. -/
inductive EntryType where
  | file | directory
deriving DecidableEq, Repr

instance : Named EntryType where
  all := [.file, .directory]
  name
    | .file => "file"
    | .directory => "directory"

/-- How a dependency was discovered. -/
inductive EdgeKind where
  | imported | required | static | workspace
deriving DecidableEq, Repr

instance : Named EdgeKind where
  all := [.imported, .required, .static, .workspace]
  name
    | .imported => "import"
    | .required => "require"
    | .static => "static"
    | .workspace => "workspace"

/-- One record of a manifest: a path, its size, and its content where that is known. -/
structure SourceFile where
  path : String
  size : Int := 0
  entryType : EntryType := .file
  content : Option String := none
deriving DecidableEq, Repr

structure SymbolCounts where
  classes : Int := 0
  functions : Int := 0
  exports : Int := 0
deriving DecidableEq, Repr

def SymbolCounts.total (s : SymbolCounts) : Int := s.classes + s.functions + s.exports

structure Entry where
  path : String
  name : String
  size : Int := 0
  entryType : EntryType := .file
  extension : String := "unknown"
  language : String := "Other"
  symbols : SymbolCounts := {}
deriving DecidableEq, Repr

structure LanguageShare where
  language : String
  fileCount : Int
  percentage : Int
deriving DecidableEq, Repr

structure Edge where
  source : String
  target : String
  kind : EdgeKind := .imported
deriving DecidableEq, Repr

/-- The text that identifies a dependency by its ends. -/
def Edge.key (e : Edge) : String := e.source ++ "->" ++ e.target

/-- A statement of what the project is for, and where it was found. -/
structure Philosophy where
  statement : String := ""
  source : String := "default"
deriving DecidableEq, Repr

structure Milestone where
  milestone : String
  phase : String := "current"
deriving DecidableEq, Repr

/-- A repository at one point in time. -/
structure Snapshot where
  name : String
  totalFiles : Int := 0
  totalSize : Int := 0
  totalSymbols : Int := 0
  primaryLanguage : String := "Unknown"
  languages : List LanguageShare := []
  entries : List Entry := []
  dependencies : List Edge := []
  isMonorepo : Bool := false
  workspaces : List String := []
  projectType : String := "general"
  philosophy : Philosophy := {}
  roadmap : List Milestone := []
  documentation : List (String × String) := []
  validation : Option Report := none
  analyzedAt : Int := 0
deriving DecidableEq, Repr

namespace Snapshot

/-- The score of the attached report, zero without one. -/
def score (s : Snapshot) : Int := (s.validation.map (·.score)).getD 0

def withValidation (s : Snapshot) (r : Report) : Snapshot := { s with validation := some r }

end Snapshot

end RepoSurvey
