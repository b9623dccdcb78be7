import RepoSurvey.Path
import RepoSurvey.Settings
import RepoSurvey.Snapshot
import RepoSurvey.Text.Blank
import RepoSurvey.Text.Lines

/-!
# RepoSurvey.Project

What kind of project a repository holds, what it is for, and where it goes.
-/

namespace RepoSurvey.Project

/-! ## Type -/

/-- The option that leaves the type to be found out. -/
def auto : String := "auto"

/-- The type of a project that nothing tells. -/
def general : String := "general"

/-- Files that tell the type of a project, in the order tried. -/
def markers : List (String × String) := [
  ("package.json", "web"),
  ("setup.py", "python"),
  ("requirements.txt", "python"),
  ("pyproject.toml", "python"),
  ("go.mod", "go"),
  ("Cargo.toml", "rust")]

/-- Whether a word of the vocabulary occurs in one of the paths, whatever the case. -/
def mentions (paths : List String) (word : String) : Bool :=
  let needle := Text.lower word
  needle ≠ "" && paths.any fun p => Text.contains (Text.lower p) needle

/-- The type of a project: as given, or by the vocabulary, or by the files that tell it. -/
def type (paths : List String) (options : AnalysisOptions) : String :=
  if options.projectType ≠ "" ∧ options.projectType ≠ auto then options.projectType
  else
    match options.customVocabulary.find? fun w => mentions paths w.1 with
    | some (_, type) => type
    | none =>
      match markers.find? fun m => (paths.map Path.baseName).contains m.1 with
      | some (_, type) => type
      | none => general

/-! ## Purpose -/

/-- The statement for a repository that makes none. -/
def defaultStatement : String := "Architecture inferred from repository structure."

def isRootReadme (path : String) : Bool :=
  !path.toList.contains '/' && Text.lower path = "readme.md"

/-- A line without the marks of a heading. -/
def unmarked (line : List Char) : List Char :=
  Text.trimBy Text.isBlank ((Text.trimBy Text.isBlank line).dropWhile (· = '#'))

/-- The first line that says something. -/
def firstStatement (content : String) : Option String :=
  (((Text.lines content.toList).map unmarked).find? (· ≠ [])).map String.ofList

/-- The purpose of a project: as given, or from the readme file. -/
def philosophy (files : List SourceFile) (options : AnalysisOptions) : Philosophy :=
  let custom := options.customPhilosophy.getD ""
  if custom ≠ "" then ⟨custom, "custom"⟩
  else
    let readme := files.find? fun f => isRootReadme f.path
    match (readme.bind (·.content)).bind firstStatement with
    | some statement => ⟨statement, "readme"⟩
    | none => ⟨defaultStatement, "default"⟩

/-! ## Roadmap -/

/-- The roadmap of a project: the given milestones, or the present state alone. -/
def roadmap (options : AnalysisOptions) : List Milestone :=
  match options.targetRoadmap.getD [] with
  | [] => [⟨"Current architecture baseline", "current"⟩]
  | milestones => milestones.map (⟨·, "planned"⟩)

end RepoSurvey.Project
