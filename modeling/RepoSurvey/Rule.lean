import RepoSurvey.Decimal.Layout
import RepoSurvey.Snapshot
import RepoSurvey.Text.Blank
import RepoSurvey.Text.Case
import RepoSurvey.Text.Split

/-!
# RepoSurvey.Rule

The rules that lower a score, each by a fixed penalty on one category, and the lines of the
checklist that only inform.
-/

namespace RepoSurvey

/-- The rules, in the order in which they are applied. -/
inductive Rule where
  | languageMismatch | highCoupling | missingWorkspaces | sensitiveFiles
deriving DecidableEq, Repr

namespace Rule

def all : List Rule := [languageMismatch, highCoupling, missingWorkspaces, sensitiveFiles]

def id : Rule → String
  | languageMismatch => "DOC_LANGUAGE_MISMATCH"
  | highCoupling => "HIGH_COUPLING"
  | missingWorkspaces => "MONOREPO_WORKSPACES_MISSING"
  | sensitiveFiles => "SENSITIVE_FILES_DETECTED"

/-- The line of the checklist that a rule has. -/
def label : Rule → String
  | languageMismatch => "Documentation Consistency"
  | highCoupling => "Module Coupling"
  | missingWorkspaces => "Workspace Declaration"
  | sensitiveFiles => "Secret Hygiene"

def category : Rule → Category
  | languageMismatch => .consistency
  | highCoupling | missingWorkspaces => .structural
  | sensitiveFiles => .security

def penalty : Rule → Int
  | languageMismatch => 30
  | highCoupling => 20
  | missingWorkspaces => 15
  | sensitiveFiles => 60

/-- How grave it is that a rule fires. -/
def severity : Rule → Severity
  | languageMismatch | missingWorkspaces => .medium
  | highCoupling => .high
  | sensitiveFiles => .critical

def suggestion : Rule → String
  | languageMismatch =>
    "Regenerate the summary so it reflects the detected technology stack."
  | highCoupling =>
    "Split highly connected modules and introduce interfaces between layers."
  | missingWorkspaces =>
    "List workspace packages in the root package.json `workspaces` field."
  | sensitiveFiles =>
    "Remove secrets from version control, rotate them and add the files to .gitignore."

/-- Whether the finding of a rule can be mended automatically. -/
def autoFixable : Rule → Bool
  | languageMismatch | missingWorkspaces => true
  | highCoupling | sensitiveFiles => false

/-! ## When rules fire -/

/-- The named languages of a snapshot. -/
def namedLanguages (s : Snapshot) : List String :=
  (s.languages.map (·.language)).filter (· ≠ "Other")

/-- The summary in the documentation. -/
def summary (s : Snapshot) : String := Text.trim ((s.documentation.lookup "summary").getD "")

/-- A coupling index above this is high. -/
def couplingLimit : Int := 15

/-- Parts of paths that tell of secrets. -/
def sensitiveMarks : List String := [".env", ".pem", ".key", "id_rsa"]

def sensitivePaths (s : Snapshot) : List String :=
  (s.entries.map (·.path)).filter fun p => sensitiveMarks.any (Text.contains (Text.lower p))

/-- The message of a rule if it fires. -/
def message? (r : Rule) (s : Snapshot) (risk : RiskMetrics) : Option String :=
  match r with
  | languageMismatch =>
    let languages := namedLanguages s
    let text := Text.lower (summary s)
    if summary s = "" ∨ languages = [] then none
    else if languages.any fun l => Text.contains text (Text.lower l) then none
    else some ("Documentation summary does not mention any detected language (" ++
      ", ".intercalate languages ++ ").")
  | highCoupling =>
    if risk.couplingIndex.leInt couplingLimit then none
    else some ("Coupling index " ++ Decimal.onePlace risk.couplingIndex ++ " exceeds " ++
      toString couplingLimit ++ ".")
  | missingWorkspaces =>
    if s.isMonorepo && s.workspaces.isEmpty then
      some "Monorepo declared but no workspace packages are listed."
    else none
  | sensitiveFiles =>
    match sensitivePaths s with
    | [] => none
    | found => some (toString found.length ++
        " sensitive file(s) committed to the repository: " ++ ", ".intercalate (found.take 5))

def issue (r : Rule) (message : String) : Issue where
  id := r.id
  severity := r.severity
  category := r.category
  message := message
  suggestion := some r.suggestion
  autoFixable := r.autoFixable

end Rule

/-! ## Checks that only inform -/

namespace Check

def readme (s : Snapshot) : Check :=
  if s.entries.any fun e => Text.contains (Text.lower e.name) "readme.md" then
    ⟨"Documentation Presence", .pass, "README.md detected"⟩
  else ⟨"Documentation Presence", .fail, "Missing README.md file"⟩

/-- Names of files where a program starts. -/
def entryNames : List String :=
  ["index.ts", "main.ts", "app.ts", "index.js", "main.py", "main.go", "main.rs", "package.json"]

def entryPoint (s : Snapshot) : Check :=
  if s.entries.any fun e => entryNames.contains (Text.lower e.name) then
    ⟨"Project Entry", .pass, "Standard entry point detected"⟩
  else ⟨"Project Entry", .warn, "Ambiguous entry point"⟩

def scale (s : Snapshot) : Check :=
  if 200 < s.totalFiles then ⟨"Scale Complexity", .warn, "Large file count detected"⟩
  else ⟨"Scale Complexity", .pass, "Manageable project size"⟩

def artifacts (s : Snapshot) : Check :=
  if s.documentation.length < 2 then
    ⟨"Artifact Coverage", .warn, "Limited documentation artifacts"⟩
  else ⟨"Artifact Coverage", .pass, "Good documentation coverage"⟩

def informational (s : Snapshot) : List Check := [readme s, entryPoint s, scale s, artifacts s]

end Check

end RepoSurvey
