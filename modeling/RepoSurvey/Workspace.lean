import RepoSurvey.Json.Parser
import RepoSurvey.Logged
import RepoSurvey.Path
import RepoSurvey.Value.Display

/-!
# RepoSurvey.Workspace

Repositories of several packages. The package manifest with the shortest path declares the
workspaces; packages that name each other among their dependencies are linked. Names are compared as
the manifests spell them, half characters included.
-/

namespace RepoSurvey.Workspace

def manifestName : String := "package.json"

/-- What a package manifest holds; an empty one holds nothing, and faults are noted. One that is
nested too deeply stops the operation. -/
def parse (file : SourceFile) : Logged (Option Json.Members) :=
  match file.content with
  | none => pure none
  | some "" => pure none
  | some content =>
    match Json.parseData content with
    | .ok (.object ms) => pure (some ms)
    | .ok _ => do
      Logged.notice (.workspaceInvalid file.path .notAnObject)
      pure none
    | .error .tooDeep => Logged.fail .tooDeep
    | .error e => do
      Logged.notice (.workspaceInvalid file.path (.unreadable (e.message content)))
      pure none

/-! ## Detection -/

structure Info where
  isMonorepo : Bool := false
  workspaces : List String := []
  root : Option String := none
deriving DecidableEq, Repr

/-- The text of a workspace. It is one of characters alone, so a half of one gives way in it. -/
def workspaceText (d : Json.Data) : String := d.toValue.display

/-- The workspaces that a declaration lists: directly, or as the packages of an object. -/
def declared : Json.Data → Option (List String)
  | .list ds => some (ds.map workspaceText)
  | .object ms =>
    match Json.Members.get? ms "packages" with
    | some (.list ds) => some (ds.map workspaceText)
    | _ => some []
  | _ => none

/-- The first file with the shortest path. -/
def shortest : List SourceFile → Option SourceFile
  | [] => none
  | f :: fs =>
    match shortest fs with
    | some g => if g.path.length < f.path.length then some g else some f
    | none => some f

/-- Whether a path counts as that of the root manifest. -/
def isRootCandidate (path : String) : Bool := Text.endsWith path manifestName

/-- Looks for workspaces in the manifest with the shortest path. -/
def detect (files : List SourceFile) : Logged Info :=
  match shortest (files.filter fun f => isRootCandidate f.path) with
  | none => pure {}
  | some root => do
    let single : Info := { root := some root.path }
    match ← parse root with
    | none => pure single
    | some ms =>
      match ms.get? "workspaces" with
      | none => pure single
      | some d =>
        match declared d with
        | none =>
          Logged.notice (.workspaceInvalid root.path .unsupportedValue)
          pure single
        | some workspaces =>
          Logged.notice (.monorepoDetected root.path workspaces)
          pure { isMonorepo := true, workspaces, root := some root.path }

/-! ## Links -/

/-- The sections of a package manifest that name other packages. -/
def sections : List String :=
  ["dependencies", "devDependencies", "peerDependencies", "optionalDependencies"]

/-- The names that the sections list, in order. -/
def dependencyNames (ms : Json.Members) : List Json.Points :=
  sections.flatMap fun s =>
    match ms.get? s with
    | some (.object deps) => deps.map (·.1)
    | _ => []

def packageName (ms : Json.Members) : Option Json.Points :=
  match ms.get? "name" with
  | some (.text []) => none
  | some (.text name) => some name
  | _ => none

/-- The packages of a repository: the path and the contents of every manifest that can be read. -/
structure Packages where
  manifests : List (String × Json.Members)

namespace Packages

def ofFiles : List SourceFile → Logged Packages
  | [] => pure ⟨[]⟩
  | f :: fs =>
    if Path.baseName f.path = manifestName then do
      let found ← parse f
      let rest ← ofFiles fs
      match found with
      | some ms => pure ⟨(f.path, ms) :: rest.manifests⟩
      | none => pure rest
    else ofFiles fs

/-- The first manifest of a package. -/
def pathOf (ps : Packages) (name : Json.Points) : Option String :=
  (ps.manifests.find? fun m => packageName m.2 = some name).map (·.1)

/-- What the manifest at a path depends on; of several with that path the last counts. -/
def dependencies (ps : Packages) (path : String) : List Json.Points :=
  match ps.manifests.reverse.lookup path with
  | some ms => dependencyNames ms
  | none => []

def edges (ps : Packages) (path : String) : List Edge :=
  (ps.dependencies path).filterMap fun name =>
    match ps.pathOf name with
    | some target =>
      if target = path then none else some { source := path, target, kind := .workspace }
    | none => none

end Packages

end RepoSurvey.Workspace
