import RepoSurvey.Path
import RepoSurvey.PathIndex

/-!
# RepoSurvey.Resolution

From what a file imports to a path of the manifest. Whatever leads to none of its paths is
external.
-/

namespace RepoSurvey.Resolution

/-! ## Relative specifiers -/

/-- What may be missing at the end of a relative specifier, in the order tried. -/
def specifierSuffixes : List String :=
  ["", ".ts", ".tsx", ".js", ".jsx", "/index.ts", "/index.js"]

/-- The path that a specifier such as `../d` leads to; names without a dot in front are external. -/
def relative (source specifier : String) (ix : PathIndex) : Option String :=
  if specifier.toList.head? = some '.' then
    match Path.walk (Path.directory source) (Text.split '/' specifier) with
    | [] => none
    | segments => ix.lookup (Path.ofSegments segments) specifierSuffixes
  else none

/-! ## Modules -/

def packageFile : String := "/__init__.py"

/-- What a module is as a file, in the order tried. -/
def moduleSuffixes : List String := [".py", packageFile]

def moduleParts (name : String) : Nat × List String :=
  let dots := (name.toList.takeWhile (· = '.')).length
  (dots, (Text.split '.' (String.ofList (name.toList.dropWhile (· = '.')))).filter (· ≠ ""))

/-- A module made of dots alone: the imported name as a module of the directory, or else the
package that the directory is. -/
def bareModule (dir : List String) (imported : Option String) (ix : PathIndex) : Option String :=
  let submodule := match imported with
    | none => none
    | some name =>
      if name = "" then none else ix.lookup (Path.ofSegments (dir ++ [name])) moduleSuffixes
  match submodule with
  | some p => some p
  | none => if dir = [] then none else ix.lookup (Path.ofSegments dir) [packageFile]

/-- A module with a name: next to the importing file, and without dots in front also from the
root. -/
def namedModule (level : Nat) (dir parts : List String) (ix : PathIndex) : Option String :=
  match ix.lookup (Path.ofSegments (dir ++ parts)) moduleSuffixes with
  | some p => some p
  | none =>
    if level = 0 ∧ dir ≠ [] then ix.lookup (Path.ofSegments parts) moduleSuffixes else none

/-- The path of a module, seen from the importing file. Each dot after the first goes up one
directory; a file is never its own dependency. -/
def module (source name : String) (imported : Option String) (ix : PathIndex) : Option String :=
  let (level, parts) := moduleParts name
  let dir := Path.directory source
  let dir := dir.take (dir.length - (level - 1))
  let found :=
    if parts = [] then (if level = 0 then none else bareModule dir imported ix)
    else namedModule level dir parts ix
  if found = some source then none else found

/-! ## Packages -/

/-- The first other path that contains a package path; package paths without a dot belong to the
standard library. -/
def package (source path : String) (ix : PathIndex) : Option String :=
  if path.toList.contains '.' then ix.firstContaining path (some source) else none

end RepoSurvey.Resolution
