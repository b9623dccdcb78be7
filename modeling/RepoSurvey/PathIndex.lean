import RepoSurvey.Text.Split

/-!
# RepoSurvey.PathIndex

The paths that a dependency can lead to, each once, in the order of the manifest.
-/

namespace RepoSurvey

/-- Distinct paths in order. -/
structure PathIndex where
  paths : List String
deriving DecidableEq, Repr

namespace PathIndex

def ofList (paths : List String) : PathIndex := ⟨paths.eraseDups⟩

def contains (ix : PathIndex) (path : String) : Bool := ix.paths.contains path

def size (ix : PathIndex) : Nat := ix.paths.length

/-- The first of `base` with each of the suffixes that is there. -/
def lookup (ix : PathIndex) (base : String) (suffixes : List String) : Option String :=
  (suffixes.map (base ++ ·)).find? ix.contains

/-- The first path that contains a text, `exclude` left out. -/
def firstContaining (ix : PathIndex) (needle : String) (exclude : Option String) :
    Option String :=
  ix.paths.find? fun p => some p != exclude && Text.contains p needle

end PathIndex

end RepoSurvey
