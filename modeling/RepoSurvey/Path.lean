import RepoSurvey.Text.Case
import RepoSurvey.Text.Split

/-!
# RepoSurvey.Path

Slash-separated paths of a manifest. They are never looked up anywhere: the manifest is all there
is.
-/

namespace RepoSurvey.Path

def lastSegment (path : String) : String := String.ofList (Text.afterLast '/' path.toList)

/-- The name of a path: its last segment, or the whole path if it ends in a slash. -/
def baseName (path : String) : String :=
  let s := lastSegment path
  if s = "" then path else s

/-- The extension of a path without one. -/
def noExtension : String := "unknown"

/-- The text after the last dot of the name, in lower case. -/
def extension (path : String) : String :=
  let name := (baseName path).toList
  if name.contains '.' then
    let ext := Text.lower (String.ofList (Text.afterLast '.' name))
    if ext = "" then noExtension else ext
  else noExtension

def segments (path : String) : List String := (Text.split '/' path).filter (· ≠ "")

def directory (path : String) : List String := (segments path).dropLast

/-- Goes from a directory along some steps: empty steps and dots stay, two dots go up. The root
is its own parent. -/
def walk (dir : List String) : List String → List String
  | [] => dir
  | step :: steps =>
    if step = "" ∨ step = "." then walk dir steps
    else if step = ".." then walk dir.dropLast steps
    else walk (dir ++ [step]) steps

def ofSegments (segments : List String) : String := "/".intercalate segments

end RepoSurvey.Path
