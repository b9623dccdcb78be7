import RepoSurvey.Text.Case

/-!
# RepoSurvey.Language

The languages of files, recognised by extension.
-/

namespace RepoSurvey.Language

/-- The language of files whose extension says nothing. -/
def other : String := "Other"

def table : List (String × List String) := [
  ("TypeScript", ["ts", "tsx"]),
  ("JavaScript", ["js", "jsx", "mjs", "cjs"]),
  ("Python", ["py"]),
  ("Go", ["go"]),
  ("Rust", ["rs"]),
  ("Ruby", ["rb"]),
  ("Java", ["java"]),
  ("C++", ["cpp", "cc", "cxx", "hpp"]),
  ("C", ["c", "h"]),
  ("C#", ["cs"]),
  ("PHP", ["php"]),
  ("HTML", ["html", "htm"]),
  ("CSS", ["css", "scss"]),
  ("JSON", ["json"]),
  ("Markdown", ["md"]),
  ("YAML", ["yaml", "yml"])]

def ofExtension (ext : String) : String :=
  let ext := Text.lower ext
  ((table.find? fun l => l.2.contains ext).map (·.1)).getD other

end RepoSurvey.Language
