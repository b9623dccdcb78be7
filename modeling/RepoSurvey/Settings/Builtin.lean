import RepoSurvey.Settings.Load

/-!
# RepoSurvey.Settings.Builtin

The settings file that comes with the program.
-/

namespace RepoSurvey.Settings

def builtinLines : List String := [
  "[analysis]",
  "exclude_patterns = [\"node_modules/\", \".git/\", \"dist/\"]",
  "project_type = \"auto\"",
  "",
  "[limits]",
  "max_dependency_edges = 1000",
  "max_graph_edges = 60",
  "max_workers = 4",
  "",
  "[validation]",
  "cycle_detection = \"heuristic\"",
  "",
  "[logging]",
  "level = \"INFO\"",
  "file = \"\"",
  "log_rotation_max_mb = 5",
  "log_rotation_backups = 3",
  ""]

def builtin : FileContent := .bytes ("\n".intercalate builtinLines).toUTF8.data.toList

end RepoSurvey.Settings
