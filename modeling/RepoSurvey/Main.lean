import RepoSurvey.CommandLine
import RepoSurvey.Settings.Builtin
import Std.Time.DateTime.Timestamp
import Std.Time.Format

/-!
# RepoSurvey.Main

The command as a program: files, variables and the clock are read here, and texts and messages
are written. Settings stand in the folder `config`; the built-in settings hold where it has no
file of defaults.
-/

namespace RepoSurvey.Main

def isDirectory (path : String) : IO Bool := do
  try
    return ← (← IO.FS.realPath path).isDir
  catch _ => return false

def readContent (path : String) : IO FileContent := do
  try
    let bytes ← IO.FS.readBinFile path
    return .bytes bytes.data.toList
  catch
    | .noFileOrDirectory .. => return .absent
    | .inappropriateType .. => return if ← isDirectory path then .directory else .beneathFile
    | .invalidArgument .. => return if path.contains '\x00' then .unnamed else .overlong
    | e => throw e

def readEnvironment : List String → IO Settings.Environment
  | [] => return []
  | name :: names => do
    let more ← readEnvironment names
    match ← IO.getEnv name with
    | some s => return (name, s) :: more
    | none => return more

def loadSettings : IO Settings.Loaded := do
  let env ← readEnvironment Settings.variableNames
  let base ← readContent ("config/" ++ Settings.defaultFile)
  let later ← readContent ("config/" ++ Settings.developmentFile)
  let base := match base with
    | .absent => Settings.builtin
    | base => base
  return Settings.load env base later

def readAll : List String → IO (List (String × FileContent))
  | [] => return []
  | path :: paths => do
    let content ← readContent path
    return (path, content) :: (← readAll paths)

/-! ## Messages -/

def renameAll : List (String × String) → IO Unit
  | [] => return ()
  | (old, new) :: more => do
    try IO.FS.rename old new catch _ => pure ()
    renameAll more

/-- Appends a line to a log file, which is turned over first if it is full. -/
def appendLine (file : Log.File) (line : String) : IO Unit := do
  let size := match ← readContent file.name with
    | .bytes bs => bs.length
    | _ => 0
  if file.isFull size line.length then renameAll file.renamings
  let h ← IO.FS.Handle.mk file.name .append
  h.putStrLn line

/-- Opens the log file; the messages go without it where that fails. -/
def openLog (log : Log.Setup) : IO Log.Setup := do
  match log.file with
  | none => return log
  | some file =>
    try
      match file.folder? with
      | some folder => IO.FS.createDirAll folder
      | none => pure ()
      discard (IO.FS.Handle.mk file.name .append)
      return log
    catch e =>
      IO.eprintln ("Log file disabled: could not open " ++ file.name ++ ": " ++ toString e)
      return { log with file := none }

def write (log : Log.Setup) (time : String) : List CommandLine.Output → IO Unit
  | [] => return ()
  | .text s :: more => do
    IO.print s
    write log time more
  | .notice n :: more => do
    if log.admits n.level then
      let line := log.line (.ofNotice n) time
      IO.println line
      match log.file with
      | some file => appendLine file line
      | none => pure ()
    write log time more

def run (args : List String) : IO UInt32 := do
  let loaded ← loadSettings
  let now ← Std.Time.Timestamp.now
  let paths := match CommandLine.Call.ofArguments? args with
    | some c => c.paths
    | none => []
  let contents ← readAll paths
  let read path := (contents.lookup path).getD .absent
  let run := CommandLine.run loaded now.toMillisecondsSinceUnixEpoch.val read args
  for line in run.errors do IO.eprintln line
  match run.log with
  | some log =>
    let time := (Std.Time.DateTime.ofTimestamp now .UTC).toISO8601String
    write (← openLog log) time run.output
  | none => pure ()
  match run.exit with
  | .ok code => return UInt32.ofNat code
  | .error stop =>
    IO.eprintln stop.message
    return 1

end RepoSurvey.Main

def main (args : List String) : IO UInt32 := RepoSurvey.Main.run args
