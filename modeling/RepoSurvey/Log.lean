import RepoSurvey.Json.Printer
import RepoSurvey.Notice
import RepoSurvey.Settings
import RepoSurvey.Text.Blank
import RepoSurvey.Text.Case
import RepoSurvey.Text.Split
import RepoSurvey.Value.Template

/-!
# RepoSurvey.Log

Where messages go: to standard output and, if there is a file for them, into that file too. Every
message is one line of JSON, unless the level is that of debugging.
-/

namespace RepoSurvey.Log

/-! ## Setting up -/

/-- The levels by the names that settings may use for them. -/
def levelNames : List (String × Level) := [
  ("NOTSET", .notset), ("DEBUG", .debug), ("INFO", .info), ("WARN", .warning),
  ("WARNING", .warning), ("ERROR", .error), ("CRITICAL", .critical), ("FATAL", .critical)]

/-- Why messages cannot be handled. -/
inductive SetupFault where
  | unusablePath
  /-- The name of the level is reserved for the layout of messages. -/
  | layoutName
  /-- The name of the level is reserved for the styles of messages. -/
  | stylesName
deriving DecidableEq, Repr

def SetupFault.message : SetupFault → String
  | unusablePath => "The path of the log file holds a null character"
  | layoutName | stylesName => "The name of the log level is reserved"

/-- The level of a name in any case; an unknown name stands for the level of information, and two
names are reserved. -/
def levelOf (name : String) : Except SetupFault Level :=
  match Text.upper name with
  | "BASIC_FORMAT" => .error .layoutName
  | "_STYLES" => .error .stylesName
  | upper => .ok ((levelNames.lookup upper).getD .info)

/-- A log file that is turned over when it grows too large. -/
structure File where
  /-- Whether its path starts at the root and not at the working directory. -/
  absolute : Bool := false
  /-- The segments of its path. -/
  path : List String
  maxBytes : Int
  backups : Int
deriving DecidableEq, Repr

/-- How messages are handled. -/
structure Setup where
  threshold : Level
  json : Bool
  file : Option File := none
deriving DecidableEq, Repr

/-- The folder above one. -/
def above (dir : List String) : List String :=
  match dir.getLast? with
  | none | some ".." => dir ++ [".."]
  | some _ => dir.dropLast

/-- The segments of a path without empty steps and dots; steps up stand in front alone. -/
def resolved (dir : List String) : List String → List String
  | [] => dir
  | step :: steps =>
    if step = "" ∨ step = "." then resolved dir steps
    else if step = ".." then resolved (above dir) steps
    else resolved (dir ++ [step]) steps

/-- A file of which the path is not blank; nothing is above the root. -/
def fileOf (path : String) (maxMb backups : Int) : Except SetupFault (Option File) :=
  let path := (Text.trim path).toList
  if path.isEmpty then .ok none
  else if path.contains '\x00' then .error .unusablePath
  else
    let absolute := path.head? = some '/'
    let segments := resolved [] (Text.split '/' (String.ofList path))
    .ok (some {
      absolute
      path := if absolute then segments.dropWhile (· = "..") else segments
      maxBytes := maxMb * 1024 * 1024
      backups })

def File.pathText (f : File) (path : List String) : String :=
  (if f.absolute then "/" else "") ++ "/".intercalate path

def File.name (f : File) : String := f.pathText f.path

/-- The path of the folder of a file, if it has one. -/
def File.folder? (f : File) : Option String :=
  if f.path.length ≤ 1 then none else some (f.pathText f.path.dropLast)

/-- The path of an older part of a file; the file itself has the age zero. -/
def File.aged (f : File) (age : Nat) : String :=
  if age = 0 then f.name else f.name ++ "." ++ toString age

/-- The parts of a file that are renamed when it is turned over, the oldest first. -/
def File.renamings (f : File) : List (String × String) :=
  (List.range f.backups.toNat).reverse.map fun age => (f.aged age, f.aged (age + 1))

/-- Whether a file of some size is turned over before a line of some length. A file that keeps no
older parts never is. -/
def File.isFull (f : File) (size length : Nat) : Bool :=
  0 < f.maxBytes && 0 < f.backups && f.maxBytes ≤ size + length + 1

/-- Messages are JSON unless said otherwise, or unless the level is that of debugging. -/
def setup (level : String) (path : String) (maxMb backups : Int) (json : Option Bool) :
    Except SetupFault Setup := do
  let file ← fileOf path maxMb backups
  let threshold ← levelOf level
  return { threshold, json := json.getD (Text.upper level ≠ "DEBUG"), file }

def ofSettings (s : Settings) : Except SetupFault Setup :=
  setup s.logLevel s.logFile s.logRotationMaxMb s.logRotationBackups none

/-- The longest name of a file, in bytes. -/
def maxNameBytes : Nat := 255

/-- The longest path of a file, in bytes, without that of the working directory. -/
def maxPathBytes : Nat := 4079

/-- Whether a path is too long, or leads to nothing but folders above. -/
def isUnusable (path : List String) : Bool :=
  path.all (· = "..") || path.any (fun s => maxNameBytes < s.utf8ByteSize) ||
    maxPathBytes < ("/".intercalate path).utf8ByteSize

/-- Whether a path leads into one of some files, or to a directory that holds one. -/
def isBlocked (files : List (List String)) (path : List String) : Bool :=
  files.any fun f => (f.isPrefixOf path || path.isPrefixOf f) && f ≠ path

/-- The setup where only some files exist: a log file that cannot be opened is left out. The files
stand in the working directory, so they never block a path from the root. -/
def Setup.among (s : Setup) (files : List (List String)) : Setup :=
  { s with file := s.file.filter fun f =>
      !isUnusable f.path && (f.absolute || !isBlocked files f.path) }

/-- Whether messages of a level are kept. -/
def Setup.admits (s : Setup) (l : Level) : Bool := s.threshold.rank ≤ l.rank

/-! ## Messages -/

structure Message where
  logger : String
  level : Level
  event : String
  fields : Fields := []

def loggerOf : Origin → String
  | .analysis => "archlens.infrastructure.analyzer.structural_analyzer"
  | .workspaces => "archlens.infrastructure.analyzer.workspace"
  | .assessment => "archlens.infrastructure.validation.validator"
  | .drift => "archlens.infrastructure.drift.engine"
  | .service => "archlens.application.analysis.use_case"

def Message.ofNotice (n : Notice) : Message where
  logger := loggerOf n.origin
  level := n.level
  event := n.event
  fields := n.fields

/-- The name of the logger that has none of its own. -/
def rootLogger : String := "root"

def Message.record (m : Message) : Fields :=
  let logger := if m.logger = "" then rootLogger else m.logger
  ((m.fields.put "event" (.text m.event)).put "level" (.text (Named.name m.level))).put "logger"
    (.text logger)

def Message.jsonLine (m : Message) (time : String) : String :=
  Json.compact (.object (m.record.put "timestamp" (.text time)))

def Message.wordLine (m : Message) (time : String) : String :=
  " ".intercalate ([time, "[" ++ Named.name m.level ++ "]", m.event, "[" ++ m.logger ++ "]"] ++
    m.fields.map fun f => f.1 ++ "=" ++ f.2.display)

def Setup.line (s : Setup) (m : Message) (time : String) : String :=
  if s.json then m.jsonLine time else m.wordLine time

/-- The text of a message with values to put in; none if they do not fit. -/
def messageText? (template : String) (values : List Value) : Option String :=
  Template.filled? template values

end RepoSurvey.Log
