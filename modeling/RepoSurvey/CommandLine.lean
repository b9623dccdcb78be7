import RepoSurvey.Json.Printer
import RepoSurvey.Kind
import RepoSurvey.Log
import RepoSurvey.Service
import RepoSurvey.Settings.Load

/-!
# RepoSurvey.CommandLine

The command: it reads a manifest, prints the assessed snapshot and, with a baseline, prints what
changed. What it reads is given to it, and what it prints is its result.
-/

namespace RepoSurvey.CommandLine

def usage : String := "\n".intercalate [
  "Analyze a manifest file and print the validated snapshot.",
  "",
  "Usage:",
  "  python3 run.py <name> <manifest.json> [baseline.json]",
  "",
  "manifest.json is a JSON list of \x7bname|path, size, content?\x7d records.",
  "baseline.json is a snapshot previously printed by this script; when given,",
  "the drift report is printed after the snapshot."]

/-- Why the command stops before its end. -/
inductive Stop where
  | settings (fault : Settings.LoadFault)
  | log (fault : Log.SetupFault)
  | missingFile
  | beneathFile
  | overlongPath
  | unnamedPath
  | isDirectory
  | undecodable
  | malformedText
  | integerTooLong
  | tooDeep
  | failed (failure : Failure)

def Stop.message : Stop → String
  | settings fault => fault.message
  | log fault => fault.message
  | missingFile => "A file is missing"
  | beneathFile => "A file stands in place of a directory"
  | overlongPath => "The path of a file is too long"
  | unnamedPath => "The path of a file holds a zero character"
  | isDirectory => "A directory stands in place of a file"
  | undecodable => "A file is not UTF-8"
  | malformedText => "A file is not well-formed JSON"
  | integerTooLong => "A file holds an integer of too many digits"
  | tooDeep => "A file is nested too deeply"
  | failed _ => "A record is not valid"

/-- What goes to standard output: text of the command, or the message of a notice. -/
inductive Output where
  | text (s : String)
  | notice (n : Notice)

structure Run where
  exit : Except Stop Nat
  output : List Output := []
  errors : List String := []
  /-- The handling of messages, none if the command stops before it is known. -/
  log : Option Log.Setup := none

def readText : FileContent → Except Stop String
  | .absent => .error .missingFile
  | .beneathFile => .error .beneathFile
  | .overlong => .error .overlongPath
  | .unnamed => .error .unnamedPath
  | .directory => .error .isDirectory
  | .bytes bs =>
    match Text.Utf8.decode? bs with
    | some s => .ok s
    | none => .error .undecodable

def readManifest (content : FileContent) : Except Stop (List Value) := do
  let text ← readText content
  match Json.parse text with
  | .ok v => v.items.mapError .failed
  | .error (.malformed ..) => .error .malformedText
  | .error (.numberTooLong _) => .error .integerTooLong
  | .error .tooDeep => .error .tooDeep

def readBaseline (content : FileContent) : Except Stop Snapshot := do
  let text ← readText content
  match Json.parseRecord? text with
  | some v => ((Snapshot.codec.read v).orFail .snapshot).mapError .failed
  | none => .error (.failed (.invalid .snapshot ⟨[], .malformedText⟩ []))

def printed (r : Record) : Output := .text (Json.indented (r.write .camel) ++ "\n")

def compare (now : Int) (s : Snapshot) (content : FileContent) : Except Stop Unit × List Output :=
  match readBaseline content with
  | .error e => (.error e, [])
  | .ok baseline =>
    let d := Drift.run now s baseline
    let notices := d.notices.map Output.notice
    match d.result with
    | .ok d => (.ok (), notices ++ [printed (.drift d)])
    | .error e => (.error (.failed e), notices)

/-- Analyses a manifest under some settings and compares the snapshot with a baseline, if there
is one. -/
def survey (settings : Settings) (now : Int) (name : String) (manifest : FileContent)
    (baseline : Option FileContent) : Run :=
  match readManifest manifest with
  | .error e => { exit := .error e }
  | .ok items =>
    let r := settings.analyzeAndAssess now now (.text name) items .null
    let notices := r.notices.map Output.notice
    match r.result with
    | .error e => { exit := .error (.failed e), output := notices }
    | .ok s =>
      let output := notices ++ [printed (.snapshot s)]
      match baseline with
      | none => { exit := .ok 0, output }
      | some content =>
        let (done, more) := compare now s content
        { exit := done.map fun _ => 0, output := output ++ more }

structure Call where
  name : String
  manifest : String
  baseline : Option String := none

def Call.ofArguments? : List String → Option Call
  | [name, manifest] => some { name, manifest }
  | [name, manifest, baseline] => some { name, manifest, baseline }
  | _ => none

def Call.paths (c : Call) : List String := c.manifest :: c.baseline.toList

/-- Runs the command on its arguments, with the settings that were loaded for it. -/
def run (loaded : Settings.Loaded) (now : Int) (read : String → FileContent)
    (args : List String) : Run :=
  match Call.ofArguments? args with
  | none => { exit := .ok 2, errors := [usage] }
  | some c =>
    match loaded.settings with
    | .error e => { exit := .error (.settings e), errors := loaded.warnings }
    | .ok settings =>
      match Log.ofSettings settings with
      | .error e => { exit := .error (.log e), errors := loaded.warnings }
      | .ok log =>
        let r := survey settings now c.name (read c.manifest) (c.baseline.map read)
        { r with errors := loaded.warnings ++ r.errors, log := some log }

end RepoSurvey.CommandLine
