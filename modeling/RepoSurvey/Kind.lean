import RepoSurvey.Failure
import RepoSurvey.Json.Parser
import RepoSurvey.Manifest.Codec
import RepoSurvey.Settings.Codec
import RepoSurvey.Snapshot.Codec

/-!
# RepoSurvey.Kind

Reading and writing records of every kind, from values and from JSON text. The entities of a
snapshot and of its reports never change once they are made; options and settings may.
-/

namespace RepoSurvey

namespace Kind

def readWith {α : Type} (kind : Kind) (c : Codec α) (record : α → Record) (v : Value) :
    Except Failure Record :=
  ((c.read v).map record).orFail kind

def read (kind : Kind) (v : Value) : Except Failure Record :=
  match kind with
  | sourceFile =>
    match SourceFile.read? v with
    | some d => (d.map .sourceFile).orFail kind
    | none => .error .outOfRange
  | symbolCounts => kind.readWith SymbolCounts.codec .symbolCounts v
  | entry => kind.readWith Entry.codec .entry v
  | languageShare => kind.readWith LanguageShare.codec .languageShare v
  | edge => kind.readWith Edge.codec .edge v
  | philosophy => kind.readWith Philosophy.codec .philosophy v
  | milestone => kind.readWith Milestone.codec .milestone v
  | snapshot => kind.readWith Snapshot.codec .snapshot v
  | issue => kind.readWith Issue.codec .issue v
  | check => kind.readWith Check.codec .check v
  | categoryScores => kind.readWith CategoryScores.codec .categoryScores v
  | heatNode => kind.readWith HeatNode.codec .heatNode v
  | riskMetrics => kind.readWith RiskMetrics.codec .riskMetrics v
  | report => kind.readWith Report.codec .report v
  | drift => kind.readWith Drift.codec .drift v
  | analysisOptions => kind.readWith AnalysisOptions.codec .analysisOptions v
  | limits => kind.readWith Limits.codec .limits v
  | scoringOptions => kind.readWith ScoringOptions.codec .scoringOptions v
  | settings => kind.readWith Settings.codec .settings v

def readText (kind : Kind) (text : String) : Except Failure Record :=
  match Json.parseRecord? text with
  | some v => kind.read v
  | none => .error (.invalid kind ⟨[], .malformedText⟩ [])

/-- Whether records of a kind never change. -/
def isFrozen : Kind → Bool
  | analysisOptions | limits | scoringOptions | settings => false
  | _ => true

/-- The failure of changing a field of a record that never changes. -/
def frozenFailure (kind : Kind) (field : String) : Failure :=
  .invalid kind ⟨[.key field], .frozen⟩ []

end Kind

namespace Record

def write (sp : Spelling) : Record → Value
  | sourceFile x => x.write sp
  | symbolCounts x => SymbolCounts.codec.write sp x
  | entry x => Entry.codec.write sp x
  | languageShare x => LanguageShare.codec.write sp x
  | edge x => Edge.codec.write sp x
  | philosophy x => Philosophy.codec.write sp x
  | milestone x => Milestone.codec.write sp x
  | snapshot x => Snapshot.codec.write sp x
  | issue x => Issue.codec.write sp x
  | check x => Check.codec.write sp x
  | categoryScores x => CategoryScores.codec.write sp x
  | heatNode x => HeatNode.codec.write sp x
  | riskMetrics x => RiskMetrics.codec.write sp x
  | report x => Report.codec.write sp x
  | drift x => Drift.codec.write sp x
  | analysisOptions x => AnalysisOptions.codec.write sp x
  | limits x => Limits.codec.write sp x
  | scoringOptions x => ScoringOptions.codec.write sp x
  | settings x => Settings.codec.write sp x

end Record

/-! ## Setting fields -/

namespace Value

mutual

/-- A value in which records are written as objects, and byte strings as the texts they encode. -/
def written (sp : Spelling) : Value → Value
  | .record r => r.write sp
  | .bytes bs => ((Text.Utf8.decode? bs).map Value.text).getD (.bytes bs)
  | .list vs => .list (writtenItems sp vs)
  | .object fs => .object (writtenFields sp fs)
  | v => v

def writtenItems (sp : Spelling) : List Value → List Value
  | [] => []
  | v :: vs => written sp v :: writtenItems sp vs

def writtenFields (sp : Spelling) : List (String × Value) → List (String × Value)
  | [] => []
  | (k, v) :: fs => (k, written sp v) :: writtenFields sp fs

end

end Value

namespace Record

def fields (sp : Spelling) (r : Record) : Fields :=
  match r.write sp with
  | .object fs => fs
  | _ => []

/-- A record as it is written once a field, given by its name in snake case, was set to a value of
any type. Names that start with an underscore stay private; records that never change and names of
no field are refused. -/
def writeWith (sp : Spelling) (r : Record) (name : String) (v : Value) : Except Failure Value :=
  if name.startsWith "_" then .ok (r.write sp)
  else if r.kind.isFrozen then .error (r.kind.frozenFailure name)
  else if r.parts.any (·.1 == name) then
    .ok (.object ((r.parts.zip (r.fields sp)).map fun p =>
      if p.1.1 == name then (p.2.1, v.written sp) else p.2))
  else .error .noField

end Record

end RepoSurvey
