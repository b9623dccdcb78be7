import RepoSurvey.Logged
import RepoSurvey.Snapshot.Codec
import RepoSurvey.Value.Display

/-!
# RepoSurvey.Snapshot.Recovery

A snapshot from whatever was handed over. What can be read is kept: list items are read one by
one, and keys at fault are dropped until the rest is a snapshot.
-/

namespace RepoSurvey.Snapshot

def unnamed : String := "unknown"

/-! ## The expected shape -/

/-- A list of anything. -/
def anyList : Codec Unit where
  read v := if v.elements?.isSome then .ok () else Decoded.fault .noList
  write _ _ := .list []

/-- A field of the expected shape. -/
def expected {α : Type} (label : Label) (c : Codec α) : Slot Unit where
  label := label
  mandatory := true
  read v := (c.read v).map fun _ u => u
  write _ _ := .null

/-- The fields that an assessment relies on. -/
def shape : List (Slot Unit) := [
  expected (.plain "name") .text,
  expected ⟨"totalFiles", "total_files"⟩ .integer,
  expected (.plain "structure") anyList,
  expected (.plain "dependencies") anyList,
  expected ⟨"primaryLanguage", "primary_language"⟩ .text]

/-- The key that a fault lies under. -/
def keyOf (f : Fault) : Option String :=
  match f.path with
  | .key k :: _ => some k
  | _ => none

def keysOf (faults : List Fault) : List String := faults.filterMap keyOf

/-- The keys at which some fields differ from the expected shape, in order of their names. -/
def mismatches (fs : Fields) : List String :=
  (keysOf (Slot.updates fs shape).faults).eraseDups.mergeSort fun a b => a ≤ b

/-! ## Recovery -/

/-- The items of a list that can be read, as they are once read; nothing of other values. -/
def readable {α : Type} (c : Codec α) (record : α → Record) : Value → Value
  | .list vs => .list (vs.filterMap fun v => (c.read v).toOption.map fun a => .record (record a))
  | _ => .list []

/-- How the items of the list fields are read. -/
def listReaders : List (String × (Value → Value)) := [
  ("structure", readable Entry.codec .entry),
  ("dependencies", readable Edge.codec .edge),
  ("languages", readable LanguageShare.codec .languageShare)]

/-- Keeps of the list fields what can be read. -/
def withReadableLists (fs : Fields) : Fields :=
  fs.map fun f =>
    match listReaders.lookup f.1 with
    | some read => (f.1, read f.2)
    | none => f

def withName (fs : Fields) : Fields :=
  if fs.has "name" then fs else fs.put "name" (.text unnamed)

/-- The fields to recover from: without the report, with readable lists and a name. -/
def cleaned (fs : Fields) : Fields := withName (withReadableLists (fs.drop "validation"))

def withoutKeys (fs : Fields) (keys : List String) : Fields :=
  withName (fs.filter fun f => !keys.contains f.1)

/-- Reads fields, dropping the keys at fault after each failure, at most `attempts` times. -/
def attempt : (attempts : Nat) → Fields → Option Snapshot
  | 0, _ => none
  | attempts + 1, fs =>
    match codec.read (.object fs) with
    | .ok s => some s
    | .failed f more => attempt attempts (withoutKeys fs (keysOf (f :: more)))

/-- The name for fields from which nothing else can be recovered. -/
def lastName (fs : Fields) : String :=
  match fs.get? "name" with
  | some v => if v.isTruthy then v.display else unnamed
  | none => unnamed

def recoverFields (fs : Fields) : Snapshot :=
  match codec.read (.object fs) with
  | .ok s => s
  | .failed .. => (attempt ((cleaned fs).length + 1) (cleaned fs)).getD { name := lastName fs }

/-- A snapshot from any value. -/
def recover (v : Value) : Logged Snapshot :=
  match v with
  | .record (.snapshot s) => pure s
  | .object fs => do
    match mismatches fs with
    | [] => pure ()
    | keys => Logged.notice (.shapeMismatch keys)
    pure (recoverFields fs)
  | v => do
    Logged.notice (.notAMapping v)
    pure { name := unnamed }

end RepoSurvey.Snapshot
