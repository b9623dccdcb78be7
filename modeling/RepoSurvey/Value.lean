import RepoSurvey.Keyed
import RepoSurvey.Moment
import RepoSurvey.Record.Shown

/-!
# RepoSurvey.Value

The dynamic values that reach the program from manifests, settings files and stored snapshots.
Objects keep the order of their keys. A record stands among the others as it is.
-/

namespace RepoSurvey

/-- A dynamic value. A `long` is an integer from the text of a record that has too many digits to
stand for a number or a flag. -/
inductive Value where
  | null
  | bool (b : Bool)
  | int (n : Int)
  | long (n : Int)
  | real (x : Binary64)
  | text (s : String)
  | bytes (bs : List UInt8)
  | list (vs : List Value)
  | object (fields : List (String × Value))
  | moment (m : Moment)
  | record (r : Record)
deriving Inhabited, Repr

namespace Value

def texts (ss : List String) : Value := .list (ss.map .text)

/-- The elements of a value that counts as a list. A record counts as the list of its parts. -/
def elements? : Value → Option (List Value)
  | .list vs => some vs
  | .record r => some (r.parts.map fun p => texts [p.1, p.2])
  | _ => none

/-- Whether a value counts as present: not null, zero, false or empty. -/
def isTruthy : Value → Bool
  | .null => false
  | .bool b => b
  | .int n | .long n => n != 0
  | .real x => !x.isZero
  | .text s => s != ""
  | .bytes bs => !bs.isEmpty
  | .list vs => !vs.isEmpty
  | .object fs => !fs.isEmpty
  | .moment _ => true
  | .record _ => true

end Value

/-! ## Fields -/

/-- Fields in order, by name. A key is repeated only where the text of a record repeats it. -/
abbrev Fields := List (String × Value)

namespace Fields

/-- The value under a key, the first one if the key is repeated. -/
def get? (fs : Fields) (key : String) : Option Value := fs.lookup key

/-- The value that stands last under a key. -/
def last? (fs : Fields) (key : String) : Option Value := fs.reverse.lookup key

def has (fs : Fields) (key : String) : Bool := (fs.get? key).isSome

abbrev put (fs : Fields) (key : String) (v : Value) : Fields := Keyed.put fs key v

def drop (fs : Fields) (key : String) : Fields := fs.filter fun f => f.1 != key

theorem last?_append_self (fs : Fields) (key : String) (v : Value) :
    last? (fs ++ [(key, v)]) key = some v := by
  simp [last?]

end Fields

namespace Value

mutual

/-- A value in which no object repeats a key. -/
def merged : Value → Value
  | .list vs => .list (mergedItems vs)
  | .object fs => .object (Keyed.merged (mergedFields fs))
  | v => v

def mergedItems : List Value → List Value
  | [] => []
  | v :: vs => merged v :: mergedItems vs

def mergedFields : List (String × Value) → List (String × Value)
  | [] => []
  | (k, v) :: fs => (k, merged v) :: mergedFields fs

end

end Value

end RepoSurvey
