import RepoSurvey.Value

/-!
# RepoSurvey.Json.Data

What JSON text spells. A character beyond U+FFFF is spelled by two escapes, one for each half of it,
and an escape may also name a half that has no other. Such a half is no character, but texts that
differ in it are different texts and different keys. So texts and keys are kept as points here; only
where data become a value, whose texts hold characters alone, a half gives way to U+FFFD.
-/

namespace RepoSurvey.Json

/-! ## Points -/

/-- A character, or a half of one without the other; halves are counted from U+D800. -/
inductive Point where
  | char (c : Char)
  | half (n : Fin 0x800)
deriving DecidableEq, Repr

namespace Point

def ofCode (n : Nat) : Point :=
  if h : 0xD800 ≤ n ∧ n < 0xE000 then .half ⟨n - 0xD800, by omega⟩ else .char (Char.ofNat n)

/-- The character itself, or what stands for a half. -/
def toChar : Point → Char
  | char c => c
  | half _ => '\ufffd'

end Point

abbrev Points := List Point

namespace Points

def ofString (s : String) : Points := s.toList.map .char

def toText (ps : Points) : String := String.ofList (ps.map Point.toChar)

end Points

/-! ## Data -/

/-- What a text spells. A `long` is an integer from the text of a record, as among values. -/
inductive Data where
  | null
  | bool (b : Bool)
  | int (n : Int)
  | long (n : Int)
  | real (x : Binary64)
  | text (ps : Points)
  | list (ds : List Data)
  | object (members : List (Points × Data))
deriving Inhabited, Repr

/-- The members of an object, in order. A key is repeated only where the text of a record repeats
it. -/
abbrev Members := List (Points × Data)

/-- The data under a key, the first if the key is repeated. -/
def Members.get? (ms : Members) (key : String) : Option Data := ms.lookup (Points.ofString key)

namespace Data

mutual

def toValue : Data → Value
  | .null => .null
  | .bool b => .bool b
  | .int n => .int n
  | .long n => .long n
  | .real x => .real x
  | .text ps => .text ps.toText
  | .list ds => .list (toValues ds)
  | .object ms => .object (toFields ms)

def toValues : List Data → List Value
  | [] => []
  | d :: ds => d.toValue :: toValues ds

/-- Keys that differ only in a half become one key, which is then repeated. -/
def toFields : List (Points × Data) → Fields
  | [] => []
  | (k, d) :: ms => (k.toText, d.toValue) :: toFields ms

end

end Data

end RepoSurvey.Json
