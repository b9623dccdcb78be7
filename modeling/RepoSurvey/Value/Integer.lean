import RepoSurvey.Decimal.Numeral
import RepoSurvey.Failure
import RepoSurvey.Number
import RepoSurvey.Text.Utf8
import RepoSurvey.Value

/-!
# RepoSurvey.Value.Integer

Turning values into integers: fractions are cut off, and texts may hold an integer between white
space.
-/

namespace RepoSurvey.Value

def integerOfText (s : String) : Except Failure Int :=
  (Decimal.integer s).mapError fun _ => .unreadNumber

/-- Whether a byte is an ASCII character; no other stands in a numeral made of bytes. -/
def isAscii (b : UInt8) : Bool := b.toNat < 128

def toInteger : Value → Except Failure Int
  | .int n | .long n => .ok n
  | .bool b => .ok (if b then 1 else 0)
  | .real x => x.truncate.mapError Failure.ofNoInteger
  | .text s => integerOfText s
  | .bytes bs =>
    if bs.all isAscii then integerOfText (Text.Utf8.decode bs) else .error .unreadNumber
  | _ => .error .noNumber

/-- The items that a value has: the elements of a list, the parts of a record, the keys of an
object, the characters of a text, the numbers of some bytes. -/
def items : Value → Except Failure (List Value)
  | .object fs => .ok (fs.map fun f => .text f.1)
  | .text s => .ok (s.toList.map fun c => .text (String.singleton c))
  | .bytes bs => .ok (bs.map fun b => .int b.toNat)
  | v =>
    match v.elements? with
    | some vs => .ok vs
    | none => .error .noSequence

end RepoSurvey.Value
