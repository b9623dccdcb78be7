import RepoSurvey.Binary64
import RepoSurvey.Failure

/-!
# RepoSurvey.Number

Integers of any size beside double-precision numbers. The two kinds compare exactly.
-/

namespace RepoSurvey

/-- A number of either kind. -/
inductive Number where
  | int (n : Int)
  | real (x : Binary64)
deriving DecidableEq, Repr

namespace Number

def lt : Number → Number → Bool
  | .int a, .int b => a < b
  | .int a, .real y => y.gtInt a
  | .real x, .int b => x.ltInt b
  | .real x, .real y => x.lt y

def atLeast : Number → Int → Bool
  | .int a, n => n ≤ a
  | .real x, n => x.geInt n

def exceeds : Number → Int → Bool
  | .int a, n => n < a
  | .real x, n => x.gtInt n

/-- The number in double precision, if an integer is not too large. -/
def toBinary64? : Number → Option Binary64
  | .int n => Binary64.ofInt? n
  | .real x => some x

end Number

/-- Turns the lack of an integer part into a failure. -/
def Failure.ofNoInteger : Binary64.NoInteger → Failure
  | .notANumber => .unreadNumber
  | .infinite => .outOfRange

end RepoSurvey
