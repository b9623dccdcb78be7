import RepoSurvey.Value

/-!
# RepoSurvey.Value.Same

Equality of values as data: the order of keys does not matter and numbers are compared as
numbers.
-/

namespace RepoSurvey.Value

mutual

def same : Value → Value → Bool
  | .null, .null => true
  | .bool a, .bool b => a == b
  | .int a, .int b => a == b
  | .long a, .long b => a == b
  | .real a, .real b => a.same b
  | .text a, .text b => a == b
  | .bytes a, .bytes b => a == b
  | .moment a, .moment b => a == b
  | .list as, .list bs => sameList as bs
  | .object as, .object bs => as.length == bs.length && sameFields as bs
  | .record a, .record b => a == b
  | _, _ => false

/-- Whether two lists hold the same data, place by place. -/
def sameList : List Value → List Value → Bool
  | [], [] => true
  | a :: as, b :: bs => same a b && sameList as bs
  | _, _ => false

/-- Whether every field on the left has its match on the right. -/
def sameFields : List (String × Value) → List (String × Value) → Bool
  | [], _ => true
  | (k, a) :: as, bs =>
    (match bs.lookup k with
      | some b => same a b
      | none => false) && sameFields as bs

end

end RepoSurvey.Value
