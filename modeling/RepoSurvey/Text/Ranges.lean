/-!
# RepoSurvey.Text.Ranges

A set of code points as the ascending list of its boundaries: the points where membership
changes, starting outside the set.
-/

namespace RepoSurvey.Text

/-- Membership of `c` in the set with the given boundaries. -/
def inside : List Nat → Nat → Bool
  | [], _ => false
  | b :: bs, c => if c < b then false else !inside bs c

end RepoSurvey.Text
