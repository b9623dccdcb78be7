import RepoSurvey.Text.PrintableTable
import RepoSurvey.Text.Ranges

/-!
# RepoSurvey.Text.Printable

The characters that a quoted text shows as they are.
-/

namespace RepoSurvey.Text

/-- Whether a character shows as itself: the space, and what is neither control nor separator. -/
def isPrintable (c : Char) : Bool :=
  if c.toNat < 128 then 32 ≤ c.toNat && c.toNat < 127 else inside printableBoundaries c.toNat

end RepoSurvey.Text
