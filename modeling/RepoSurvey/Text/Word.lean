import RepoSurvey.Text.Ranges
import RepoSurvey.Text.WordTable

/-!
# RepoSurvey.Text.Word

The characters of words: letters and numbers of any script, and the underscore.
-/

namespace RepoSurvey.Text

def isLetter (c : Char) : Bool := c.isAlpha

/-- A letter or number of any script, or the underscore. -/
def isWord (c : Char) : Bool :=
  if c.toNat < 128 then c.isAlphanum || c == '_' else inside wordBoundaries c.toNat

theorem isWord_of_isAlphanum {c : Char} (h : c.isAlphanum) (hc : c.toNat < 128) : isWord c := by
  simp [isWord, h, hc]

end RepoSurvey.Text
