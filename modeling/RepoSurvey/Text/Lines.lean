/-!
# RepoSurvey.Text.Lines

The lines of a text. A line ends at any of the ten line boundaries, and a carriage return and a
line feed together are one boundary; the text after the last boundary is a line only if it is
not empty.
-/

namespace RepoSurvey.Text

/-- A character that ends a line. -/
def isLineBoundary (c : Char) : Bool :=
  let n := c.toNat
  (10 ≤ n && n ≤ 13) || (0x1C ≤ n && n ≤ 0x1E) || n == 0x85 || n == 0x2028 || n == 0x2029

/-- The lines of `s`, given the characters of the line that is open, last first. -/
def linesFrom : List Char → List Char → List (List Char)
  | [], [] => []
  | line, [] => [line.reverse]
  | line, '\r' :: '\n' :: cs => line.reverse :: linesFrom [] cs
  | line, c :: cs =>
    if isLineBoundary c then line.reverse :: linesFrom [] cs else linesFrom (c :: line) cs

def lines (s : List Char) : List (List Char) := linesFrom [] s

end RepoSurvey.Text
