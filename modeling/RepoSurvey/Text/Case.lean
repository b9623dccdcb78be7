import RepoSurvey.Text.CaseTable
import RepoSurvey.Text.Ranges

/-!
# RepoSurvey.Text.Case

Lower and upper case of whole texts, by the full Unicode mappings. Lower case depends on the
neighbours of a capital sigma: it takes its final form after a cased character that no cased
character follows.
-/

namespace RepoSurvey.Text

/-- Moves a code point by the first run that holds it. -/
def shiftBy (runs : List CaseRun) (c : Char) : Char :=
  let n := c.toNat
  match runs.find? fun r => r.first ≤ n && n ≤ r.last && (n - r.first) % r.step == 0 with
  | some r => Char.ofNat (n + r.shift).toNat
  | none => c

/-- Whether the nearest character that a sigma does not skip has case. -/
def meetsCased : List Char → Bool
  | [] => false
  | c :: cs => if inside skippedBoundaries c.toNat then meetsCased cs
    else inside casedBoundaries c.toNat

/-- Lower case of a character outside ASCII, sigma apart. -/
def lowerWide (c : Char) : List Char :=
  if c.toNat == 0x130 then ['i', Char.ofNat 0x307] else [shiftBy lowerRuns c]

/-- Lower case of `cs`, where `before` holds the characters already passed, nearest first. -/
def lowerFrom : List Char → List Char → List Char
  | _, [] => []
  | before, c :: cs =>
    (if c.toNat < 128 then [c.toLower]
      else if c.toNat == 0x3A3 then
        [Char.ofNat (if meetsCased before && !meetsCased cs then 0x3C2 else 0x3C3)]
      else lowerWide c) ++ lowerFrom (c :: before) cs

def lower (s : String) : String := String.ofList (lowerFrom [] s.toList)

def upperChar (c : Char) : List Char :=
  if c.toNat < 128 then [c.toUpper]
  else match upperSpellings.lookup c.toNat with
    | some cs => cs.map Char.ofNat
    | none => [shiftBy upperRuns c]

def upper (s : String) : String := String.ofList (s.toList.flatMap upperChar)

end RepoSurvey.Text
