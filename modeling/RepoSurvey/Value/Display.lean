import RepoSurvey.Record.Shown
import RepoSurvey.Value

/-!
# RepoSurvey.Value.Display

The text of a value. A text stands for itself; inside lists and objects it is quoted. An integer is
written out whatever its length: a limit on digits, such as readers of numerals have, is not set.
-/

namespace RepoSurvey.Value

mutual

/-- A value as it stands inside a list or an object. -/
def inner : Value → String
  | .null => Shown.constant none
  | .bool b => Shown.flag b
  | .int n | .long n => toString n
  | .real x => Shown.number x
  | .text s => Text.quoted s
  | .bytes bs => Text.quotedBytes bs
  | .list vs => "[" ++ innerList vs ++ "]"
  | .object fs => "\x7b" ++ innerFields fs ++ "\x7d"
  | .moment m => m.inner
  | .record r => r.inner

def innerList : List Value → String
  | [] => ""
  | [v] => inner v
  | v :: vs => inner v ++ ", " ++ innerList vs

def innerFields : List (String × Value) → String
  | [] => ""
  | [(k, v)] => Text.quoted k ++ ": " ++ inner v
  | (k, v) :: fs => Text.quoted k ++ ": " ++ inner v ++ ", " ++ innerFields fs

end

def display : Value → String
  | .text s => s
  | .moment m => m.text
  | .record r => r.text
  | v => inner v

end RepoSurvey.Value
