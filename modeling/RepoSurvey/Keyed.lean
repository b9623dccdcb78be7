/-!
# RepoSurvey.Keyed

Lists of keys and values in which a value is put under its key: in the place of the key if it is
there, else at the end.
-/

namespace RepoSurvey.Keyed

variable {κ α : Type} [BEq κ]

/-- The list with `key` set to `a`. -/
def put : List (κ × α) → κ → α → List (κ × α)
  | [], key, a => [(key, a)]
  | (k, b) :: fs, key, a => if k == key then (k, a) :: fs else (k, b) :: put fs key a

/-- The list with the values of a later one put into it, in order. -/
def putAll (fs later : List (κ × α)) : List (κ × α) :=
  later.foldl (fun acc f => put acc f.1 f.2) fs

/-- The list with each key once: in its first place and with its last value. -/
def merged (fs : List (κ × α)) : List (κ × α) := putAll [] fs

end RepoSurvey.Keyed
