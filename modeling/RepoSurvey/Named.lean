/-!
# RepoSurvey.Named

Finite types whose members have names, such as the severities of an issue. A name stands for the
first member that has it.
-/

namespace RepoSurvey

/-- A type with finitely many members, each with a name. -/
class Named (α : Type) where
  all : List α
  name : α → String

namespace Named

def find? {α : Type} [Named α] (s : String) : Option α :=
  (all : List α).find? fun a => name a == s

theorem name_of_find? {α : Type} [Named α] {s : String} {a : α} (h : find? s = some a) :
    name a = s := by
  simpa using List.find?_some h

end Named

end RepoSurvey
