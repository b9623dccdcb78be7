import RepoSurvey.Value

/-!
# RepoSurvey.Toml.Tree

The tables of a TOML document while it is read. A table may be opened by one header only, and a
dotted key may add to a table only in the section in which such a key opened it; values written
inline are never added to.
-/

namespace RepoSurvey.Toml

/-- How a table came to be. -/
inductive Mark where
  /-- As the parent of a table that a header opened. -/
  | implied
  /-- By a header of its own. -/
  | declared
  /-- By a dotted key, in the section of the given number. -/
  | dotted (part : Nat)
deriving DecidableEq, Repr

/-- What stands under a key. -/
inductive Node where
  | value (v : Value)
  | table (mark : Mark) (entries : List (String × Node))
  /-- An array of tables: those that are complete, and the last. -/
  | tables (earlier : List Value) (last : List (String × Node))

/-- The entries of a table, in order. -/
abbrev Entries := List (String × Node)

/-- Puts another node under a key that is there. -/
def Entries.replace (es : Entries) (key : String) (n : Node) : Entries :=
  es.map fun e => if e.1 == key then (key, n) else e

mutual

def Node.toValue : Node → Value
  | .value v => v
  | .table _ es => .object (entryValues es)
  | .tables earlier last => .list (earlier ++ [.object (entryValues last)])

def entryValues : List (String × Node) → List (String × Value)
  | [] => []
  | (k, n) :: es => (k, n.toValue) :: entryValues es

end

namespace Entries

/-- Changes the table at a path, which is made where it is not there. In an array of tables the
path goes to the last one. -/
def modify (change : Entries → Option Entries) : List String → Entries → Option Entries
  | [], es => change es
  | k :: ks, es =>
    match es.lookup k with
    | none => (modify change ks []).map fun t => es ++ [(k, .table .implied t)]
    | some (.table m t) => (modify change ks t).map fun t => replace es k (.table m t)
    | some (.tables earlier last) =>
      (modify change ks last).map fun t => replace es k (.tables earlier t)
    | some (.value _) => none

/-- Opens a table by its header. -/
def declare (key : String) (es : Entries) : Option Entries :=
  match es.lookup key with
  | none => some (es ++ [(key, .table .declared [])])
  | some (.table .implied t) => some (replace es key (.table .declared t))
  | _ => none

/-- Opens another table of an array. -/
def extend (key : String) (es : Entries) : Option Entries :=
  match es.lookup key with
  | none => some (es ++ [(key, .tables [] [])])
  | some (.tables earlier last) =>
    some (replace es key (.tables (earlier ++ [.object (entryValues last)]) []))
  | _ => none

/-- Sets a dotted key in the section of the given number. -/
def assign (part : Nat) (v : Value) : List String → Entries → Option Entries
  | [], _ => none
  | [k], es => if (es.lookup k).isSome then none else some (es ++ [(k, .value v)])
  | k :: ks, es =>
    match es.lookup k with
    | none => (assign part v ks []).map fun t => es ++ [(k, .table (.dotted part) t)]
    | some (.table m t) =>
      if m = .implied ∨ m = .dotted part then
        (assign part v ks t).map fun t => replace es k (.table (.dotted part) t)
      else none
    | _ => none

end Entries

end RepoSurvey.Toml
