/-!
# RepoSurvey.Decoded

The outcome of reading a value: the thing read, or every fault found in it, each with the path to
the place and the cause. Reading goes on after a fault, so that independent parts report theirs
in order; a failed reading always names at least one fault.
-/

namespace RepoSurvey

/-- One step from a value into a part of it. -/
inductive Step where
  | key (name : String)
  | index (i : Nat)
deriving DecidableEq, Repr

/-- What is wrong with a value. -/
inductive Cause where
  | missing
  | noText
  | undecodableText
  | noInteger
  | unreadInteger
  | integerTooLarge
  | fractionalInteger
  | notFinite
  | noNumber
  | unreadNumber
  | noFlag
  | unreadFlag
  | noList
  | noMapping
  | noRecord
  | noMember
  | noLiteral
  | belowMinimum
  | malformedText
  | frozen
deriving DecidableEq, Repr

/-- A cause and the place it was found at. -/
structure Fault where
  path : List Step
  cause : Cause
deriving DecidableEq, Repr

/-- What reading a value yields. -/
inductive Decoded (α : Type) where
  | ok (a : α)
  | failed (first : Fault) (more : List Fault)
deriving DecidableEq, Repr

namespace Decoded

variable {α β γ : Type}

/-- A single fault at the value itself. -/
def fault (c : Cause) : Decoded α := .failed ⟨[], c⟩ []

def faults : Decoded α → List Fault
  | .ok _ => []
  | .failed f fs => f :: fs

def toOption : Decoded α → Option α
  | .ok a => some a
  | .failed _ _ => none

def map (f : α → β) : Decoded α → Decoded β
  | .ok a => .ok (f a)
  | .failed e es => .failed e es

/-- Combines two readings; the faults of both are kept, the left ones first. -/
def zipWith (f : α → β → γ) : Decoded α → Decoded β → Decoded γ
  | .ok a, .ok b => .ok (f a b)
  | .ok _, .failed e es => .failed e es
  | .failed e es, .ok _ => .failed e es
  | .failed e es, .failed e' es' => .failed e (es ++ e' :: es')

/-- Places the faults one step further in. -/
def under (s : Step) : Decoded α → Decoded α
  | .ok a => .ok a
  | .failed e es => .failed ⟨s :: e.path, e.cause⟩ (es.map fun e => ⟨s :: e.path, e.cause⟩)

/-- Reads the elements of a list; `i` is the place of the first of them. -/
def list {ι : Type} (read : ι → Decoded α) (i : Nat) : List ι → Decoded (List α)
  | [] => .ok []
  | v :: vs => zipWith List.cons ((read v).under (.index i)) (list read (i + 1) vs)

/-- Reads the values of a mapping and keeps its keys. -/
def mapping {ι : Type} (read : ι → Decoded α) : List (String × ι) → Decoded (List (String × α))
  | [] => .ok []
  | (k, v) :: fs =>
    zipWith (fun a rest => (k, a) :: rest) ((read v).under (.key k)) (mapping read fs)

theorem under_eq_ok {s : Step} {d : Decoded α} {a : α} : d.under s = .ok a ↔ d = .ok a := by
  cases d <;> simp [under]

theorem zipWith_eq_ok {f : α → β → γ} {x : Decoded α} {y : Decoded β} {c : γ} :
    zipWith f x y = .ok c ↔ ∃ a b, x = .ok a ∧ y = .ok b ∧ f a b = c := by
  cases x <;> cases y <;> simp [zipWith]

theorem faults_zipWith (f : α → β → γ) (x : Decoded α) (y : Decoded β) :
    (zipWith f x y).faults = x.faults ++ y.faults := by
  cases x <;> cases y <;> simp [zipWith, faults]

end Decoded

end RepoSurvey
