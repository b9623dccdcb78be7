import RepoSurvey.Failure
import RepoSurvey.Notice

/-!
# RepoSurvey.Logged

Operations that give notices on the way to their result. The notices never influence the result,
and those given before a failure are kept.
-/

namespace RepoSurvey

/-- A result and the notices given on the way to it, in order. -/
structure Logged (α : Type) where
  result : Except Failure α
  notices : List Notice

namespace Logged

variable {α β : Type}

def ofExcept (r : Except Failure α) : Logged α := ⟨r, []⟩

def andThen (x : Logged α) (f : α → Logged β) : Logged β :=
  match x.result with
  | .ok a => ⟨(f a).result, x.notices ++ (f a).notices⟩
  | .error e => ⟨.error e, x.notices⟩

instance : Monad Logged where
  pure a := ofExcept (.ok a)
  bind := andThen

def notice (n : Notice) : Logged Unit := ⟨.ok (), [n]⟩

def fail (e : Failure) : Logged α := ofExcept (.error e)

@[simp] theorem result_pure (a : α) : (pure a : Logged α).result = .ok a := rfl

@[simp] theorem result_bind (x : Logged α) (f : α → Logged β) :
    (x >>= f).result = x.result.bind fun a => (f a).result := by
  show (andThen x f).result = _
  cases h : x.result <;> simp [andThen, h, Except.bind]

@[simp] theorem result_notice (n : Notice) : (notice n).result = .ok () := rfl

@[simp] theorem result_ofExcept (r : Except Failure α) : (ofExcept r).result = r := rfl

end Logged

end RepoSurvey
