import RepoSurvey.Proofs.Graph.Arc
import RepoSurvey.Proofs.Reference

/-!
# RepoSurvey.Proofs.Reference.Index

How the paths of a manifest decide where a reference leads.

* Only a package depends on the order of the paths (`Reference.resolve_eq_of_contains`).
* One more path, at whatever place, leaves a reference where it led or takes it over
  (`Reference.resolve_insert`). In particular no reference is lost, although a module or a package
  never leads to the file that makes it: that file is one of the old paths.
-/

namespace RepoSurvey

/-! ## Searches -/

theorem find?_eraseDups {α : Type} [DecidableEq α] (p : α → Bool) (xs : List α) :
    xs.eraseDups.find? p = xs.find? p := by
  induction xs using Graph.eraseDups_induction with
  | nil => rfl
  | cons x xs ih =>
    rw [List.eraseDups_cons]
    by_cases hx : p x = true
    · rw [List.find?_cons_of_pos hx, List.find?_cons_of_pos hx]
    · rw [List.find?_cons_of_neg hx, List.find?_cons_of_neg hx, ih, List.find?_filter]
      refine List.find?_congr fun y _ => ?_
      by_cases hy : y = x
      · simp [hy, hx]
      · simp [hy]

theorem find?_insert {α : Type} (p : α → Bool) (front : List α) (x : α) (back : List α) :
    (front ++ x :: back).find? p = (front ++ back).find? p ∨
      (front ++ x :: back).find? p = some x := by
  rw [List.find?_append, List.find?_append]
  cases front.find? p with
  | some y => exact .inl rfl
  | none =>
    cases hx : p x with
    | true => exact .inr (by rw [List.find?_cons_of_pos hx]; rfl)
    | false => exact .inl (by rw [List.find?_cons_of_neg (by simp [hx])])

theorem find?_or_eq {α : Type} [DecidableEq α] (p : α → Bool) (x : α) (xs : List α) :
    xs.find? (fun y => p y || y == x) = xs.find? p ∨
      xs.find? (fun y => p y || y == x) = some x := by
  induction xs with
  | nil => exact .inl rfl
  | cons y ys ih =>
    by_cases hy : y = x
    · subst hy
      exact .inr (List.find?_cons_of_pos (by simp))
    · have hhead : (p y || y == x) = p y := by simp [hy]
      rw [List.find?_cons, List.find?_cons, hhead]
      cases p y with
      | true => exact .inl rfl
      | false => exact ih

/-! ## Indices -/

theorem PathIndex.contains_ofList_insert (front : List String) (q : String) (back : List String)
    (path : String) :
    (ofList (front ++ q :: back)).contains path =
      ((ofList (front ++ back)).contains path || path == q) := by
  rw [Bool.eq_iff_iff]
  simp only [contains_ofList, List.mem_append, List.mem_cons, Bool.or_eq_true, beq_iff_eq]
  rw [or_assoc, @or_comm (path ∈ back)]

namespace Reference

variable {r : Reference} {source : String} {ix ix' : PathIndex}

theorem resolve_eq_of_find?_eq (h : (r.candidates source ix').find? ix'.contains =
    (r.candidates source ix).find? ix.contains) : r.resolve source ix' = r.resolve source ix := by
  refine Option.ext fun target => ?_
  rw [resolve_eq_some_iff, resolve_eq_some_iff, h]

theorem candidates_eq_of_ne_package (hr : ∀ path, r ≠ package path) :
    r.candidates source ix' = r.candidates source ix := by
  cases r with
  | specifier kind text => rfl
  | module name imported => rfl
  | package path => exact absurd rfl (hr path)

/-- All but packages are decided by the set of paths. -/
theorem resolve_eq_of_contains (hr : ∀ path, r ≠ package path)
    (h : ∀ path, ix'.contains path = ix.contains path) :
    r.resolve source ix' = r.resolve source ix := by
  have hcontains : ix'.contains = ix.contains := funext h
  refine resolve_eq_of_find?_eq ?_
  rw [candidates_eq_of_ne_package hr, hcontains]

section Insert

variable {front back : List String} {q : String}

theorem resolve_insert_of_ne_package (hr : ∀ path, r ≠ package path)
    (hsource : source ∈ front ++ back) :
    r.resolve source (.ofList (front ++ q :: back)) =
        r.resolve source (.ofList (front ++ back)) ∨
      r.resolve source (.ofList (front ++ q :: back)) = some q := by
  have hcontains : (PathIndex.ofList (front ++ q :: back)).contains =
      fun path => (PathIndex.ofList (front ++ back)).contains path || path == q :=
    funext (PathIndex.contains_ofList_insert front q back)
  by_cases hq : q = source
  · -- The path was there before, so the index holds the same.
    refine .inl (resolve_eq_of_contains hr fun path => ?_)
    have hmem : path = q → (PathIndex.ofList (front ++ back)).contains path = true := by
      rintro rfl
      exact PathIndex.contains_ofList.mpr (hq ▸ hsource)
    rw [hcontains, Bool.or_eq_left_iff_imp]
    exact fun heq => hmem (eq_of_beq heq)
  · have hcandidates : r.candidates source (.ofList (front ++ q :: back)) =
        r.candidates source (.ofList (front ++ back)) := candidates_eq_of_ne_package hr
    rcases find?_or_eq (PathIndex.ofList (front ++ back)).contains q
        (r.candidates source (.ofList (front ++ back))) with hsame | hnew
    · exact .inl (resolve_eq_of_find?_eq (by rw [hcandidates, hcontains, hsame]))
    · refine .inr (resolve_eq_some_iff.mpr ⟨by rw [hcandidates, hcontains, hnew], ?_⟩)
      exact fun heq => absurd heq hq

/-- A reference that is made by one of the old paths leads where it led or to the new path. -/
theorem resolve_insert (r : Reference) (hsource : source ∈ front ++ back) :
    r.resolve source (.ofList (front ++ q :: back)) =
        r.resolve source (.ofList (front ++ back)) ∨
      r.resolve source (.ofList (front ++ q :: back)) = some q := by
  cases r with
  | specifier kind text => exact resolve_insert_of_ne_package nofun hsource
  | module name imported => exact resolve_insert_of_ne_package nofun hsource
  | package path =>
    simp only [resolve, Resolution.package, PathIndex.firstContaining, PathIndex.ofList,
      find?_eraseDups]
    split
    · exact find?_insert _ front q back
    · exact .inl rfl

end Insert

end Reference

end RepoSurvey
