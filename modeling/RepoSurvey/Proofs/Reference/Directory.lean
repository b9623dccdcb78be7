import RepoSurvey.Proofs.Reference.Subdirectory

/-!
# RepoSurvey.Proofs.Reference.Directory

References to a directory: a specifier that ends there, or the dots of a module. A directory is
represented by its index file, if none of the paths is there that are tried before it. The root is
not: it has no name to put the index file behind, so a reference to it leads nowhere even if its
index file is a path (`Reference.resolve_directory`).
-/

namespace RepoSurvey

theorem Path.ofSegments_concat {dir : List String} (hdir : dir ≠ []) (name : String) :
    ofSegments (dir ++ [name]) = ofSegments dir ++ ("/" ++ name) := by
  induction dir with
  | nil => exact absurd rfl hdir
  | cons first dir ih =>
    have hfile : dir ++ [name] ≠ [] := List.append_ne_nil_of_right_ne_nil _ (List.cons_ne_nil _ _)
    rw [List.cons_append, ofSegments_cons hfile]
    by_cases hrest : dir = []
    · subst hrest
      exact String.append_assoc ..
    · rw [ih hrest, ofSegments_cons hrest, under_append]

theorem PathIndex.find?_contains_ofList {paths before after : List String} {path : String}
    (hbefore : ∀ other ∈ before, other ∉ paths) (hpath : path ∈ paths) :
    (before ++ path :: after).find? (ofList paths).contains = some path := by
  have hnone : before.find? (ofList paths).contains = none :=
    List.find?_eq_none.mpr fun other hother hin => hbefore other hother (contains_ofList.mp hin)
  rw [List.find?_append, hnone, Option.none_or,
    List.find?_cons_of_pos (contains_ofList.mpr hpath)]

namespace Reference

open Resolution

/-- Whether a relative reference denotes a directory: a specifier that ends there, or a module made
of dots that lead there. -/
def Denotes (source : String) (dir : List String) : Reference → Prop
  | specifier _ text => text.toList.head? = some '.' ∧ denoted source text = dir
  | module name _ => (moduleParts name).1 ≠ 0 ∧ (moduleParts name).2 = [] ∧
      climbed source (moduleParts name).1 = dir
  | package _ => False

instance (source : String) (dir : List String) : DecidablePred (Denotes source dir)
  | specifier _ text => inferInstanceAs
      (Decidable (text.toList.head? = some '.' ∧ denoted source text = dir))
  | module name _ => inferInstanceAs (Decidable ((moduleParts name).1 ≠ 0 ∧
      (moduleParts name).2 = [] ∧ climbed source (moduleParts name).1 = dir))
  | package _ => inferInstanceAs (Decidable False)

/-- The file that represents a directory. -/
def indexPath (dir : List String) : Reference → String
  | specifier .. => Path.ofSegments (dir ++ ["index.ts"])
  | module .. => Path.ofSegments (dir ++ ["__init__.py"])
  | package _ => Path.ofSegments dir

/-- The paths that are tried before that file: files named like the directory, or the imported name
as a module of it. -/
def triedBefore (dir : List String) : Reference → List String
  | specifier .. => ["", ".ts", ".tsx", ".js", ".jsx"].map (Path.ofSegments dir ++ ·)
  | module _ imported => submoduleCandidates dir imported
  | package _ => []

variable {r : Reference} {source : String} {dir paths : List String} {ix : PathIndex}

theorem candidates_eq_of_denotes (ix : PathIndex) (hr : r.Denotes source dir) (hdir : dir ≠ []) :
    ∃ after, r.candidates source ix = r.triedBefore dir ++ r.indexPath dir :: after := by
  cases r with
  | specifier kind text =>
    obtain ⟨hdot, rfl⟩ := hr
    refine ⟨[Path.ofSegments (denoted source text) ++ "/index.js"], ?_⟩
    rw [candidates, specifierCandidates_of_dot hdot, if_neg hdir, indexPath,
      Path.ofSegments_concat hdir]
    rfl
  | module name imported =>
    obtain ⟨hlevel, hparts, rfl⟩ := hr
    refine ⟨[], ?_⟩
    rw [indexPath, Path.ofSegments_concat hdir]
    simp only [candidates, moduleCandidates_eq, if_pos hparts, if_neg hlevel, bareCandidates,
      if_neg hdir]
    rfl
  | package path => exact hr.elim

/-- Of the files of the root only a module that is imported from it by name is tried. -/
theorem mem_triedBefore_of_denotes_root (hr : r.Denotes source []) {path : String}
    (hpath : path ∈ r.candidates source ix) : path ∈ r.triedBefore [] := by
  cases r with
  | specifier kind text =>
    obtain ⟨hdot, hroot⟩ := hr
    rw [candidates, specifierCandidates_of_dot hdot, if_pos hroot] at hpath
    exact absurd hpath List.not_mem_nil
  | module name imported =>
    obtain ⟨hlevel, hparts, hroot⟩ := hr
    simpa only [triedBefore, candidates, moduleCandidates_eq, if_pos hparts, if_neg hlevel, hroot,
      bareCandidates, if_true, List.append_nil] using hpath
  | package path => exact hr.elim

/-- A reference to a directory leads to the index file of the directory, if this is another path and
no path comes before it. Only the root is not found this way: a reference to it leads nowhere. -/
theorem resolve_directory (r : Reference) (source : String) (dir paths : List String)
    (hr : r.Denotes source dir) (hindex : r.indexPath dir ∈ paths)
    (hsource : r.indexPath dir ≠ source) (hbefore : ∀ path ∈ r.triedBefore dir, path ∉ paths) :
    r.resolve source (.ofList paths) = if dir = [] then none else some (r.indexPath dir) := by
  by_cases hdir : dir = []
  · subst hdir
    rw [if_pos rfl, Option.eq_none_iff_forall_ne_some]
    intro target htarget
    obtain ⟨hfound, _⟩ := resolve_eq_some_iff.mp htarget
    exact hbefore target (mem_triedBefore_of_denotes_root hr (List.mem_of_find?_eq_some hfound))
      (PathIndex.contains_ofList.mp (List.find?_some hfound))
  · obtain ⟨after, hcandidates⟩ := candidates_eq_of_denotes (.ofList paths) hr hdir
    rw [if_neg hdir, resolve_eq_some_iff, hcandidates]
    exact ⟨PathIndex.find?_contains_ofList hbefore hindex, fun hself => absurd hself hsource⟩

/-- A script imports the directory above its own and a module imports its package. The same two
imports lead nowhere if what they denote is the root, although its index file is there. -/
theorem resolve_directory_root :
    (specifier .imported "..").resolve "app/src/a.ts"
        (.ofList ["app/index.ts", "app/src/a.ts"]) = some "app/index.ts" ∧
      (module "." (some "helper")).resolve "app/m.py"
        (.ofList ["app/__init__.py", "app/m.py"]) = some "app/__init__.py" ∧
      (specifier .imported "..").resolve "src/a.ts" (.ofList ["index.ts", "src/a.ts"]) = none ∧
      (module "." (some "helper")).resolve "m.py" (.ofList ["__init__.py", "m.py"]) = none := by
  refine ⟨?_, ?_, ?_, ?_⟩
  · exact (resolve_directory (specifier .imported "..") "app/src/a.ts" ["app"]
      ["app/index.ts", "app/src/a.ts"] (by decide +kernel) (by decide +kernel) (by decide +kernel)
      (by decide +kernel)).trans (by decide +kernel)
  · exact (resolve_directory (module "." (some "helper")) "app/m.py" ["app"]
      ["app/__init__.py", "app/m.py"] (by decide +kernel) (by decide +kernel) (by decide +kernel)
      (by decide +kernel)).trans (by decide +kernel)
  · exact resolve_directory (specifier .imported "..") "src/a.ts" [] ["index.ts", "src/a.ts"]
      (by decide +kernel) (by decide +kernel) (by decide +kernel) (by decide +kernel)
  · exact resolve_directory (module "." (some "helper")) "m.py" [] ["__init__.py", "m.py"]
      (by decide +kernel) (by decide +kernel) (by decide +kernel) (by decide +kernel)

end Reference

end RepoSurvey
