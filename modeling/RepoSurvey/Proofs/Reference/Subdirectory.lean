import Mathlib.Data.List.Infix
import RepoSurvey.Proofs.Reference

/-!
# RepoSurvey.Proofs.Reference.Subdirectory

What becomes of the relative imports of a repository that is moved into a directory.

* `Path.StaysBelow depth steps`: the steps never climb above the root, said of the steps alone.
* `Path.walk_cons`: below the root a walk does not notice that the root has become a directory.
* `Reference.find?_candidates_under`: so the candidates of a relative import move along, and with
  them the path that the import leads to (`Reference.resolve_moved`).

The root itself is different. It has no name, so an import that denotes it has no candidates. Once
it is a directory, its index files are candidates like those of any other (`find?_directory_under`).
-/

namespace RepoSurvey

/-! ## Paths in a directory -/

theorem Text.splitAt_append {sep : Char} {s : List Char} (h : sep ∉ s) (t : List Char) :
    splitAt sep (s ++ sep :: t) = s :: splitAt sep t := by
  induction s with
  | nil => simp [splitAt]
  | cons c s ih =>
    obtain ⟨hc, hs⟩ := not_or.mp (List.mem_cons.not.mp h)
    rw [List.cons_append, splitAt, if_neg (Ne.symm hc), ih hs]

namespace Path

/-- Whether a text is the name of a directory: a single segment. -/
structure IsSegment (s : String) : Prop where
  ne_empty : s ≠ ""
  no_slash : '/' ∉ s.toList

/-- A path of a repository that was moved into a directory. -/
def under (dir path : String) : String := dir ++ "/" ++ path

variable {p path source : String} {dir steps : List String} {depth : Nat} {step : String}

theorem under_injective (p : String) : Function.Injective (under p) := by
  intro a b h
  simpa [under] using h

theorem under_append (p path rest : String) : under p path ++ rest = under p (path ++ rest) := by
  simp only [under, String.append_assoc]

theorem segments_under (hp : IsSegment p) : segments (under p path) = p :: segments path := by
  have hchars : (under p path).toList = p.toList ++ '/' :: path.toList := by simp [under]
  rw [segments, Text.split, hchars, Text.splitAt_append hp.no_slash, List.map_cons,
    String.ofList_toList, List.filter_cons_of_pos (by simpa using hp.ne_empty)]
  rfl

theorem directory_under (hp : IsSegment p) (hsource : segments source ≠ []) :
    directory (under p source) = p :: directory source := by
  rw [directory, segments_under hp, List.dropLast_cons_of_ne_nil hsource, directory]

theorem ofSegments_cons (h : dir ≠ []) : ofSegments (p :: dir) = under p (ofSegments dir) := by
  cases dir with
  | nil => exact absurd rfl h
  | cons s dir => rw [ofSegments, String.intercalate_cons_cons, under, ofSegments]

/-! ## Steps below the root -/

/-- Whether a step leads into a directory or to a file. -/
def goesDown (step : String) : Bool := step ≠ "" ∧ step ≠ "." ∧ step ≠ ".."

/-- Whether some steps never climb above the root: up to any point, no more of them go up than there
are directories to leave. -/
def StaysBelow (depth : Nat) (steps : List String) : Prop :=
  ∀ taken, taken <+: steps → taken.count ".." ≤ depth + taken.countP goesDown

instance (depth : Nat) (steps : List String) : Decidable (StaysBelow depth steps) :=
  decidable_of_iff
    (∀ taken ∈ steps.inits, taken.count ".." ≤ depth + taken.countP goesDown)
    (by simp only [StaysBelow, List.mem_inits])

theorem StaysBelow.of_stay (h : StaysBelow depth (step :: steps)) (hstep : step = "" ∨ step = ".") :
    StaysBelow depth steps := by
  intro taken htaken
  have hcount := h (step :: taken) (List.cons_prefix_cons.mpr ⟨rfl, htaken⟩)
  rcases hstep with rfl | rfl
  · simpa [goesDown] using hcount
  · simpa [goesDown] using hcount

theorem StaysBelow.of_up (h : StaysBelow depth (".." :: steps)) :
    0 < depth ∧ StaysBelow (depth - 1) steps := by
  have hup : ¬ goesDown ".." = true := by decide
  have hcount : ∀ taken, taken <+: steps →
      taken.count ".." + 1 ≤ depth + taken.countP goesDown := by
    intro taken htaken
    have hmore := h (".." :: taken) (List.cons_prefix_cons.mpr ⟨rfl, htaken⟩)
    rwa [List.count_cons_self, List.countP_cons_of_neg hup] at hmore
  have hdepth : 0 < depth := hcount [] List.nil_prefix
  refine ⟨hdepth, fun taken htaken => ?_⟩
  have := hcount taken htaken
  omega

theorem StaysBelow.of_down (h : StaysBelow depth (step :: steps)) (hstep : goesDown step = true) :
    StaysBelow (depth + 1) steps := by
  intro taken htaken
  have hcount := h (step :: taken) (List.cons_prefix_cons.mpr ⟨rfl, htaken⟩)
  have hup : step ≠ ".." := by
    rintro rfl
    exact absurd hstep (by decide)
  rw [List.count_cons_of_ne hup, List.countP_cons_of_pos hstep] at hcount
  omega

theorem walk_cons (h : StaysBelow dir.length steps) :
    walk (p :: dir) steps = p :: walk dir steps := by
  induction steps generalizing dir with
  | nil => rfl
  | cons step steps ih =>
    rw [walk, walk]
    by_cases hstay : step = "" ∨ step = "."
    · rw [if_pos hstay, if_pos hstay, ih (h.of_stay hstay)]
    · rw [if_neg hstay, if_neg hstay]
      by_cases hup : step = ".."
      · subst hup
        obtain ⟨hdepth, hrest⟩ := h.of_up
        rw [if_pos rfl, if_pos rfl, List.dropLast_cons_of_ne_nil (List.length_pos_iff.mp hdepth),
          ih (by rwa [List.length_dropLast])]
      · have hdown : goesDown step = true := by simpa [goesDown, hup] using hstay
        rw [if_neg hup, if_neg hup, List.cons_append, ih (by simpa using h.of_down hdown)]

end Path

/-! ## Candidates in a directory -/

theorem PathIndex.find?_under (p : String) (paths candidates : List String) :
    (candidates.map (Path.under p)).find? (ofList (paths.map (Path.under p))).contains =
      (candidates.find? (ofList paths).contains).map (Path.under p) := by
  have hcontains : (ofList (paths.map (Path.under p))).contains ∘ Path.under p =
      (ofList paths).contains := by
    funext path
    rw [Bool.eq_iff_iff, Function.comp_apply, contains_ofList, contains_ofList]
    exact List.mem_map_of_injective (Path.under_injective p)
  rw [List.find?_map, hcontains]

namespace Resolution

variable {p source : String} {dir parts : List String} {name specifier : String} {level : Nat}

theorem map_ofSegments_cons (hdir : dir ≠ []) (suffixes : List String) :
    suffixes.map (Path.ofSegments (p :: dir) ++ ·) =
      (suffixes.map (Path.ofSegments dir ++ ·)).map (Path.under p) := by
  rw [Path.ofSegments_cons hdir, List.map_map]
  exact List.map_congr_left fun suffix _ => Path.under_append p _ suffix

/-! ### Specifiers -/

/-- What a specifier denotes: a directory, or a file without what may be missing at its end. -/
def denoted (source specifier : String) : List String :=
  Path.walk (Path.directory source) (Text.split '/' specifier)

theorem specifierCandidates_of_dot (hdot : specifier.toList.head? = some '.') :
    specifierCandidates source specifier =
      if denoted source specifier = [] then []
      else specifierSuffixes.map (Path.ofSegments (denoted source specifier) ++ ·) := by
  rw [specifierCandidates, if_pos hdot, ← denoted]
  cases denoted source specifier <;> rfl

theorem denoted_under (hp : Path.IsSegment p) (hsource : Path.segments source ≠ [])
    (hstays : Path.StaysBelow (Path.directory source).length (Text.split '/' specifier)) :
    denoted (Path.under p source) specifier = p :: denoted source specifier := by
  rw [denoted, denoted, Path.directory_under hp hsource, Path.walk_cons hstays]

/-- Of the files that a directory stands for as a specifier, only its index files are in it. -/
theorem find?_directory_under (p : String) (paths : List String) :
    (specifierSuffixes.map (p ++ ·)).find? (PathIndex.ofList (paths.map (Path.under p))).contains =
      (["index.ts", "index.js"].find? (PathIndex.ofList paths).contains).map (Path.under p) := by
  have hbeside : ∀ suffix ∈ ["", ".ts", ".tsx", ".js", ".jsx"],
      ¬ (PathIndex.ofList (paths.map (Path.under p))).contains (p ++ suffix) = true := by
    intro suffix hsuffix hin
    obtain ⟨path, _, hpath⟩ := List.mem_map.mp (PathIndex.contains_ofList.mp hin)
    rw [Path.under, String.append_assoc, String.append_right_inj] at hpath
    have hslash : suffix.toList.head? = some '/' := by
      rw [← hpath, String.toList_append]
      rfl
    have hnone : ∀ suffix ∈ ["", ".ts", ".tsx", ".js", ".jsx"],
        suffix.toList.head? ≠ some '/' := by decide
    exact hnone suffix hsuffix hslash
  have hsuffixes : specifierSuffixes.map (p ++ ·) =
      ["", ".ts", ".tsx", ".js", ".jsx"].map (p ++ ·) ++
        ["index.ts", "index.js"].map (Path.under p) := by
    simp only [specifierSuffixes, List.map_cons, List.map_nil, Path.under, String.append_assoc,
      List.cons_append, List.nil_append]
    rfl
  rw [hsuffixes, List.find?_append, PathIndex.find?_under, List.find?_eq_none.mpr, Option.none_or]
  exact List.forall_mem_map.mpr hbeside

/-! ### Modules -/

/-- The directory that the dots of a module name lead to. -/
def climbed (source : String) (level : Nat) : List String :=
  (Path.directory source).take ((Path.directory source).length - (level - 1))

theorem moduleCandidates_eq (source name : String) (imported : Option String) :
    moduleCandidates source name imported =
      let (level, parts) := moduleParts name
      if parts = [] then (if level = 0 then [] else bareCandidates (climbed source level) imported)
      else namedCandidates level (climbed source level) parts := rfl

theorem level_ne_zero (h : name.toList.head? = some '.') : (moduleParts name).1 ≠ 0 := by
  cases hname : name.toList with
  | nil =>
    rw [hname] at h
    cases h
  | cons c cs =>
    rw [hname] at h
    cases h
    simp [moduleParts, hname]

theorem climbed_under (hp : Path.IsSegment p) (hsource : Path.segments source ≠ [])
    (hlevel : level ≤ (Path.directory source).length + 1) :
    climbed (Path.under p source) level = p :: climbed source level := by
  have hlength : (p :: Path.directory source).length - (level - 1) =
      (Path.directory source).length - (level - 1) + 1 := by
    rw [List.length_cons]
    omega
  rw [climbed, climbed, Path.directory_under hp hsource, hlength, List.take_succ_cons]

theorem namedCandidates_under (hlevel : level ≠ 0) (hparts : parts ≠ []) :
    namedCandidates level (p :: dir) parts =
      (namedCandidates level dir parts).map (Path.under p) := by
  have hfile : dir ++ parts ≠ [] := List.append_ne_nil_of_right_ne_nil _ hparts
  simp only [namedCandidates, hlevel, false_and, if_false, List.append_nil, List.cons_append,
    map_ofSegments_cons hfile]

theorem submoduleCandidates_under (imported : Option String) :
    submoduleCandidates (p :: dir) imported =
      (submoduleCandidates dir imported).map (Path.under p) := by
  cases imported with
  | none => rfl
  | some name =>
    have hfile : dir ++ [name] ≠ [] := List.append_ne_nil_of_right_ne_nil _ (List.cons_ne_nil _ _)
    simp only [submoduleCandidates, List.cons_append]
    split
    · rfl
    · exact map_ofSegments_cons hfile moduleSuffixes

/-- The root is a package like any other directory once it has a name. -/
theorem bareCandidates_under (imported : Option String) :
    bareCandidates (p :: dir) imported =
      (submoduleCandidates dir imported ++
        [if dir = [] then "__init__.py" else Path.ofSegments dir ++ packageFile]).map
          (Path.under p) := by
  rw [bareCandidates, if_neg (List.cons_ne_nil _ _), submoduleCandidates_under, List.map_append]
  congr 1
  split
  · next h =>
    subst h
    rw [List.map_cons, List.map_nil, Path.under, String.append_assoc]
    rfl
  · next h => exact map_ofSegments_cons h [packageFile]

end Resolution

/-! ## References in a directory -/

namespace Reference

open Resolution

/-- Whether a reference starts from the place of the file that makes it. -/
def IsRelative : Reference → Prop
  | specifier _ text => text.toList.head? = some '.'
  | module name _ => name.toList.head? = some '.'
  | package _ => False

instance : DecidablePred IsRelative
  | specifier _ text => inferInstanceAs (Decidable (text.toList.head? = some '.'))
  | module name _ => inferInstanceAs (Decidable (name.toList.head? = some '.'))
  | package _ => inferInstanceAs (Decidable False)

/-- Whether a relative reference never climbs above the root. -/
def StaysInside (source : String) : Reference → Prop
  | specifier _ text => Path.StaysBelow (Path.directory source).length (Text.split '/' text)
  | module name _ => (moduleParts name).1 ≤ (Path.directory source).length + 1
  | package _ => True

instance (source : String) : DecidablePred (StaysInside source)
  | specifier _ text => inferInstanceAs
      (Decidable (Path.StaysBelow (Path.directory source).length (Text.split '/' text)))
  | module name _ => inferInstanceAs
      (Decidable ((moduleParts name).1 ≤ (Path.directory source).length + 1))
  | package _ => inferInstanceAs (Decidable True)

/-- Whether a relative reference denotes the root itself: a specifier that ends there, or dots that
end there, unless the name that is imported from them is a module of the root. -/
def DenotesRoot (source : String) (ix : PathIndex) : Reference → Prop
  | specifier _ text => denoted source text = []
  | module name imported => (moduleParts name).2 = [] ∧
      climbed source (moduleParts name).1 = [] ∧
      (submoduleCandidates [] imported).find? ix.contains = none
  | package _ => False

instance (source : String) (ix : PathIndex) : DecidablePred (DenotesRoot source ix)
  | specifier _ text => inferInstanceAs (Decidable (denoted source text = []))
  | module name imported => inferInstanceAs (Decidable ((moduleParts name).2 = [] ∧
      climbed source (moduleParts name).1 = [] ∧
      (submoduleCandidates [] imported).find? ix.contains = none))
  | package _ => inferInstanceAs (Decidable False)

/-- The files that stand for a directory in which they are. -/
def indexFiles : Reference → List String
  | specifier .. => ["index.ts", "index.js"]
  | module .. => ["__init__.py"]
  | package _ => []

variable {p source : String} {paths : List String} {r : Reference}

theorem find?_candidates_under (hp : Path.IsSegment p) (hsource : Path.segments source ≠ [])
    (hr : r.IsRelative) (hinside : r.StaysInside source)
    (hroot : ¬ r.DenotesRoot source (.ofList paths)) :
    (r.candidates (Path.under p source) (.ofList (paths.map (Path.under p)))).find?
        (PathIndex.ofList (paths.map (Path.under p))).contains =
      ((r.candidates source (.ofList paths)).find? (PathIndex.ofList paths).contains).map
        (Path.under p) := by
  cases r with
  | specifier kind text =>
    have hdenoted := denoted_under hp hsource hinside
    have hdirectory : denoted source text ≠ [] := hroot
    rw [candidates, candidates, specifierCandidates_of_dot hr, specifierCandidates_of_dot hr,
      hdenoted, if_neg hdirectory, if_neg (List.cons_ne_nil _ _), map_ofSegments_cons hdirectory,
      PathIndex.find?_under]
  | module name imported =>
    have hlevel := level_ne_zero hr
    have hclimbed := climbed_under hp hsource hinside
    simp only [candidates, moduleCandidates_eq, hclimbed, if_neg hlevel]
    by_cases hparts : (moduleParts name).2 = []
    · rw [if_pos hparts, if_pos hparts, bareCandidates_under, PathIndex.find?_under, bareCandidates,
        List.find?_append, List.find?_append]
      by_cases hdir : climbed source (moduleParts name).1 = []
      · -- A module of the root is found, so it does not matter what else the dots denote.
        obtain ⟨found, hfound⟩ := Option.ne_none_iff_exists'.mp fun hnone =>
          hroot ⟨hparts, hdir, hnone⟩
        rw [hdir, hfound, Option.some_or, Option.some_or]
      · rw [if_neg hdir, if_neg hdir]
    · rw [if_neg hparts, if_neg hparts, namedCandidates_under hlevel hparts,
        PathIndex.find?_under]
  | package path => exact hr.elim

/-- An import that denotes the root leads nowhere; in a directory it leads to an index file. -/
theorem find?_candidates_root (hp : Path.IsSegment p) (hsource : Path.segments source ≠ [])
    (hr : r.IsRelative) (hinside : r.StaysInside source)
    (hroot : r.DenotesRoot source (.ofList paths)) :
    (r.candidates source (.ofList paths)).find? (PathIndex.ofList paths).contains = none ∧
      (r.candidates (Path.under p source) (.ofList (paths.map (Path.under p)))).find?
          (PathIndex.ofList (paths.map (Path.under p))).contains =
        (r.indexFiles.find? (PathIndex.ofList paths).contains).map (Path.under p) := by
  cases r with
  | specifier kind text =>
    have hdirectory : denoted source text = [] := hroot
    have hdenoted := denoted_under hp hsource hinside
    rw [hdirectory] at hdenoted
    rw [candidates, candidates, specifierCandidates_of_dot hr, specifierCandidates_of_dot hr,
      if_pos hdirectory, hdenoted, if_neg (List.cons_ne_nil _ _)]
    exact ⟨rfl, find?_directory_under p paths⟩
  | module name imported =>
    obtain ⟨hparts, hdir, hnone⟩ := hroot
    have hlevel := level_ne_zero hr
    have hclimbed := climbed_under hp hsource hinside
    simp only [candidates, moduleCandidates_eq, hclimbed, if_pos hparts, if_neg hlevel]
    rw [bareCandidates_under, PathIndex.find?_under, bareCandidates, hdir, if_pos rfl, if_pos rfl,
      List.append_nil, List.find?_append, hnone, Option.none_or]
    exact ⟨rfl, rfl⟩
  | package path => exact hr.elim

theorem resolve_under_eq_some_iff {found : List String} {target : String}
    (h : (r.candidates (Path.under p source) (.ofList (paths.map (Path.under p)))).find?
        (PathIndex.ofList (paths.map (Path.under p))).contains =
      (found.find? (PathIndex.ofList paths).contains).map (Path.under p)) :
    r.resolve (Path.under p source) (.ofList (paths.map (Path.under p))) = some target ↔
      ∃ path, (found.find? (PathIndex.ofList paths).contains = some path ∧
        (path = source → r.MayReturn)) ∧ Path.under p path = target := by
  rw [resolve_eq_some_iff, h, Option.map_eq_some_iff]
  constructor
  · rintro ⟨⟨path, hpath, rfl⟩, hreturns⟩
    exact ⟨path, ⟨hpath, fun heq => hreturns (by rw [heq])⟩, rfl⟩
  · rintro ⟨path, ⟨hpath, hreturns⟩, rfl⟩
    exact ⟨⟨path, hpath, rfl⟩, fun heq => hreturns (Path.under_injective p heq)⟩

/-- When a repository is moved into a directory, a relative import that stays inside it leads to the
moved path of where it led before, and nowhere if it led nowhere. Only an import that denotes the
root itself is changed by the move: it led nowhere, and then it leads to an index file of the
directory. -/
theorem resolve_moved (p source : String) (paths : List String) (r : Reference)
    (hp : Path.IsSegment p) (hsource : Path.segments source ≠ []) (hr : r.IsRelative)
    (hinside : r.StaysInside source) :
    (¬ r.DenotesRoot source (.ofList paths) →
      r.resolve (Path.under p source) (.ofList (paths.map (Path.under p))) =
        (r.resolve source (.ofList paths)).map (Path.under p)) ∧
    (r.DenotesRoot source (.ofList paths) →
      r.resolve source (.ofList paths) = none ∧
      ∀ target,
        r.resolve (Path.under p source) (.ofList (paths.map (Path.under p))) = some target ↔
          ∃ path, (r.indexFiles.find? (PathIndex.ofList paths).contains = some path ∧
            (path = source → r.MayReturn)) ∧ Path.under p path = target) := by
  refine ⟨fun hroot => Option.ext fun target => ?_, fun hroot => ?_⟩
  · rw [resolve_under_eq_some_iff (find?_candidates_under hp hsource hr hinside hroot),
      Option.map_eq_some_iff]
    simp only [resolve_eq_some_iff]
  · obtain ⟨hnone, hindex⟩ := find?_candidates_root hp hsource hr hinside hroot
    refine ⟨Option.eq_none_iff_forall_ne_some.mpr fun target htarget => ?_, fun target =>
      resolve_under_eq_some_iff hindex⟩
    rw [resolve_eq_some_iff, hnone] at htarget
    cases htarget.1

/-- A script imports a directory beside its own, a module imports another one from the package above
its own, and a script imports the root. -/
theorem resolve_moved_into_app :
    (specifier .imported "../lib").resolve "app/src/a.ts"
        (.ofList ["app/src/a.ts", "app/lib/index.ts"]) = some "app/lib/index.ts" ∧
      (module "..core" none).resolve "app/pkg/sub/m.py"
        (.ofList ["app/pkg/sub/m.py", "app/pkg/core.py"]) = some "app/pkg/core.py" ∧
      (specifier .imported "..").resolve "src/a.ts" (.ofList ["src/a.ts", "index.js"]) = none ∧
      (specifier .imported "..").resolve "app/src/a.ts"
        (.ofList ["app/src/a.ts", "app/index.js"]) = some "app/index.js" := by
  have happ : Path.IsSegment "app" := ⟨by decide, by decide⟩
  have hlib := (resolve_moved "app" "src/a.ts" ["src/a.ts", "lib/index.ts"]
    (specifier .imported "../lib") happ (by decide +kernel) (by decide +kernel)
    (by decide +kernel)).1 (by decide +kernel)
  have hcore := (resolve_moved "app" "pkg/sub/m.py" ["pkg/sub/m.py", "pkg/core.py"]
    (module "..core" none) happ (by decide +kernel) (by decide +kernel)
    (by decide +kernel)).1 (by decide +kernel)
  obtain ⟨hnone, hindex⟩ := (resolve_moved "app" "src/a.ts" ["src/a.ts", "index.js"]
    (specifier .imported "..") happ (by decide +kernel) (by decide +kernel)
    (by decide +kernel)).2 (by decide +kernel)
  refine ⟨hlib.trans (by decide +kernel), hcore.trans (by decide +kernel), hnone, ?_⟩
  exact (hindex "app/index.js").mpr ⟨"index.js", ⟨by decide +kernel, nofun⟩, rfl⟩

end Reference

end RepoSurvey
