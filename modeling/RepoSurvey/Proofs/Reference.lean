import Mathlib.Data.List.Find
import RepoSurvey.Family

/-!
# RepoSurvey.Proofs.Reference

What the content of a file refers to, of whichever family the file is. A reference stands for some
paths in a fixed order, its candidates, and leads to the first of them that the index has
(`Reference.resolve_eq_some_iff`). The edges of a file are its references resolved one by one
(`Family.edges_eq_filterMap`), so what holds of references holds of all families.
-/

namespace RepoSurvey

theorem PathIndex.contains_ofList {paths : List String} {path : String} :
    (ofList paths).contains path = true ↔ path ∈ paths := by
  simp [ofList, contains]

namespace Resolution

variable {source target : String} {ix : PathIndex}

/-! ## Candidates -/

/-- The paths that a relative specifier may stand for. -/
def specifierCandidates (source specifier : String) : List String :=
  if specifier.toList.head? = some '.' then
    match Path.walk (Path.directory source) (Text.split '/' specifier) with
    | [] => []
    | segments => specifierSuffixes.map (Path.ofSegments segments ++ ·)
  else []

theorem relative_eq_find? (source specifier : String) (ix : PathIndex) :
    relative source specifier ix = (specifierCandidates source specifier).find? ix.contains := by
  rw [relative, specifierCandidates]
  split
  · cases Path.walk (Path.directory source) (Text.split '/' specifier) <;> rfl
  · rfl

/-- The paths that a name imported from a directory may stand for as a module of it. -/
def submoduleCandidates (dir : List String) : Option String → List String
  | none => []
  | some name =>
    if name = "" then [] else moduleSuffixes.map (Path.ofSegments (dir ++ [name]) ++ ·)

/-- The paths that a module made of dots alone may stand for. -/
def bareCandidates (dir : List String) (imported : Option String) : List String :=
  submoduleCandidates dir imported ++ if dir = [] then [] else [Path.ofSegments dir ++ packageFile]

theorem bareModule_eq_find? (dir : List String) (imported : Option String) (ix : PathIndex) :
    bareModule dir imported ix = (bareCandidates dir imported).find? ix.contains := by
  have hpackage : (if dir = [] then none else ix.lookup (Path.ofSegments dir) [packageFile]) =
      (if dir = [] then [] else [Path.ofSegments dir ++ packageFile]).find? ix.contains := by
    split <;> rfl
  simp only [bareModule, hpackage, bareCandidates, List.find?_append]
  cases imported with
  | none => rfl
  | some name =>
    by_cases hname : name = ""
    · simp [submoduleCandidates, hname]
    · simp only [submoduleCandidates, hname, if_false, PathIndex.lookup]
      cases (moduleSuffixes.map (Path.ofSegments (dir ++ [name]) ++ ·)).find? ix.contains <;> rfl

/-- The paths that a module with a name may stand for. -/
def namedCandidates (level : Nat) (dir parts : List String) : List String :=
  moduleSuffixes.map (Path.ofSegments (dir ++ parts) ++ ·) ++
    if level = 0 ∧ dir ≠ [] then moduleSuffixes.map (Path.ofSegments parts ++ ·) else []

theorem namedModule_eq_find? (level : Nat) (dir parts : List String) (ix : PathIndex) :
    namedModule level dir parts ix = (namedCandidates level dir parts).find? ix.contains := by
  have hroot : (if level = 0 ∧ dir ≠ [] then ix.lookup (Path.ofSegments parts) moduleSuffixes
      else none) = (if level = 0 ∧ dir ≠ [] then
        moduleSuffixes.map (Path.ofSegments parts ++ ·) else []).find? ix.contains := by
    split <;> rfl
  rw [namedModule, namedCandidates, List.find?_append, hroot, PathIndex.lookup]
  cases (moduleSuffixes.map (Path.ofSegments (dir ++ parts) ++ ·)).find? ix.contains <;> rfl

/-- The paths that a module may stand for, seen from the importing file. -/
def moduleCandidates (source name : String) (imported : Option String) : List String :=
  let (level, parts) := moduleParts name
  let dir := Path.directory source
  let dir := dir.take (dir.length - (level - 1))
  if parts = [] then (if level = 0 then [] else bareCandidates dir imported)
  else namedCandidates level dir parts

theorem module_eq_some_iff {name : String} {imported : Option String} :
    module source name imported ix = some target ↔
      (moduleCandidates source name imported).find? ix.contains = some target ∧
        target ≠ source := by
  have hfound : ∀ found : Option String, (if found = some source then none else found) =
      some target ↔ found = some target ∧ target ≠ source := by
    intro found
    split
    · next h => simp [h, eq_comm]
    · next h =>
      constructor
      · rintro rfl
        exact ⟨rfl, fun heq => h (by rw [heq])⟩
      · exact And.left
  simp only [module, hfound, moduleCandidates]
  split
  · split
    · rfl
    · rw [bareModule_eq_find?]
  · rw [namedModule_eq_find?]

/-- The paths that a package may stand for: those of the other files that contain its path. -/
def packageCandidates (source path : String) (ix : PathIndex) : List String :=
  if path.toList.contains '.' then ix.paths.filter fun p => p != source && Text.contains p path
  else []

theorem firstContaining_eq_find? (path : String) :
    ix.firstContaining path (some source) =
      (ix.paths.filter fun p => p != source && Text.contains p path).find? ix.contains := by
  rw [PathIndex.firstContaining, List.find?_filter]
  refine List.find?_congr fun p hp => ?_
  have hmem : ix.contains p = true := by simpa [PathIndex.contains] using hp
  by_cases hsource : p = source <;> simp [hsource, hmem]

theorem package_eq_some_iff {path : String} :
    package source path ix = some target ↔
      (packageCandidates source path ix).find? ix.contains = some target ∧ target ≠ source := by
  rw [package, packageCandidates]
  split
  · rw [firstContaining_eq_find?]
    refine (and_iff_left_of_imp fun h => ?_).symm
    have hother := (List.mem_filter.mp (List.mem_of_find?_eq_some h)).2
    exact bne_iff_ne.mp (Bool.and_eq_true_iff.mp hother).1
  · simp

end Resolution

/-! ## References -/

/-- What a file refers to: a file by a specifier, a module and perhaps a name in it, or a package.
-/
inductive Reference where
  | specifier (kind : EdgeKind) (text : String)
  | module (name : String) (imported : Option String)
  | package (path : String)
deriving DecidableEq, Repr

namespace Reference

def kind : Reference → EdgeKind
  | specifier kind _ => kind
  | module .. => .imported
  | package _ => .static

/-- The paths that a reference may stand for, in the order in which they are tried. -/
def candidates (source : String) (ix : PathIndex) : Reference → List String
  | specifier _ text => Resolution.specifierCandidates source text
  | module name imported => Resolution.moduleCandidates source name imported
  | package path => Resolution.packageCandidates source path ix

def resolve (source : String) (ix : PathIndex) : Reference → Option String
  | specifier _ text => Resolution.relative source text ix
  | module name imported => Resolution.module source name imported ix
  | package path => Resolution.package source path ix

/-- Whether a reference may lead back to the file that makes it. -/
def MayReturn (r : Reference) : Prop := ∃ kind text, r = specifier kind text

/-- A reference leads to the first candidate that the index has; modules and packages are dropped
if that is the file itself. -/
theorem resolve_eq_some_iff {r : Reference} {source target : String} {ix : PathIndex} :
    r.resolve source ix = some target ↔
      (r.candidates source ix).find? ix.contains = some target ∧
        (target = source → r.MayReturn) := by
  cases r with
  | specifier kind text =>
    rw [resolve, candidates, Resolution.relative_eq_find?]
    exact (and_iff_left fun _ => ⟨kind, text, rfl⟩).symm
  | module name imported =>
    rw [resolve, candidates, Resolution.module_eq_some_iff]
    simp [MayReturn]
  | package path =>
    rw [resolve, candidates, Resolution.package_eq_some_iff]
    simp [MayReturn]

theorem contains_of_resolve {r : Reference} {source target : String} {ix : PathIndex}
    (h : r.resolve source ix = some target) : ix.contains target = true :=
  List.find?_some (resolve_eq_some_iff.mp h).1

end Reference

namespace Family

/-- The specifiers in the content of a script, as references of one kind. -/
def scriptReferences (kind : EdgeKind) (specifier : Scan String) (content : String) :
    List Reference :=
  ((Pattern.atWord specifier).find content.toList).map (.specifier kind)

/-- What the content of a file refers to, in the order in which its edges come. -/
def references (family : Family) (content : String) : List Reference :=
  match family with
  | script =>
    scriptReferences .imported Script.importSpecifier content ++
      scriptReferences .required Script.requireSpecifier content
  | python => (Python.imports.find content.toList).map fun i => .module i.module i.name
  | go => ((Pattern.atLine Go.importPaths).find content.toList).flatten.map .package
  | rust | none => []

theorem edges_eq_filterMap (family : Family) (path content : String) (ix : PathIndex) :
    family.edges path content ix = (family.references content).filterMap fun r =>
      (r.resolve path ix).map fun target => { source := path, target, kind := r.kind } := by
  cases family with
  | script =>
    simp only [edges, references, Script.edges, Script.edgesOf, scriptReferences,
      List.filterMap_append, List.filterMap_map, Function.comp_def, Reference.resolve,
      Reference.kind]
  | python =>
    simp only [edges, references, Python.edges, List.filterMap_map, Function.comp_def,
      Reference.resolve, Reference.kind]
  | go =>
    simp only [edges, references, Go.edges, List.filterMap_map, Function.comp_def,
      Reference.resolve, Reference.kind]
  | rust => rfl
  | none => rfl

theorem kind_ne_of_mem_references {family : Family} {content : String} {r : Reference}
    (h : r ∈ family.references content) : r.kind ≠ .workspace := by
  cases family with
  | script =>
    rcases List.mem_append.mp h with h | h
    · obtain ⟨text, _, rfl⟩ := List.mem_map.mp h
      exact nofun
    · obtain ⟨text, _, rfl⟩ := List.mem_map.mp h
      exact nofun
  | python =>
    obtain ⟨i, _, rfl⟩ := List.mem_map.mp h
    exact nofun
  | go =>
    obtain ⟨path, _, rfl⟩ := List.mem_map.mp h
    exact nofun
  | rust => cases h
  | none => cases h

theorem ofLanguage_eq_script_iff {language : String} :
    ofLanguage language = script ↔ language = "TypeScript" ∨ language = "JavaScript" := by
  unfold ofLanguage
  split <;> simp_all

/-- Only scripts hold specifiers. -/
theorem eq_script_of_mem_references {family : Family} {content text : String} {kind : EdgeKind}
    (h : .specifier kind text ∈ family.references content) : family = script := by
  cases family with
  | script => rfl
  | python => simp [references] at h
  | go => simp [references] at h
  | rust => cases h
  | none => cases h

end Family

end RepoSurvey
