import RepoSurvey.Proofs.Analysis.Types

/-!
# RepoSurvey.Proofs.Analysis.Targets

Where the dependencies of a snapshot lead. Imports are decided by path alone: an import leads to the
first of its candidates that is the path of an entry, be the entry a file or a directory. So a
directory can stand in front of a file (`directory_before_index`), no type of a record ever matters
(`imports_lead_to_first_path`), and scripts are the files that can depend on themselves
(`self_dependencies`).
-/

namespace RepoSurvey

/-- What a file refers to in its content. -/
def SourceFile.references (f : SourceFile) : List Reference :=
  match f.content with
  | none => []
  | some content =>
    (Family.ofLanguage (Language.ofExtension (Path.extension f.path))).references content

namespace Snapshot

def paths (s : Snapshot) : List String := s.entries.map (·.path)

/-- Whether there is an entry of a type at a path. -/
def Holds (s : Snapshot) (type : EntryType) (path : String) : Prop :=
  ∃ e ∈ s.entries, e.path = path ∧ e.entryType = type

/-- Whether a path is the first of some candidates that is the path of an entry. -/
def FirstOf (s : Snapshot) (candidates : List String) (target : String) : Prop :=
  target ∈ s.paths ∧
    ∃ before after, candidates = before ++ target :: after ∧ ∀ p ∈ before, p ∉ s.paths

/-- Whether a file refers to a path: the path is the first candidate of the reference, and where
that is the file itself the reference is a specifier. -/
structure Refers (s : Snapshot) (f : SourceFile) (r : Reference) (target : String) : Prop where
  mem : r ∈ f.references
  first : s.FirstOf (r.candidates f.path (.ofList s.paths)) target
  returns : target = f.path → r.MayReturn

theorem find?_eq_some_iff {s : Snapshot} {candidates : List String} {target : String} :
    candidates.find? (PathIndex.ofList s.paths).contains = some target ↔
      s.FirstOf candidates target := by
  simp only [List.find?_eq_some_iff_append, PathIndex.contains_ofList, FirstOf, Bool.not_eq_true',
    ← Bool.not_eq_true]

theorem Holds.mem_paths {s : Snapshot} {type : EntryType} {path : String} (h : s.Holds type path) :
    path ∈ s.paths := by
  obtain ⟨e, he, rfl, _⟩ := h
  exact List.mem_map_of_mem he

theorem holds_iff {s : Snapshot} {type : EntryType} {path : String} :
    s.Holds type path ↔ (path, type) ∈ s.entries.map fun e => (e.path, e.entryType) := by
  simp only [Holds, List.mem_map, Prod.mk.injEq]

theorem holds_of_mem_paths {s : Snapshot} {path : String} (h : path ∈ s.paths) :
    s.Holds .file path ∨ s.Holds .directory path := by
  obtain ⟨e, he, rfl⟩ := List.mem_map.mp h
  cases htype : e.entryType with
  | file => exact .inl ⟨e, he, rfl, htype⟩
  | directory => exact .inr ⟨e, he, rfl, htype⟩

/-- A file among the candidates is enough, as long as no directory is tried up to it. -/
theorem exists_firstOf_of_file {s : Snapshot} {before : List String} {p : String}
    (hfile : s.Holds .file p) (hdirs : ∀ q ∈ before ++ [p], ¬ s.Holds .directory q)
    (after : List String) :
    ∃ target ∈ before ++ [p], s.FirstOf (before ++ p :: after) target ∧ s.Holds .file target := by
  have hfound : ((before ++ [p]).find? (PathIndex.ofList s.paths).contains).isSome := by
    rw [List.find?_isSome]
    exact ⟨p, by simp, PathIndex.contains_ofList.mpr hfile.mem_paths⟩
  obtain ⟨target, htarget⟩ := Option.isSome_iff_exists.mp hfound
  have hmem := List.mem_of_find?_eq_some htarget
  have hfirst : (before ++ p :: after).find? (PathIndex.ofList s.paths).contains = some target := by
    rw [List.append_cons, List.find?_append, htarget]
    rfl
  have hfirst' := find?_eq_some_iff.mp hfirst
  refine ⟨target, hmem, hfirst', ?_⟩
  exact (holds_of_mem_paths hfirst'.1).resolve_right (hdirs target hmem)

end Snapshot

namespace Analysis

/-! ## References and edges -/

/-- Whether a file is a record of a manifest that no pattern excludes. -/
def Kept (options : AnalysisOptions) (manifest : List Value) (f : SourceFile) : Prop :=
  (∃ v ∈ manifest, SourceFile.read? v = some (.ok f)) ∧
    isExcluded (exclusions options) f.path = false

theorem record?_eq_some_iff {v : Value} {f : SourceFile} :
    record? v = some f ↔ SourceFile.read? v = some (.ok f) := by
  rw [record?, Option.bind_eq_some_iff]
  constructor
  · rintro ⟨d, hd, hok⟩
    rw [hd, Decoded.toOption_eq_some.mp hok]
  · intro h
    exact ⟨_, h, rfl⟩

theorem mem_kept_iff {options : AnalysisOptions} {manifest : List Value} {f : SourceFile} :
    f ∈ kept options (manifest.filterMap record?) ↔ Kept options manifest f := by
  simp only [kept, Kept, List.mem_filter, List.mem_filterMap, record?_eq_some_iff,
    Bool.not_eq_true']

theorem edges_scanContent (ix : PathIndex) (f : SourceFile) :
    (scanContent ix (Language.ofExtension (Path.extension f.path)) f).2 =
      f.references.filterMap fun r => (r.resolve f.path ix).map fun target =>
        { source := f.path, target, kind := r.kind } := by
  cases hcontent : f.content with
  | none => simp [scanContent, SourceFile.references, hcontent]
  | some content =>
    simp only [scanContent, SourceFile.references, hcontent]
    exact Family.edges_eq_filterMap _ f.path content ix

theorem edges_scan (ix : PathIndex) (packages : Option Workspace.Packages) (f : SourceFile) :
    (scan ix packages f).edges =
      (f.references.filterMap fun r => (r.resolve f.path ix).map fun target =>
        { source := f.path, target, kind := r.kind }) ++ packageEdges packages f.path := by
  rw [← edges_scanContent]
  rfl

theorem mem_allEdges_iff {packages : Option Workspace.Packages} {files : List SourceFile}
    {e : Edge} :
    e ∈ allEdges packages files ↔
      (∃ f ∈ files, f.path = e.source ∧ ∃ r ∈ f.references, r.kind = e.kind ∧
        r.resolve f.path (.ofList (files.map (·.path))) = some e.target) ∨
      ∃ f ∈ files, e ∈ packageEdges packages f.path := by
  have hscan : ∀ f : SourceFile,
      e ∈ (scan (.ofList (files.map (·.path))) packages f).edges ↔
        (f.path = e.source ∧ ∃ r ∈ f.references, r.kind = e.kind ∧
          r.resolve f.path (.ofList (files.map (·.path))) = some e.target) ∨
        e ∈ packageEdges packages f.path := by
    intro f
    rw [edges_scan, List.mem_append, List.mem_filterMap]
    refine or_congr ?_ Iff.rfl
    constructor
    · rintro ⟨r, hr, he⟩
      obtain ⟨target, htarget, rfl⟩ := Option.map_eq_some_iff.mp he
      exact ⟨rfl, r, hr, rfl, htarget⟩
    · rintro ⟨hsource, r, hr, hkind, htarget⟩
      refine ⟨r, hr, ?_⟩
      rw [htarget, hsource, hkind]
      rfl
  simp only [allEdges, List.mem_flatMap, List.mem_map, exists_exists_and_eq_and, hscan,
    and_or_left, exists_or]

/-! ## References and dependencies -/

/-- A full list of dependencies has as many as the limit allows. -/
theorem mem_upTo_or_full {α : Type} {limit : Int} {xs : List α} {x : α} (h : x ∈ xs) :
    x ∈ Graph.upTo limit xs ∨ limit ≤ (Graph.upTo limit xs).length := by
  rw [Graph.upTo]
  rcases Nat.lt_or_ge (if limit < 0 then xs.length + limit else limit).toNat xs.length with
    hlt | hge
  · right
    rw [List.length_take]
    split at hlt <;> omega
  · left
    rwa [List.take_of_length_le hge]

section Run

variable {limits : Limits} {now : Int} {name : Value} {manifest : List Value} {options : Value}
  {s : Snapshot}

theorem dependencies_of_run (h : (run limits now name manifest options).result = .ok s) :
    ∃ opts packages, (readOptions options).result = .ok opts ∧
      s.paths = (kept opts (manifest.filterMap record?)).map (·.path) ∧
      s.dependencies = Graph.upTo limits.maxDependencyEdges
        (allEdges packages (kept opts (manifest.filterMap record?))) := by
  obtain ⟨_, opts, hopts, hrun⟩ := run_eq_ok_iff.mp h
  obtain ⟨workspace, packages, text, _, _, _, rfl⟩ := ofRecords_eq_ok_iff.mp hrun
  exact ⟨opts, packages, hopts, paths_snapshot .., rfl⟩

/-- Every dependency that no package manifest declares comes of a reference in a kept file, and a
reference that leads somewhere is a dependency unless the list of dependencies is full. -/
theorem dependencies_refer (h : (run limits now name manifest options).result = .ok s) :
    ∃ opts, (readOptions options).result = .ok opts ∧
      (∀ e ∈ s.dependencies, e.kind ≠ .workspace ∨ e.source = e.target →
        ∃ f r, Kept opts manifest f ∧ f.path = e.source ∧ r.kind = e.kind ∧
          s.Refers f r e.target) ∧
      ∀ f r target, Kept opts manifest f → s.Refers f r target →
        ⟨f.path, target, r.kind⟩ ∈ s.dependencies ∨
          limits.maxDependencyEdges ≤ s.dependencies.length := by
  obtain ⟨opts, packages, hopts, hpaths, hdependencies⟩ := dependencies_of_run h
  refine ⟨opts, hopts, fun e he himport => ?_, fun f r target hf hr => ?_⟩
  · rw [hdependencies] at he
    rcases mem_allEdges_iff.mp (List.mem_of_mem_take he) with hcontent | ⟨f, _, hpackage⟩
    · obtain ⟨f, hf, hsource, r, hr, hkind, htarget⟩ := hcontent
      rw [← hpaths, Reference.resolve_eq_some_iff, Snapshot.find?_eq_some_iff] at htarget
      exact ⟨f, r, mem_kept_iff.mp hf, hsource, hkind, hr, htarget.1, htarget.2⟩
    · -- A package manifest links itself to other packages only.
      obtain ⟨ps, _, hedge⟩ := mem_packageEdges hpackage
      obtain ⟨hsource, hkind, hne, _⟩ := Workspace.Packages.mem_of_mem_edges hedge
      rcases himport with himport | himport
      · exact absurd hkind himport
      · exact absurd (himport.symm.trans hsource) hne
  · rw [hdependencies]
    refine mem_upTo_or_full (mem_allEdges_iff.mpr (.inl ?_))
    refine ⟨f, mem_kept_iff.mpr hf, rfl, r, hr.mem, rfl, ?_⟩
    rw [← hpaths, Reference.resolve_eq_some_iff, Snapshot.find?_eq_some_iff]
    exact ⟨hr.first, hr.returns⟩

end Run

/-! ## Directories -/

/-- Imports are decided by path alone. Each leads to the first of its candidates that is the path of
an entry, so it leads to a file if a file is among its candidates and no directory is tried up to
that file, and to a directory only where that comes first. Manifests that differ in the types of
their records alone have the same dependencies. -/
theorem imports_lead_to_first_path (limits : Limits) (now : Int) (name : Value)
    (manifest : List Value) (options : Value) {s : Snapshot}
    (h : (run limits now name manifest options).result = .ok s) :
    ∃ opts, (readOptions options).result = .ok opts ∧
      (∀ e ∈ s.dependencies, e.kind ≠ .workspace →
        ∃ f r, Kept opts manifest f ∧ f.path = e.source ∧ r.kind = e.kind ∧
          s.Refers f r e.target) ∧
      (∀ f r before p after, Kept opts manifest f → r ∈ f.references →
        r.candidates f.path (.ofList s.paths) = before ++ p :: after → s.Holds .file p →
        (∀ q ∈ before ++ [p], ¬ s.Holds .directory q) →
        ∃ target ∈ before ++ [p], s.Holds .file target ∧
          s.FirstOf (r.candidates f.path (.ofList s.paths)) target ∧
          (⟨f.path, target, r.kind⟩ ∈ s.dependencies ∨ target = f.path ∧ ¬ r.MayReturn ∨
            limits.maxDependencyEdges ≤ s.dependencies.length)) ∧
      ∀ manifest', List.Forall₂ Retyped manifest manifest' →
        ∃ s', (run limits now name manifest' options).result = .ok s' ∧
          s'.dependencies = s.dependencies := by
  obtain ⟨opts, hopts, hrefer, hleads⟩ := dependencies_refer h
  refine ⟨opts, hopts, fun e he hkind => hrefer e he (.inl hkind), ?_,
    fun manifest' hmanifest => dependencies_retyped hmanifest h⟩
  intro f r before p after hf hr hcandidates hfile hdirs
  obtain ⟨target, hmem, hfirst, htarget⟩ :=
    Snapshot.exists_firstOf_of_file hfile hdirs after
  rw [← hcandidates] at hfirst
  refine ⟨target, hmem, htarget, hfirst, ?_⟩
  by_cases hself : target = f.path ∧ ¬ r.MayReturn
  · exact .inr (.inl hself)
  · have hreturns : target = f.path → r.MayReturn := fun heq => by_contra fun hr => hself ⟨heq, hr⟩
    rcases hleads f r target hf ⟨hr, hfirst, hreturns⟩ with hdep | hfull
    · exact .inl hdep
    · exact .inr (.inr hfull)

/-- A script that imports a directory by its name, and the index file of that directory. -/
def importsDirectory : List Value := [
  .object [("name", .text "src/a.ts"), ("content", .text "import './lib'")],
  .object [("name", .text "src/lib"), ("type", .text "directory")],
  .object [("name", .text "src/lib/index.ts")]]

/-- The import leads to the directory although its index file is among the candidates. -/
theorem directory_before_index :
    ∃ s, (run {} 0 (.text "r") importsDirectory .null).result = .ok s ∧
      ⟨"src/a.ts", "src/lib", .imported⟩ ∈ s.dependencies ∧ s.Holds .directory "src/lib" ∧
      s.Holds .file "src/lib/index.ts" ∧
      "src/lib/index.ts" ∈ Resolution.specifierCandidates "src/a.ts" "./lib" := by
  have hparts : (run {} 0 (.text "r") importsDirectory .null).result.toOption.map
      (fun s => (s.dependencies, s.entries.map fun e => (e.path, e.entryType))) =
      some ([⟨"src/a.ts", "src/lib", .imported⟩], [("src/a.ts", .file), ("src/lib", .directory),
        ("src/lib/index.ts", .file)]) := by decide +kernel
  obtain ⟨s, hrun, hs⟩ := Except.toOption_map_eq_some_iff.mp hparts
  obtain ⟨hdependencies, hentries⟩ := Prod.mk.inj hs
  refine ⟨s, hrun, ?_, ?_, ?_, by decide +kernel⟩
  · rw [hdependencies]
    exact List.mem_cons_self
  · rw [Snapshot.holds_iff, hentries]
    decide
  · rw [Snapshot.holds_iff, hentries]
    decide

/-- A script that imports a file without its extension, and a directory with a later extension. -/
def importsFile : List Value := [
  .object [("name", .text "a.ts"), ("content", .text "import './lib'")],
  .object [("name", .text "lib.js"), ("type", .text "directory")],
  .object [("name", .text "lib.ts")]]

/-- The import leads to the file, which is tried before the directory. -/
theorem file_before_directory :
    ∃ s, (run {} 0 (.text "r") importsFile .null).result = .ok s ∧ s.Holds .directory "lib.js" ∧
      "lib.js" ∈ Resolution.specifierCandidates "a.ts" "./lib" ∧
      ⟨"a.ts", "lib.ts", .imported⟩ ∈ s.dependencies := by
  have hparts : (run {} 0 (.text "r") importsFile .null).result.toOption.map
      (fun s => (s.dependencies.length, s.entries.map fun e => (e.path, e.entryType))) =
      some (1, [("a.ts", .file), ("lib.js", .directory), ("lib.ts", .file)]) := by decide +kernel
  obtain ⟨s, hrun, hs⟩ := Except.toOption_map_eq_some_iff.mp hparts
  obtain ⟨hlength, hentries⟩ := Prod.mk.inj hs
  obtain ⟨opts, hopts, _, hfile, _⟩ :=
    imports_lead_to_first_path {} 0 (.text "r") importsFile .null hrun
  cases hopts
  have hcandidates : Resolution.specifierCandidates "a.ts" "./lib" =
      ["lib"] ++ "lib.ts" :: ["lib.tsx", "lib.js", "lib.jsx", "lib/index.ts", "lib/index.js"] := by
    decide +kernel
  obtain ⟨target, htarget, hholds, _, hdep⟩ := hfile
    { path := "a.ts", content := some "import './lib'" } (.specifier .imported "./lib")
    ["lib"] "lib.ts" ["lib.tsx", "lib.js", "lib.jsx", "lib/index.ts", "lib/index.js"]
    ⟨⟨_, List.mem_cons_self, rfl⟩, rfl⟩ (by decide +kernel) hcandidates
    (by rw [Snapshot.holds_iff, hentries]; decide)
    (by simp only [Snapshot.holds_iff, hentries]; decide)
  have hlib : target = "lib.ts" := by
    rw [Snapshot.holds_iff, hentries] at hholds
    simp at htarget hholds
    rcases htarget with rfl | rfl
    · simp at hholds
    · rfl
  subst hlib
  refine ⟨s, hrun, by rw [Snapshot.holds_iff, hentries]; decide, by decide +kernel, ?_⟩
  rcases hdep with hdep | ⟨hself, _⟩ | hfull
  · exact hdep
  · exact absurd hself (by decide)
  · rw [hlength] at hfull
    exact absurd hfull (by decide)

/-! ## Files that depend on themselves -/

theorem language_of_specifier {f : SourceFile} {kind : EdgeKind} {text : String}
    (h : Reference.specifier kind text ∈ f.references) :
    Language.ofExtension (Path.extension f.path) = "TypeScript" ∨
      Language.ofExtension (Path.extension f.path) = "JavaScript" := by
  rw [SourceFile.references] at h
  split at h
  · cases h
  · exact Family.ofLanguage_eq_script_iff.mp (Family.eq_script_of_mem_references h)

/-- A file depends on itself exactly if it is a script and one of its specifiers leads back to it;
a list of dependencies that is full may have left such a dependency out. Modules, packages and
package manifests never lead back. -/
theorem self_dependencies (limits : Limits) (now : Int) (name : Value) (manifest : List Value)
    (options : Value) {s : Snapshot} (h : (run limits now name manifest options).result = .ok s) :
    ∃ opts, (readOptions options).result = .ok opts ∧
      (∀ e ∈ s.dependencies, e.source = e.target →
        ∃ f text, Kept opts manifest f ∧ f.path = e.source ∧
          (Language.ofExtension (Path.extension f.path) = "TypeScript" ∨
            Language.ofExtension (Path.extension f.path) = "JavaScript") ∧
          Reference.specifier e.kind text ∈ f.references ∧
          s.FirstOf (Resolution.specifierCandidates f.path text) f.path) ∧
      ∀ f kind text, Kept opts manifest f → Reference.specifier kind text ∈ f.references →
        s.FirstOf (Resolution.specifierCandidates f.path text) f.path →
        ⟨f.path, f.path, kind⟩ ∈ s.dependencies ∨
          limits.maxDependencyEdges ≤ s.dependencies.length := by
  obtain ⟨opts, hopts, hrefer, hleads⟩ := dependencies_refer h
  refine ⟨opts, hopts, fun e he hself => ?_, fun f kind text hf hmem hfirst => ?_⟩
  · obtain ⟨f, r, hf, hsource, hkind, hr⟩ := hrefer e he (.inr hself)
    have htarget : e.target = f.path := by rw [← hself, hsource]
    obtain ⟨kind, text, rfl⟩ := hr.returns htarget
    have hfirst := hr.first
    rw [htarget] at hfirst
    cases hkind
    exact ⟨f, text, hf, hsource, language_of_specifier hr.mem, hr.mem, hfirst⟩
  · exact hleads f (.specifier kind text) f.path hf ⟨hmem, hfirst, fun _ => ⟨kind, text, rfl⟩⟩

/-- A script that imports itself. -/
def importsItself : List Value := [
  .object [("name", .text "a.ts"), ("content", .text "import './a'")]]

/-- The script depends on itself, by the specifier that leads back to it. -/
theorem script_on_itself :
    ∃ s, (run {} 0 (.text "r") importsItself .null).result = .ok s ∧
      ⟨"a.ts", "a.ts", .imported⟩ ∈ s.dependencies ∧
      ∃ (f : SourceFile) (text : String), f.path = "a.ts" ∧
        Reference.specifier .imported text ∈ f.references ∧
        s.FirstOf (Resolution.specifierCandidates "a.ts" text) "a.ts" := by
  have hedges : (run {} 0 (.text "r") importsItself .null).result.toOption.map (·.dependencies) =
      some [⟨"a.ts", "a.ts", .imported⟩] := by decide +kernel
  obtain ⟨s, hrun, hdependencies⟩ := Except.toOption_map_eq_some_iff.mp hedges
  have hmem : ⟨"a.ts", "a.ts", .imported⟩ ∈ s.dependencies := by
    rw [hdependencies]
    exact List.mem_cons_self
  obtain ⟨_, _, hself, _⟩ := self_dependencies {} 0 (.text "r") importsItself .null hrun
  obtain ⟨f, text, _, hpath, _, href, hfirst⟩ := hself _ hmem rfl
  rw [hpath] at hfirst
  exact ⟨s, hrun, hmem, f, text, hpath, href, hfirst⟩

end Analysis

end RepoSurvey
