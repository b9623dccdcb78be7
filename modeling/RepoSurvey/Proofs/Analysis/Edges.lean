import RepoSurvey.Proofs.Analysis
import RepoSurvey.Proofs.Except
import RepoSurvey.Proofs.Keyed
import RepoSurvey.Proofs.Reference

/-!
# RepoSurvey.Proofs.Analysis.Edges

Where the edges of a snapshot come from and where they lead. Whichever family of languages reads a
file, and whichever package manifests are linked, both ends of an edge are paths of kept records
(`edges_join_kept_paths`). Along the way a successful analysis is taken apart into its stages
(`run_eq_ok_iff`), so that nothing else about it needs the stages again.
-/

namespace RepoSurvey

/-! ## Edges of a file -/

/-- What every edge found in the content of a file has in common. -/
structure Edge.FoundIn (e : Edge) (path : String) (ix : PathIndex) : Prop where
  source_eq : e.source = path
  contains_target : ix.contains e.target = true
  kind_ne : e.kind ≠ .workspace

theorem Family.foundIn_of_mem_edges {family : Family} {path content : String} {ix : PathIndex}
    {e : Edge} (h : e ∈ family.edges path content ix) : e.FoundIn path ix := by
  rw [Family.edges_eq_filterMap] at h
  obtain ⟨r, hr, he⟩ := List.mem_filterMap.mp h
  obtain ⟨target, htarget, rfl⟩ := Option.map_eq_some_iff.mp he
  exact ⟨rfl, Reference.contains_of_resolve htarget, Family.kind_ne_of_mem_references hr⟩

/-! ## Edges of package manifests -/

namespace Workspace

/-- Whether a path is that of a package manifest with content among some files. -/
def IsManifest (files : List SourceFile) (path : String) : Prop :=
  Path.baseName path = manifestName ∧
    ∃ f ∈ files, f.path = path ∧ ∃ content, f.content = some content

namespace Packages

theorem isManifest_of_ofFiles {files : List SourceFile} {ps : Packages}
    (h : (ofFiles files).result = .ok ps) {m : String × Json.Members} (hm : m ∈ ps.manifests) :
    IsManifest files m.1 := by
  obtain ⟨_, rfl⟩ := ofFiles_eq_ok_iff.mp h
  obtain ⟨f, hf, hread⟩ := List.mem_filterMap.mp hm
  obtain ⟨hpath, hname, content, hcontent, _⟩ := manifest?_eq_some_iff.mp hread
  exact ⟨hpath ▸ hname, f, hf, hpath, content, hcontent⟩

theorem mem_of_mem_edges {ps : Packages} {path : String} {e : Edge} (h : e ∈ ps.edges path) :
    e.source = path ∧ e.kind = .workspace ∧ e.target ≠ path ∧
      (∃ m ∈ ps.manifests, m.1 = path) ∧ ∃ m ∈ ps.manifests, m.1 = e.target := by
  obtain ⟨name, hname, he⟩ := List.mem_filterMap.mp h
  have hsource : ∃ m ∈ ps.manifests, m.1 = path := by
    rw [dependencies] at hname
    split at hname
    · next ms hms =>
      exact ⟨(path, ms), List.mem_reverse.mp (Keyed.mem_of_lookup hms), rfl⟩
    · cases hname
  split at he
  · next target htarget =>
    obtain ⟨m, hm, rfl⟩ := Option.map_eq_some_iff.mp htarget
    split at he
    · cases he
    · next hne =>
      cases he
      exact ⟨rfl, rfl, hne, hsource, m, List.mem_of_find?_eq_some hm, rfl⟩
  · cases he

end Packages

end Workspace

namespace Analysis

/-! ## The stages of an analysis -/

theorem ofRecords_eq_ok_iff {limits : Limits} {now : Int} {name : Value}
    {options : AnalysisOptions} {files : List SourceFile} {s : Snapshot} :
    (ofRecords limits now name options files).result = .ok s ↔
      ∃ workspace packages text, (Workspace.detect files).result = .ok workspace ∧
        (linkedPackages workspace (kept options files)).result = .ok packages ∧
        (readName name).result = .ok text ∧
        s = snapshot limits now text options workspace packages (kept options files) := by
  simp only [ofRecords, Logged.bind_of_ok (Logged.result_notice _), apply_ite Logged.result,
    ite_self, Logged.bind_eq_ok_iff, Logged.result_pure, Except.ok.injEq]
  constructor
  · rintro ⟨workspace, hworkspace, packages, hpackages, text, htext, hs⟩
    exact ⟨workspace, packages, text, hworkspace, hpackages, htext, hs.symm⟩
  · rintro ⟨workspace, packages, text, hworkspace, hpackages, htext, hs⟩
    exact ⟨workspace, hworkspace, packages, hpackages, text, htext, hs.symm⟩

theorem readRecords_eq_ok_iff {vs : List Value} {position : Nat} {files : List SourceFile} :
    (readRecords position vs).result = .ok files ↔
      (∀ v ∈ vs, SourceFile.read? v ≠ none) ∧ files = vs.filterMap record? := by
  constructor
  · intro h
    have hreads : ∀ v ∈ vs, SourceFile.read? v ≠ none := by
      intro v hv hnone
      rw [readRecords_eq_error ⟨v, hv, hnone⟩ position] at h
      cases h
    rw [readRecords_eq_ok hreads position] at h
    exact ⟨hreads, (Except.ok.inj h).symm⟩
  · rintro ⟨hreads, rfl⟩
    exact readRecords_eq_ok hreads position

theorem run_eq_ok_iff {limits : Limits} {now : Int} {name : Value} {manifest : List Value}
    {options : Value} {s : Snapshot} :
    (run limits now name manifest options).result = .ok s ↔
      (∀ v ∈ manifest, SourceFile.read? v ≠ none) ∧
        ∃ opts, (readOptions options).result = .ok opts ∧
          (ofRecords limits now name opts (manifest.filterMap record?)).result = .ok s := by
  simp only [run, Logged.bind_eq_ok_iff, readRecords_eq_ok_iff, and_assoc, exists_and_left,
    exists_eq_left]

/-- A snapshot is made of the records that its options keep. -/
theorem exists_snapshot_of_run {limits : Limits} {now : Int} {name options : Value}
    {manifest : List Value} {opts : AnalysisOptions} {s : Snapshot}
    (hopts : (readOptions options).result = .ok opts)
    (h : (run limits now name manifest options).result = .ok s) :
    ∃ text workspace packages, s = snapshot limits now text opts workspace packages
      (kept opts (manifest.filterMap record?)) := by
  obtain ⟨_, opts', hopts', hrun⟩ := run_eq_ok_iff.mp h
  cases hopts.symm.trans hopts'
  obtain ⟨workspace, packages, text, _, _, _, hs⟩ := ofRecords_eq_ok_iff.mp hrun
  exact ⟨text, workspace, packages, hs⟩

/-! ## Scanned files -/

/-- What every edge of a snapshot has in common, given the files that were kept. -/
structure JoinsFiles (files : List SourceFile) (e : Edge) : Prop where
  source_mem : e.source ∈ files.map (·.path)
  target_mem : e.target ∈ files.map (·.path)
  source_content : ∃ f ∈ files, f.path = e.source ∧ ∃ content, f.content = some content
  workspace : e.kind = .workspace → e.source ≠ e.target ∧
    Path.baseName e.source = Workspace.manifestName ∧
    Path.baseName e.target = Workspace.manifestName

theorem joinsFiles_of_scanContent {files : List SourceFile} {language : String} {f : SourceFile}
    (hf : f ∈ files) {e : Edge}
    (h : e ∈ (scanContent (PathIndex.ofList (files.map (·.path))) language f).2) :
    JoinsFiles files e := by
  rw [scanContent] at h
  split at h
  · cases h
  · next content hcontent =>
    have hfound := Family.foundIn_of_mem_edges h
    exact {
      source_mem := hfound.source_eq ▸ List.mem_map_of_mem hf
      target_mem := PathIndex.contains_ofList.mp hfound.contains_target
      source_content := ⟨f, hf, hfound.source_eq.symm, content, hcontent⟩
      workspace := fun hkind => absurd hkind hfound.kind_ne }

theorem mem_packageEdges {packages : Option Workspace.Packages} {path : String} {e : Edge}
    (h : e ∈ packageEdges packages path) : ∃ ps, packages = some ps ∧ e ∈ ps.edges path := by
  cases packages with
  | none => cases h
  | some ps =>
    simp only [packageEdges] at h
    split at h
    · exact ⟨ps, rfl, h⟩
    · cases h

theorem joinsFiles_of_packageEdges {files : List SourceFile} {packages : Option Workspace.Packages}
    (hpackages : ∀ ps, packages = some ps → (Workspace.Packages.ofFiles files).result = .ok ps)
    {path : String} {e : Edge} (h : e ∈ packageEdges packages path) : JoinsFiles files e := by
  obtain ⟨ps, rfl, hedge⟩ := mem_packageEdges h
  obtain ⟨rfl, _, hne, ⟨m, hm, hsource⟩, m', hm', htarget⟩ :=
    Workspace.Packages.mem_of_mem_edges hedge
  obtain ⟨hname, f, hf, hpath, content, hcontent⟩ :=
    Workspace.Packages.isManifest_of_ofFiles (hpackages ps rfl) hm
  obtain ⟨hname', g, hg, hpath', _⟩ :=
    Workspace.Packages.isManifest_of_ofFiles (hpackages ps rfl) hm'
  rw [hsource] at hname hpath
  rw [htarget] at hname' hpath'
  exact {
    source_mem := hpath ▸ List.mem_map_of_mem hf
    target_mem := hpath' ▸ List.mem_map_of_mem hg
    source_content := ⟨f, hf, hpath, content, hcontent⟩
    workspace := fun _ => ⟨hne.symm, hname, hname'⟩ }

theorem joinsFiles_of_allEdges {files : List SourceFile} {packages : Option Workspace.Packages}
    (hpackages : ∀ ps, packages = some ps → (Workspace.Packages.ofFiles files).result = .ok ps)
    {e : Edge} (h : e ∈ allEdges packages files) : JoinsFiles files e := by
  obtain ⟨scanned, hscanned, he⟩ := List.mem_flatMap.mp h
  obtain ⟨f, hf, rfl⟩ := List.mem_map.mp hscanned
  rcases List.mem_append.mp he with he | he
  · exact joinsFiles_of_scanContent hf he
  · exact joinsFiles_of_packageEdges hpackages he

theorem ofFiles_of_linkedPackages {workspace : Workspace.Info} {files : List SourceFile}
    {packages : Option Workspace.Packages}
    (h : (linkedPackages workspace files).result = .ok packages) :
    ∀ ps, packages = some ps → (Workspace.Packages.ofFiles files).result = .ok ps := by
  rintro ps rfl
  rw [linkedPackages] at h
  split at h
  · obtain ⟨qs, hqs, h⟩ := Logged.bind_eq_ok_iff.mp h
    cases h
    exact hqs
  · cases h

/-! ## Snapshots -/

/-- Both ends of every edge are paths of the snapshot, so no edge touches an excluded path, and
every edge comes from a record with content. Edges between packages join the manifests of two
different packages. -/
theorem edges_join_kept_paths (limits : Limits) (now : Int) (name : Value) (manifest : List Value)
    (options : Value) {s : Snapshot}
    (h : (run limits now name manifest options).result = .ok s) :
    ∃ opts, (readOptions options).result = .ok opts ∧ ∀ e ∈ s.dependencies,
      e.source ∈ s.entries.map (·.path) ∧ e.target ∈ s.entries.map (·.path) ∧
        isExcluded (exclusions opts) e.source = false ∧
        isExcluded (exclusions opts) e.target = false ∧
        (∃ v ∈ manifest, ∃ f content, SourceFile.read? v = some (.ok f) ∧ f.path = e.source ∧
          f.content = some content) ∧
        (e.kind = .workspace → e.source ≠ e.target ∧
          Path.baseName e.source = Workspace.manifestName ∧
          Path.baseName e.target = Workspace.manifestName) := by
  obtain ⟨_, opts, hopts, hrun⟩ := run_eq_ok_iff.mp h
  obtain ⟨workspace, packages, text, _, hpackages, _, rfl⟩ := ofRecords_eq_ok_iff.mp hrun
  refine ⟨opts, hopts, fun e he => ?_⟩
  have hjoins := joinsFiles_of_allEdges (ofFiles_of_linkedPackages hpackages)
    (List.mem_of_mem_take he)
  have hkept : ∀ path ∈ (kept opts (manifest.filterMap record?)).map (·.path),
      isExcluded (exclusions opts) path = false := by
    intro path hpath
    obtain ⟨f, hf, rfl⟩ := List.mem_map.mp hpath
    simpa using (List.mem_filter.mp hf).2
  rw [paths_snapshot]
  refine ⟨hjoins.source_mem, hjoins.target_mem, hkept _ hjoins.source_mem,
    hkept _ hjoins.target_mem, ?_, hjoins.workspace⟩
  obtain ⟨f, hf, hpath, content, hcontent⟩ := hjoins.source_content
  obtain ⟨v, hv, hread⟩ := List.mem_filterMap.mp (List.mem_filter.mp hf).1
  obtain ⟨d, hd, hok⟩ := Option.bind_eq_some_iff.mp hread
  exact ⟨v, hv, f, content, by rw [hd, Decoded.toOption_eq_some.mp hok], hpath, hcontent⟩

/-- The manifests of two packages, the first of which depends on the second. -/
def twoPackages : List Value := [
  .object [("name", .text "package.json"),
    ("content", .text
      "\x7b\"workspaces\":[\"b\"],\"dependencies\":\x7b\"b\":\"1\"\x7d\x7d")],
  .object [("name", .text "b/package.json"), ("content", .text "\x7b\"name\":\"b\"\x7d")]]

/-- The edge between the two manifests joins paths that no pattern excludes. -/
theorem edges_join_two_packages :
    ∃ s, (run {} 0 (.text "r") twoPackages .null).result = .ok s ∧
      ⟨"package.json", "b/package.json", .workspace⟩ ∈ s.dependencies ∧
      "package.json" ∈ s.entries.map (·.path) ∧ "b/package.json" ∈ s.entries.map (·.path) := by
  have hedges : (run {} 0 (.text "r") twoPackages .null).result.toOption.map (·.dependencies) =
      some [⟨"package.json", "b/package.json", .workspace⟩] := by decide +kernel
  obtain ⟨s, hrun, hdependencies⟩ := Except.toOption_map_eq_some_iff.mp hedges
  have hmem : ⟨"package.json", "b/package.json", .workspace⟩ ∈ s.dependencies := by
    rw [hdependencies]
    exact List.mem_cons_self
  obtain ⟨_, _, hjoins⟩ := edges_join_kept_paths {} 0 (.text "r") twoPackages .null hrun
  exact ⟨s, hrun, hmem, (hjoins _ hmem).1, (hjoins _ hmem).2.1⟩

end Analysis

end RepoSurvey
