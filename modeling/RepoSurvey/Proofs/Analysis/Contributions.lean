import RepoSurvey.Proofs.Analysis.Paths

/-!
# RepoSurvey.Proofs.Analysis.Contributions

What each value of a manifest adds to a snapshot. All that a file shares with the others is the
context it is scanned in: the options, the paths that an import can lead to, and the linked
packages. In a given context the entries and the edges of a snapshot are those of the single values,
one after the other (`contributions_of_run`).
-/

namespace RepoSurvey.Analysis

/-- What the files of a manifest are scanned in. -/
structure Context where
  options : AnalysisOptions
  index : PathIndex
  packages : Option Workspace.Packages

namespace Context

/-- The context that a manifest makes for its own files. -/
def ofManifest (manifest : List Value) (options : Value) : Except Failure Context := do
  let files ← (readRecords 0 manifest).result
  let options ← (readOptions options).result
  let workspace ← (Workspace.detect files).result
  let packages ← (linkedPackages workspace (kept options files)).result
  pure ⟨options, .ofList ((kept options files).map (·.path)), packages⟩

/-- The scan of a value, if that is a record that is kept. -/
def scan? (c : Context) (v : Value) : Option Scanned :=
  ((record? v).filter fun f => !isExcluded (exclusions c.options) f.path).map
    (scan c.index c.packages)

/-- The entries that some values add to a snapshot. -/
def entries (c : Context) (vs : List Value) : List Entry := (vs.filterMap c.scan?).map (·.entry)

/-- The edges that some values add to a snapshot, before these are limited in number. -/
def edges (c : Context) (vs : List Value) : List Edge := (vs.filterMap c.scan?).flatMap (·.edges)

theorem entries_append (c : Context) (vs ws : List Value) :
    c.entries (vs ++ ws) = c.entries vs ++ c.entries ws := by
  simp only [entries, List.filterMap_append, List.map_append]

theorem edges_append (c : Context) (vs ws : List Value) :
    c.edges (vs ++ ws) = c.edges vs ++ c.edges ws := by
  simp only [edges, List.filterMap_append, List.flatMap_append]

theorem filterMap_scan? (c : Context) (vs : List Value) :
    vs.filterMap c.scan? =
      (kept c.options (vs.filterMap record?)).map (scan c.index c.packages) := by
  rw [kept, List.filter_filterMap, List.map_filterMap]
  rfl

theorem entries_eq (c : Context) (vs : List Value) :
    c.entries vs = (kept c.options (vs.filterMap record?)).map fun f =>
      (scan c.index c.packages f).entry := by
  rw [entries, filterMap_scan?, List.map_map]
  rfl

theorem edges_eq (c : Context) (vs : List Value) :
    c.edges vs = ((kept c.options (vs.filterMap record?)).map (scan c.index c.packages)).flatMap
      (·.edges) := by
  rw [edges, filterMap_scan?]

theorem ofManifest_eq_ok_iff {manifest : List Value} {options : Value} {c : Context} :
    ofManifest manifest options = .ok c ↔
      (∀ v ∈ manifest, SourceFile.read? v ≠ none) ∧
        ∃ opts, (readOptions options).result = .ok opts ∧
        ∃ workspace, (Workspace.detect (manifest.filterMap record?)).result = .ok workspace ∧
        ∃ packages, (linkedPackages workspace (kept opts (manifest.filterMap record?))).result =
            .ok packages ∧
          ⟨opts, .ofList ((kept opts (manifest.filterMap record?)).map (·.path)), packages⟩ =
            c := by
  simp only [ofManifest, Except.bind_eq_ok_iff, readRecords_eq_ok_iff, and_assoc, exists_and_left,
    exists_eq_left, pure, Except.pure, Except.ok.injEq]

end Context

section Run

variable {limits : Limits} {now : Int} {name : Value} {manifest : List Value} {options : Value}
  {s : Snapshot}

theorem run_eq_ok_iff_context :
    (run limits now name manifest options).result = .ok s ↔
      ∃ c workspace text, Context.ofManifest manifest options = .ok c ∧
        (Workspace.detect (manifest.filterMap record?)).result = .ok workspace ∧
        (readName name).result = .ok text ∧
        s = snapshot limits now text c.options workspace c.packages
          (kept c.options (manifest.filterMap record?)) := by
  simp only [run_eq_ok_iff, ofRecords_eq_ok_iff, Context.ofManifest_eq_ok_iff]
  constructor
  · rintro ⟨hreads, opts, hopts, workspace, packages, text, hworkspace, hpackages, htext, hs⟩
    exact ⟨_, workspace, text,
      ⟨hreads, opts, hopts, workspace, hworkspace, packages, hpackages, rfl⟩, hworkspace, htext, hs⟩
  · rintro ⟨c, workspace, text, ⟨hreads, opts, hopts, workspace', hworkspace', packages, hpackages,
      rfl⟩, hworkspace, htext, hs⟩
    rw [hworkspace] at hworkspace'
    cases hworkspace'
    exact ⟨hreads, opts, hopts, workspace, packages, text, hworkspace, hpackages, htext, hs⟩

/-- The entries and the edges of a snapshot are those that the values of its manifest add in their
context, in the order of the manifest; of the edges there may be too many. -/
theorem contributions_of_run (h : (run limits now name manifest options).result = .ok s) :
    ∃ c, Context.ofManifest manifest options = .ok c ∧ s.entries = c.entries manifest ∧
      s.dependencies = Graph.upTo limits.maxDependencyEdges (c.edges manifest) := by
  obtain ⟨c, workspace, text, hc, _, _, rfl⟩ := run_eq_ok_iff_context.mp h
  obtain ⟨_, opts, _, _, _, packages, _, rfl⟩ := Context.ofManifest_eq_ok_iff.mp hc
  refine ⟨_, hc, ?_, ?_⟩
  · rw [Context.entries_eq]
    rfl
  · rw [Context.edges_eq]
    rfl

/-- The same for one value among others, as long as no edges are cut off. -/
theorem contributions_around {front back : List Value} {v : Value} {c : Context}
    (h : (run limits now name (front ++ v :: back) options).result = .ok s)
    (hc : Context.ofManifest (front ++ v :: back) options = .ok c) :
    s.entries = c.entries front ++ c.entries [v] ++ c.entries back ∧
      ((c.edges (front ++ v :: back)).length ≤ limits.maxDependencyEdges →
        s.dependencies = c.edges front ++ c.edges [v] ++ c.edges back) := by
  obtain ⟨_, hc', hentries, hdependencies⟩ := contributions_of_run h
  cases hc'.symm.trans hc
  constructor
  · rw [hentries, List.append_cons, Context.entries_append, Context.entries_append]
  · intro hlimit
    rw [hdependencies, Graph.upTo_of_length_le hlimit, List.append_cons, Context.edges_append,
      Context.edges_append]

end Run

end RepoSurvey.Analysis
