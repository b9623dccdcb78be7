import RepoSurvey.Proofs.Analysis.Isolation
import RepoSurvey.Proofs.Analysis.Targets
import RepoSurvey.Proofs.Reference.Index
import RepoSurvey.Proofs.Sublist

/-!
# RepoSurvey.Proofs.Analysis.Insertion

What one more record does to the edges of the others. Its path may take over references that led
elsewhere, or give a place to references that led nowhere. But every reference that led somewhere
still does, and unless the record may be a package manifest the links between packages stay. So the
old edges are all still there, up to the path that some of them lead to now (`run_inserted`).
-/

namespace RepoSurvey

/-! ## Edges that stay -/

/-- Whether an edge is a given one still, or that one with a path as its new target. -/
def Edge.Persists (path : String) (e e' : Edge) : Prop := e' = e ∨ e' = { e with target := path }

instance (path : String) : Std.Refl (Edge.Persists path) := ⟨fun _ => .inl rfl⟩

namespace Analysis

theorem filter_insert {α : Type} (p : α → Bool) {x : α} (h : p x = false) (front back : List α) :
    (front ++ x :: back).filter p = (front ++ back).filter p := by
  rw [List.filter_append, List.filter_append, List.filter_cons_of_neg (by simp [h])]

theorem records_insert {w : Value} {f : SourceFile} (hw : record? w = some f)
    (front back : List Value) : (front ++ w :: back).filterMap record? =
      front.filterMap record? ++ f :: back.filterMap record? := by
  rw [List.filterMap_append, List.filterMap_cons_some hw]

theorem detect_insert {w : Value} {f : SourceFile} (hw : record? w = some f)
    (hpath : Workspace.isRootCandidate f.path = false) (front back : List Value) :
    Workspace.detect ((front ++ w :: back).filterMap record?) =
      Workspace.detect ((front ++ back).filterMap record?) := by
  rw [records_insert hw, ← Workspace.detect_filter,
    filter_insert (fun g : SourceFile => Workspace.isRootCandidate g.path) hpath,
    Workspace.detect_filter, List.filterMap_append]

theorem kept_append (options : AnalysisOptions) (front back : List SourceFile) :
    kept options (front ++ back) = kept options front ++ kept options back :=
  List.filter_append front back

theorem kept_cons (options : AnalysisOptions) (f : SourceFile) (files : List SourceFile) :
    kept options (f :: files) = kept options files ∨
      kept options (f :: files) = f :: kept options files := by
  cases hf : isExcluded (exclusions options) f.path with
  | true => exact .inl (List.filter_cons_of_neg (by simp [hf]))
  | false => exact .inr (List.filter_cons_of_pos (by simp [hf]))

theorem linkedPackages_insert {f : SourceFile} (h : Workspace.isRootCandidate f.path = false)
    (workspace : Workspace.Info) (options : AnalysisOptions) (front back : List SourceFile) :
    linkedPackages workspace (kept options (front ++ f :: back)) =
      linkedPackages workspace (kept options (front ++ back)) := by
  have hname : decide (Path.baseName f.path = Workspace.manifestName) = false := by
    refine decide_eq_false fun hname => ?_
    rw [Workspace.isRootCandidate_of_baseName hname] at h
    cases h
  have hfiles : Workspace.Packages.ofFiles (kept options (front ++ f :: back)) =
      Workspace.Packages.ofFiles (kept options (front ++ back)) := by
    rw [kept_append, kept_append]
    rcases kept_cons options f back with hkept | hkept
    · rw [hkept]
    · rw [hkept, ← Workspace.Packages.ofFiles_filter,
        filter_insert (fun g : SourceFile => Path.baseName g.path = Workspace.manifestName) hname,
        Workspace.Packages.ofFiles_filter]
  rw [linkedPackages, linkedPackages, hfiles]

/-! ## Contexts with one more path -/

namespace Context

/-- Whether a value is the record of a file that is kept. -/
def Keeps (c : Context) (v : Value) (g : SourceFile) : Prop :=
  record? v = some g ∧ isExcluded (exclusions c.options) g.path = false

theorem scan?_eq_some_iff {c : Context} {v : Value} {x : Scanned} :
    c.scan? v = some x ↔ ∃ g, c.Keeps v g ∧ scan c.index c.packages g = x := by
  simp only [scan?, Keeps, Option.map_eq_some_iff, Option.filter_eq_some_iff, Bool.not_eq_true']

theorem contains_of_keeps {manifest : List Value} {options : Value} {c : Context}
    (hc : ofManifest manifest options = .ok c) {v : Value} (hv : v ∈ manifest) {g : SourceFile}
    (hg : c.Keeps v g) : c.index.contains g.path = true := by
  obtain ⟨_, opts, _, _, _, packages, _, rfl⟩ := ofManifest_eq_ok_iff.mp hc
  have hrecord := List.mem_filterMap.mpr ⟨v, hv, hg.1⟩
  have hkept : g ∈ kept opts (manifest.filterMap record?) :=
    List.mem_filter.mpr ⟨hrecord, by simp [hg.2]⟩
  exact PathIndex.contains_ofList.mpr (List.mem_map_of_mem hkept)

/-- How a context is related to one with one more path in its index. -/
structure Extended (c c' : Context) (path : String) : Prop where
  options_eq : c'.options = c.options
  packages_eq : c'.packages = c.packages
  resolve (r : Reference) {source : String} (h : c.index.contains source = true) :
    r.resolve source c'.index = r.resolve source c.index ∨
      r.resolve source c'.index = some path

theorem ofManifest_insert {front back : List Value} {w : Value} {f : SourceFile} {options : Value}
    (hw : record? w = some f) (hpath : Workspace.isRootCandidate f.path = false) {c : Context}
    (hc : ofManifest (front ++ back) options = .ok c) :
    ∃ c', ofManifest (front ++ w :: back) options = .ok c' ∧ c.Extended c' f.path := by
  obtain ⟨hreads, opts, hopts, workspace, hworkspace, packages, hpackages, rfl⟩ :=
    ofManifest_eq_ok_iff.mp hc
  have hreads' : ∀ v ∈ front ++ w :: back, SourceFile.read? v ≠ none := by
    simp only [List.forall_mem_append, List.forall_mem_cons] at hreads ⊢
    exact ⟨hreads.1, by simp [record?_eq_some_iff.mp hw], hreads.2⟩
  rw [List.filterMap_append] at hpackages
  refine ⟨_, ofManifest_eq_ok_iff.mpr ⟨hreads', opts, hopts, workspace, ?_, packages, ?_, rfl⟩, ?_⟩
  · rw [detect_insert hw hpath, hworkspace]
  · rw [records_insert hw, linkedPackages_insert hpath, hpackages]
  · refine ⟨rfl, rfl, fun r source hsource => ?_⟩
    simp only [records_insert hw, List.filterMap_append, kept_append, List.map_append] at hsource ⊢
    rcases kept_cons opts f (back.filterMap record?) with hkept | hkept
    · exact .inl (by rw [hkept])
    · rw [hkept, List.map_cons]
      exact Reference.resolve_insert r (PathIndex.contains_ofList.mp hsource)

namespace Extended

variable {c c' : Context} {path : String} {v : Value}

theorem keeps_iff (h : c.Extended c' path) {g : SourceFile} : c'.Keeps v g ↔ c.Keeps v g := by
  rw [Keeps, Keeps, h.options_eq]

theorem resolve_some (h : c.Extended c' path) {r : Reference} {source target : String}
    (hsource : c.index.contains source = true) (hr : r.resolve source c.index = some target) :
    ∃ target', r.resolve source c'.index = some target' ∧
      (target' = target ∨ target' = path) := by
  rcases h.resolve r hsource with hsame | hnew
  · exact ⟨target, hsame.trans hr, .inl rfl⟩
  · exact ⟨path, hnew, .inr rfl⟩

/-- The edges of one value stay, and there may be more between them. -/
theorem edges (h : c.Extended c' path)
    (hv : ∀ g, c.Keeps v g → c.index.contains g.path = true) :
    List.SublistForall₂ (Edge.Persists path) (c.edges [v]) (c'.edges [v]) := by
  cases hscan : c.scan? v with
  | none =>
    have hnone : c.edges [v] = [] := by rw [Context.edges, List.filterMap_cons_none hscan]; rfl
    rw [hnone]
    exact .nil
  | some x =>
    obtain ⟨g, hg, rfl⟩ := scan?_eq_some_iff.mp hscan
    have hscan' := scan?_eq_some_iff.mpr ⟨g, h.keeps_iff.mpr hg, rfl⟩
    have hedges : ∀ {d : Context} {y : Scanned}, d.scan? v = some y → d.edges [v] = y.edges := by
      intro d y hy
      rw [Context.edges, List.filterMap_cons_some hy]
      exact List.append_nil _
    rw [hedges hscan, hedges hscan', edges_scan, edges_scan, h.packages_eq]
    refine sublistForall₂_append (sublistForall₂_filterMap fun r _ e he => ?_)
      (List.Sublist.refl _).sublistForall₂
    obtain ⟨target, htarget, rfl⟩ := Option.map_eq_some_iff.mp he
    obtain ⟨target', htarget', hcases⟩ := h.resolve_some (hv g hg) htarget
    refine ⟨_, Option.map_eq_some_iff.mpr ⟨target', htarget', rfl⟩, ?_⟩
    rcases hcases with rfl | rfl
    · exact .inl rfl
    · exact .inr rfl

theorem edges_of_forall (h : c.Extended c' path) {vs : List Value}
    (hvs : ∀ v ∈ vs, ∀ g, c.Keeps v g → c.index.contains g.path = true) :
    List.SublistForall₂ (Edge.Persists path) (c.edges vs) (c'.edges vs) := by
  induction vs with
  | nil => exact .nil
  | cons v vs ih =>
    rw [← List.singleton_append, edges_append, edges_append]
    exact sublistForall₂_append (h.edges (hvs v List.mem_cons_self))
      (ih fun w hw => hvs w (List.mem_cons_of_mem v hw))

theorem edges_insert (h : c.Extended c' path) {front back : List Value} (w : Value)
    (hcontains : ∀ v ∈ front ++ back, ∀ g, c.Keeps v g → c.index.contains g.path = true) :
    List.SublistForall₂ (Edge.Persists path) (c.edges (front ++ back))
      (c'.edges (front ++ w :: back)) := by
  rw [List.forall_mem_append] at hcontains
  rw [List.append_cons, List.append_assoc, edges_append, edges_append, edges_append]
  refine sublistForall₂_append (h.edges_of_forall hcontains.1) ?_
  exact sublistForall₂_append .nil (h.edges_of_forall hcontains.2)

end Extended

end Context

/-! ## Runs with one more record -/

section Run

variable {limits : Limits} {now : Int} {name : Value} {manifest : List Value} {options : Value}
  {s : Snapshot} {c : Context}

theorem mem_paths_iff (h : (run limits now name manifest options).result = .ok s)
    (hc : Context.ofManifest manifest options = .ok c) {path : String} :
    path ∈ s.paths ↔ c.index.contains path = true := by
  obtain ⟨d, workspace, text, hd, _, _, rfl⟩ := run_eq_ok_iff_context.mp h
  cases hd.symm.trans hc
  obtain ⟨_, opts, _, _, _, packages, _, rfl⟩ := Context.ofManifest_eq_ok_iff.mp hc
  rw [PathIndex.contains_ofList, Snapshot.paths, paths_snapshot]

end Run

/-- If one more record is put into a manifest, at whatever place, and its path does not end like
that of a package manifest, then whatever a record referred to it still refers to, up to references
that now lead to the new path. So each record contributes at least the edges it contributed before,
in their order, and as long as no edges are cut off the snapshot has them all. -/
theorem run_inserted (limits : Limits) (now : Int) (name options : Value) (front back : List Value)
    {w : Value} {f : SourceFile} (hw : record? w = some f)
    (hpath : Workspace.isRootCandidate f.path = false) {s : Snapshot}
    (h : (run limits now name (front ++ back) options).result = .ok s) :
    ∃ s' c c', (run limits now name (front ++ w :: back) options).result = .ok s' ∧
      Context.ofManifest (front ++ back) options = .ok c ∧
      Context.ofManifest (front ++ w :: back) options = .ok c' ∧
      (∀ v ∈ front ++ back,
        (∀ g, c.Keeps v g → ∀ (r : Reference) target, r.resolve g.path c.index = some target →
          ∃ target' ∈ s'.paths, r.resolve g.path c'.index = some target' ∧
            (target' = target ∨ target' = f.path)) ∧
        List.SublistForall₂ (Edge.Persists f.path) (c.edges [v]) (c'.edges [v]) ∧
        (c.edges [v]).length ≤ (c'.edges [v]).length) ∧
      ((c'.edges (front ++ w :: back)).length ≤ limits.maxDependencyEdges →
        s.dependencies = c.edges front ++ c.edges back ∧
        s'.dependencies = c'.edges front ++ c'.edges [w] ++ c'.edges back ∧
        List.SublistForall₂ (Edge.Persists f.path) s.dependencies s'.dependencies) := by
  obtain ⟨c, workspace, text, hc, hworkspace, htext, _⟩ := run_eq_ok_iff_context.mp h
  obtain ⟨c', hc', hextended⟩ := Context.ofManifest_insert hw hpath hc
  obtain ⟨s', hrun'⟩ : ∃ s', (run limits now name (front ++ w :: back) options).result = .ok s' :=
    ⟨_, run_eq_ok_iff_context.mpr
      ⟨c', workspace, text, hc', by rw [detect_insert hw hpath, hworkspace], htext, rfl⟩⟩
  have hcontains : ∀ v ∈ front ++ back, ∀ g, c.Keeps v g → c.index.contains g.path = true :=
    fun v hv g => Context.contains_of_keeps hc hv
  refine ⟨s', c, c', hrun', hc, hc', fun v hv => ⟨fun g hg r target hr => ?_, ?_, ?_⟩, ?_⟩
  · obtain ⟨target', htarget', hcases⟩ := hextended.resolve_some (hcontains v hv g hg) hr
    have hpaths := (mem_paths_iff hrun' hc').mpr (Reference.contains_of_resolve htarget')
    exact ⟨target', hpaths, htarget', hcases⟩
  · exact hextended.edges (hcontains v hv)
  · exact length_le_of_sublistForall₂ (hextended.edges (hcontains v hv))
  · intro hlimit
    have hedges := hextended.edges_insert w hcontains
    have hlength := length_le_of_sublistForall₂ hedges
    obtain ⟨d, hd, _, hdependencies⟩ := contributions_of_run h
    cases hd.symm.trans hc
    rw [Graph.upTo_of_length_le (by omega)] at hdependencies
    have hdependencies' := (contributions_around hrun' hc').2 hlimit
    refine ⟨by rw [hdependencies, Context.edges_append], hdependencies', ?_⟩
    rwa [hdependencies, hdependencies', ← Context.edges_append, ← Context.edges_append,
      ← List.append_cons]

/-- A script that imports a library by its name. -/
def importsLibrary : Value :=
  .object [("name", .text "a.ts"), ("content", .text "import './lib'")]

def libraryIndex : Value := .object [("name", .text "lib/index.ts")]

/-- A file of that name beside the script. -/
def libraryFile : Value := .object [("name", .text "lib.ts")]

/-- The file takes the import over, and the import still is one dependency. -/
theorem run_inserted_takes_over :
    ∃ s s', (run {} 0 (.text "r") [importsLibrary, libraryIndex] .null).result = .ok s ∧
      (run {} 0 (.text "r") [importsLibrary, libraryFile, libraryIndex] .null).result = .ok s' ∧
      s.dependencies = [⟨"a.ts", "lib/index.ts", .imported⟩] ∧
      s'.dependencies = [⟨"a.ts", "lib.ts", .imported⟩] ∧
      List.SublistForall₂ (Edge.Persists "lib.ts") s.dependencies s'.dependencies := by
  have hbefore : (run {} 0 (.text "r") [importsLibrary, libraryIndex] .null).result.toOption.map
      (·.dependencies) = some [⟨"a.ts", "lib/index.ts", .imported⟩] := by decide +kernel
  have hafter : (Context.ofManifest [importsLibrary, libraryFile, libraryIndex]
      .null).toOption.map (fun c => (c.edges [importsLibrary], c.edges [libraryFile],
        c.edges [libraryIndex])) = some ([⟨"a.ts", "lib.ts", .imported⟩], [], []) := by
    decide +kernel
  obtain ⟨s, hrun, hdependencies⟩ := Except.toOption_map_eq_some_iff.mp hbefore
  obtain ⟨s', _, c, hrun', _, hc, _, hcap⟩ := run_inserted {} 0 (.text "r") .null
    [importsLibrary] [libraryIndex] (w := libraryFile) rfl (by decide +kernel) hrun
  obtain ⟨_, hc', hedges⟩ := Except.toOption_map_eq_some_iff.mp hafter
  cases hc'.symm.trans hc
  simp only [Prod.mk.injEq] at hedges
  obtain ⟨hfront, hown, hback⟩ := hedges
  rw [List.append_cons, Context.edges_append, Context.edges_append, hfront, hown, hback] at hcap
  obtain ⟨_, hdependencies', hpersist⟩ := hcap (by decide)
  exact ⟨s, s', hrun, hrun', hdependencies, hdependencies', hpersist⟩

end Analysis

end RepoSurvey
