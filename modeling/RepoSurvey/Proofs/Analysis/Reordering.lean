import RepoSurvey.Proofs.Analysis.Isolation
import RepoSurvey.Proofs.Analysis.Languages
import RepoSurvey.Proofs.Analysis.Targets
import RepoSurvey.Proofs.Reference.Index

/-!
# RepoSurvey.Proofs.Analysis.Reordering

What the order of a manifest does not matter to. The totals, the type of the project and the shares
of the languages are those of the files as a multiset. An entry depends on its own record alone, and
specifiers and modules only on which paths there are. What is left to the order is where packages
lead, which manifest declares the workspaces, and the first of equal languages (`run_reordered`).
-/

namespace RepoSurvey

/-! ## Lists in another order -/

theorem eraseDups_perm {α : Type} [DecidableEq α] {xs xs' : List α} (h : xs'.Perm xs) :
    xs'.eraseDups.Perm xs.eraseDups := by
  refine (List.perm_ext_iff_of_nodup (Graph.nodup_eraseDups _) (Graph.nodup_eraseDups _)).mpr ?_
  intro x
  rw [List.mem_eraseDups, List.mem_eraseDups, h.mem_iff]

/-- What stands under one key does not depend on the order, if the keys are distinct. -/
theorem filter_key_perm {α κ : Type} [DecidableEq κ] {key : α → κ} {xs xs' : List α}
    (h : xs'.Perm xs) (hdistinct : (xs'.map key).Nodup) (k : κ) :
    xs'.filter (fun x => key x = k) = xs.filter fun x => key x = k := by
  induction h with
  | nil => rfl
  | cons x _ ih =>
    rw [List.map_cons, List.nodup_cons] at hdistinct
    rw [List.filter_cons, List.filter_cons, ih hdistinct.2]
  | swap x y xs =>
    simp only [List.map_cons, List.nodup_cons, List.mem_cons, not_or] at hdistinct
    by_cases hx : key x = k
    · have hy : key y ≠ k := hx ▸ hdistinct.1.1
      simp only [List.filter_cons, hx, hy, decide_true, decide_false, if_true]
      rfl
    · simp only [List.filter_cons, hx, decide_false]
      rfl
  | trans h _ ih ih' =>
    exact (ih hdistinct).trans (ih' ((h.map key).nodup_iff.mp hdistinct))

theorem find?_key_perm {α κ : Type} [DecidableEq κ] {key : α → κ} {xs xs' : List α}
    (h : xs'.Perm xs) (hdistinct : (xs'.map key).Nodup) (k : κ) :
    xs'.find? (fun x => key x = k) = xs.find? fun x => key x = k := by
  rw [← List.head?_filter, ← List.head?_filter, filter_key_perm h hdistinct]

/-! ## What a snapshot says of one name -/

/-- Whether an edge is that of an import or a require. -/
def Edge.isImport (e : Edge) : Bool := e.kind = .imported ∨ e.kind = .required

namespace Snapshot

def share? (s : Snapshot) (language : String) : Option LanguageShare :=
  s.languages.find? (·.language = language)

def entry? (s : Snapshot) (path : String) : Option Entry := s.entries.find? (·.path = path)

/-- What the file at a path imports and requires, in order. -/
def importsOf (s : Snapshot) (path : String) : List Edge :=
  s.dependencies.filter fun e => e.isImport && e.source = path

/-- What two snapshots of the same records have in common, whatever the order of the records. -/
structure Reordered (s s' : Snapshot) : Prop where
  totalFiles : s'.totalFiles = s.totalFiles
  totalSize : s'.totalSize = s.totalSize
  totalSymbols : s'.totalSymbols = s.totalSymbols
  projectType : s'.projectType = s.projectType
  share? (language : String) : s'.share? language = s.share? language
  languages : s'.languages.Perm s.languages
  entries : s'.entries.Perm s.entries

end Snapshot

/-! ## The type of a project -/

namespace Project

theorem mentions_perm {paths paths' : List String} (h : paths'.Perm paths) (word : String) :
    mentions paths' word = mentions paths word := by
  rw [mentions, mentions, h.any_eq]

theorem type_perm {paths paths' : List String} (h : paths'.Perm paths)
    (options : AnalysisOptions) : type paths' options = type paths options := by
  have hnames := h.map Path.baseName
  simp only [type, mentions_perm h, hnames.contains_eq]

end Project

namespace Analysis

/-! ## Files in another order -/

theorem total_perm {ns ns' : List Int} (h : ns'.Perm ns) : total ns' = total ns := by
  induction h with
  | nil => rfl
  | cons n _ ih => rw [total, total, ih]
  | swap m n ns =>
    simp only [total]
    omega
  | trans _ _ ih ih' => exact ih.trans ih'

theorem languageShares_perm {es es' : List Entry} (h : es'.Perm es) :
    (languageShares es').Perm (languageShares es) := by
  have hlanguages := h.map (·.language)
  refine (List.mergeSort_perm _ _).trans (.trans ?_ (List.mergeSort_perm _ _).symm)
  simp only [hlanguages.count_eq, h.length_eq]
  exact (eraseDups_perm hlanguages).map _

theorem kept_perm (options : AnalysisOptions) {manifest manifest' : List Value}
    (h : manifest'.Perm manifest) :
    (kept options (manifest'.filterMap record?)).Perm
      (kept options (manifest.filterMap record?)) :=
  (h.filterMap record?).filter _

theorem entry_scan_congr (ix ix' : PathIndex) (packages packages' : Option Workspace.Packages)
    (f : SourceFile) : (scan ix' packages' f).entry = (scan ix packages f).entry := by
  rw [entry_scan, entry_scan]
  cases hcontent : f.content <;> simp only [scanContent, hcontent]

theorem reordered_snapshot {limits : Limits} {now : Int} {name : String}
    {options : AnalysisOptions} {workspace workspace' : Workspace.Info}
    {packages packages' : Option Workspace.Packages} {files files' : List SourceFile}
    (h : files'.Perm files) :
    (snapshot limits now name options workspace packages files).Reordered
      (snapshot limits now name options workspace' packages' files') := by
  have hentries : (files'.map fun f =>
      (scan (.ofList (files'.map (·.path))) packages' f).entry).Perm
        (files.map fun f => (scan (.ofList (files.map (·.path))) packages f).entry) := by
    have hscan := entry_scan_congr (.ofList (files.map (·.path)))
      (.ofList (files'.map (·.path))) packages packages'
    simp only [hscan]
    exact h.map _
  have hlanguages := languageShares_perm hentries
  exact {
    totalFiles := congrArg Int.ofNat hentries.length_eq
    totalSize := total_perm (hentries.map _)
    totalSymbols := total_perm (hentries.map _)
    projectType := Project.type_perm (h.map _) options
    share? := find?_key_perm hlanguages (ranks_languageShares _).once
    languages := hlanguages
    entries := hentries }

/-! ## Imports in another order -/

section Scan

variable {ix ix' : PathIndex} {packages packages' : Option Workspace.Packages}

theorem kind_of_mem_packageEdges {path : String} {e : Edge} (h : e ∈ packageEdges packages path) :
    e.source = path ∧ e.kind = .workspace := by
  obtain ⟨ps, _, hedge⟩ := mem_packageEdges h
  obtain ⟨hsource, hkind, _⟩ := Workspace.Packages.mem_of_mem_edges hedge
  exact ⟨hsource, hkind⟩

theorem source_of_mem_edges_scan {f : SourceFile} {e : Edge}
    (h : e ∈ (scan ix packages f).edges) : e.source = f.path := by
  rw [edges_scan] at h
  rcases List.mem_append.mp h with h | h
  · obtain ⟨r, _, he⟩ := List.mem_filterMap.mp h
    obtain ⟨target, _, rfl⟩ := Option.map_eq_some_iff.mp he
    rfl
  · exact (kind_of_mem_packageEdges h).1

/-- The imports of a file depend on the set of paths alone. -/
theorem imports_scan_congr (h : ∀ path, ix'.contains path = ix.contains path) (f : SourceFile) :
    (scan ix' packages' f).edges.filter Edge.isImport =
      (scan ix packages f).edges.filter Edge.isImport := by
  have hpackages : ∀ ps : Option Workspace.Packages,
      (packageEdges ps f.path).filter Edge.isImport = [] := by
    intro ps
    refine List.filter_eq_nil_iff.mpr fun e he => ?_
    simp [Edge.isImport, (kind_of_mem_packageEdges he).2]
  simp only [edges_scan, List.filter_append, hpackages, List.filter_filterMap]
  congr 1
  refine List.filterMap_congr fun r _ => ?_
  have hresolve : (∀ path, r ≠ .package path) → r.resolve f.path ix' = r.resolve f.path ix :=
    fun hr => Reference.resolve_eq_of_contains hr h
  cases r with
  | specifier kind text => rw [hresolve nofun]
  | module name imported => rw [hresolve nofun]
  | package path =>
    -- Packages may lead elsewhere, but they are no imports.
    have hstatic : ∀ target : Option String, (target.map fun target =>
        ({ source := f.path, target, kind := .static } : Edge)).filter Edge.isImport = none := by
      intro target
      cases target <;> rfl
    simp only [Reference.kind, hstatic]

theorem filter_edges_scan (files : List SourceFile) (path : String) :
    (files.flatMap fun f => (scan ix packages f).edges).filter
        (fun e => e.isImport && e.source = path) =
      (files.filter (·.path = path)).flatMap fun f =>
        (scan ix packages f).edges.filter Edge.isImport := by
  induction files with
  | nil => rfl
  | cons f files ih =>
    rw [List.flatMap_cons, List.filter_append, ih, List.filter_cons]
    by_cases hpath : f.path = path
    · have hfilter : (scan ix packages f).edges.filter (fun e => e.isImport && e.source = path) =
          (scan ix packages f).edges.filter Edge.isImport := by
        refine List.filter_congr fun e he => ?_
        simp [source_of_mem_edges_scan he, hpath]
      simp only [hfilter, hpath, decide_true, if_true, List.flatMap_cons]
    · have hfilter : (scan ix packages f).edges.filter (fun e => e.isImport && e.source = path) =
          [] := by
        refine List.filter_eq_nil_iff.mpr fun e he => ?_
        simp [source_of_mem_edges_scan he, hpath]
      simp [hfilter, hpath]

end Scan

/-! ## Runs in another order -/

section Run

variable {limits : Limits} {now : Int} {name options : Value} {manifest manifest' : List Value}
  {s s' : Snapshot} {c c' : Context}

theorem Context.ofManifest_perm (hperm : manifest'.Perm manifest)
    (hc : ofManifest manifest options = .ok c) (hc' : ofManifest manifest' options = .ok c') :
    c'.options = c.options ∧ ∀ path, c'.index.contains path = c.index.contains path := by
  obtain ⟨_, opts, hopts, _, _, packages, _, rfl⟩ := ofManifest_eq_ok_iff.mp hc
  obtain ⟨_, opts', hopts', _, _, packages', _, rfl⟩ := ofManifest_eq_ok_iff.mp hc'
  cases hopts'.symm.trans hopts
  have hpaths := (kept_perm opts hperm).map (·.path)
  refine ⟨rfl, fun path => ?_⟩
  rw [Bool.eq_iff_iff, PathIndex.contains_ofList, PathIndex.contains_ofList]
  exact hpaths.mem_iff

theorem Context.ofManifest_eq_ok_perm (hperm : manifest'.Perm manifest)
    (hdeep : ∀ v ∈ manifest, ∀ f, record? v = some f → ¬ Workspace.TooDeep f)
    (hc : ofManifest manifest options = .ok c) :
    ∃ workspace c', (Workspace.detect (manifest'.filterMap record?)).result = .ok workspace ∧
      ofManifest manifest' options = .ok c' := by
  obtain ⟨hreads, opts, hopts, _⟩ := ofManifest_eq_ok_iff.mp hc
  have hfiles : ∀ f ∈ manifest'.filterMap record?, ¬ Workspace.TooDeep f := by
    intro f hf
    obtain ⟨v, hv, hread⟩ := List.mem_filterMap.mp hf
    exact hdeep v (hperm.mem_iff.mp hv) f hread
  obtain ⟨workspace, hworkspace⟩ := Workspace.detect_eq_ok hfiles
  obtain ⟨packages, hpackages⟩ := linkedPackages_eq_ok workspace
    fun f (hf : f ∈ kept opts (manifest'.filterMap record?)) => hfiles f (List.mem_filter.mp hf).1
  exact ⟨workspace, _, hworkspace, ofManifest_eq_ok_iff.mpr
    ⟨fun v hv => hreads v (hperm.mem_iff.mp hv), opts, hopts, workspace, hworkspace, packages,
      hpackages, rfl⟩⟩

theorem importsOf_of_run (h : (run limits now name manifest options).result = .ok s)
    (hc : Context.ofManifest manifest options = .ok c)
    (hlimit : (c.edges manifest).length ≤ limits.maxDependencyEdges) (path : String) :
    s.importsOf path =
      ((kept c.options (manifest.filterMap record?)).filter (·.path = path)).flatMap fun f =>
        (scan c.index c.packages f).edges.filter Edge.isImport := by
  obtain ⟨d, hd, _, hdependencies⟩ := contributions_of_run h
  cases hd.symm.trans hc
  rw [Snapshot.importsOf, hdependencies, Graph.upTo_of_length_le hlimit, Context.edges_eq,
    List.flatMap_map, filter_edges_scan]

theorem importsOf_perm (hperm : manifest'.Perm manifest)
    (h : (run limits now name manifest options).result = .ok s)
    (h' : (run limits now name manifest' options).result = .ok s')
    (hc : Context.ofManifest manifest options = .ok c)
    (hc' : Context.ofManifest manifest' options = .ok c')
    (hdistinct : (manifest.filterMap (keptPath? c.options)).Nodup)
    (hlimit : (c.edges manifest).length ≤ limits.maxDependencyEdges)
    (hlimit' : (c'.edges manifest').length ≤ limits.maxDependencyEdges) (path : String) :
    s'.importsOf path = s.importsOf path := by
  obtain ⟨hoptions, hcontains⟩ := Context.ofManifest_perm hperm hc hc'
  have hkept := kept_perm c.options hperm
  have hdistinct' : ((kept c.options (manifest'.filterMap record?)).map (·.path)).Nodup := by
    rwa [(hkept.map _).nodup_iff, map_path_kept]
  rw [importsOf_of_run h hc hlimit, importsOf_of_run h' hc' hlimit', hoptions,
    filter_key_perm hkept hdistinct']
  exact List.flatMap_congr fun f _ => imports_scan_congr hcontains f

end Run

/-- If the records of a manifest are put in another order, the snapshot keeps its totals, the type
of its project, the share of each language and its entries, and every record keeps its imports. So
if no two kept records share a path, each path keeps its entry and, as long as no edges are cut off,
its imports in their order. The new order gives a snapshot at all, unless some package manifest is
nested too deeply. -/
theorem run_reordered (limits : Limits) (now : Int) (name options : Value)
    {manifest manifest' : List Value} (hperm : manifest'.Perm manifest) {s : Snapshot}
    (h : (run limits now name manifest options).result = .ok s) :
    ((∀ v ∈ manifest, ∀ f, record? v = some f → ¬ Workspace.TooDeep f) →
        ∃ s', (run limits now name manifest' options).result = .ok s') ∧
      ∃ c, Context.ofManifest manifest options = .ok c ∧
        ∀ s', (run limits now name manifest' options).result = .ok s' →
          s.Reordered s' ∧ ∃ c', Context.ofManifest manifest' options = .ok c' ∧
            (∀ v, (c'.edges [v]).filter Edge.isImport = (c.edges [v]).filter Edge.isImport) ∧
            ((manifest.filterMap (keptPath? c.options)).Nodup →
              (∀ path, s'.entry? path = s.entry? path) ∧
              ((c.edges manifest).length ≤ limits.maxDependencyEdges →
                (c'.edges manifest').length ≤ limits.maxDependencyEdges →
                ∀ path, s'.importsOf path = s.importsOf path)) := by
  obtain ⟨c, workspace, text, hc, hworkspace, htext, hs⟩ := run_eq_ok_iff_context.mp h
  refine ⟨fun hdeep => ?_, c, hc, fun s' h' => ?_⟩
  · obtain ⟨workspace', c', hworkspace', hc'⟩ := Context.ofManifest_eq_ok_perm hperm hdeep hc
    exact ⟨_, run_eq_ok_iff_context.mpr ⟨c', workspace', text, hc', hworkspace', htext, rfl⟩⟩
  obtain ⟨c', workspace', text', hc', hworkspace', htext', hs'⟩ := run_eq_ok_iff_context.mp h'
  cases htext'.symm.trans htext
  obtain ⟨hoptions, hcontains⟩ := Context.ofManifest_perm hperm hc hc'
  have hreordered : s.Reordered s' := by
    rw [hs, hs', hoptions]
    exact reordered_snapshot (kept_perm c.options hperm)
  refine ⟨hreordered, c', hc', fun v => ?_, fun hdistinct => ⟨?_, ?_⟩⟩
  · simp only [Context.edges_eq, hoptions, List.flatMap_map, List.filter_flatMap]
    exact List.flatMap_congr fun f _ => imports_scan_congr hcontains f
  · have hpaths : (s.entries.map (·.path)).Nodup := by
      rwa [hs, paths_snapshot, map_path_kept]
    exact find?_key_perm hreordered.entries
      ((hreordered.entries.map _).nodup_iff.mpr hpaths)
  · exact importsOf_perm hperm h h' hc hc' hdistinct

/-- The other script comes first, and the import is the same. -/
theorem run_reordered_scripts :
    ∃ s s', (run {} 0 (.text "r") [importsScript, scriptWith ""] .null).result = .ok s ∧
      (run {} 0 (.text "r") [scriptWith "", importsScript] .null).result = .ok s' ∧
      s.Reordered s' ∧ s'.importsOf "b.ts" = [⟨"b.ts", "a.ts", .imported⟩] := by
  have hbefore : (run {} 0 (.text "r") [importsScript, scriptWith ""] .null).result.toOption.map
      (·.dependencies) = some [⟨"b.ts", "a.ts", .imported⟩] := by decide +kernel
  have hedges : (Context.ofManifest [importsScript, scriptWith ""] .null).toOption.map
      (fun c => (c.options, (c.edges [importsScript, scriptWith ""]).length)) =
      some ({}, 1) := by decide +kernel
  have hedges' : (Context.ofManifest [scriptWith "", importsScript] .null).toOption.map
      (fun c => (c.edges [scriptWith "", importsScript]).length) = some 1 := by decide +kernel
  obtain ⟨s, hrun, hdependencies⟩ := Except.toOption_map_eq_some_iff.mp hbefore
  obtain ⟨hok, c, hc, hreordered⟩ := run_reordered {} 0 (.text "r") .null
    (List.Perm.swap importsScript (scriptWith "") []) hrun
  obtain ⟨s', hrun'⟩ := hok fun v hv f hf => by
    have hscripts : ∀ v ∈ [importsScript, scriptWith ""], ∀ f ∈ record? v,
        ¬ (Workspace.isRootCandidate f.path = true ∨
          Path.baseName f.path = Workspace.manifestName) := by decide +kernel
    exact fun hdeep => hscripts v hv f hf hdeep.1
  obtain ⟨hshared, c', hc', _, hdistinct⟩ := hreordered s' hrun'
  obtain ⟨_, hd, hlength⟩ := Except.toOption_map_eq_some_iff.mp hedges
  cases hd.symm.trans hc
  obtain ⟨hoptions, hlength⟩ := Prod.mk.inj hlength
  obtain ⟨_, hd', hlength'⟩ := Except.toOption_map_eq_some_iff.mp hedges'
  cases hd'.symm.trans hc'
  rw [hoptions] at hdistinct
  obtain ⟨_, himports⟩ := hdistinct (by decide +kernel)
  refine ⟨s, s', hrun, hrun', hshared, ?_⟩
  rw [himports (by rw [hlength]; decide) (by rw [hlength']; decide), Snapshot.importsOf,
    hdependencies]
  decide +kernel

end Analysis

end RepoSurvey
