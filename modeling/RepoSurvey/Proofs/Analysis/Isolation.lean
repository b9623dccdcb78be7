import RepoSurvey.Proofs.Analysis.Contributions

/-!
# RepoSurvey.Proofs.Analysis.Isolation

What the content of one file reaches. Contents are looked at by the scan of the file itself, and
besides that only in files that may be package manifests and in the readme file at the root. So if
another file is edited, all others keep their entries and their edges, and the snapshot as a whole
changes in its number of symbols alone (`content_isolated`).
-/

namespace RepoSurvey

/-! ## What is consulted -/

namespace Workspace

theorem detect_filter (files : List SourceFile) :
    detect (files.filter fun f => isRootCandidate f.path) = detect files := by
  simp only [detect, List.filter_filter, Bool.and_self]

theorem Packages.ofFiles_filter (files : List SourceFile) :
    Packages.ofFiles (files.filter fun f => Path.baseName f.path = manifestName) =
      Packages.ofFiles files := by
  induction files with
  | nil => rfl
  | cons f files ih =>
    by_cases hname : Path.baseName f.path = manifestName
    · rw [List.filter_cons_of_pos (by simpa using hname), ofFiles, ofFiles, ih]
    · rw [List.filter_cons_of_neg (by simpa using hname), ofFiles, if_neg hname, ih]

end Workspace

theorem Project.philosophy_filter (files : List SourceFile) (options : AnalysisOptions) :
    philosophy (files.filter fun f => isRootReadme f.path) options = philosophy files options := by
  have hfind : (files.filter fun f => isRootReadme f.path).find? (fun f => isRootReadme f.path) =
      files.find? fun f => isRootReadme f.path := by
    simp only [List.find?_filter, and_self, Bool.decide_eq_true]
  simp only [philosophy, hfind]

namespace Analysis

/-! ## Files that are alike -/

theorem map_eq_of_map_eq {α β γ : Type} {e : α → β} {l l' : List α} (h : l'.map e = l.map e)
    (f : α → γ) (g : β → γ) (hf : ∀ a, f a = g (e a)) : l'.map f = l.map f := by
  have hmap : ∀ l : List α, l.map f = (l.map e).map g := by
    intro l
    rw [List.map_map]
    exact List.map_congr_left fun a _ => hf a
  rw [hmap l', h, ← hmap]

/-- Whether a file is looked at for more than its own scan. -/
def consulted (f : SourceFile) : Bool :=
  Workspace.isRootCandidate f.path || Project.isRootReadme f.path

def emptied (f : SourceFile) : SourceFile := { f with content := none }

def unsymboled (e : Entry) : Entry := { e with symbols := {} }

/-- Whether files differ at most in contents that only their own scans look at. -/
structure Alike (files files' : List SourceFile) : Prop where
  map_emptied : files'.map emptied = files.map emptied
  filter_consulted : files'.filter consulted = files.filter consulted

namespace Alike

variable {files files' : List SourceFile}

theorem filter (h : Alike files files') {p : SourceFile → Bool}
    (hp : ∀ f, p f = true → consulted f = true) : files'.filter p = files.filter p := by
  have htwice : ∀ fs : List SourceFile, fs.filter p = (fs.filter consulted).filter p := by
    intro fs
    rw [List.filter_filter]
    refine List.filter_congr fun f _ => ?_
    cases hf : p f with
    | false => rfl
    | true => rw [hp f hf]; rfl
  rw [htwice files', h.filter_consulted, ← htwice]

theorem paths (h : Alike files files') : files'.map (·.path) = files.map (·.path) :=
  map_eq_of_map_eq h.map_emptied (·.path) (·.path) fun _ => rfl

theorem kept (h : Alike files files') (options : AnalysisOptions) :
    Alike (kept options files) (kept options files') := by
  refine ⟨?_, ?_⟩
  · have hkept := kept_map emptied (fun _ => rfl) options
    rw [← hkept, ← hkept, h.map_emptied]
  · have hcomm : ∀ fs, (Analysis.kept options fs).filter consulted =
        Analysis.kept options (fs.filter consulted) := by
      intro fs
      simp only [Analysis.kept, List.filter_filter, Bool.and_comm]
    rw [hcomm, hcomm, h.filter_consulted]

theorem detect (h : Alike files files') : Workspace.detect files' = Workspace.detect files := by
  rw [← Workspace.detect_filter, ← Workspace.detect_filter files, h.filter fun f hf => ?_]
  simp only [consulted, hf, Bool.true_or]

theorem linkedPackages (h : Alike files files') (workspace : Workspace.Info) :
    linkedPackages workspace files' = linkedPackages workspace files := by
  have hmanifests : Workspace.Packages.ofFiles files' = Workspace.Packages.ofFiles files := by
    rw [← Workspace.Packages.ofFiles_filter, ← Workspace.Packages.ofFiles_filter files,
      h.filter fun f hf => ?_]
    have hcandidate := Workspace.isRootCandidate_of_baseName (of_decide_eq_true hf)
    simp only [consulted, hcandidate, Bool.true_or]
  rw [Analysis.linkedPackages, Analysis.linkedPackages, hmanifests]

theorem philosophy (h : Alike files files') (options : AnalysisOptions) :
    Project.philosophy files' options = Project.philosophy files options := by
  rw [← Project.philosophy_filter, ← Project.philosophy_filter files, h.filter fun f hf => ?_]
  simp only [consulted, hf, Bool.or_true]

end Alike

/-! ## Snapshots of files that are alike -/

theorem unsymboled_scan (ix : PathIndex) (packages : Option Workspace.Packages) (f : SourceFile) :
    unsymboled (scan ix packages f).entry = (scan ix packages (emptied f)).entry := by
  simp only [entry_scan, unsymboled, emptied, scanContent]

theorem map_unsymboled_scan {files files' : List SourceFile} (h : Alike files files')
    (ix : PathIndex) (packages : Option Workspace.Packages) :
    (files'.map fun f => (scan ix packages f).entry).map unsymboled =
      (files.map fun f => (scan ix packages f).entry).map unsymboled := by
  rw [List.map_map, List.map_map]
  exact map_eq_of_map_eq h.map_emptied _ (fun f => (scan ix packages f).entry)
    (unsymboled_scan ix packages)

theorem languageShares_congr {es es' : List Entry}
    (h : es'.map (·.language) = es.map (·.language)) : languageShares es' = languageShares es := by
  have hlength : es'.length = es.length := by simpa using congrArg List.length h
  simp only [languageShares, h, hlength]

theorem Alike.snapshot {files files' : List SourceFile} (h : Alike files files') (limits : Limits)
    (now : Int) (name : String) (options : AnalysisOptions) (workspace : Workspace.Info)
    (packages : Option Workspace.Packages) {s s' : Snapshot}
    (hs : s = snapshot limits now name options workspace packages files)
    (hs' : s' = Analysis.snapshot limits now name options workspace packages files') :
    s' = { s with
      totalSymbols := s'.totalSymbols
      entries := s'.entries
      dependencies := s'.dependencies } := by
  have hentries := map_unsymboled_scan h (.ofList (files.map (·.path))) packages
  have hlanguages := languageShares_congr
    (map_eq_of_map_eq hentries (·.language) (·.language) fun _ => rfl)
  have hsizes := map_eq_of_map_eq hentries (·.size) (·.size) fun _ => rfl
  have hlength := congrArg List.length hentries
  simp only [List.length_map] at hlength
  subst hs hs'
  simp only [Analysis.snapshot, h.paths, hlanguages, hsizes, hlength, h.philosophy, List.length_map]

/-! ## Edited records -/

/-- Whether two values differ at most in what they tell of the content of a record. -/
inductive Edited : Value → Value → Prop where
  | fields {fs gs : Fields} (h : ∀ key, key ≠ "content" → gs.last? key = fs.last? key) :
      Edited (.object fs) (.object gs)
  | record (f : SourceFile) (content : Option String) :
      Edited (.record (.sourceFile f)) (.record (.sourceFile { f with content }))

theorem Edited.read? {v w : Value} (h : Edited v w) :
    (SourceFile.read? w).map (Decoded.map emptied) =
      (SourceFile.read? v).map (Decoded.map emptied) := by
  cases h with
  | record => rfl
  | @fields fs gs h =>
    have htype : gs.field? SourceFile.typeLabel = fs.field? SourceFile.typeLabel := by
      simp only [Fields.field?, SourceFile.typeLabel]
      rw [h "type" (by decide), h "entry_type" (by decide)]
    refine SourceFile.read?_congr (fun key hkey => h key ?_) fun path size => ?_
    · rintro rfl
      exact absurd hkey (by decide)
    · simp only [emptied, htype]

theorem Edited.alike {v w : Value} (h : Edited v w)
    (hpath : ∀ f, record? v = some f → consulted f = false) (front back : List Value) :
    Alike ((front ++ v :: back).filterMap record?) ((front ++ w :: back).filterMap record?) := by
  have hrecord := record?_congr h.read?
  refine ⟨?_, ?_⟩
  · rw [List.map_filterMap, List.map_filterMap]
    simp only [List.filterMap_append, List.filterMap_cons, hrecord]
  · simp only [List.filterMap_append, List.filterMap_cons, List.filter_append]
    cases hv : record? v with
    | none =>
      rw [hv, Option.map_none, Option.map_eq_none_iff] at hrecord
      rw [hrecord]
    | some f =>
      rw [hv, Option.map_some, Option.map_eq_some_iff] at hrecord
      obtain ⟨g, hw, hg⟩ := hrecord
      have hf := hpath f hv
      have hgf : consulted (emptied g) = consulted (emptied f) := congrArg consulted hg
      have hg' : consulted g = false := hgf.trans hf
      simp only [hw, List.filter_cons, hf, hg', Bool.false_eq_true, if_false]

section Manifest

variable {front back : List Value} {v w : Value}

theorem Edited.read?_ne_none (h : Edited v w)
    (hreads : ∀ u ∈ front ++ v :: back, SourceFile.read? u ≠ none) :
    ∀ u ∈ front ++ w :: back, SourceFile.read? u ≠ none := by
  simp only [List.forall_mem_append, List.forall_mem_cons] at hreads ⊢
  exact ⟨hreads.1, (read?_ne_none_congr h.read?).mpr hreads.2.1, hreads.2.2⟩

theorem Edited.ofManifest (h : Edited v w)
    (hpath : ∀ f, record? v = some f → consulted f = false) {options : Value} {c : Context}
    (hc : Context.ofManifest (front ++ v :: back) options = .ok c) :
    Context.ofManifest (front ++ w :: back) options = .ok c := by
  obtain ⟨hreads, opts, hopts, workspace, hworkspace, packages, hpackages, rfl⟩ :=
    Context.ofManifest_eq_ok_iff.mp hc
  have halike := h.alike hpath front back
  have hkept := halike.kept opts
  refine Context.ofManifest_eq_ok_iff.mpr ⟨h.read?_ne_none hreads, opts, hopts, workspace, ?_,
    packages, ?_, ?_⟩
  · rw [halike.detect, hworkspace]
  · rw [hkept.linkedPackages, hpackages]
  · rw [hkept.paths]

end Manifest

/-- If the content of one record is edited, and its path is neither that of a package manifest nor
that of the readme file at the root, then the rest of the manifest keeps its context. So it adds the
same entries and, as long as no edges are cut off, the same edges. Nothing else changes but the
symbols of the record itself, and with them the sum of all. -/
theorem content_isolated (limits : Limits) (now : Int) (name options : Value)
    (front back : List Value) {v w : Value} (hedit : Edited v w)
    (hpath : ∀ f, record? v = some f →
      Workspace.isRootCandidate f.path = false ∧ Project.isRootReadme f.path = false)
    {s : Snapshot} (h : (run limits now name (front ++ v :: back) options).result = .ok s) :
    ∃ s' c, (run limits now name (front ++ w :: back) options).result = .ok s' ∧
      s' = { s with
        totalSymbols := s'.totalSymbols
        entries := s'.entries
        dependencies := s'.dependencies } ∧
      Context.ofManifest (front ++ v :: back) options = .ok c ∧
      Context.ofManifest (front ++ w :: back) options = .ok c ∧
      (s.entries = c.entries front ++ c.entries [v] ++ c.entries back ∧
        s'.entries = c.entries front ++ c.entries [w] ++ c.entries back ∧
        (c.entries [w]).map unsymboled = (c.entries [v]).map unsymboled) ∧
      ((c.edges (front ++ v :: back)).length ≤ limits.maxDependencyEdges →
        s.dependencies = c.edges front ++ c.edges [v] ++ c.edges back) ∧
      ((c.edges (front ++ w :: back)).length ≤ limits.maxDependencyEdges →
        s'.dependencies = c.edges front ++ c.edges [w] ++ c.edges back) := by
  have hconsulted : ∀ f, record? v = some f → consulted f = false := by
    intro f hf
    rw [consulted, (hpath f hf).1, (hpath f hf).2, Bool.or_false]
  obtain ⟨c, workspace, text, hc, hworkspace, htext, hs⟩ := run_eq_ok_iff_context.mp h
  have hc' := hedit.ofManifest hconsulted hc
  have halike := hedit.alike hconsulted front back
  obtain ⟨s', hs'⟩ : ∃ s', s' = snapshot limits now text c.options workspace c.packages
    (kept c.options ((front ++ w :: back).filterMap record?)) := ⟨_, rfl⟩
  have hrun' : (run limits now name (front ++ w :: back) options).result = .ok s' :=
    run_eq_ok_iff_context.mpr
      ⟨c, workspace, text, hc', by rw [halike.detect, hworkspace], htext, hs'⟩
  have hsnapshot := (halike.kept c.options).snapshot limits now text c.options workspace c.packages
    hs hs'
  have hown := map_unsymboled_scan ((hedit.alike hconsulted [] []).kept c.options) c.index
    c.packages
  rw [← Context.entries_eq, ← Context.entries_eq] at hown
  obtain ⟨hentries, hdependencies⟩ := contributions_around h hc
  obtain ⟨hentries', hdependencies'⟩ := contributions_around hrun' hc'
  exact ⟨s', c, hrun', hsnapshot, hc, hc', ⟨hentries, hentries', hown⟩, hdependencies,
    hdependencies'⟩

/-- A script that imports another one. -/
def importsScript : Value :=
  .object [("name", .text "b.ts"), ("content", .text "import './a'")]

/-- That other script, with the given content. -/
def scriptWith (content : String) : Value :=
  .object [("name", .text "a.ts"), ("content", .text content)]

/-- When the second script comes to import the first, the first keeps its own import. -/
theorem content_isolated_script :
    ∃ s s', (run {} 0 (.text "r") [importsScript, scriptWith ""] .null).result = .ok s ∧
      (run {} 0 (.text "r") [importsScript, scriptWith "import './b'"] .null).result = .ok s' ∧
      s.dependencies = [⟨"b.ts", "a.ts", .imported⟩] ∧
      s'.dependencies = [⟨"b.ts", "a.ts", .imported⟩, ⟨"a.ts", "b.ts", .imported⟩] ∧
      s'.languages = s.languages := by
  have hok : (run {} 0 (.text "r") [importsScript, scriptWith ""] .null).result.toOption.map
      (·.totalFiles) = some 2 := by decide +kernel
  obtain ⟨s, hrun, _⟩ := Except.toOption_map_eq_some_iff.mp hok
  have hedit : Edited (scriptWith "") (scriptWith "import './b'") := by
    refine .fields fun key hkey => ?_
    simp [Fields.last?, List.lookup_cons, beq_eq_false_iff_ne.mpr hkey]
  have hpath : ∀ f, record? (scriptWith "") = some f →
      Workspace.isRootCandidate f.path = false ∧ Project.isRootReadme f.path = false := by
    intro f hf
    cases hf
    decide +kernel
  obtain ⟨s', c, hrun', hshared, hc, _, _, hdependencies, hdependencies'⟩ :=
    content_isolated {} 0 (.text "r") .null [importsScript] [] hedit hpath hrun
  have hedges : (Context.ofManifest [importsScript, scriptWith ""] .null).toOption.map
      (fun c => (c.edges [importsScript], c.edges [scriptWith ""],
        c.edges [scriptWith "import './b'"])) =
      some ([⟨"b.ts", "a.ts", .imported⟩], [], [⟨"a.ts", "b.ts", .imported⟩]) := by decide +kernel
  obtain ⟨_, hc', hedges⟩ := Except.toOption_map_eq_some_iff.mp hedges
  cases hc'.symm.trans hc
  simp only [Prod.mk.injEq] at hedges
  obtain ⟨hfront, hbefore, hafter⟩ := hedges
  have hback : c.edges [] = [] := rfl
  rw [List.append_cons, Context.edges_append, Context.edges_append, hfront, hbefore, hback]
    at hdependencies
  rw [List.append_cons, Context.edges_append, Context.edges_append, hfront, hafter, hback]
    at hdependencies'
  exact ⟨s, s', hrun, hrun', hdependencies (by decide), hdependencies' (by decide),
    by rw [hshared]⟩

end Analysis

end RepoSurvey
