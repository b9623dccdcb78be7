import RepoSurvey.Proofs.Analysis.Edges
import RepoSurvey.Proofs.Slot

/-!
# RepoSurvey.Proofs.Analysis.Types

The types of records. No stage of an analysis looks at them, so manifests that differ in types alone
have the same dependencies (`dependencies_retyped`).
-/

namespace RepoSurvey.Analysis

/-! ## Records -/

/-- Whether two values differ at most in what they tell of the type of a record. -/
inductive Retyped : Value → Value → Prop where
  | same (v : Value) : Retyped v v
  | fields {fs gs : Fields}
      (h : ∀ key, ¬ SourceFile.typeLabel.Spells key → gs.last? key = fs.last? key) :
      Retyped (.object fs) (.object gs)
  | record (f : SourceFile) (type : EntryType) :
      Retyped (.record (.sourceFile f)) (.record (.sourceFile { f with entryType := type }))

def untyped (f : SourceFile) : SourceFile := { f with entryType := .file }

theorem Retyped.read? {v w : Value} (h : Retyped v w) :
    (SourceFile.read? w).map (Decoded.map untyped) =
      (SourceFile.read? v).map (Decoded.map untyped) := by
  cases h with
  | same => rfl
  | record => rfl
  | @fields fs gs h =>
    have hlast : ∀ key ∈ ["size", "name", "path", "content"], gs.last? key = fs.last? key := by
      intro key hkey
      refine h key ?_
      rintro (rfl | rfl)
      · exact absurd hkey (by decide)
      · exact absurd hkey (by decide)
    refine SourceFile.read?_congr (fun key hkey => hlast key ?_) fun path size => ?_
    · exact List.mem_append_left ["content"] hkey
    · simp only [untyped, hlast "content" (by decide)]

theorem read?_ne_none_of_retyped {manifest manifest' : List Value}
    (h : List.Forall₂ Retyped manifest manifest')
    (hreads : ∀ v ∈ manifest, SourceFile.read? v ≠ none) :
    ∀ w ∈ manifest', SourceFile.read? w ≠ none := by
  induction h with
  | nil => exact hreads
  | cons hv _ ih =>
    rw [List.forall_mem_cons] at hreads ⊢
    exact ⟨(read?_ne_none_congr hv.read?).mpr hreads.1, ih hreads.2⟩

theorem map_untyped_records {manifest manifest' : List Value}
    (h : List.Forall₂ Retyped manifest manifest') :
    (manifest'.filterMap record?).map untyped = (manifest.filterMap record?).map untyped := by
  induction h with
  | nil => rfl
  | cons hv _ ih =>
    simp only [List.map_filterMap] at ih ⊢
    rw [List.filterMap_cons, List.filterMap_cons, record?_congr hv.read?, ih]

/-! ## Stages -/

theorem shortest_untyped (files : List SourceFile) :
    Workspace.shortest (files.map untyped) = (Workspace.shortest files).map untyped := by
  induction files with
  | nil => rfl
  | cons f files ih =>
    rw [List.map_cons, Workspace.shortest, Workspace.shortest, ih]
    cases Workspace.shortest files with
    | none => rfl
    | some g =>
      simp only [Option.map_some]
      change (if g.path.length < f.path.length then some (untyped g) else some (untyped f)) = _
      split <;> rfl

theorem detect_untyped (files : List SourceFile) :
    Workspace.detect (files.map untyped) = Workspace.detect files := by
  have hcandidates : (files.map untyped).filter (fun f => Workspace.isRootCandidate f.path) =
      (files.filter fun f => Workspace.isRootCandidate f.path).map untyped := by
    rw [List.filter_map]
    rfl
  rw [Workspace.detect, Workspace.detect, hcandidates, shortest_untyped]
  cases Workspace.shortest (files.filter fun f => Workspace.isRootCandidate f.path) <;> rfl

theorem ofFiles_untyped (files : List SourceFile) :
    Workspace.Packages.ofFiles (files.map untyped) = Workspace.Packages.ofFiles files := by
  induction files with
  | nil => rfl
  | cons f files ih =>
    rw [List.map_cons, Workspace.Packages.ofFiles, Workspace.Packages.ofFiles, ih]
    rfl

theorem allEdges_untyped (packages : Option Workspace.Packages) (files : List SourceFile) :
    allEdges packages (files.map untyped) = allEdges packages files := by
  have hpaths : (files.map untyped).map (·.path) = files.map (·.path) := by
    rw [List.map_map]
    rfl
  rw [allEdges, allEdges, hpaths, List.map_map, List.flatMap_map, List.flatMap_map]
  rfl

theorem ofRecords_untyped {limits : Limits} {now : Int} {name : Value} {options : AnalysisOptions}
    {files files' : List SourceFile} (hfiles : files'.map untyped = files.map untyped)
    {s : Snapshot} (h : (ofRecords limits now name options files).result = .ok s) :
    ∃ s', (ofRecords limits now name options files').result = .ok s' ∧
      s'.dependencies = s.dependencies := by
  have hkept : (kept options files').map untyped = (kept options files).map untyped := by
    have huntyped := kept_map untyped (fun _ => rfl) options
    rw [← huntyped, ← huntyped, hfiles]
  obtain ⟨workspace, packages, text, hworkspace, hpackages, htext, rfl⟩ :=
    ofRecords_eq_ok_iff.mp h
  refine ⟨_, ofRecords_eq_ok_iff.mpr ⟨workspace, packages, text, ?_, ?_, htext, rfl⟩, ?_⟩
  · rw [← detect_untyped, hfiles, detect_untyped, hworkspace]
  · rw [← hpackages, linkedPackages, linkedPackages, ← ofFiles_untyped, hkept, ofFiles_untyped]
  · simp only [snapshot]
    rw [← allEdges_untyped, hkept, allEdges_untyped]

theorem dependencies_retyped {limits : Limits} {now : Int} {name : Value} {options : Value}
    {manifest manifest' : List Value} (hmanifest : List.Forall₂ Retyped manifest manifest')
    {s : Snapshot} (h : (run limits now name manifest options).result = .ok s) :
    ∃ s', (run limits now name manifest' options).result = .ok s' ∧
      s'.dependencies = s.dependencies := by
  obtain ⟨hreads, opts, hopts, hrun⟩ := run_eq_ok_iff.mp h
  obtain ⟨s', hrun', hdependencies⟩ := ofRecords_untyped (map_untyped_records hmanifest) hrun
  have hreads' := read?_ne_none_of_retyped hmanifest hreads
  exact ⟨s', run_eq_ok_iff.mpr ⟨hreads', opts, hopts, hrun'⟩, hdependencies⟩

end RepoSurvey.Analysis
