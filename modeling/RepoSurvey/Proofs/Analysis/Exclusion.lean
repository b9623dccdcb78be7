import RepoSurvey.Proofs.Analysis.Paths

/-!
# RepoSurvey.Proofs.Analysis.Exclusion

What the records of a manifest influence that are left out of its snapshot, because they cannot be
read or because a pattern excludes their paths. They are looked at in the search for workspaces and
nowhere else, so a snapshot is that of the kept records alone once the same workspaces are found
(`run_withoutExcluded`). But they are read like all others, and so a size out of range stops the
analysis even where its record is excluded.
-/

namespace RepoSurvey.Analysis

/-! ## The kept part of a manifest -/

/-- The values of a manifest that stand for records with paths that no pattern excludes. -/
def withoutExcluded (options : AnalysisOptions) (manifest : List Value) : List Value :=
  manifest.filter fun v => (keptPath? options v).isSome

theorem records_withoutExcluded (options : AnalysisOptions) (manifest : List Value) :
    (withoutExcluded options manifest).filterMap record? =
      kept options (manifest.filterMap record?) := by
  rw [withoutExcluded, kept, List.filterMap_filter, List.filter_filterMap]
  refine List.filterMap_congr fun v _ => ?_
  cases hv : record? v with
  | none => simp [keptPath?, hv]
  | some f => simp [keptPath?, hv, Option.filter]

theorem kept_kept (options : AnalysisOptions) (files : List SourceFile) :
    kept options (kept options files) = kept options files := by
  simp [kept, List.filter_filter]

theorem read?_of_mem_withoutExcluded {options : AnalysisOptions} {manifest : List Value} {v : Value}
    (h : v ∈ withoutExcluded options manifest) : SourceFile.read? v ≠ none := by
  intro hnone
  have hpath : keptPath? options v = none := by simp [keptPath?, record?, hnone]
  have hsome := (List.mem_filter.mp h).2
  rw [hpath] at hsome
  cases hsome

/-! ## Snapshots of the same files -/

theorem linkedPackages_congr {workspace workspace' : Workspace.Info}
    (h : workspace.isMonorepo = workspace'.isMonorepo) (files : List SourceFile) :
    linkedPackages workspace files = linkedPackages workspace' files := by
  rw [linkedPackages, linkedPackages, h]

section Run

variable {limits : Limits} {now : Int} {name : Value} {manifest : List Value} {options : Value}
  {opts : AnalysisOptions} {s t : Snapshot}

theorem snapshots_agree (hopts : (readOptions options).result = .ok opts)
    (hs : (run limits now name manifest options).result = .ok s)
    (ht : (run limits now name (withoutExcluded opts manifest) options).result = .ok t) :
    s = { t with
        dependencies := s.dependencies
        isMonorepo := s.isMonorepo
        workspaces := s.workspaces } ∧
      (s.isMonorepo = t.isMonorepo → s.workspaces = t.workspaces → s = t) := by
  obtain ⟨_, opts₁, hopts₁, hs⟩ := run_eq_ok_iff.mp hs
  obtain ⟨_, opts₂, hopts₂, ht⟩ := run_eq_ok_iff.mp ht
  rw [hopts] at hopts₁ hopts₂
  cases hopts₁
  cases hopts₂
  obtain ⟨workspace, packages, text, _, hpackages, htext, rfl⟩ := ofRecords_eq_ok_iff.mp hs
  obtain ⟨workspace', packages', text', _, hpackages', htext', rfl⟩ := ofRecords_eq_ok_iff.mp ht
  rw [htext] at htext'
  cases htext'
  rw [records_withoutExcluded, kept_kept] at hpackages' ⊢
  refine ⟨rfl, fun hmonorepo hworkspaces => ?_⟩
  have hmonorepo' : workspace.isMonorepo = workspace'.isMonorepo := hmonorepo
  have hworkspaces' : workspace.workspaces = workspace'.workspaces := hworkspaces
  rw [linkedPackages_congr hmonorepo', hpackages'] at hpackages
  cases hpackages
  simp only [snapshot, hmonorepo', hworkspaces']

theorem run_withoutExcluded_eq_ok (limits : Limits) (now : Int) (text : String)
    (hopts : (readOptions options).result = .ok opts)
    (hdeep : ∀ v ∈ manifest, ∀ f, SourceFile.read? v = some (.ok f) → ¬ Workspace.TooDeep f) :
    ∃ t, (run limits now (.text text) (withoutExcluded opts manifest) options).result = .ok t := by
  obtain ⟨t, ht, _⟩ := run_eq_ok limits now text
    (fun v hv => read?_of_mem_withoutExcluded hv)
    (fun v hv => hdeep v (List.mem_filter.mp hv).1) hopts
  exact ⟨t, ht⟩

end Run

/-- A snapshot agrees with that of the kept records alone in everything but workspaces and
dependencies, and in these too if both tell of the same workspaces. Kept records have a snapshot,
package manifests that are nested too deeply left out; with the others there is none exactly if the
size of a record, excluded or not, is an integer out of range. -/
theorem run_withoutExcluded (limits : Limits) (now : Int) (name : Value) (manifest : List Value)
    (options : Value) {opts : AnalysisOptions} (hopts : (readOptions options).result = .ok opts) :
    (∀ s t, (run limits now name manifest options).result = .ok s →
      (run limits now name (withoutExcluded opts manifest) options).result = .ok t →
        s = { t with
            dependencies := s.dependencies
            isMonorepo := s.isMonorepo
            workspaces := s.workspaces } ∧
          (s.isMonorepo = t.isMonorepo → s.workspaces = t.workspaces → s = t)) ∧
      (∀ fs, .object fs ∈ manifest → SourceFile.HugeSize fs →
        (run limits now name manifest options).result = .error .outOfRange) ∧
      ∀ text, name = .text text →
        (∀ v ∈ manifest, ∀ f, SourceFile.read? v = some (.ok f) → ¬ Workspace.TooDeep f) →
          (∃ t, (run limits now name (withoutExcluded opts manifest) options).result = .ok t) ∧
          ((∃ s, (run limits now name manifest options).result = .ok s) ↔
            ∀ fs, .object fs ∈ manifest → ¬ SourceFile.HugeSize fs) := by
  have hfails : ∀ fs, .object fs ∈ manifest → SourceFile.HugeSize fs →
      (run limits now name manifest options).result = .error .outOfRange := by
    intro fs hmem hhuge
    have hnone := SourceFile.read?_eq_none_iff.mpr ⟨fs, rfl, hhuge⟩
    rw [run, Logged.bind_of_error (readRecords_eq_error ⟨_, hmem, hnone⟩ 0)]
  refine ⟨fun s t hs ht => snapshots_agree hopts hs ht, hfails, ?_⟩
  rintro text rfl hdeep
  refine ⟨run_withoutExcluded_eq_ok limits now text hopts hdeep, ?_, fun hsizes => ?_⟩
  · rintro ⟨s, hs⟩ fs hmem hhuge
    rw [hfails fs hmem hhuge] at hs
    cases hs
  · have hreads : ∀ v ∈ manifest, SourceFile.read? v ≠ none := by
      intro v hv hnone
      obtain ⟨fs, rfl, hhuge⟩ := SourceFile.read?_eq_none_iff.mp hnone
      exact hsizes fs hv hhuge
    obtain ⟨s, hs, _⟩ := run_eq_ok limits now text hreads hdeep hopts
    exact ⟨s, hs⟩

/-- A script that imports another one, and a file of the given size in a directory of its own. -/
def vendored (size : Int) : List Value := [
  .object [("name", .text "a.ts"), ("content", .text "import './b'")],
  .object [("name", .text "b.ts")],
  .object [("name", .text "vendor/c.ts"), ("size", .int size)]]

def withoutVendor : AnalysisOptions := { excludePatterns := ["vendor/"] }

def vendorOptions : Value := .record (.analysisOptions withoutVendor)

/-- The excluded file leaves no trace in the snapshot, unless its size is out of range. -/
theorem run_withoutExcluded_vendored :
    (readOptions vendorOptions).result = .ok withoutVendor ∧
      (∃ s, (run {} 0 (.text "r") (vendored 7) vendorOptions).result = .ok s ∧
        (run {} 0 (.text "r") (withoutExcluded withoutVendor (vendored 7)) vendorOptions).result =
          .ok s ∧ s.totalFiles = 2 ∧ s.dependencies = [⟨"a.ts", "b.ts", .imported⟩]) ∧
      (run {} 0 (.text "r") (vendored Binary64.integerLimit) vendorOptions).result =
        .error .outOfRange ∧
      ∃ t, (run {} 0 (.text "r") (withoutExcluded withoutVendor (vendored Binary64.integerLimit))
        vendorOptions).result = .ok t := by
  have hopts : (readOptions vendorOptions).result = .ok withoutVendor := rfl
  have hparts : (run {} 0 (.text "r") (vendored 7) vendorOptions).result.toOption.map
      (fun s => (s.isMonorepo, s.workspaces, s.totalFiles, s.dependencies)) =
      some (false, [], 2, [⟨"a.ts", "b.ts", .imported⟩]) := by decide +kernel
  have hkept : (run {} 0 (.text "r") (withoutExcluded withoutVendor (vendored 7))
      vendorOptions).result.toOption.map (fun t => (t.isMonorepo, t.workspaces)) =
      some (false, []) := by decide +kernel
  obtain ⟨s, hs, hparts⟩ := Except.toOption_map_eq_some_iff.mp hparts
  obtain ⟨t, ht, hkept⟩ := Except.toOption_map_eq_some_iff.mp hkept
  simp only [Prod.mk.injEq] at hparts hkept
  obtain ⟨hagree, _, _⟩ := run_withoutExcluded {} 0 (.text "r") (vendored 7) vendorOptions hopts
  obtain ⟨_, hfails, hexists⟩ :=
    run_withoutExcluded {} 0 (.text "r") (vendored Binary64.integerLimit)
      vendorOptions hopts
  have hst : s = t := (hagree s t hs ht).2 (by rw [hparts.1, hkept.1])
    (by rw [hparts.2.1, hkept.2])
  refine ⟨hopts, ⟨s, hs, hst ▸ ht, hparts.2.2⟩, ?_, ?_⟩
  · exact hfails [("name", .text "vendor/c.ts"), ("size", .int Binary64.integerLimit)]
      (by simp [vendored]) ⟨_, .inl rfl, le_abs_self _⟩
  · refine (hexists "r" rfl ?_).1
    rintro v hv f hread ⟨hname, content, hcontent, _⟩
    simp only [vendored, List.mem_cons, List.not_mem_nil, or_false] at hv
    rcases hv with rfl | rfl | rfl
    · cases hread
      exact absurd hname (by decide +kernel)
    · rw [SourceFile.content_of_read? hread] at hcontent
      cases hcontent
    · rw [SourceFile.content_of_read? hread] at hcontent
      cases hcontent

end RepoSurvey.Analysis
