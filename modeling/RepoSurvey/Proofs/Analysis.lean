import RepoSurvey.Analysis
import RepoSurvey.Proofs.Binary64.Range
import RepoSurvey.Proofs.Slot
import RepoSurvey.Proofs.Workspace.Root

/-!
# RepoSurvey.Proofs.Analysis

When an analysis succeeds. Records that cannot be read are skipped, unless the size of one is an
integer out of range: then the whole manifest is refused. Otherwise there is a snapshot, and every
record with a path that is not excluded is among its entries.
-/

namespace RepoSurvey

/-! ## Records of a manifest -/

namespace SourceFile

/-- Whether the size of a record is an integer out of range. -/
def HugeSize (fs : Fields) : Prop :=
  ∃ n, (fs.last? "size" = some (.int n) ∨ fs.last? "size" = some (.long n)) ∧
    Binary64.integerLimit ≤ |n|

theorem sizeOf?_eq_none_iff {v : Value} :
    sizeOf? v = none ↔ ∃ n, (v = .int n ∨ v = .long n) ∧ Binary64.integerLimit ≤ |n| := by
  cases v <;> simp [sizeOf?, Binary64.ofInt?_eq_none_iff]

theorem read?_eq_none_iff {v : Value} : read? v = none ↔ ∃ fs, v = .object fs ∧ HugeSize fs := by
  cases v with
  | object fs =>
    simp only [read?, ofFields?, Option.map_eq_none_iff, sizeOf?_eq_none_iff, HugeSize,
      Value.object.injEq, exists_eq_left']
    cases Fields.last? fs "size" <;> simp
  | record r => cases r <;> simp [read?]
  | _ => simp [read?]

theorem read?_of_path {fs : Fields} (hsize : ¬ HugeSize fs) {key path : String}
    (hpath : fs.field? pathLabel = some (key, .text path)) :
    ∃ f, read? (.object fs) = some (.ok f) ∧ f.path = path := by
  cases h : sizeOf? ((fs.last? "size").getD .null) with
  | none =>
    have hnone : read? (.object fs) = none := by rw [read?, ofFields?, h]; rfl
    obtain ⟨gs, hgs, hhuge⟩ := read?_eq_none_iff.mp hnone
    cases hgs
    exact absurd hhuge hsize
  | some size =>
    have hread : pathOf fs = .ok path := by
      rw [pathOf, hpath]
      rfl
    rw [read?, ofFields?, h, hread]
    exact ⟨_, rfl, rfl⟩

theorem content_of_read? {fs : Fields} {f : SourceFile} (h : read? (.object fs) = some (.ok f)) :
    f.content = contentOf ((fs.last? "content").getD .null) := by
  obtain ⟨size, _, hread⟩ := Option.map_eq_some_iff.mp h
  obtain ⟨path, _, rfl⟩ := Decoded.map_eq_ok.mp hread
  rfl

/-- Fields that agree on size and path are read alike up to what their types and contents become
under `e`. -/
theorem read?_congr {α : Type} {e : SourceFile → α} {fs gs : Fields}
    (hkeys : ∀ key ∈ ["size", "name", "path"], gs.last? key = fs.last? key)
    (he : ∀ path size,
      e ⟨path, size, typeOf (((gs.field? typeLabel).map (·.2)).getD .null),
          contentOf ((gs.last? "content").getD .null)⟩ =
        e ⟨path, size, typeOf (((fs.field? typeLabel).map (·.2)).getD .null),
          contentOf ((fs.last? "content").getD .null)⟩) :
    (read? (.object gs)).map (Decoded.map e) = (read? (.object fs)).map (Decoded.map e) := by
  simp only [List.forall_mem_cons] at hkeys
  obtain ⟨hsize, hname, hpath, _⟩ := hkeys
  have hpath' : pathOf gs = pathOf fs := by
    simp only [pathOf, Fields.field?, pathLabel, hname, hpath]
  simp only [read?, ofFields?, hsize, hpath', Option.map_map]
  congr 1
  funext size
  cases pathOf fs with
  | ok path => exact congrArg Decoded.ok (he path size)
  | failed f more => rfl

end SourceFile

/-! ## Package manifests -/

namespace Workspace

/-- Whether a file may be read as a package manifest but is nested too deeply for that. -/
def TooDeep (f : SourceFile) : Prop :=
  (isRootCandidate f.path = true ∨ Path.baseName f.path = manifestName) ∧
    ∃ content, f.content = some content ∧ Json.parseData content = .error .tooDeep

theorem detect_eq_ok {files : List SourceFile} (h : ∀ f ∈ files, ¬ TooDeep f) :
    ∃ info, (detect files).result = .ok info := by
  cases hroot : shortest (candidates files) with
  | none => exact ⟨{}, by rw [detect_of_no_candidates (shortest_eq_none_iff.mp hroot)]; rfl⟩
  | some root =>
    have hfirst := shortest_eq_some_iff.mp hroot
    obtain ⟨hmem, hcandidate⟩ := List.mem_filter.mp hfirst.mem
    exact (detect_eq_ok_iff_of_firstShortest hfirst).mpr fun hdeep =>
      h root hmem ⟨.inl hcandidate, hdeep⟩

theorem ofFiles_eq_ok {files : List SourceFile} (h : ∀ f ∈ files, ¬ TooDeep f) :
    ∃ ps, (Packages.ofFiles files).result = .ok ps :=
  ⟨_, Packages.ofFiles_of_not_deep fun f hf hdeep => h f hf ⟨.inr hdeep.1, hdeep.2⟩⟩

end Workspace

namespace Analysis

/-! ## Reading -/

/-- The record that a value is read as. -/
def record? (v : Value) : Option SourceFile := (SourceFile.read? v).bind Decoded.toOption

theorem record?_congr {α : Type} {e : SourceFile → α} {v w : Value}
    (h : (SourceFile.read? w).map (Decoded.map e) = (SourceFile.read? v).map (Decoded.map e)) :
    (record? w).map e = (record? v).map e := by
  have hmap : ∀ u, (record? u).map e =
      ((SourceFile.read? u).map (Decoded.map e)).bind Decoded.toOption := by
    intro u
    simp only [record?, Option.map_bind, Option.bind_map, Function.comp_def, Decoded.toOption_map]
  rw [hmap, hmap, h]

theorem read?_ne_none_congr {α : Type} {e : SourceFile → α} {v w : Value}
    (h : (SourceFile.read? w).map (Decoded.map e) = (SourceFile.read? v).map (Decoded.map e)) :
    SourceFile.read? w ≠ none ↔ SourceFile.read? v ≠ none := by
  have hsome := congrArg Option.isSome h
  rw [Option.isSome_map, Option.isSome_map] at hsome
  rw [← Option.isSome_iff_ne_none, ← Option.isSome_iff_ne_none, hsome]

theorem readRecords_eq_ok {vs : List Value} (h : ∀ v ∈ vs, SourceFile.read? v ≠ none)
    (position : Nat) : (readRecords position vs).result = .ok (vs.filterMap record?) := by
  induction vs generalizing position with
  | nil => rfl
  | cons v vs ih =>
    have hrest := ih (fun w hw => h w (List.mem_cons_of_mem v hw)) (position + 1)
    cases hv : SourceFile.read? v with
    | none => exact absurd hv (h v List.mem_cons_self)
    | some d =>
      cases d with
      | ok file =>
        rw [List.filterMap_cons_some (b := file) (by rw [record?, hv]; rfl)]
        simp only [readRecords, hv, Logged.bind_of_ok hrest, Logged.result_pure]
      | failed f more =>
        rw [List.filterMap_cons_none (by rw [record?, hv]; rfl), ← hrest]
        simp only [readRecords, hv, Logged.bind_of_ok (Logged.result_notice _)]

theorem readRecords_eq_error {vs : List Value} (h : ∃ v ∈ vs, SourceFile.read? v = none)
    (position : Nat) : (readRecords position vs).result = .error .outOfRange := by
  induction vs generalizing position with
  | nil =>
    obtain ⟨v, hv, _⟩ := h
    cases hv
  | cons v vs ih =>
    cases hv : SourceFile.read? v with
    | none => simp only [readRecords, hv]; rfl
    | some d =>
      obtain ⟨w, hw, hnone⟩ := h
      have hrest : (readRecords (position + 1) vs).result = .error .outOfRange := by
        rcases List.mem_cons.mp hw with rfl | hw
        · rw [hnone] at hv
          cases hv
        · exact ih ⟨w, hw, hnone⟩ _
      cases d with
      | ok file => simp only [readRecords, hv, Logged.bind_of_error hrest]
      | failed f more =>
        simp only [readRecords, hv, Logged.bind_of_ok (Logged.result_notice _), hrest]

theorem readOptions_eq_ok (v : Value) : ∃ options, (readOptions v).result = .ok options := by
  unfold readOptions
  split
  · exact ⟨_, rfl⟩
  · split <;> exact ⟨_, rfl⟩

/-! ## Snapshots -/

theorem kept_map (e : SourceFile → SourceFile) (he : ∀ f, (e f).path = f.path)
    (options : AnalysisOptions) (files : List SourceFile) :
    kept options (files.map e) = (kept options files).map e := by
  rw [kept, kept, List.filter_map]
  simp only [Function.comp_def, he]

theorem entry_scan (ix : PathIndex) (packages : Option Workspace.Packages) (f : SourceFile) :
    (scan ix packages f).entry = {
      path := f.path
      name := Path.baseName f.path
      size := f.size
      entryType := f.entryType
      extension := Path.extension f.path
      language := Language.ofExtension (Path.extension f.path)
      symbols := (scanContent ix (Language.ofExtension (Path.extension f.path)) f).1 } := by
  rw [scan]

theorem paths_snapshot (limits : Limits) (now : Int) (name : String) (options : AnalysisOptions)
    (workspace : Workspace.Info) (packages : Option Workspace.Packages)
    (files : List SourceFile) :
    (snapshot limits now name options workspace packages files).entries.map (·.path) =
      files.map (·.path) := by
  rw [snapshot, List.map_map]
  rfl

theorem linkedPackages_eq_ok (workspace : Workspace.Info) {files : List SourceFile}
    (h : ∀ f ∈ files, ¬ Workspace.TooDeep f) :
    ∃ packages, (linkedPackages workspace files).result = .ok packages := by
  rw [linkedPackages]
  split
  · obtain ⟨ps, hps⟩ := Workspace.ofFiles_eq_ok h
    exact ⟨some ps, by rw [Logged.bind_of_ok hps]; rfl⟩
  · exact ⟨none, rfl⟩

theorem ofRecords_eq_ok (limits : Limits) (now : Int) (name : String) (options : AnalysisOptions)
    {files : List SourceFile} (h : ∀ f ∈ files, ¬ Workspace.TooDeep f) :
    ∃ s, (ofRecords limits now (.text name) options files).result = .ok s ∧
      s.entries.map (·.path) = (kept options files).map (·.path) := by
  obtain ⟨workspace, hworkspace⟩ := Workspace.detect_eq_ok h
  obtain ⟨packages, hpackages⟩ := linkedPackages_eq_ok workspace
    fun f (hf : f ∈ kept options files) => h f (List.mem_filter.mp hf).1
  have hname : (readName (.text name)).result = .ok name := rfl
  refine ⟨snapshot limits now name options workspace packages (kept options files), ?_,
    paths_snapshot ..⟩
  simp only [ofRecords, Logged.bind_of_ok (Logged.result_notice _), Logged.bind_of_ok hworkspace,
    Logged.bind_of_ok hpackages]
  split <;> simp only [Logged.bind_of_ok (Logged.result_notice _), Logged.bind_of_ok hname] <;> rfl

/-! ## Success -/

section Run

variable (limits : Limits) (now : Int) (name : String) {manifest : List Value} {options : Value}

theorem run_eq_error (h : ∃ v ∈ manifest, SourceFile.read? v = none) :
    (run limits now (.text name) manifest options).result = .error .outOfRange := by
  rw [run, Logged.bind_of_error (readRecords_eq_error h 0)]

theorem run_eq_ok (h : ∀ v ∈ manifest, SourceFile.read? v ≠ none)
    (hdeep : ∀ v ∈ manifest, ∀ f, SourceFile.read? v = some (.ok f) → ¬ Workspace.TooDeep f)
    {opts : AnalysisOptions} (hopts : (readOptions options).result = .ok opts) :
    ∃ s, (run limits now (.text name) manifest options).result = .ok s ∧
      s.entries.map (·.path) = (kept opts (manifest.filterMap record?)).map (·.path) := by
  have hfiles : ∀ f ∈ manifest.filterMap record?, ¬ Workspace.TooDeep f := by
    intro f hf
    obtain ⟨v, hv, hread⟩ := List.mem_filterMap.mp hf
    obtain ⟨d, hd, hok⟩ := Option.bind_eq_some_iff.mp hread
    exact hdeep v hv f (by rw [hd, Decoded.toOption_eq_some.mp hok])
  rw [run, Logged.bind_of_ok (readRecords_eq_ok h 0), Logged.bind_of_ok hopts]
  exact ofRecords_eq_ok limits now name opts hfiles

/-- A record without content can be analysed alone. -/
theorem run_singleton {v : Value} {f : SourceFile} (hread : SourceFile.read? v = some (.ok f))
    (hcontent : f.content = none) {opts : AnalysisOptions}
    (hopts : (readOptions options).result = .ok opts) :
    ∃ s, (run limits now (.text name) [v] options).result = .ok s ∧
      s.entries.map (·.path) = (kept opts [f]).map (·.path) := by
  have hrecord : record? v = some f := by
    rw [record?, hread]
    rfl
  have hreads : ∀ w ∈ [v], SourceFile.read? w ≠ none := by simp [hread]
  have hdeep : ∀ w ∈ [v], ∀ g, SourceFile.read? w = some (.ok g) → ¬ Workspace.TooDeep g := by
    rintro w hw g hg ⟨_, content, hsome, _⟩
    rw [List.mem_singleton.mp hw, hread] at hg
    cases hg
    rw [hcontent] at hsome
    cases hsome
  have hrun := run_eq_ok limits now name hreads hdeep hopts
  rwa [List.filterMap_cons_some hrecord, List.filterMap_nil] at hrun

end Run

theorem path_mem_kept {manifest : List Value} {fs : Fields} (hmem : .object fs ∈ manifest)
    (hsize : ¬ SourceFile.HugeSize fs) {key path : String}
    (hpath : fs.field? SourceFile.pathLabel = some (key, .text path)) {options : AnalysisOptions}
    (hkept : isExcluded (exclusions options) path = false) :
    path ∈ (kept options (manifest.filterMap record?)).map (·.path) := by
  obtain ⟨f, hread, rfl⟩ := SourceFile.read?_of_path hsize hpath
  have hrecord : record? (.object fs) = some f := by
    rw [record?, hread]
    rfl
  refine List.mem_map_of_mem (List.mem_filter.mpr ⟨?_, by simp [hkept]⟩)
  exact List.mem_filterMap.mpr ⟨_, hmem, hrecord⟩

/-- An analysis fails exactly if the size of a record is an integer out of range, and then it fails
as a whole; package manifests that are nested too deeply are left out. Where it succeeds every
record with a path that no pattern excludes is in the snapshot, whatever else the record holds. -/
theorem run_fails_on_huge_size (limits : Limits) (now : Int) (name : String)
    (manifest : List Value) (options : Value)
    (hdeep : ∀ v ∈ manifest, ∀ f, SourceFile.read? v = some (.ok f) → ¬ Workspace.TooDeep f) :
    ((∃ s, (run limits now (.text name) manifest options).result = .ok s) ↔
        ∀ fs, .object fs ∈ manifest → ¬ SourceFile.HugeSize fs) ∧
      (∀ fs, .object fs ∈ manifest → SourceFile.HugeSize fs →
        (run limits now (.text name) manifest options).result = .error .outOfRange) ∧
      ∀ s, (run limits now (.text name) manifest options).result = .ok s →
        ∀ opts, (readOptions options).result = .ok opts →
          ∀ (fs : Fields) key path, .object fs ∈ manifest →
            fs.field? SourceFile.pathLabel = some (key, .text path) →
            isExcluded (exclusions opts) path = false → path ∈ s.entries.map (·.path) := by
  have hfails : ∀ fs, .object fs ∈ manifest → SourceFile.HugeSize fs →
      (run limits now (.text name) manifest options).result = .error .outOfRange :=
    fun fs hmem hhuge =>
      run_eq_error limits now name ⟨_, hmem, SourceFile.read?_eq_none_iff.mpr ⟨fs, rfl, hhuge⟩⟩
  have hsizes : ∀ {s}, (run limits now (.text name) manifest options).result = .ok s →
      ∀ fs, .object fs ∈ manifest → ¬ SourceFile.HugeSize fs := by
    intro s hs fs hmem hhuge
    rw [hfails fs hmem hhuge] at hs
    cases hs
  have hreads : (∀ fs, .object fs ∈ manifest → ¬ SourceFile.HugeSize fs) →
      ∀ v ∈ manifest, SourceFile.read? v ≠ none := by
    intro h v hv hnone
    obtain ⟨fs, rfl, hhuge⟩ := SourceFile.read?_eq_none_iff.mp hnone
    exact h fs hv hhuge
  refine ⟨⟨fun ⟨s, hs⟩ => hsizes hs, fun h => ?_⟩, hfails,
    fun s hs opts hopts fs key path hmem hpath hkept => ?_⟩
  · obtain ⟨opts, hopts⟩ := readOptions_eq_ok options
    obtain ⟨s, hs, _⟩ := run_eq_ok limits now name (hreads h) hdeep hopts
    exact ⟨s, hs⟩
  · obtain ⟨t, ht, hentries⟩ := run_eq_ok limits now name (hreads (hsizes hs)) hdeep hopts
    cases hs.symm.trans ht
    rw [hentries]
    exact path_mem_kept hmem (hsizes hs fs hmem) hpath hkept

/-- One record of the given size. -/
def sized (n : Int) : Fields := [("name", .text "a.ts"), ("size", .int n)]

/-- The limit itself is out of range and the integer before it is not. -/
theorem run_fails_from_limit_on :
    (run {} 0 (.text "r") [.object (sized Binary64.integerLimit)] .null).result =
        .error .outOfRange ∧
      ∃ s, (run {} 0 (.text "r") [.object (sized (Binary64.integerLimit - 1))] .null).result =
        .ok s ∧ "a.ts" ∈ s.entries.map (·.path) := by
  have hpos : 0 < Binary64.integerLimit := by decide +kernel
  have hsize : ∀ n, SourceFile.HugeSize (sized n) ↔ Binary64.integerLimit ≤ |n| := fun n => by
    simp [SourceFile.HugeSize, sized, Fields.last?]
  have hdeep : ∀ n, ∀ v ∈ [Value.object (sized n)], ∀ f,
      SourceFile.read? v = some (.ok f) → ¬ Workspace.TooDeep f := by
    rintro n v hv f hread ⟨_, content, hcontent, _⟩
    rw [List.mem_singleton.mp hv] at hread
    rw [SourceFile.content_of_read? hread] at hcontent
    cases hcontent
  constructor
  · refine (run_fails_on_huge_size {} 0 "r" _ .null (hdeep _)).2.1 _ List.mem_cons_self ?_
    exact (hsize _).mpr (le_abs_self _)
  · obtain ⟨hok, _, hpaths⟩ := run_fails_on_huge_size {} 0 "r"
      [.object (sized (Binary64.integerLimit - 1))] .null (hdeep _)
    obtain ⟨s, hs⟩ := hok.mpr fun fs hfs => by
      cases List.mem_singleton.mp hfs
      rw [hsize, abs_of_nonneg (by omega)]
      omega
    exact ⟨s, hs, hpaths s hs {} rfl _ "name" "a.ts" List.mem_cons_self rfl rfl⟩

end Analysis

end RepoSurvey
