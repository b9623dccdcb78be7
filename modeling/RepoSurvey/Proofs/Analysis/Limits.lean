import RepoSurvey.Proofs.Analysis.Contributions
import RepoSurvey.Proofs.Analysis.Targets

/-!
# RepoSurvey.Proofs.Analysis.Limits

What the limit on the number of dependencies does. It is looked at once, after the edges of all
files were put one after the other, so a tighter limit shortens the list of dependencies and leaves
all else alone (`run_under_tighter_limit`).
-/

namespace RepoSurvey

theorem Graph.upTo_upTo {α : Type} {m n : Int} (hm : 0 ≤ m) (hmn : m ≤ n) (xs : List α) :
    (upTo n xs).take (min m (upTo n xs).length).toNat = upTo m xs := by
  obtain ⟨k, rfl⟩ := Int.eq_ofNat_of_zero_le hm
  obtain ⟨l, rfl⟩ := Int.eq_ofNat_of_zero_le (hm.trans hmn)
  rw [upTo_ofNat, upTo_ofNat, ← Nat.cast_min, Int.toNat_natCast, ← List.take_eq_take_min,
    List.take_take, Nat.min_eq_left (Int.ofNat_le.mp hmn)]

/-- A snapshot with its first dependencies alone. -/
def Snapshot.limited (limit : Int) (s : Snapshot) : Snapshot :=
  { s with dependencies := s.dependencies.take (min limit s.dependencies.length).toNat }

namespace Analysis

/-! ## Two limits -/

section Limits

variable {tight wide : Limits} (htight : 0 ≤ tight.maxDependencyEdges)
  (hle : tight.maxDependencyEdges ≤ wide.maxDependencyEdges)
include htight hle

theorem snapshot_of_tighter (now : Int) (name : String) (options : AnalysisOptions)
    (workspace : Workspace.Info) (packages : Option Workspace.Packages)
    (files : List SourceFile) :
    snapshot tight now name options workspace packages files =
      (snapshot wide now name options workspace packages files).limited
        tight.maxDependencyEdges := by
  simp only [snapshot, Snapshot.limited, Graph.upTo_upTo htight hle]

theorem ofRecords_of_tighter (now : Int) (name : Value) (options : AnalysisOptions)
    (files : List SourceFile) :
    (ofRecords tight now name options files).result =
      (ofRecords wide now name options files).result.map
        (Snapshot.limited tight.maxDependencyEdges) := by
  have hsnapshot := snapshot_of_tighter htight hle now
  -- The notice on what is cut off is all that an analysis does with the limit before the end.
  simp only [ofRecords, Logged.bind_of_ok (Logged.result_notice _), apply_ite Logged.result,
    ite_self, Logged.result_bind, Logged.result_pure, hsnapshot]
  cases (Workspace.detect files).result with
  | error e => rfl
  | ok workspace =>
    cases hpackages : (linkedPackages workspace (kept options files)).result with
    | error e => simp only [Except.bind, hpackages]; rfl
    | ok packages =>
      simp only [Except.bind, hpackages]
      cases (readName name).result <;> rfl

theorem run_of_tighter (now : Int) (name : Value) (manifest : List Value) (options : Value) :
    (run tight now name manifest options).result =
      (run wide now name manifest options).result.map
        (Snapshot.limited tight.maxDependencyEdges) := by
  simp only [run, Logged.result_bind, ofRecords_of_tighter htight hle]
  cases (readRecords 0 manifest).result with
  | error e => rfl
  | ok files => cases (readOptions options).result <;> rfl

end Limits

/-! ## All edges -/

/-- The edges that a file adds by itself: what its content refers to, one reference after the other,
and then the packages that it depends on as a manifest. -/
def Context.edgesOf (c : Context) (f : SourceFile) : List Edge :=
  (f.references.filterMap fun r => (r.resolve f.path c.index).map fun target =>
    { source := f.path, target, kind := r.kind }) ++ packageEdges c.packages f.path

theorem Context.edges_eq_flatMap (c : Context) (manifest : List Value) :
    c.edges manifest = (kept c.options (manifest.filterMap record?)).flatMap c.edgesOf := by
  rw [Context.edges_eq, List.flatMap_map]
  simp only [edges_scan]
  rfl

/-- Under a tighter limit an analysis gives the same result, up to the dependencies of the snapshot,
of which it has the first ones. Under any limit they are the beginning of one list: that of the
edges of each kept file, one file after the other in the order of the manifest. -/
theorem run_under_tighter_limit {tight wide : Limits} (htight : 0 ≤ tight.maxDependencyEdges)
    (hle : tight.maxDependencyEdges ≤ wide.maxDependencyEdges) (now : Int) (name : Value)
    (manifest : List Value) (options : Value) :
    (run tight now name manifest options).result =
        (run wide now name manifest options).result.map
          (Snapshot.limited tight.maxDependencyEdges) ∧
      ∀ s, (run wide now name manifest options).result = .ok s →
        ∃ c, Context.ofManifest manifest options = .ok c ∧
          s.dependencies = ((kept c.options (manifest.filterMap record?)).flatMap
            c.edgesOf).take wide.maxDependencyEdges.toNat := by
  refine ⟨run_of_tighter htight hle now name manifest options, fun s hs => ?_⟩
  obtain ⟨c, hc, _, hdependencies⟩ := contributions_of_run hs
  refine ⟨c, hc, ?_⟩
  rw [hdependencies, Context.edges_eq_flatMap, Graph.upTo, if_neg (by omega)]

/-- Two scripts that import each other, before the manifests of two packages. -/
def scriptsAndPackages : List Value :=
  .object [("name", .text "a.ts"), ("content", .text "import './c'")] ::
    .object [("name", .text "c.ts"), ("content", .text "import './a'")] :: twoPackages

/-- A limit of two leaves the imports, which come before the edge between the packages. -/
theorem run_under_limit_two :
    0 ≤ ({ maxDependencyEdges := 2 } : Limits).maxDependencyEdges ∧
      ({ maxDependencyEdges := 2 } : Limits).maxDependencyEdges ≤
        ({} : Limits).maxDependencyEdges ∧
      ∃ s, (run {} 0 (.text "r") scriptsAndPackages .null).result = .ok s ∧
        s.dependencies = [⟨"a.ts", "c.ts", .imported⟩, ⟨"c.ts", "a.ts", .imported⟩,
          ⟨"package.json", "b/package.json", .workspace⟩] ∧
        (run { maxDependencyEdges := 2 } 0 (.text "r") scriptsAndPackages .null).result =
          .ok { s with dependencies :=
            [⟨"a.ts", "c.ts", .imported⟩, ⟨"c.ts", "a.ts", .imported⟩] } := by
  have hedges : (run {} 0 (.text "r") scriptsAndPackages .null).result.toOption.map
      (·.dependencies) = some [⟨"a.ts", "c.ts", .imported⟩, ⟨"c.ts", "a.ts", .imported⟩,
        ⟨"package.json", "b/package.json", .workspace⟩] := by decide +kernel
  obtain ⟨s, hs, hdependencies⟩ := Except.toOption_map_eq_some_iff.mp hedges
  have htight : 0 ≤ ({ maxDependencyEdges := 2 } : Limits).maxDependencyEdges := by decide
  have hle : ({ maxDependencyEdges := 2 } : Limits).maxDependencyEdges ≤
      ({} : Limits).maxDependencyEdges := by decide
  refine ⟨htight, hle, s, hs, hdependencies, ?_⟩
  rw [(run_under_tighter_limit htight hle 0 (.text "r") scriptsAndPackages .null).1, hs, Except.map,
    Snapshot.limited, hdependencies]
  rfl

end Analysis

end RepoSurvey
