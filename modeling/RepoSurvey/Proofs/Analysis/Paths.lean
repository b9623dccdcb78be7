import Mathlib.Data.Finset.Card
import RepoSurvey.Proofs.Analysis.Edges
import RepoSurvey.Proofs.Graph.Arc

/-!
# RepoSurvey.Proofs.Analysis.Paths

The paths of a snapshot. Every kept record has an entry of its own, in the order of the manifest, so
a path that several kept records carry stands in the snapshot as often (`paths_distinct_iff`). Only
the index that imports are looked up in holds each path once.
-/

namespace RepoSurvey

theorem PathIndex.size_ofList (paths : List String) :
    (PathIndex.ofList paths).size = paths.toFinset.card := by
  have hset : paths.eraseDups.toFinset = paths.toFinset := by
    ext path
    simp only [List.mem_toFinset, List.mem_eraseDups]
  rw [← hset, List.toFinset_card_of_nodup (Graph.nodup_eraseDups paths)]
  rfl

theorem PathIndex.size_ofList_eq_length_iff {paths : List String} :
    (PathIndex.ofList paths).size = paths.length ↔ paths.Nodup := by
  rw [size_ofList, ← Multiset.coe_nodup, ← Multiset.toFinset_card_eq_card_iff_nodup]
  rfl

namespace Analysis

/-- The path that a value of a manifest adds to a snapshot, if it is a record that is kept. -/
def keptPath? (options : AnalysisOptions) (v : Value) : Option String :=
  ((record? v).map (·.path)).filter fun path => !isExcluded (exclusions options) path

theorem map_path_kept (options : AnalysisOptions) (manifest : List Value) :
    (kept options (manifest.filterMap record?)).map (·.path) =
      manifest.filterMap (keptPath? options) := by
  induction manifest with
  | nil => rfl
  | cons v manifest ih =>
    rw [kept] at ih ⊢
    cases hv : record? v with
    | none =>
      have hpath : keptPath? options v = none := by rw [keptPath?, hv]; rfl
      rw [List.filterMap_cons_none hv, List.filterMap_cons_none hpath, ih]
    | some f =>
      rw [List.filterMap_cons_some hv, List.filter_cons]
      by_cases hkept : isExcluded (exclusions options) f.path = true
      · have hpath : keptPath? options v = none := by simp [keptPath?, hv, hkept]
        rw [List.filterMap_cons_none hpath, ← ih]
        simp [hkept]
      · have hpath : keptPath? options v = some f.path := by simp [keptPath?, hv, hkept]
        rw [List.filterMap_cons_some hpath, ← ih]
        simp [hkept]

/-- The paths of a snapshot are those of the kept records in order, repeated ones included. They are
distinct exactly if no two kept records share a path, and only then does the number of files agree
with the number of paths that an import can lead to. -/
theorem paths_distinct_iff (limits : Limits) (now : Int) (name : Value) (manifest : List Value)
    (options : Value) {s : Snapshot}
    (h : (run limits now name manifest options).result = .ok s) :
    ∃ opts, (readOptions options).result = .ok opts ∧
      s.entries.map (·.path) = manifest.filterMap (keptPath? opts) ∧
      ((s.entries.map (·.path)).Nodup ↔ manifest.Pairwise fun v w =>
        ∀ path, keptPath? opts v = some path → keptPath? opts w ≠ some path) ∧
      ((s.entries.map (·.path)).Nodup ↔
        (PathIndex.ofList (s.entries.map (·.path))).size = s.totalFiles) := by
  obtain ⟨_, opts, hopts, hrun⟩ := run_eq_ok_iff.mp h
  obtain ⟨workspace, packages, text, _, _, _, hs⟩ := ofRecords_eq_ok_iff.mp hrun
  have hpaths : s.entries.map (·.path) = manifest.filterMap (keptPath? opts) := by
    rw [hs, paths_snapshot, map_path_kept]
  have htotal : s.totalFiles = (s.entries.map (·.path)).length := by
    rw [hs, List.length_map]
    rfl
  refine ⟨opts, hopts, hpaths, ?_, ?_⟩
  · rw [hpaths, List.Nodup, List.pairwise_filterMap]
    refine List.Pairwise.iff fun v w => ⟨fun hne path hv hw => hne path hv path hw rfl, ?_⟩
    rintro hne path hv _ hw rfl
    exact hne path hv hw
  · rw [htotal, Nat.cast_inj, PathIndex.size_ofList_eq_length_iff]

/-- Two records with the same path. -/
def sameTwice : List Value := [.object [("name", .text "a.ts")], .object [("name", .text "a.ts")]]

/-- Two records with one path give two entries with that path. -/
theorem path_repeated :
    ∃ s, (run {} 0 (.text "r") sameTwice .null).result = .ok s ∧
      s.entries.map (·.path) = ["a.ts", "a.ts"] ∧ ¬ (s.entries.map (·.path)).Nodup := by
  have hpaths : (run {} 0 (.text "r") sameTwice .null).result.toOption.map
      (·.entries.map (·.path)) = some ["a.ts", "a.ts"] := by decide +kernel
  obtain ⟨s, hrun, hs⟩ := Except.toOption_map_eq_some_iff.mp hpaths
  obtain ⟨opts, hopts, _, hdistinct, _⟩ := paths_distinct_iff {} 0 (.text "r") sameTwice .null hrun
  cases hopts
  refine ⟨s, hrun, hs, fun hnodup => ?_⟩
  have hfirst := (List.pairwise_cons.mp (hdistinct.mp hnodup)).1 _ List.mem_cons_self
  exact hfirst "a.ts" rfl rfl

end Analysis
end RepoSurvey
