import RepoSurvey.Proofs.Analysis.Verbatim
import RepoSurvey.Proofs.Path
import RepoSurvey.Snapshot.Codec

/-!
# RepoSurvey.Proofs.Analysis.Names

The names and extensions of the entries of a snapshot. An entry that is read without a name is named
by the last segment of its path. An analysis names it alike except where the path ends in a slash,
as those of directories may: the last segment is empty there, and the whole path takes its place,
from which the extension is taken too (`names_of_run`).
-/

namespace RepoSurvey

theorem Entry.read_path (path : String) :
    codec.read (.object [("path", .text path)]) =
      .ok { path := path, name := Path.lastSegment path } := rfl

namespace Analysis

theorem entry_of_run {limits : Limits} {now : Int} {name options : Value} {manifest : List Value}
    {s : Snapshot} (h : (run limits now name manifest options).result = .ok s) {e : Entry}
    (he : e ∈ s.entries) :
    e.name = Path.baseName e.path ∧ e.extension = Path.extension e.path := by
  obtain ⟨_, opts, hopts, _⟩ := run_eq_ok_iff.mp h
  obtain ⟨text, workspace, packages, rfl⟩ := exists_snapshot_of_run hopts h
  obtain ⟨f, _, rfl⟩ := List.mem_map.mp he
  simp only [entry_scan, and_self]

/-- Every path is that of an entry after some analysis. -/
theorem exists_entry_of_run (path : String) :
    ∃ s, (run {} 0 (.text "r") [pathOnly path] .null).result = .ok s ∧
      ∃ e ∈ s.entries, e.path = path := by
  have hoptions : (readOptions .null).result = .ok {} := rfl
  obtain ⟨s, hs, hpaths⟩ := run_singleton {} 0 "r" (v := pathOnly path) (f := { path }) rfl rfl
    hoptions
  have hmem : path ∈ s.entries.map (·.path) := by
    rw [hpaths]
    exact List.mem_singleton_self path
  obtain ⟨e, he, hpath⟩ := List.mem_map.mp hmem
  exact ⟨s, hs, e, he, hpath⟩

/-- An analysis names its entries as they are named when they are read with their path alone, except
where the path ends in a slash. Extensions are what follows the last dot of the name, without any
dot, and without a slash except where the path ends in one. -/
theorem names_of_run {limits : Limits} {now : Int} {name options : Value} {manifest : List Value}
    {s : Snapshot} (h : (run limits now name manifest options).result = .ok s) :
    ∀ e ∈ s.entries, ∃ d, Entry.codec.read (.object [("path", .text e.path)]) = .ok d ∧
      e.name = (if e.path.toList.getLast? = some '/' then e.path else d.name) ∧
      (e.name = d.name ↔ e.path.toList.getLast? ≠ some '/') ∧
      (Path.IsExtensionOf e.name e.extension ∧ e.extension ≠ "" ∧ '.' ∉ e.extension.toList ∨
        e.extension = Path.noExtension ∧ ∀ ext, ¬ Path.IsExtensionOf e.name ext) ∧
      ('/' ∈ e.extension.toList ↔
        e.path.toList.getLast? = some '/' ∧ '.' ∈ e.path.toList) := by
  intro e he
  obtain ⟨hname, hext⟩ := entry_of_run h he
  refine ⟨_, Entry.read_path e.path, ?_, ?_, ?_, ?_⟩
  · rw [hname]
    exact Path.baseName_eq e.path
  · rw [hname]
    exact Path.baseName_eq_lastSegment_iff
  · rw [hname, hext]
    exact (Path.extension_cases e.path).imp_left fun hof => ⟨hof, hof.ne_empty, hof.dot_not_mem⟩
  · rw [hext]
    exact Path.slash_mem_extension_iff

/-- A directory with a dot in its name, and a file. -/
theorem names_of_directory_and_file :
    (∃ s, (run {} 0 (.text "r") [pathOnly "v1.0/"] .null).result = .ok s ∧
        ∃ e ∈ s.entries, e.path = "v1.0/" ∧ e.name = "v1.0/" ∧ '/' ∈ e.extension.toList ∧
          ∀ d, Entry.codec.read (.object [("path", .text e.path)]) = .ok d → e.name ≠ d.name) ∧
      ∃ s, (run {} 0 (.text "r") [pathOnly "src/a.ts"] .null).result = .ok s ∧
        ∃ e ∈ s.entries, e.path = "src/a.ts" ∧ '/' ∉ e.extension.toList ∧
          ∃ d, Entry.codec.read (.object [("path", .text e.path)]) = .ok d ∧ e.name = d.name := by
  constructor
  · obtain ⟨s, hs, e, he, hpath⟩ := exists_entry_of_run "v1.0/"
    obtain ⟨d, hd, hname, hdefault, -, hslash⟩ := names_of_run hs e he
    rw [hpath] at hname hdefault hslash
    refine ⟨s, hs, e, he, hpath, hname, hslash.mpr (by decide), fun d' hd' heq => ?_⟩
    cases hd.symm.trans hd'
    exact hdefault.mp heq rfl
  · obtain ⟨s, hs, e, he, hpath⟩ := exists_entry_of_run "src/a.ts"
    obtain ⟨d, hd, -, hdefault, -, hslash⟩ := names_of_run hs e he
    rw [hpath] at hdefault hslash
    exact ⟨s, hs, e, he, hpath, mt hslash.mp (by decide), d, hd, hdefault.mpr (by decide)⟩

end Analysis

end RepoSurvey
