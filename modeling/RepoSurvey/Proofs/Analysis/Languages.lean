import RepoSurvey.Proofs.Analysis.Edges
import RepoSurvey.Proofs.Ranking

/-!
# RepoSurvey.Proofs.Analysis.Languages

The languages of a snapshot rank the languages of its files by their numbers of files
(`ranks_languageShares`), so the primary language is a most frequent one. No extension stands for
the language of a repository without files, which is thus told apart from every other.
-/

namespace RepoSurvey

theorem Language.ofExtension_ne_noLanguage (ext : String) :
    ofExtension ext ≠ Analysis.noLanguage := by
  have htable : ∀ l ∈ table, l.1 ≠ Analysis.noLanguage := by decide
  rw [ofExtension]
  cases hfind : table.find? fun l => l.2.contains (Text.lower ext) with
  | none => decide
  | some l => exact htable l (List.mem_of_find?_eq_some hfind)

namespace Analysis

/-! ## Shares -/

/-- The items that are sorted: one for every language, in the order in which they first appear. -/
theorem ranks_languageShares (entries : List Entry) :
    Ranks (entries.map (·.language)) LanguageShare.language LanguageShare.fileCount
      (languageShares entries) := by
  apply ranks_mergeSort
  rw [List.map_map]
  exact List.map_id _

theorem mem_languageShares_iff {entries : List Entry} {share : LanguageShare} :
    share ∈ languageShares entries ↔ ∃ l ∈ entries.map (·.language),
      share = ⟨l, (entries.map (·.language)).count l,
        percentage ((entries.map (·.language)).count l) entries.length⟩ := by
  rw [languageShares, List.mem_mergeSort, List.mem_map]
  simp only [List.mem_eraseDups, eq_comm]

theorem fileCount_of_mem_languageShares {entries : List Entry} {share : LanguageShare}
    (h : share ∈ languageShares entries) :
    share.fileCount = (entries.map (·.language)).count share.language := by
  obtain ⟨l, _, rfl⟩ := mem_languageShares_iff.mp h
  rfl

theorem sum_fileCount_languageShares (entries : List Entry) :
    ((languageShares entries).map (·.fileCount)).sum = entries.length := by
  rw [(ranks_languageShares entries).sum_eq_length fun _ => fileCount_of_mem_languageShares,
    List.length_map]

/-- Of the shares of some files the first, if there are files, is the greatest. -/
theorem head_languageShares {entries : List Entry} (h : entries ≠ []) :
    ∃ share rest, languageShares entries = share :: rest ∧
      share.language ∈ entries.map (·.language) ∧
      ∀ l, (entries.map (·.language)).count l ≤
        (entries.map (·.language)).count share.language := by
  have hranks := ranks_languageShares entries
  cases hshares : languageShares entries with
  | nil =>
    obtain ⟨e, rest, rfl⟩ := List.exists_cons_of_ne_nil h
    have hmem := (hranks.mem_iff e.language).mpr List.mem_cons_self
    rw [hshares] at hmem
    cases hmem
  | cons share rest =>
    have hmem : ∀ b ∈ share :: rest, b ∈ languageShares entries := fun b hb => hshares ▸ hb
    refine ⟨share, rest, rfl, (hranks.mem_iff _).mp ?_, fun l => ?_⟩
    · exact List.mem_map_of_mem (hmem share List.mem_cons_self)
    · by_cases hl : l ∈ entries.map (·.language)
      · obtain ⟨b, hb, rfl⟩ := List.mem_map.mp ((hranks.mem_iff l).mpr hl)
        have hcount := fileCount_of_mem_languageShares (hmem share List.mem_cons_self)
        rw [hshares] at hranks hb
        have hle := hranks.le_head hb
        rw [hcount, fileCount_of_mem_languageShares (hmem b hb)] at hle
        exact Int.ofNat_le.mp hle
      · rw [List.count_eq_zero_of_not_mem hl]
        exact Nat.zero_le _

/-! ## Snapshots -/

theorem snapshot_of_run {limits : Limits} {now : Int} {name : Value} {manifest : List Value}
    {options : Value} {s : Snapshot} (h : (run limits now name manifest options).result = .ok s) :
    ∃ text opts workspace packages files,
      s = snapshot limits now text opts workspace packages files := by
  obtain ⟨_, opts, _, hrun⟩ := run_eq_ok_iff.mp h
  obtain ⟨workspace, packages, text, _, _, _, hs⟩ := ofRecords_eq_ok_iff.mp hrun
  exact ⟨text, opts, workspace, packages, _, hs⟩

theorem languages_eq {limits : Limits} {now : Int} {name : Value} {manifest : List Value}
    {options : Value} {s : Snapshot} (h : (run limits now name manifest options).result = .ok s) :
    s.languages = languageShares s.entries := by
  obtain ⟨_, _, _, _, _, rfl⟩ := snapshot_of_run h
  rfl

theorem language_ne_noLanguage (limits : Limits) (now : Int) (name : String)
    (options : AnalysisOptions) (workspace : Workspace.Info)
    (packages : Option Workspace.Packages) (files : List SourceFile) :
    ∀ e ∈ (snapshot limits now name options workspace packages files).entries,
      e.language ≠ noLanguage := by
  intro e he
  rw [snapshot, List.mem_map] at he
  obtain ⟨f, _, rfl⟩ := he
  simp only [entry_scan]
  exact Language.ofExtension_ne_noLanguage (Path.extension f.path)

/-- The languages of a snapshot rank those of its files by their numbers of files, which add up to
the number of all files. The primary language is the first of them, than which none is more
frequent; only a snapshot without files has the name for none in its place. -/
theorem languages_of_run (limits : Limits) (now : Int) (name : Value) (manifest : List Value)
    (options : Value) {s : Snapshot}
    (h : (run limits now name manifest options).result = .ok s) :
    Ranks (s.entries.map (·.language)) LanguageShare.language LanguageShare.fileCount
      s.languages ∧
    (∀ share ∈ s.languages,
      share.fileCount = (s.entries.filter (·.language = share.language)).length) ∧
    (s.languages.map (·.fileCount)).sum = s.totalFiles ∧ s.totalFiles = s.entries.length ∧
    (s.entries ≠ [] → s.languages.head?.map (·.language) = some s.primaryLanguage) ∧
    (∀ l, (s.entries.filter (·.language = l)).length ≤
      (s.entries.filter (·.language = s.primaryLanguage)).length) ∧
    (s.primaryLanguage = "Unknown" ↔ s.entries = []) := by
  have hlanguages := languages_eq h
  obtain ⟨text, opts, workspace, packages, files, rfl⟩ := snapshot_of_run h
  set s := snapshot limits now text opts workspace packages files with hs
  have hprimary : s.primaryLanguage = (s.languages.head?.map (·.language)).getD noLanguage := rfl
  simp only [length_filter_eq_count]
  rw [hlanguages] at hprimary ⊢
  refine ⟨ranks_languageShares _, fun share => fileCount_of_mem_languageShares,
    sum_fileCount_languageShares _, rfl, ?_⟩
  by_cases hempty : s.entries = []
  · rw [hempty] at hprimary ⊢
    exact ⟨fun hne => absurd rfl hne, fun l => Nat.le_refl _, fun _ => rfl,
      fun _ => hprimary.trans (by simp [languageShares, noLanguage])⟩
  · obtain ⟨share, rest, hshares, hmem, hmost⟩ := head_languageShares hempty
    rw [hshares] at hprimary
    rw [hshares, hprimary]
    refine ⟨fun _ => rfl, hmost, fun hunknown => ?_, fun hnil => absurd hnil hempty⟩
    obtain ⟨e, he, hlanguage⟩ := List.mem_map.mp hmem
    exact absurd (hlanguage.trans hunknown) (language_ne_noLanguage _ _ _ _ _ _ _ e he)

/-- Five files in three languages, the first of which is the least frequent. -/
def threeLanguages : List Value :=
  ["a.md", "b.ts", "c.py", "d.py", "e.ts"].map fun path => .object [("name", .text path)]

/-- Two languages with two files each come before the one of the first file. -/
theorem languages_of_three :
    ∃ s, (run {} 0 (.text "r") threeLanguages .null).result = .ok s ∧
      Ranks ["Markdown", "TypeScript", "Python", "Python", "TypeScript"] LanguageShare.language
        LanguageShare.fileCount s.languages ∧
      (s.languages.map (·.fileCount)).sum = 5 ∧
      s.languages.head?.map (·.language) = some s.primaryLanguage := by
  have hentries : (run {} 0 (.text "r") threeLanguages .null).result.toOption.map
      (fun s => s.entries.map (·.language)) =
      some ["Markdown", "TypeScript", "Python", "Python", "TypeScript"] := by decide +kernel
  obtain ⟨s, hrun, hs⟩ := Except.toOption_map_eq_some_iff.mp hentries
  obtain ⟨hranks, _, hsum, htotal, hfirst, _⟩ :=
    languages_of_run {} 0 (.text "r") threeLanguages .null hrun
  have hlength : s.entries.length = 5 := by
    rw [← List.length_map (f := Entry.language), hs]
    rfl
  rw [hs] at hranks
  refine ⟨s, hrun, hranks, by rw [hsum, htotal, hlength]; rfl, hfirst ?_⟩
  rw [← List.length_pos_iff, hlength]
  decide

end Analysis

end RepoSurvey
