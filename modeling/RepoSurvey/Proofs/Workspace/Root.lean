import RepoSurvey.Proofs.Workspace.Manifests

/-!
# RepoSurvey.Proofs.Workspace.Root

Which file decides whether a repository has workspaces: the first of the shortest paths that end in
the file name of package manifests. That takes more paths than those of package manifests, so the
decision is made by a package manifest if and only if no other path is in front
(`detect_fromManifest_iff`).
-/

namespace RepoSurvey.Workspace

variable {files : List SourceFile} {f g root : SourceFile} {path : String} {info : Info}

/-! ## The shortest path -/

/-- Whether a file is the first of those with the shortest path. -/
def FirstShortest (files : List SourceFile) (f : SourceFile) : Prop :=
  ∃ before after, files = before ++ f :: after ∧ (∀ g ∈ before, f.path.length < g.path.length) ∧
    ∀ g ∈ after, f.path.length ≤ g.path.length

theorem FirstShortest.mem (h : FirstShortest files f) : f ∈ files := by
  obtain ⟨before, after, rfl, _⟩ := h
  exact List.mem_append_right before List.mem_cons_self

theorem FirstShortest.length_le (h : FirstShortest files f) (hg : g ∈ files) :
    f.path.length ≤ g.path.length := by
  obtain ⟨before, after, rfl, hbefore, hafter⟩ := h
  rcases List.mem_append.mp hg with hg | hg
  · exact Nat.le_of_lt (hbefore g hg)
  · rcases List.mem_cons.mp hg with rfl | hg
    · exact Nat.le_refl _
    · exact hafter g hg

theorem FirstShortest.filter {p : SourceFile → Bool} (h : FirstShortest files f)
    (hf : p f = true) : FirstShortest (files.filter p) f := by
  obtain ⟨before, after, rfl, hbefore, hafter⟩ := h
  exact ⟨before.filter p, after.filter p, by rw [List.filter_append, List.filter_cons_of_pos hf],
    fun g hg => hbefore g (List.mem_filter.mp hg).1, fun g hg => hafter g (List.mem_filter.mp hg).1⟩

theorem firstShortest_cons_iff : FirstShortest (g :: files) f ↔
    (f = g ∧ ∀ k ∈ files, g.path.length ≤ k.path.length) ∨
      (f.path.length < g.path.length ∧ FirstShortest files f) := by
  constructor
  · rintro ⟨before, after, hsplit, hbefore, hafter⟩
    cases before with
    | nil =>
      cases hsplit
      exact .inl ⟨rfl, hafter⟩
    | cons k before =>
      cases hsplit
      obtain ⟨hk, hbefore⟩ := List.forall_mem_cons.mp hbefore
      exact .inr ⟨hk, before, after, rfl, hbefore, hafter⟩
  · rintro (⟨rfl, hafter⟩ | ⟨hlt, before, after, rfl, hbefore, hafter⟩)
    · exact ⟨[], files, rfl, List.forall_mem_nil _, hafter⟩
    · exact ⟨g :: before, after, rfl, List.forall_mem_cons.mpr ⟨hlt, hbefore⟩, hafter⟩

theorem shortest_eq_none_iff : shortest files = none ↔ files = [] := by
  cases files with
  | nil => exact ⟨fun _ => rfl, fun _ => rfl⟩
  | cons f files =>
    refine ⟨fun h => ?_, nofun⟩
    rw [shortest] at h
    split at h
    · split at h
      · cases h
      · cases h
    · cases h

theorem shortest_eq_some_iff : shortest files = some f ↔ FirstShortest files f := by
  induction files generalizing f with
  | nil => exact ⟨nofun, fun h => absurd h.mem List.not_mem_nil⟩
  | cons g files ih =>
    rw [firstShortest_cons_iff, ← ih, shortest]
    cases hk : shortest files with
    | none =>
      rw [shortest_eq_none_iff.mp hk]
      simp [eq_comm]
    | some k =>
      have hle : ∀ f ∈ files, k.path.length ≤ f.path.length := fun _ => (ih.mp hk).length_le
      have hmem : k ∈ files := (ih.mp hk).mem
      show (if k.path.length < g.path.length then some k else some g) = some f ↔ _
      -- Of two paths of one length the earlier one stays.
      by_cases hlt : k.path.length < g.path.length
      · rw [if_pos hlt, Option.some.injEq]
        constructor
        · rintro rfl
          exact .inr ⟨hlt, rfl⟩
        · rintro (⟨_, hg⟩ | ⟨_, hkf⟩)
          · exact absurd (hg k hmem) (Nat.not_le.mpr hlt)
          · exact hkf
      · rw [if_neg hlt, Option.some.injEq]
        constructor
        · rintro rfl
          exact .inl ⟨rfl, fun f hf => Nat.le_trans (Nat.not_lt.mp hlt) (hle f hf)⟩
        · rintro (⟨rfl, _⟩ | ⟨hlt', hkf⟩)
          · rfl
          · cases hkf
            exact absurd hlt' hlt

/-! ## Candidates -/

def manifests (files : List SourceFile) : List SourceFile :=
  files.filter fun f => Path.baseName f.path = manifestName

/-- The files that count where the root manifest is looked for. -/
def candidates (files : List SourceFile) : List SourceFile :=
  files.filter fun f => isRootCandidate f.path

theorem baseName_of_afterLast (h : Text.afterLast '/' path.toList = manifestName.toList) :
    Path.baseName path = manifestName := by
  rw [Path.baseName, Path.lastSegment, h, String.ofList_toList]
  rfl

theorem baseName_ne_of_toList {front : List Char} {c : Char} (hc : c ≠ '/')
    (hpath : path.toList = front ++ c :: manifestName.toList) :
    Path.baseName path ≠ manifestName := by
  intro hname
  have hslash : '/' ∉ c :: manifestName.toList := by
    rw [List.mem_cons, not_or]
    exact ⟨Ne.symm hc, by decide⟩
  have hsuffix : c :: manifestName.toList <:+ Text.afterLast '/' path.toList :=
    Text.suffix_afterLast hslash ⟨front, hpath.symm⟩
  have hsegment : (Path.lastSegment path).toList = Text.afterLast '/' path.toList := by
    rw [Path.lastSegment, String.toList_ofList]
  rw [Path.baseName] at hname
  split at hname
  · next hempty =>
    rw [← hsegment, hempty] at hsuffix
    cases List.suffix_nil.mp hsuffix
  · rw [← hsegment, hname] at hsuffix
    exact absurd hsuffix.length_le (Nat.not_succ_le_self _)

theorem isRootCandidate_of_baseName (h : Path.baseName path = manifestName) :
    isRootCandidate path = true := by
  rw [isRootCandidate, Text.endsWith_iff, ← h, Path.baseName]
  split
  · exact List.suffix_rfl
  · rw [Path.lastSegment, String.toList_ofList]
    exact Text.afterLast_suffix _ _

/-- The candidates that are no package manifests have something other than a slash in front of the
file name of package manifests. -/
theorem isRootCandidate_and_baseName_ne_iff :
    isRootCandidate path = true ∧ Path.baseName path ≠ manifestName ↔
      ∃ front c, c ≠ '/' ∧ path.toList = front ++ c :: manifestName.toList := by
  rw [isRootCandidate, Text.endsWith_iff]
  constructor
  · rintro ⟨⟨front, hpath⟩, hname⟩
    rcases List.eq_nil_or_concat front with rfl | ⟨front, c, rfl⟩
    · rw [← String.toList_inj.mp hpath] at hname
      exact absurd (by decide) hname
    · rw [List.concat_append] at hpath
      refine ⟨front, c, ?_, hpath.symm⟩
      rintro rfl
      refine hname (baseName_of_afterLast ?_)
      rw [← hpath]
      exact Text.afterLast_append_cons (by decide) front
  · rintro ⟨front, c, hc, hpath⟩
    refine ⟨⟨front ++ [c], ?_⟩, baseName_ne_of_toList hc hpath⟩
    rw [hpath, List.append_assoc, List.singleton_append]

theorem manifests_eq_filter_candidates (files : List SourceFile) :
    manifests files = (candidates files).filter fun f => Path.baseName f.path = manifestName := by
  rw [manifests, candidates, List.filter_filter]
  refine List.filter_congr fun f _ => ?_
  rw [Bool.eq_iff_iff, Bool.and_eq_true, decide_eq_true_eq]
  exact ⟨fun h => ⟨h, isRootCandidate_of_baseName h⟩, And.left⟩

/-- A manifest at the top is in front of all other candidates. -/
theorem path_eq_manifestName (htop : ∃ f ∈ files, f.path = manifestName)
    (h : FirstShortest (candidates files) root) : root.path = manifestName := by
  obtain ⟨f, hf, hpath⟩ := htop
  have hcandidate : f ∈ candidates files :=
    List.mem_filter.mpr ⟨hf, by rw [hpath]; exact isRootCandidate_of_baseName (by decide)⟩
  have hle := h.length_le hcandidate
  have hsuffix := Text.endsWith_iff.mp (List.mem_filter.mp h.mem).2
  rw [hpath] at hle
  exact (String.toList_inj.mp (hsuffix.eq_of_length_le hle)).symm

/-! ## Detection -/

theorem detect_of_no_candidates (h : candidates files = []) : detect files = pure {} := by
  rw [candidates] at h
  rw [detect, h]
  rfl

theorem shortest_candidates (h : FirstShortest (candidates files) root) :
    shortest (files.filter fun f => isRootCandidate f.path) = some root :=
  shortest_eq_some_iff.mpr h

theorem detect_of_firstShortest (h : FirstShortest (candidates files) root) :
    detect files = detect [root] := by
  have hsingle : shortest ([root].filter fun f => isRootCandidate f.path) = some root := by
    have hcandidate : isRootCandidate root.path = true := (List.mem_filter.mp h.mem).2
    rw [List.filter_singleton, hcandidate]
    rfl
  simp only [detect, shortest_candidates h, hsingle]

/-- Whatever the first candidate holds, it is the root. -/
theorem root_of_detect (h : FirstShortest (candidates files) root)
    (hinfo : (detect files).result = .ok info) : info.root = some root.path := by
  rw [detect, shortest_candidates h] at hinfo
  obtain ⟨found, _, hinfo⟩ := Logged.bind_eq_ok_iff.mp hinfo
  split at hinfo
  · cases hinfo
    rfl
  · split at hinfo
    · cases hinfo
      rfl
    · split at hinfo
      · cases hinfo
        rfl
      · cases hinfo
        rfl

/-- There is no result only if the first candidate is nested too deeply. -/
theorem detect_eq_ok_iff_of_firstShortest (h : FirstShortest (candidates files) root) :
    (∃ info, (detect files).result = .ok info) ↔ ¬ NestedTooDeep root := by
  rw [detect, shortest_candidates h]
  constructor
  · rintro ⟨info, hinfo⟩ hdeep
    obtain ⟨found, hfound, _⟩ := Logged.bind_eq_ok_iff.mp hinfo
    cases hfound.symm.trans (parse_of_deep hdeep)
  · intro hdeep
    simp only [Logged.bind_of_ok (parse_of_not_deep hdeep)]
    split
    · exact ⟨_, rfl⟩
    · split
      · exact ⟨_, rfl⟩
      · split
        · exact ⟨_, rfl⟩
        · exact ⟨_, rfl⟩

/-- Whether the package manifests alone decide what is known: the root is the first of the shortest
of them, and without any there are no workspaces. -/
structure Info.FromManifest (info : Info) (files : List SourceFile) : Prop where
  root : ∀ path, info.root = some path → ∃ f, FirstShortest (manifests files) f ∧ f.path = path ∧
    (detect [f]).result = .ok info
  alone : manifests files = [] → info.isMonorepo = false

/-- The first of the shortest candidates decides, and nothing else. That is what the package
manifests alone decide if and only if it is one of them. A candidate is either a package manifest or
a file whose name is longer and ends like that of a package manifest; a manifest at the top is in
front of all of those. -/
theorem detect_fromManifest_iff (files : List SourceFile) :
    (candidates files = [] → detect files = pure {}) ∧
      (∀ root, FirstShortest (candidates files) root →
        detect files = detect [root] ∧
        ((∃ info, (detect files).result = .ok info) ↔ ¬ NestedTooDeep root) ∧
        ∀ info, (detect files).result = .ok info → info.root = some root.path ∧
          (info.FromManifest files ↔ Path.baseName root.path = manifestName)) ∧
      (∀ path, isRootCandidate path = true ↔ Path.baseName path = manifestName ∨
        ∃ front c, c ≠ '/' ∧ path.toList = front ++ c :: manifestName.toList) ∧
      ((∃ f ∈ files, f.path = manifestName) →
        ∀ root, FirstShortest (candidates files) root → root.path = manifestName) := by
  refine ⟨detect_of_no_candidates, fun root hroot => ?_, fun path => ?_, fun htop root =>
    path_eq_manifestName htop⟩
  · have hdetect := detect_of_firstShortest hroot
    refine ⟨hdetect, detect_eq_ok_iff_of_firstShortest hroot, fun info hinfo => ?_⟩
    have hinfoRoot := root_of_detect hroot hinfo
    refine ⟨hinfoRoot, fun h => ?_, fun hname => ?_⟩
    · obtain ⟨f, hf, hpath, _⟩ := h.root root.path hinfoRoot
      rw [← hpath]
      exact of_decide_eq_true (List.mem_filter.mp hf.mem).2
    · have hmanifest : FirstShortest (manifests files) root := by
        rw [manifests_eq_filter_candidates]
        exact hroot.filter (decide_eq_true hname)
      refine ⟨fun path hpath => ?_, fun hnone => ?_⟩
      · exact ⟨root, hmanifest, Option.some.inj (hinfoRoot.symm.trans hpath), hdetect ▸ hinfo⟩
      · rw [hnone] at hmanifest
        exact absurd hmanifest.mem List.not_mem_nil
  · rw [← isRootCandidate_and_baseName_ne_iff]
    constructor
    · intro h
      exact (em (Path.baseName path = manifestName)).imp_right fun hne => ⟨h, hne⟩
    · rintro (h | ⟨h, _⟩)
      · exact isRootCandidate_of_baseName h
      · exact h

/-- A file whose name ends like that of a package manifest. -/
def oldManifest : SourceFile where
  path := "old-package.json"
  content := some "\x7b\"workspaces\":[\"a\"]\x7d"

/-- The file decides alone although it is no package manifest. -/
theorem detect_fromManifest_iff_old :
    manifests [oldManifest] = [] ∧ (Packages.ofFiles [oldManifest]).result = .ok ⟨[]⟩ ∧
      ∃ info, (detect [oldManifest]).result = .ok info ∧ info.isMonorepo = true ∧
        info.root = some "old-package.json" ∧ ¬ info.FromManifest [oldManifest] := by
  have hinfo : (detect [oldManifest]).result.toOption.map (fun info =>
      (info.isMonorepo, info.root)) = some (true, some "old-package.json") := by decide +kernel
  have hroot : FirstShortest (candidates [oldManifest]) oldManifest :=
    shortest_eq_some_iff.mp (by decide +kernel)
  have hname : Path.baseName oldManifest.path ≠ manifestName := by decide
  obtain ⟨info, hinfo, hparts⟩ := Except.toOption_map_eq_some_iff.mp hinfo
  rw [Prod.mk.injEq] at hparts
  obtain ⟨_, _, hdecides⟩ := (detect_fromManifest_iff [oldManifest]).2.1 oldManifest hroot
  refine ⟨by decide, ?_, info, hinfo, hparts.1, hparts.2, fun h => ?_⟩
  · rw [Packages.ofFiles, if_neg hname]
    rfl
  · exact hname ((hdecides info hinfo).2.mp h)

end RepoSurvey.Workspace
