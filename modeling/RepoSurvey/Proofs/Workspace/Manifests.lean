import RepoSurvey.Proofs.Except
import RepoSurvey.Workspace

/-!
# RepoSurvey.Proofs.Workspace.Manifests

What is read from the package manifests of a repository: the members of each that holds an object,
in the order of the files. Only a manifest that is nested too deeply stops the reading
(`Packages.ofFiles_eq_ok_iff`).
-/

namespace RepoSurvey.Workspace

variable {files : List SourceFile} {f : SourceFile} {ms : Json.Members}

/-! ## One manifest -/

/-- Whether a file is a package manifest that holds some members. -/
def Holds (f : SourceFile) (ms : Json.Members) : Prop :=
  Path.baseName f.path = manifestName ∧
    ∃ content, f.content = some content ∧ Json.parseData content = .ok (.object ms)

/-- Whether the content of a file is nested too deeply to be read. -/
def NestedTooDeep (f : SourceFile) : Prop :=
  ∃ content, f.content = some content ∧ Json.parseData content = .error .tooDeep

/-- Whether a file is a package manifest that is nested too deeply to be read. -/
def HoldsTooDeep (f : SourceFile) : Prop :=
  Path.baseName f.path = manifestName ∧ NestedTooDeep f

/-- The members that the content of a file consists of. -/
def members? (f : SourceFile) : Option Json.Members :=
  f.content.bind fun content =>
    match Json.parseData content with
    | .ok (.object ms) => some ms
    | _ => none

/-- The manifest that a file is. -/
def manifest? (f : SourceFile) : Option (String × Json.Members) :=
  if Path.baseName f.path = manifestName then (members? f).map (f.path, ·) else none

theorem members?_eq_some_iff : members? f = some ms ↔
    ∃ content, f.content = some content ∧ Json.parseData content = .ok (.object ms) := by
  rw [members?, Option.bind_eq_some_iff]
  refine exists_congr fun content => and_congr_right fun _ => ?_
  split
  · next ms' hparse => rw [hparse, Option.some.injEq, Except.ok.injEq, Json.Data.object.injEq]
  · next hparse => exact ⟨nofun, fun h => absurd h (hparse ms)⟩

theorem manifest?_eq_some_iff {m : String × Json.Members} :
    manifest? f = some m ↔ f.path = m.1 ∧ Holds f m.2 := by
  obtain ⟨path, ms⟩ := m
  rw [manifest?, Option.ite_none_right_eq_some, Option.map_eq_some_iff, Holds]
  simp only [Prod.mk.injEq, members?_eq_some_iff]
  constructor
  · rintro ⟨hname, _, hmembers, hpath, rfl⟩
    exact ⟨hpath, hname, hmembers⟩
  · rintro ⟨hpath, hname, hmembers⟩
    exact ⟨hname, ms, hmembers, hpath, rfl⟩

theorem parse_of_deep (h : NestedTooDeep f) : (parse f).result = .error .tooDeep := by
  obtain ⟨content, hcontent, hdeep⟩ := h
  unfold parse
  rw [hcontent]
  split
  · next h => cases h
  · next h =>
    cases h
    cases hdeep
  · next h =>
    cases h
    rw [hdeep]
    rfl

theorem parse_of_not_deep (h : ¬ NestedTooDeep f) : (parse f).result = .ok (members? f) := by
  unfold parse members?
  split
  · next hcontent => rw [hcontent]; rfl
  · next hcontent => rw [hcontent]; rfl
  · next content _ hcontent =>
    rw [hcontent, Option.bind_some]
    cases hparse : Json.parseData content with
    | ok d => cases d <;> rfl
    | error e =>
      cases e with
      | tooDeep => exact absurd ⟨content, hcontent, hparse⟩ h
      | _ => rfl

/-! ## All manifests -/

namespace Packages

theorem ofFiles_of_not_deep (h : ∀ f ∈ files, ¬ HoldsTooDeep f) :
    (ofFiles files).result = .ok ⟨files.filterMap manifest?⟩ := by
  induction files with
  | nil => rfl
  | cons f files ih =>
    obtain ⟨hf, hfiles⟩ := List.forall_mem_cons.mp h
    have hrest := ih hfiles
    rw [ofFiles, List.filterMap_cons, manifest?]
    by_cases hname : Path.baseName f.path = manifestName
    · rw [if_pos hname, if_pos hname,
        Logged.bind_of_ok (parse_of_not_deep fun hdeep => hf ⟨hname, hdeep⟩),
        Logged.bind_of_ok hrest]
      cases members? f with
      | none => rfl
      | some ms => rfl
    · rw [if_neg hname, if_neg hname, hrest]

theorem ofFiles_of_deep (hmem : f ∈ files) (hdeep : HoldsTooDeep f) :
    (ofFiles files).result = .error .tooDeep := by
  induction files with
  | nil => cases hmem
  | cons g files ih =>
    rw [ofFiles]
    by_cases hg : HoldsTooDeep g
    · rw [if_pos hg.1, Logged.bind_of_error (parse_of_deep hg.2)]
    · rcases List.mem_cons.mp hmem with rfl | hmem
      · exact absurd hdeep hg
      · have hrest := ih hmem
        by_cases hname : Path.baseName g.path = manifestName
        · rw [if_pos hname, Logged.bind_of_ok (parse_of_not_deep fun hdeep => hg ⟨hname, hdeep⟩),
            Logged.bind_of_error hrest]
        · rw [if_neg hname, hrest]

/-- The packages of some files are their manifests, unless one of those is nested too deeply. -/
theorem ofFiles_eq_ok_iff {ps : Packages} : (ofFiles files).result = .ok ps ↔
    (∀ f ∈ files, ¬ HoldsTooDeep f) ∧ ps = ⟨files.filterMap manifest?⟩ := by
  constructor
  · intro h
    have hdeep : ∀ f ∈ files, ¬ HoldsTooDeep f := by
      intro f hf hdeep
      cases h.symm.trans (ofFiles_of_deep hf hdeep)
    exact ⟨hdeep, Except.ok.inj (h.symm.trans (ofFiles_of_not_deep hdeep))⟩
  · rintro ⟨hdeep, rfl⟩
    exact ofFiles_of_not_deep hdeep

end Packages

end RepoSurvey.Workspace
