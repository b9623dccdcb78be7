import RepoSurvey.Proofs.Analysis.Edges
import RepoSurvey.Proofs.Json.Keys
import RepoSurvey.Proofs.Workspace.Manifests

/-!
# RepoSurvey.Proofs.Workspace.Links

Which packages of a repository are linked, how often and in which order. Both tables of `Packages`
are views of the manifests that can be read: the first of them with a name stands for the package,
and where no path is repeated each path has its own dependencies (`linked_packages`).
-/

namespace RepoSurvey.Workspace

variable {files : List SourceFile} {f g : SourceFile} {ms : Json.Members} {name : Json.Points}
  {path : String}

/-! ## Names -/

/-- Whether a file is a package manifest with a name. -/
def Named (name : Json.Points) (f : SourceFile) : Prop :=
  name ≠ [] ∧ ∃ ms, Holds f ms ∧ ms.get? "name" = some (.text name)

/-- Whether a file is the first package manifest with a name. -/
structure Provides (files : List SourceFile) (name : Json.Points) (g : SourceFile) : Prop where
  named : Named name g
  first : ∃ before after, files = before ++ g :: after ∧ ∀ f ∈ before, ¬ Named name f

theorem packageName_eq_some_iff : packageName ms = some name ↔
    name ≠ [] ∧ ms.get? "name" = some (.text name) := by
  rw [packageName]
  split
  · next h =>
    rw [h]
    refine ⟨nofun, ?_⟩
    rintro ⟨hne, heq⟩
    cases heq
    exact absurd rfl hne
  · next other hne h =>
    rw [h, Option.some.injEq, Option.some.injEq, Json.Data.text.injEq]
    refine ⟨?_, And.right⟩
    rintro rfl
    exact ⟨hne, rfl⟩
  · next h => exact ⟨nofun, fun ⟨_, heq⟩ => absurd heq (h name)⟩

theorem named_iff : Named name f ↔
    (manifest? f).any (fun m => decide (packageName m.2 = some name)) = true := by
  simp only [Option.any_eq_true, decide_eq_true_eq, packageName_eq_some_iff, manifest?_eq_some_iff]
  constructor
  · rintro ⟨hne, ms, hholds, hname⟩
    exact ⟨(f.path, ms), ⟨rfl, hholds⟩, hne, hname⟩
  · rintro ⟨⟨_, ms⟩, ⟨_, hholds⟩, hne, hname⟩
    exact ⟨hne, ms, hholds, hname⟩

instance (name : Json.Points) (f : SourceFile) : Decidable (Named name f) :=
  decidable_of_iff _ named_iff.symm

theorem find?_eq_some_iff_provides :
    files.find? (fun f => decide (Named name f)) = some g ↔ Provides files name g := by
  simp only [List.find?_eq_some_iff_append, decide_eq_true_eq, Bool.not_eq_true',
    decide_eq_false_iff_not]
  exact ⟨fun ⟨hnamed, hbefore⟩ => ⟨hnamed, hbefore⟩, fun h => ⟨h.named, h.first⟩⟩

instance (files : List SourceFile) (name : Json.Points) (g : SourceFile) :
    Decidable (Provides files name g) :=
  decidable_of_iff _ find?_eq_some_iff_provides

theorem Provides.mem (h : Provides files name f) : f ∈ files := by
  obtain ⟨before, after, rfl, _⟩ := h.first
  exact List.mem_append_right before List.mem_cons_self

theorem Named.unique {other : Json.Points} (h : Named name f) (h' : Named other f) :
    name = other := by
  obtain ⟨_, ms, ⟨_, content, hcontent, hparse⟩, hname⟩ := h
  obtain ⟨_, ms', ⟨_, content', hcontent', hparse'⟩, hname'⟩ := h'
  cases hcontent.symm.trans hcontent'
  cases hparse.symm.trans hparse'
  cases hname.symm.trans hname'
  rfl

/-- The package of a name is at the first manifest with that name. -/
theorem pathOf_eq_some_iff : Packages.pathOf ⟨files.filterMap manifest?⟩ name = some path ↔
    ∃ g, Provides files name g ∧ g.path = path := by
  have hnamed : (fun f => (manifest? f).any fun m => decide (packageName m.2 = some name)) =
      fun f => decide (Named name f) := by
    funext f
    rw [Bool.eq_iff_iff, decide_eq_true_iff, named_iff]
  rw [Packages.pathOf, List.find?_filterMap, hnamed, Option.map_eq_some_iff]
  simp only [Option.bind_eq_some_iff, find?_eq_some_iff_provides, manifest?_eq_some_iff]
  constructor
  · rintro ⟨m, ⟨g, hg, hpath, _⟩, rfl⟩
    exact ⟨g, hg, hpath⟩
  · rintro ⟨g, hg, rfl⟩
    obtain ⟨_, ms, hholds, _⟩ := hg.named
    exact ⟨(g.path, ms), ⟨g, hg, rfl, hholds⟩, rfl⟩

/-! ## Dependencies -/

/-- The names that a section of a manifest lists, in order. -/
def listed (ms : Json.Members) (part : String) : List Json.Points :=
  match ms.get? part with
  | some (.object deps) => deps.map (·.1)
  | _ => []

theorem nodup_listed (h : Holds f ms) (part : String) : (listed ms part).Nodup := by
  obtain ⟨_, content, _, hparse⟩ := h
  rw [listed]
  split
  · next deps hdeps =>
    have hvalues := (Json.Data.unrepeated_object_iff.mp (Json.unrepeated_of_parseData hparse)).2
    exact (Json.Data.unrepeated_object_iff.mp (hvalues _ (Keyed.mem_of_lookup hdeps))).1
  · exact List.nodup_nil

/-- A name stands among the dependencies once for each section that lists it. -/
theorem count_dependencyNames (h : Holds f ms) (name : Json.Points) :
    (dependencyNames ms).count name = sections.countP fun part => name ∈ listed ms part := by
  show (sections.flatMap (listed ms)).count name = _
  induction sections with
  | nil => rfl
  | cons part parts ih =>
    rw [List.flatMap_cons, List.count_append, (nodup_listed h part).count, ih, List.countP_cons,
      Nat.add_comm]
    simp only [decide_eq_true_eq]

theorem distinct_manifests (h : (files.map (·.path)).Nodup) :
    Keyed.Distinct (files.filterMap manifest?) := by
  induction files with
  | nil => exact Keyed.distinct_nil
  | cons f files ih =>
    obtain ⟨hf, hfiles⟩ := List.nodup_cons.mp h
    rw [List.filterMap_cons]
    split
    · exact ih hfiles
    · next m hm =>
      refine List.nodup_cons.mpr ⟨fun hmem => hf ?_, ih hfiles⟩
      obtain ⟨m', hm', hpath⟩ := List.mem_map.mp hmem
      obtain ⟨g, hg, hm'⟩ := List.mem_filterMap.mp hm'
      have hsame : g.path = f.path := by
        rw [(manifest?_eq_some_iff.mp hm).1, (manifest?_eq_some_iff.mp hm').1]
        exact hpath
      exact List.mem_map.mpr ⟨g, hg, hsame⟩

/-- Where no path is repeated, each manifest has its own entry. -/
theorem lookup_manifests (hpaths : (files.map (·.path)).Nodup) :
    (files.filterMap manifest?).reverse.lookup path = some ms ↔
      ∃ f ∈ files, f.path = path ∧ Holds f ms := by
  have hdistinct := distinct_manifests hpaths
  rw [hdistinct.lookup_reverse, hdistinct.lookup_eq_some_iff, List.mem_filterMap]
  simp only [manifest?_eq_some_iff]

/-- The edge from a manifest that a dependency gives. -/
def link (ps : Packages) (path : String) (name : Json.Points) : Option Edge :=
  (ps.pathOf name).bind fun target =>
    if target = path then none else some { source := path, target, kind := .workspace }

theorem edges_eq (ps : Packages) (path : String) :
    ps.edges path = (ps.dependencies path).filterMap (link ps path) := by
  rw [Packages.edges]
  congr 1
  funext name
  rw [link]
  cases ps.pathOf name with
  | none => rfl
  | some target => rfl

theorem link_eq_some_iff {e : Edge} : link ⟨files.filterMap manifest?⟩ path name = some e ↔
    ∃ g, Provides files name g ∧ path ≠ g.path ∧ e = ⟨path, g.path, .workspace⟩ := by
  rw [link, Option.bind_eq_some_iff]
  simp only [pathOf_eq_some_iff, Option.ite_none_left_eq_some, Option.some.injEq]
  constructor
  · rintro ⟨_, ⟨g, hg, rfl⟩, hne, rfl⟩
    exact ⟨g, hg, Ne.symm hne, rfl⟩
  · rintro ⟨g, hg, hne, rfl⟩
    exact ⟨g.path, ⟨g, hg, rfl⟩, Ne.symm hne, rfl⟩

theorem edges_of_holds (hpaths : (files.map (·.path)).Nodup) (hf : f ∈ files) (h : Holds f ms) :
    Packages.edges ⟨files.filterMap manifest?⟩ f.path =
      (dependencyNames ms).filterMap (link ⟨files.filterMap manifest?⟩ f.path) := by
  rw [edges_eq, Packages.dependencies, (lookup_manifests hpaths).mpr ⟨f, hf, rfl, h⟩]

theorem exists_holds_of_mem_edges (hpaths : (files.map (·.path)).Nodup) {e : Edge}
    (h : e ∈ Packages.edges ⟨files.filterMap manifest?⟩ path) :
    ∃ f ∈ files, f.path = path ∧ ∃ ms, Holds f ms := by
  rw [edges_eq, Packages.dependencies] at h
  split at h
  · next ms hms =>
    obtain ⟨f, hf, hpath, hholds⟩ := (lookup_manifests hpaths).mp hms
    exact ⟨f, hf, hpath, ms, hholds⟩
  · cases h

/-- Only the one name of a manifest leads to it. -/
theorem link_eq_some_iff_of_provides (hpaths : (files.map (·.path)).Nodup)
    (hg : Provides files name g) (hne : path ≠ g.path) {other : Json.Points} :
    link ⟨files.filterMap manifest?⟩ path other = some ⟨path, g.path, .workspace⟩ ↔
      other = name := by
  rw [link_eq_some_iff]
  constructor
  · rintro ⟨g', hg', _, hsame⟩
    rw [Edge.mk.injEq] at hsame
    rw [List.inj_on_of_nodup_map hpaths hg.mem hg'.mem hsame.2.1] at hg
    exact hg'.named.unique hg.named
  · rintro rfl
    exact ⟨g, hg, hne, rfl⟩

/-- The edges from a manifest to another one are as many as the sections that list its name. -/
theorem count_edges (hpaths : (files.map (·.path)).Nodup) (hf : f ∈ files) (h : Holds f ms)
    (hg : Provides files name g) (hne : f.path ≠ g.path) :
    (Packages.edges ⟨files.filterMap manifest?⟩ f.path).count ⟨f.path, g.path, .workspace⟩ =
      sections.countP fun part => name ∈ listed ms part := by
  -- No other name leads to that manifest, so the edges are counted by the name.
  rw [edges_of_holds hpaths hf h, List.count_filterMap, ← count_dependencyNames h, List.count]
  refine List.countP_congr fun other _ => ?_
  rw [beq_iff_eq, beq_iff_eq, link_eq_some_iff_of_provides hpaths hg hne]

/-- Which packages are linked, if no path is repeated. An edge joins a manifest to another one that
is the first with its name, if a section of dependencies lists the name. There is one edge for each
such section, in the order of the sections and of the names in them. -/
theorem linked_packages (hpaths : (files.map (·.path)).Nodup) :
    ((∃ ps, (Packages.ofFiles files).result = .ok ps) ↔ ∀ f ∈ files, ¬ HoldsTooDeep f) ∧
      ∀ ps, (Packages.ofFiles files).result = .ok ps → ∀ s,
        (∀ e ∈ ps.edges s, e.source = s ∧ e.kind = .workspace) ∧
        (∀ t, ⟨s, t, .workspace⟩ ∈ ps.edges s ↔ s ≠ t ∧
          ∃ f ∈ files, f.path = s ∧ ∃ ms, Holds f ms ∧
            ∃ g name, g.path = t ∧ Provides files name g ∧
              ∃ part ∈ sections, name ∈ listed ms part) ∧
        ∀ f ∈ files, f.path = s → ∀ ms, Holds f ms →
          (∀ g name, Provides files name g → s ≠ g.path →
            (ps.edges s).count ⟨s, g.path, .workspace⟩ =
              sections.countP fun part => name ∈ listed ms part) ∧
          ∃ edgeTo : Json.Points → Option Edge,
            (∀ name e, edgeTo name = some e ↔
              ∃ g, Provides files name g ∧ s ≠ g.path ∧ e = ⟨s, g.path, .workspace⟩) ∧
            ps.edges s = (sections.flatMap (listed ms)).filterMap edgeTo := by
  refine ⟨?_, fun ps hps s => ?_⟩
  · simp only [Packages.ofFiles_eq_ok_iff, exists_and_left, exists_eq, and_true]
  · obtain ⟨_, rfl⟩ := Packages.ofFiles_eq_ok_iff.mp hps
    refine ⟨fun e he => ?_, fun t => ⟨fun he => ?_, ?_⟩, ?_⟩
    · obtain ⟨hsource, hkind, _⟩ := Packages.mem_of_mem_edges he
      exact ⟨hsource, hkind⟩
    · obtain ⟨f, hf, rfl, ms, hholds⟩ := exists_holds_of_mem_edges hpaths he
      rw [edges_of_holds hpaths hf hholds] at he
      obtain ⟨name, hname, hlink⟩ := List.mem_filterMap.mp he
      obtain ⟨g, hg, hne, hedge⟩ := link_eq_some_iff.mp hlink
      rw [Edge.mk.injEq] at hedge
      rw [hedge.2.1]
      exact ⟨hne, f, hf, rfl, ms, hholds, g, name, rfl, hg, List.mem_flatMap.mp hname⟩
    · rintro ⟨hne, f, hf, rfl, ms, hholds, g, name, rfl, hg, hlisted⟩
      rw [edges_of_holds hpaths hf hholds]
      exact List.mem_filterMap.mpr
        ⟨name, List.mem_flatMap.mpr hlisted, link_eq_some_iff.mpr ⟨g, hg, hne, rfl⟩⟩
    · rintro f hf rfl ms hholds
      exact ⟨fun g name hg hne => count_edges hpaths hf hholds hg hne, _,
        fun name e => link_eq_some_iff, edges_of_holds hpaths hf hholds⟩

/-- A manifest that lists its own name, a name that is nowhere declared and another name twice. Two
names are halves of characters, and they differ. -/
def rootManifest : SourceFile where
  path := "package.json"
  content := some ("\x7b\"name\": \"root\"," ++
    "\"devDependencies\": \x7b\"\\ud83d\": \"1\", \"a\": \"1\"\x7d," ++
    "\"dependencies\": \x7b\"\\ud83e\": \"1\", \"a\": \"1\", \"root\": \"1\"\x7d\x7d")

def nameManifest (path name : String) : SourceFile where
  path := path
  content := some ("\x7b\"name\": \"" ++ name ++ "\"\x7d")

/-- Four packages, two of them with one name. -/
def fourPackages : List SourceFile :=
  [rootManifest, nameManifest "a/package.json" "a", nameManifest "b/package.json" "\\ud83d",
    nameManifest "c/package.json" "a"]

/-- The name that is listed twice gives two edges to the first manifest that declares it. -/
theorem linked_packages_four :
    (fourPackages.map (·.path)).Nodup ∧ ∃ ps ms,
      (Packages.ofFiles fourPackages).result = .ok ps ∧ Holds rootManifest ms ∧
        ps.edges "package.json" = [⟨"package.json", "a/package.json", .workspace⟩,
          ⟨"package.json", "b/package.json", .workspace⟩,
          ⟨"package.json", "a/package.json", .workspace⟩] ∧
        (sections.countP fun part => [.char 'a'] ∈ listed ms part) = 2 := by
  have hpaths : (fourPackages.map (·.path)).Nodup := by decide
  have hprovides : Provides fourPackages [.char 'a'] (nameManifest "a/package.json" "a") := by
    decide +kernel
  have hroot : (members? rootManifest).isSome = true := by decide +kernel
  have hedges : (Packages.ofFiles fourPackages).result.toOption.map (·.edges "package.json") =
      some [⟨"package.json", "a/package.json", .workspace⟩,
        ⟨"package.json", "b/package.json", .workspace⟩,
        ⟨"package.json", "a/package.json", .workspace⟩] := by decide +kernel
  obtain ⟨ps, hps, hedges⟩ := Except.toOption_map_eq_some_iff.mp hedges
  obtain ⟨ms, hms⟩ := Option.isSome_iff_exists.mp hroot
  have hholds : Holds rootManifest ms := ⟨by decide, members?_eq_some_iff.mp hms⟩
  obtain ⟨_, _, hlinks⟩ := (linked_packages hpaths).2 ps hps "package.json"
  obtain ⟨hcounts, _⟩ := hlinks rootManifest List.mem_cons_self rfl ms hholds
  have hcount := hcounts _ [.char 'a'] hprovides (by decide)
  refine ⟨hpaths, ps, ms, hps, hholds, hedges, ?_⟩
  rw [← hcount, hedges]
  decide

end RepoSurvey.Workspace
