import RepoSurvey.Proofs.Settings.Tables
import RepoSurvey.Proofs.Slot

/-!
# RepoSurvey.Proofs.Settings.Layers

Where the options of an analysis come from. The environment lies over the later file, and that over
the one with the defaults. Layers are put over each other key by key, and the two spellings of an
option are two keys, so an option in camel case in any layer wins over the same option in snake case
in a layer above it (`camelFirst`). Only where that happens (`Outspelled`) does an option not come
from the highest layer that sets it.
-/

namespace RepoSurvey

/-! ## Options read from fields -/

/-- The value of a field, in whichever spelling it counts. -/
def Fields.value? (fs : Fields) (l : Label) : Option Value := (fs.field? l).map (·.2)

theorem Fields.value?_eq_or (fs : Fields) (l : Label) :
    fs.value? l = (fs.last? l.camel).or (fs.last? l.snake) := by
  rw [value?, field?]
  cases fs.last? l.camel with
  | some v => rfl
  | none => cases fs.last? l.snake <;> rfl

/-- Whether `a` is what a codec reads of a value, or the default if there is no value. -/
def Codec.Gives {α : Type} (c : Codec α) (v? : Option Value) (default a : α) : Prop :=
  match v? with
  | some v => c.read v = .ok a
  | none => a = default

/-- A field that may be left out is set to what its value gives. -/
theorem Slot.update_optional {α σ : Type} {l : Label} {c : Codec α} {get : σ → α}
    {set : α → σ → σ} {fs : Fields} {g : σ → σ} (h : (optional l c get set).update fs = .ok g)
    {x : σ} (hset : set (get x) x = x) :
    ∃ a, c.Gives (fs.value? l) (get x) a ∧ g x = set a x := by
  rw [update, show (optional l c get set).label = l from rfl] at h
  rw [Fields.value?]
  cases hfield : fs.field? l with
  | some found =>
    rw [hfield] at h
    obtain ⟨a, hread, rfl⟩ := Decoded.map_eq_ok.mp (Decoded.under_eq_ok.mp h)
    exact ⟨a, hread, rfl⟩
  | none =>
    rw [hfield] at h
    cases h
    exact ⟨get x, rfl, hset.symm⟩

/-- Whether the options of an analysis are those that some values give, and the defaults where there
are none. -/
structure AnalysisOptions.From (value? : Label → Option Value) (o : AnalysisOptions) : Prop where
  excludePatterns : (Codec.list .text).Gives
    (value? ⟨"excludePatterns", "exclude_patterns"⟩) [] o.excludePatterns
  projectType : Codec.text.Gives (value? ⟨"projectType", "project_type"⟩) "auto" o.projectType
  customVocabulary : (Codec.mapping .text).Gives
    (value? ⟨"customVocabulary", "custom_vocabulary"⟩) [] o.customVocabulary
  customPhilosophy : (Codec.optional .text).Gives
    (value? ⟨"customPhilosophy", "custom_philosophy"⟩) none o.customPhilosophy
  targetRoadmap : (Codec.after (.optional (.list .text)) milestoneTexts).Gives
    (value? ⟨"targetRoadmap", "target_roadmap"⟩) none o.targetRoadmap

theorem AnalysisOptions.from_of_read {fs : Fields} {o : AnalysisOptions}
    (h : AnalysisOptions.codec.read (.object fs) = .ok o) : o.From fs.value? := by
  obtain ⟨_, hall, rfl⟩ := Decoded.map_eq_ok.mp h
  obtain ⟨g₁, _, h₁, hrest₁, rfl⟩ := Decoded.zipWith_eq_ok.mp hall
  obtain ⟨g₂, _, h₂, hrest₂, rfl⟩ := Decoded.zipWith_eq_ok.mp hrest₁
  obtain ⟨g₃, _, h₃, hrest₃, rfl⟩ := Decoded.zipWith_eq_ok.mp hrest₂
  obtain ⟨g₄, _, h₄, hrest₄, rfl⟩ := Decoded.zipWith_eq_ok.mp hrest₃
  obtain ⟨g₅, _, h₅, hrest₅, rfl⟩ := Decoded.zipWith_eq_ok.mp hrest₄
  cases hrest₅
  obtain ⟨patterns, hpatterns, hx₁⟩ := Slot.update_optional h₁ (x := {}) rfl
  obtain ⟨project, hproject, hx₂⟩ := Slot.update_optional h₂ (x := g₁ {}) rfl
  obtain ⟨vocabulary, hvocabulary, hx₃⟩ := Slot.update_optional h₃ (x := g₂ (g₁ {})) rfl
  obtain ⟨philosophy, hphilosophy, hx₄⟩ := Slot.update_optional h₄ (x := g₃ (g₂ (g₁ {}))) rfl
  obtain ⟨roadmap, hroadmap, hx₅⟩ := Slot.update_optional h₅ (x := g₄ (g₃ (g₂ (g₁ {})))) rfl
  rw [hx₁] at hproject
  rw [hx₂, hx₁] at hvocabulary
  rw [hx₃, hx₂, hx₁] at hphilosophy
  rw [hx₄, hx₃, hx₂, hx₁] at hroadmap
  show (g₅ (g₄ (g₃ (g₂ (g₁ {}))))).From fs.value?
  rw [hx₅, hx₄, hx₃, hx₂, hx₁]
  exact ⟨hpatterns, hproject, hvocabulary, hphilosophy, hroadmap⟩

namespace Settings

/-! ## Layers -/

/-- The value of an option in layers, the highest first: the first one in camel case, else the first
one in snake case. -/
def camelFirst (layers : List Fields) (l : Label) : Option Value :=
  (layers.findSome? fun t => t.last? l.camel).or (layers.findSome? fun t => t.last? l.snake)

/-- The value of an option in the highest layer that sets it. -/
def highest (layers : List Fields) (l : Label) : Option Value :=
  layers.findSome? fun t => t.value? l

/-- Whether the highest layer that sets an option has it in snake case only, and a layer below it has
it in camel case. -/
inductive Outspelled (l : Label) : List Fields → Prop where
  | here {t : Fields} {lower : List Fields} (hcamel : t.last? l.camel = none)
      (hsnake : (t.last? l.snake).isSome)
      (hlower : (lower.findSome? fun u => u.last? l.camel).isSome) : Outspelled l (t :: lower)
  | beneath {t : Fields} {lower : List Fields} (hunset : t.value? l = none)
      (h : Outspelled l lower) : Outspelled l (t :: lower)

theorem camelFirst_eq_highest {l : Label} {layers : List Fields} (h : ¬ Outspelled l layers) :
    camelFirst layers l = highest layers l := by
  induction layers with
  | nil => rfl
  | cons t lower ih =>
    rw [camelFirst, highest, List.findSome?_cons, List.findSome?_cons, List.findSome?_cons]
    cases hcamel : t.last? l.camel with
    | some v =>
      rw [Fields.value?_eq_or, hcamel]
      rfl
    | none =>
      cases hsnake : t.last? l.snake with
      | some v =>
        have hlower : (lower.findSome? fun u => u.last? l.camel) = none := by
          rw [← Option.not_isSome_iff_eq_none]
          exact fun hset => h (.here hcamel (by rw [hsnake]; rfl) hset)
        rw [Fields.value?_eq_or, hcamel, hsnake, hlower]
        rfl
      | none =>
        have hunset : t.value? l = none := by
          rw [Fields.value?_eq_or, hcamel, hsnake]
          rfl
        rw [hunset]
        exact ih fun hbelow => h (.beneath hunset hbelow)

/-! ## The layers of the options of an analysis -/

/-- The fields that the environment sets. -/
def environmentLayer (env : Environment) : Fields :=
  match env.get? "ARCHLENS_EXCLUDE" with
  | some s => [("exclude_patterns", Value.texts (patternList s))]
  | none => []

/-- The layers of the options, the highest first. -/
def analysisLayers (env : Environment) (base later : Fields) : List Fields :=
  [environmentLayer env, tableOf later "analysis", keptTable base later "analysis"]

theorem environmentTable_analysis (env : Environment) :
    environmentTable env overrides "analysis" = environmentLayer env := by
  -- Only the last of the overrides is one of this table.
  have hothers : ∀ o ∈ overrides.take 5, o.field? env "analysis" = none := by
    intro o ho
    have htable : o.table ≠ "analysis" := by
      revert o
      decide
    rw [Override.field?]
    split
    · exact if_neg htable
    · rfl
  rw [environmentTable, ← List.take_append_drop 5 overrides, List.filterMap_append,
    List.filterMap_eq_nil_iff.mpr hothers, List.nil_append, environmentLayer]
  cases henv : env.get? "ARCHLENS_EXCLUDE" with
  | none => simp [overrides, Override.field?, Override.ofText, henv]
  | some s => simp [overrides, Override.field?, Override.ofText, henv]

theorem distinct_tableOf {fs : Fields} (h : ∀ f ∈ fs, Toml.KeysDistinct f.2) (name : String) :
    Keyed.Distinct (tableOf fs name) := by
  obtain habsent | ⟨t, hfound⟩ | hblocked := absent_or_table_or_blocked fs name
  · rw [tableOf_of_absent habsent]
    exact Keyed.distinct_nil
  · rw [tableOf_of_get? hfound]
    exact h (name, .object t) (Keyed.mem_of_lookup hfound) t rfl
  · rw [tableOf_of_blocked hblocked]
    exact Keyed.distinct_nil

/-- Neither a file nor a table of it repeats a key. -/
theorem distinct_of_readFileTables {name : String} {content : FileContent} {fs : Fields}
    (h : readFileTables name content = .ok fs) :
    Keyed.Distinct fs ∧ ∀ table, Keyed.Distinct (tableOf fs table) := by
  cases content with
  | bytes bs =>
    simp only [readFileTables] at h
    split at h
    · cases h
    · split at h
      · next hparse =>
        cases h
        have hdistinct := Toml.distinct_of_parse hparse
        exact ⟨hdistinct.1, distinct_tableOf hdistinct.2⟩
      all_goals cases h
  | directory => cases h
  | _ =>
    cases h
    exact ⟨Keyed.distinct_nil, fun _ => Keyed.distinct_nil⟩

/-- What stands under a key of the options is what the highest layer with that key has there. -/
theorem last?_tableOf_analysis {env : Environment} {base later config : Fields}
    (hbase : ∀ table, Keyed.Distinct (tableOf base table)) (hlater : Keyed.Distinct later)
    (htables : ∀ table, Keyed.Distinct (tableOf later table))
    (h : (applyEnvironment env (merge base later)).config = some config) (key : String) :
    (tableOf config "analysis").last? key =
      (analysisLayers env base later).findSome? fun t => t.last? key := by
  have hkept : Keyed.Distinct (keptTable base later "analysis") := by
    rw [keptTable]
    split
    · exact hbase _
    · exact hbase _
    · exact Keyed.distinct_nil
  rw [tableOf_applyOverrides h, tableOf_merge base hlater (htables _), environmentTable_analysis,
    Fields.last?_putAll (hkept.putAll _), Fields.last?_putAll hkept, analysisLayers,
    List.findSome?_cons, List.findSome?_cons, List.findSome?_singleton]
  cases (environmentLayer env).last? key with
  | some v => rfl
  | none => cases (tableOf later "analysis").last? key <;> rfl

/-- Loaded options come from the layers, camel case first, which gives each option the value of the
highest layer that sets it unless a layer below spells it in camel case and that one does not. -/
theorem options_of_load {env : Environment} {default development : FileContent} {s : Settings}
    (h : (load env default development).settings = .ok s) :
    ∃ base later, readFileTables defaultFile default = .ok base ∧
      readFileTables developmentFile development = .ok later ∧
      s.analysis.From (camelFirst (analysisLayers env base later)) ∧
      ∀ l, ¬ Outspelled l (analysisLayers env base later) →
        camelFirst (analysisLayers env base later) l =
          highest (analysisLayers env base later) l := by
  obtain ⟨base, later, config, hbase, hlater, hconfig, htables⟩ := load_eq_ok h
  refine ⟨base, later, hbase, hlater, ?_, fun l hl => camelFirst_eq_highest hl⟩
  have hfrom := AnalysisOptions.from_of_read (read_of_readTable (readTable_of_ofTables htables))
  have hvalues : (tableOf config "analysis").value? = camelFirst (analysisLayers env base later) := by
    have hlast := last?_tableOf_analysis (distinct_of_readFileTables hbase).2
      (distinct_of_readFileTables hlater).1 (distinct_of_readFileTables hlater).2 hconfig
    funext l
    rw [Fields.value?_eq_or, hlast, hlast]
    rfl
  rw [← hvalues]
  exact hfrom

/-- A file that sets one option, in camel case. -/
def camelFile : FileContent :=
  .bytes "[analysis]\nexcludePatterns = [\"vendor/\"]\n".toUTF8.data.toList

/-- An environment that sets the same option. -/
def excludeEnvironment : Environment := [("ARCHLENS_EXCLUDE", "build/")]

/-- The variable does not win over the file, which spells the option in camel case. -/
theorem options_of_outspelled_variable :
    ∃ s base later, (load excludeEnvironment camelFile .absent).settings = .ok s ∧
      readFileTables defaultFile camelFile = .ok base ∧
      readFileTables developmentFile .absent = .ok later ∧
      s.analysis.From (camelFirst (analysisLayers excludeEnvironment base later)) ∧
      Outspelled ⟨"excludePatterns", "exclude_patterns"⟩
        (analysisLayers excludeEnvironment base later) ∧
      highest (analysisLayers excludeEnvironment base later)
        ⟨"excludePatterns", "exclude_patterns"⟩ = some (Value.texts ["build/"]) ∧
      s.analysis.excludePatterns = ["vendor/"] := by
  have hset : environmentLayer excludeEnvironment =
      [("exclude_patterns", Value.texts ["build/"])] := by
    have hvariable : excludeEnvironment.get? "ARCHLENS_EXCLUDE" = some "build/" := by decide
    have hlist : patternList "build/" = ["build/"] := by decide +kernel
    simp only [environmentLayer, hvariable, hlist]
  have hpatterns : (load excludeEnvironment camelFile .absent).settings.toOption.map
      (fun s => s.analysis.excludePatterns) = some ["vendor/"] := by decide +kernel
  have hcamel : (readFileTables defaultFile camelFile).toOption.map (fun base =>
      ([tableOf [] "analysis", keptTable base [] "analysis"].findSome? fun u =>
        u.last? "excludePatterns").isSome) = some true := by decide +kernel
  obtain ⟨s, hload, hread⟩ := Except.toOption_map_eq_some_iff.mp hpatterns
  obtain ⟨base, later, hbase, hlater, hfrom, _⟩ := options_of_load hload
  rw [hbase] at hcamel
  cases hlater
  have hout : Outspelled ⟨"excludePatterns", "exclude_patterns"⟩
      (analysisLayers excludeEnvironment base []) :=
    .here (by decide +kernel) (by decide +kernel) (Option.some.inj hcamel)
  have hhighest : highest (analysisLayers excludeEnvironment base [])
      ⟨"excludePatterns", "exclude_patterns"⟩ = some (Value.texts ["build/"]) := by
    rw [analysisLayers, hset]
    rfl
  exact ⟨s, base, [], hload, hbase, rfl, hfrom, hout, hhighest, hread⟩

end Settings

end RepoSurvey
