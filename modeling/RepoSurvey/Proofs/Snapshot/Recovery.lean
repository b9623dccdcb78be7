import RepoSurvey.Proofs.Snapshot.Attempt

/-!
# RepoSurvey.Proofs.Snapshot.Recovery

Recovery reads field by field: `fieldwise` says what each field of a recovered snapshot is, and
every line of it looks at nothing but the two keys of its field.
-/

namespace RepoSurvey

/-! ## Lists -/

theorem Decoded.list_eq_ok {α ι : Type} {read : ι → Decoded α} {i : Nat} {vs : List ι}
    {as : List α} : Decoded.list read i vs = .ok as ↔ vs.map read = as.map .ok := by
  induction vs generalizing i as with
  | nil => cases as <;> simp [Decoded.list]
  | cons v vs ih =>
    rw [Decoded.list, Decoded.zipWith_eq_ok]
    constructor
    · rintro ⟨a, rest, ha, hrest, rfl⟩
      rw [List.map_cons, List.map_cons, Decoded.under_eq_ok.mp ha, ih.mp hrest]
    · intro h
      cases as with
      | nil => simp at h
      | cons a as =>
        obtain ⟨ha, hrest⟩ := List.cons.inj h
        exact ⟨a, as, Decoded.under_eq_ok.mpr ha, ih.mpr hrest, rfl⟩

/-- The items that a codec can read of the list under a key; none of any other value. -/
def Codec.readItems {α : Type} (c : Codec α) (fs : Fields) (key : String) : List α :=
  match fs.last? key with
  | some (.list vs) => vs.filterMap fun v => (c.read v).toOption
  | _ => []

theorem Record.parts_ne_nil (r : Record) : r.parts ≠ [] := by
  cases r <;> exact List.cons_ne_nil _ _

section Items

variable {α : Type} {c : Codec α}

theorem Codec.readField?_plain (c : Codec α) (fs : Fields) (key : String) :
    c.readField? fs (.plain key) = (fs.last? key).bind fun v => (c.read v).toOption :=
  Option.or_self

/-- A codec of things that are not written as lists. -/
def Codec.RefusesLists (c : Codec α) : Prop := ∀ vs, (c.read (.list vs)).toOption = none

theorem Codec.list_read_eq_ok (hc : c.RefusesLists) {v : Value} {as : List α}
    (h : c.list.read v = .ok as) :
    ∃ vs, v = .list vs ∧ (vs.filterMap fun v => (c.read v).toOption) = as := by
  cases v with
  | list vs =>
    refine ⟨vs, rfl, ?_⟩
    have hreads := congrArg (List.filterMap Decoded.toOption) (Decoded.list_eq_ok.mp h)
    simpa [List.filterMap_map, Function.comp_def] using hreads
  | record r =>
    -- The parts of a record are lists, so none of them can be read.
    obtain ⟨p, ps, hparts⟩ := List.exists_cons_of_ne_nil r.parts_ne_nil
    simp only [Codec.list, Value.elements?, hparts, List.map_cons] at h
    obtain ⟨a, rest, ha, _⟩ := Decoded.zipWith_eq_ok.mp h
    have hrefused := hc [.text p.1, .text p.2]
    rw [Value.texts, List.map_cons, List.map_singleton, Decoded.under_eq_ok] at ha
    rw [ha] at hrefused
    cases hrefused
  | _ => cases h

theorem Codec.list_readField?_eq (hc : c.RefusesLists) {fs : Fields} {key : String}
    (hread : ∀ v, fs.last? key = some v → ∃ as, c.list.read v = .ok as) :
    (c.list.readField? fs (.plain key)).getD [] = c.readItems fs key := by
  rw [Codec.readField?_plain, Codec.readItems]
  cases h : fs.last? key with
  | none => rfl
  | some v =>
    obtain ⟨as, has⟩ := hread v h
    obtain ⟨vs, rfl, hitems⟩ := Codec.list_read_eq_ok hc has
    simp [has, hitems]

end Items

namespace Snapshot

/-! ## Cleaned fields -/

def trimmed (fs : Fields) : Fields := withReadableLists (fs.drop "validation")

theorem last?_trimmed (fs : Fields) {key : String} (h : key ≠ "validation") :
    (trimmed fs).last? key = (fs.last? key).map ((listReaders.lookup key).getD id) := by
  rw [trimmed, last?_withReadableLists, Fields.drop, Fields.last?_filter (· != "validation"),
    if_pos (by simpa using h)]

theorem last?_trimmed_report (fs : Fields) : (trimmed fs).last? "validation" = none := by
  rw [trimmed, last?_withReadableLists, Fields.drop, Fields.last?_filter (· != "validation")]
  rfl

/-- Whether trimming changes nothing at a key. -/
def untouched (key : String) : Bool := key != "validation" && (listReaders.lookup key).isNone

theorem readField?_trimmed {α : Type} (c : Codec α) (fs : Fields) {l : Label}
    (hcamel : untouched l.camel = true) (hsnake : untouched l.snake = true) :
    c.readField? (trimmed fs) l = c.readField? fs l := by
  have hsame : ∀ key, untouched key = true → (trimmed fs).last? key = fs.last? key := by
    intro key h
    simp only [untouched, Bool.and_eq_true, bne_iff_ne, Option.isNone_iff_eq_none] at h
    rw [last?_trimmed fs h.1, h.2, Option.getD_none, Option.map_id, id]
  rw [Codec.readField?, Codec.readField?, hsame _ hcamel, hsame _ hsnake]

theorem readItems_trimmed {α : Type} {c : Codec α} {record : α → Record} (fs : Fields)
    {key : String} (hreport : key ≠ "validation")
    (hreader : listReaders.lookup key = some (readable c record))
    (hrecord : ∀ a, c.read (.record (record a)) = .ok a) :
    (c.list.readField? (trimmed fs) (.plain key)).getD [] = c.readItems fs key := by
  have hread : ∀ vs, c.list.read (readable c record (.list vs)) =
      .ok (vs.filterMap fun v => (c.read v).toOption) := by
    intro vs
    refine Decoded.list_eq_ok.mpr ?_
    rw [← List.map_filterMap, List.map_map]
    exact List.map_congr_left fun a _ => hrecord a
  rw [Codec.readField?_plain, last?_trimmed fs hreport, hreader, Codec.readItems]
  cases fs.last? key with
  | none => rfl
  | some v =>
    cases v with
    | list vs => simp [hread vs]
    | _ => rfl

/-! ## Field by field -/

/-- A snapshot every field of which is read from its own two keys. The report is left out. -/
def fieldwise (fs : Fields) : Snapshot where
  name := (Codec.text.readField? fs (.plain "name")).getD unnamed
  totalFiles := (Codec.integer.readField? fs ⟨"totalFiles", "total_files"⟩).getD 0
  totalSize := (Codec.integer.readField? fs ⟨"totalSize", "total_size"⟩).getD 0
  totalSymbols := (Codec.integer.readField? fs ⟨"totalSymbols", "total_symbols"⟩).getD 0
  primaryLanguage :=
    (Codec.text.readField? fs ⟨"primaryLanguage", "primary_language"⟩).getD "Unknown"
  languages := LanguageShare.codec.readItems fs "languages"
  entries := Entry.codec.readItems fs "structure"
  dependencies := Edge.codec.readItems fs "dependencies"
  isMonorepo := (Codec.flag.readField? fs ⟨"isMonorepo", "is_monorepo"⟩).getD false
  workspaces := (Codec.text.list.readField? fs (.plain "workspaces")).getD []
  projectType := (Codec.text.readField? fs ⟨"projectType", "project_type"⟩).getD "general"
  philosophy := (Philosophy.codec.readField? fs (.plain "philosophy")).getD {}
  roadmap := (Milestone.codec.list.readField? fs (.plain "roadmap")).getD []
  documentation := (Codec.text.mapping.readField? fs (.plain "documentation")).getD []
  analyzedAt := (Codec.integer.readField? fs ⟨"analyzedAt", "analyzed_at"⟩).getD 0

theorem recovered_eq (fs : Fields) : recovered fs = { fieldwise fs with
    languages := (LanguageShare.codec.list.readField? fs (.plain "languages")).getD []
    entries := (Entry.codec.list.readField? fs (.plain "structure")).getD []
    dependencies := (Edge.codec.list.readField? fs (.plain "dependencies")).getD []
    validation := (Report.codec.optional.readField? fs (.plain "validation")).getD none } := by
  simp only [recovered, slots, Slot.bests, Slot.best_required, Slot.best_optional, fieldwise]

theorem recovered_trimmed (fs : Fields) : recovered (trimmed fs) = fieldwise fs := by
  rw [recovered_eq, readItems_trimmed fs (by decide) rfl fun _ => rfl,
    readItems_trimmed fs (by decide) rfl fun _ => rfl,
    readItems_trimmed fs (by decide) rfl fun _ => rfl,
    Codec.readField?_plain _ _ "validation", last?_trimmed_report]
  simp (disch := decide) only [fieldwise, readField?_trimmed]
  rfl

/-- The report of a readable snapshot apart, it is what its fields are one by one. -/
theorem fieldwise_of_read {fs : Fields} {s : Snapshot} (h : codec.read (.object fs) = .ok s) :
    { s with validation := none } = fieldwise fs := by
  obtain ⟨f, hupdates, _⟩ := Decoded.map_eq_ok.mp h
  have hlist : ∀ {α : Type} {c : Codec α} {key : String} {get : Snapshot → List α}
      {set : List α → Snapshot → Snapshot}, c.RefusesLists →
      Slot.optional (.plain key) c.list get set ∈ slots →
      (c.list.readField? fs (.plain key)).getD [] = c.readItems fs key := by
    intro α c key get set hc hslot
    obtain ⟨g, hg⟩ := Slot.update_of_updates hupdates hslot
    exact Codec.list_readField?_eq hc fun v hv => Slot.read_of_update hg hv
  have hlanguages := hlist (c := LanguageShare.codec) (fun _ => rfl)
    (List.mem_of_getElem? (i := 5) rfl)
  have hentries := hlist (c := Entry.codec) (fun _ => rfl) (List.mem_of_getElem? (i := 6) rfl)
  have hedges := hlist (c := Edge.codec) (fun _ => rfl) (List.mem_of_getElem? (i := 7) rfl)
  rw [← recovered_of_read h, recovered_eq, hlanguages, hentries, hedges]
  rfl

theorem recoverFields_of_failed {fs : Fields} {f : Fault} {more : List Fault}
    (h : codec.read (.object fs) = .failed f more) : recoverFields fs = fieldwise fs := by
  rw [recoverFields, h, attempt_cleaned, Option.getD_some, cleaned, recovered_withName]
  exact recovered_trimmed fs

theorem fieldwise_recoverFields (fs : Fields) :
    { recoverFields fs with validation := none } = fieldwise fs := by
  cases h : codec.read (.object fs) with
  | ok s =>
    rw [recoverFields, h]
    exact fieldwise_of_read h
  | failed f more =>
    rw [recoverFields_of_failed h]
    rfl

theorem recover_object (fs : Fields) :
    (recover (.object fs)).result = .ok (recoverFields fs) := by
  rw [recover]
  cases mismatches fs <;> simp [Except.bind]

/-! ## Independence -/

theorem write_without_report {slot : Slot Snapshot} (hslot : slot ∈ slots)
    (hreport : slot.label ≠ .plain "validation") (sp : Spelling) (s : Snapshot) :
    slot.write sp { s with validation := none } = slot.write sp s := by
  simp only [slots, List.mem_cons, List.not_mem_nil, or_false] at hslot
  rcases hslot with rfl | rfl | rfl | rfl | rfl | rfl | rfl | rfl | rfl | rfl | rfl | rfl | rfl |
    rfl | rfl | rfl
  all_goals first | rfl | exact absurd rfl hreport

theorem write_fieldwise_congr {slot : Slot Snapshot} (hslot : slot ∈ slots)
    (hreport : slot.label ≠ .plain "validation") {fs gs : Fields}
    (h : ∀ key, slot.label.Spells key → gs.last? key = fs.last? key) (sp : Spelling) :
    slot.write sp (fieldwise gs) = slot.write sp (fieldwise fs) := by
  have hcamel := h _ (.inl rfl)
  have hsnake := h _ (.inr rfl)
  simp only [slots, List.mem_cons, List.not_mem_nil, or_false] at hslot
  rcases hslot with rfl | rfl | rfl | rfl | rfl | rfl | rfl | rfl | rfl | rfl | rfl | rfl | rfl |
    rfl | rfl | rfl
  all_goals
    simp only [Slot.required, Slot.optional, Label.plain] at hcamel hsnake
    simp only [Slot.required, Slot.optional, fieldwise, Codec.readField?, Codec.readItems,
      Label.plain, hcamel, hsnake]

/-- Whatever fields are handed over, a snapshot comes back. Fields that can be read as a whole are
read as what they are; else there is no report. Either way the rest is read field by field, so two
lists of fields that agree at the keys of a slot agree there once they are recovered, whatever is
wrong with their other keys. -/
theorem recover_field_by_field (fs : Fields) :
    (recover (.object fs)).result = .ok (recoverFields fs) ∧
      (∀ s, codec.read (.object fs) = .ok s → recoverFields fs = s) ∧
      (∀ f more, codec.read (.object fs) = .failed f more →
        (recoverFields fs).validation = none) ∧
      { recoverFields fs with validation := none } = fieldwise fs ∧
      ∀ slot ∈ slots, slot.label ≠ .plain "validation" → ∀ gs : Fields,
        (∀ key, slot.label.Spells key → gs.last? key = fs.last? key) →
        ∀ sp, slot.write sp (recoverFields gs) = slot.write sp (recoverFields fs) := by
  refine ⟨recover_object fs, fun s h => ?_, fun f more h => ?_, fieldwise_recoverFields fs,
    fun slot hslot hreport gs h sp => ?_⟩
  · rw [recoverFields, h]
  · rw [recoverFields_of_failed h]
    rfl
  · rw [← write_without_report hslot hreport sp (recoverFields gs),
      ← write_without_report hslot hreport sp (recoverFields fs), fieldwise_recoverFields,
      fieldwise_recoverFields, write_fieldwise_congr hslot hreport h]

end Snapshot

end RepoSurvey
