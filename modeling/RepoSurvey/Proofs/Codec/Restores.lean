import Mathlib.Data.List.Forall2
import RepoSurvey.Proofs.Snapshot.Recovery

/-!
# RepoSurvey.Proofs.Codec.Restores

Codecs that read back what they write. `Codec.Restores c a` says that of one thing `a` and both
spellings. It holds of texts, numbers, flags and names, and it carries over from the parts to lists,
mappings and records: of a record, each slot has to restore its own field, and no name may stand for
two fields (`Codec.record_restores`).
-/

namespace RepoSurvey

/-- Types in which every member is found by its name. -/
class Named.Lawful (α : Type) [Named α] : Prop where
  find?_name : ∀ a : α, Named.find? (Named.name a) = some a

/-- Whether a codec reads back a thing that it wrote, in either spelling. -/
def Codec.Restores {α : Type} (c : Codec α) (a : α) : Prop :=
  ∀ sp, c.read (c.write sp a) = .ok a

namespace Codec

variable {α : Type} {c : Codec α}

/-! ## Single values -/

theorem text_restores (s : String) : text.Restores s := fun _ => rfl

theorem integer_restores (n : Int) : integer.Restores n := fun _ => rfl

theorem number_restores (x : Binary64) : number.Restores x := fun _ => rfl

theorem flag_restores (b : Bool) : flag.Restores b := fun _ => rfl

theorem named_restores [Named α] [Named.Lawful α] (a : α) : named.Restores a := by
  intro sp
  simp [named, Decoded.textOf?, Named.Lawful.find?_name]

theorem optional_restores {o : Option α} (h : ∀ a, o = some a → c.Restores a)
    (hnull : ∀ a sp, o = some a → c.write sp a ≠ .null) : c.optional.Restores o := by
  intro sp
  cases o with
  | none => rfl
  | some a =>
    have hwritten := hnull a sp rfl
    simp only [optional, h a rfl sp]
    rfl

/-! ## Lists and mappings -/

theorem list_restores {as : List α} (h : ∀ a ∈ as, c.Restores a) : c.list.Restores as := by
  intro sp
  refine Decoded.list_eq_ok.mpr ?_
  rw [List.map_map]
  exact List.map_congr_left fun a ha => h a ha sp

theorem mapping_read_write {as : List (String × α)} (h : ∀ a ∈ as, c.Restores a.2) (sp : Spelling) :
    Decoded.mapping c.read (as.map fun a => (a.1, c.write sp a.2)) = .ok as := by
  induction as with
  | nil => rfl
  | cons a as ih =>
    rw [List.map_cons, Decoded.mapping, h a List.mem_cons_self sp,
      ih fun b hb => h b (List.mem_cons_of_mem a hb)]
    rfl

theorem mapping_restores {as : List (String × α)} (h : ∀ a ∈ as, c.Restores a.2)
    (hkeys : Keyed.Distinct as) : c.mapping.Restores as := by
  intro sp
  show (Decoded.mapping c.read (as.map fun a => (a.1, c.write sp a.2))).map Keyed.merged = .ok as
  rw [mapping_read_write h sp]
  exact congrArg Decoded.ok (Keyed.merged_of_distinct hkeys)

end Codec

/-! ## Records -/

def Label.names (l : Label) : List String :=
  if l.camel = l.snake then [l.camel] else [l.camel, l.snake]

theorem Label.mem_names {l : Label} {key : String} : key ∈ l.names ↔ l.Spells key := by
  rw [names, Spells]
  split
  · next h => simp [← h]
  · simp

theorem Label.spells_spelled (l : Label) (sp : Spelling) : l.Spells (l.spelled sp) := by
  cases sp
  · exact .inl rfl
  · exact .inr rfl

namespace Slot

variable {α σ : Type} {ss : List (Slot σ)} {x : σ}

theorem separate_of_nodup (h : (ss.flatMap fun s => s.label.names).Nodup) : Separate ss := by
  rw [List.nodup_flatMap] at h
  refine h.2.imp fun hst key hs ht => ?_
  exact hst (Label.mem_names.mpr hs) (Label.mem_names.mpr ht)

theorem last?_fields (hsep : Separate ss) {s : Slot σ} (hs : s ∈ ss) (sp : Spelling) :
    (fields ss sp x).last? (s.label.spelled sp) = some (s.write sp x) := by
  have hmem : (s.label.spelled sp, s.write sp x) ∈ fields ss sp x := List.mem_map_of_mem hs
  cases h : (fields ss sp x).last? (s.label.spelled sp) with
  | none => exact absurd rfl (Fields.last?_eq_none_iff.mp h _ hmem)
  | some v =>
    obtain ⟨t, ht, hfield⟩ := List.mem_map.mp (Fields.mem_of_last? h)
    obtain ⟨hkey, rfl⟩ := Prod.mk.inj hfield
    have hspells := t.label.spells_spelled sp
    rw [hkey] at hspells
    rw [hsep.eq_of_spells ht hs hspells (s.label.spells_spelled sp)]

theorem last?_fields_snake (hsep : Separate ss) {s : Slot σ} (hs : s ∈ ss)
    (hne : s.label.camel ≠ s.label.snake) :
    (fields ss .snake x).last? s.label.camel = none := by
  refine Fields.last?_eq_none_iff.mpr fun f hf hkey => ?_
  obtain ⟨t, ht, rfl⟩ := List.mem_map.mp hf
  have hspells := t.label.spells_spelled .snake
  rw [show t.label.spelled .snake = s.label.camel from hkey] at hspells
  rw [hsep.eq_of_spells ht hs hspells (.inl rfl)] at hkey
  exact hne hkey.symm

theorem field?_fields (hsep : Separate ss) {s : Slot σ} (hs : s ∈ ss) (sp : Spelling) :
    (fields ss sp x).field? s.label = some (s.label.spelled sp, s.write sp x) := by
  have hlast := last?_fields (x := x) hsep hs sp
  cases sp with
  | camel =>
    rw [Fields.field?, show s.label.camel = s.label.spelled .camel from rfl, hlast]
  | snake =>
    by_cases heq : s.label.camel = s.label.snake
    · rw [Fields.field?, heq, show s.label.snake = s.label.spelled .snake from rfl, hlast]
    · rw [Fields.field?, last?_fields_snake hsep hs heq,
        show s.label.snake = s.label.spelled .snake from rfl, hlast]
      rfl

/-- Whether a slot reads what it wrote of a record as the change `f`. -/
def Restores (s : Slot σ) (x : σ) (f : σ → σ) : Prop := ∀ sp, s.read (s.write sp x) = .ok f

theorem restores_optional {l : Label} {c : Codec α} {get : σ → α} {set : α → σ → σ}
    (h : c.Restores (get x)) : (optional l c get set).Restores x (set (get x)) := by
  intro sp
  show (c.read (c.write sp (get x))).map set = _
  rw [h sp]
  rfl

theorem restores_required {l : Label} {c : Codec α} {get : σ → α} {set : α → σ → σ}
    (h : c.Restores (get x)) : (required l c get set).Restores x (set (get x)) :=
  restores_optional (l := l) h

theorem updates_fields {changes : List (σ → σ)} {fs : Fields} {sp : Spelling}
    (hfields : ∀ s ∈ ss, fs.field? s.label = some (s.label.spelled sp, s.write sp x))
    (h : List.Forall₂ (fun s f => s.Restores x f) ss changes) :
    updates fs ss = .ok fun y => changes.foldl (fun y f => f y) y := by
  induction h with
  | nil => rfl
  | @cons s f ss changes hs _ ih =>
    have hupdate : s.update fs = .ok f := by
      rw [update, hfields s List.mem_cons_self]
      exact Decoded.under_eq_ok.mpr (hs sp)
    rw [updates, hupdate, ih fun t ht => hfields t (List.mem_cons_of_mem s ht)]
    rfl

end Slot

theorem Slot.updates_congr {σ : Type} {fs gs : Fields}
    (h : ∀ key, gs.last? key = fs.last? key) (ss : List (Slot σ)) :
    Slot.updates gs ss = Slot.updates fs ss := by
  induction ss with
  | nil => rfl
  | cons s ss ih =>
    have hupdate : s.update gs = s.update fs := by
      rw [Slot.update, Slot.update, Fields.field?, Fields.field?, h, h]
    rw [Slot.updates, Slot.updates, hupdate, ih]

theorem Codec.record_read_congr {σ : Type} {known : Record → Option σ} {blank : σ}
    {slots : List (Slot σ)} {fs gs : Fields} (h : ∀ key, gs.last? key = fs.last? key) :
    (record known blank slots).read (.object gs) = (record known blank slots).read (.object fs) := by
  show (Slot.updates gs slots).map _ = (Slot.updates fs slots).map _
  rw [Slot.updates_congr h]

theorem Codec.record_write_ne_null {σ : Type} {known : Record → Option σ} {blank x : σ}
    {slots : List (Slot σ)} {sp : Spelling} : (record known blank slots).write sp x ≠ .null :=
  nofun

/-- A record is restored if each of its slots restores its field and the changes read from all of
them turn the empty record into it. -/
theorem Codec.record_restores {σ : Type} {known : Record → Option σ} {blank x : σ}
    {slots : List (Slot σ)} {changes : List (σ → σ)}
    (hsep : Slot.Separate slots) (h : List.Forall₂ (fun s f => s.Restores x f) slots changes)
    (hx : changes.foldl (fun y f => f y) blank = x) : (record known blank slots).Restores x := by
  intro sp
  show (Slot.updates (Slot.fields slots sp x) slots).map (fun f => f blank) = .ok x
  rw [Slot.updates_fields (fun s hs => Slot.field?_fields hsep hs sp) h]
  exact congrArg Decoded.ok hx

end RepoSurvey
