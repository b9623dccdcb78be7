import RepoSurvey.Proofs.Codec.Restores
import RepoSurvey.Proofs.Value.Same

/-!
# RepoSurvey.Proofs.Codec.Tells

What can be told of things from what codecs write of them. `Codec.Tells c R` says that the values
written of two things hold the same data exactly if `R` relates the things, in either spelling. As
with reading back, it carries over from the parts to lists, mappings and records, slot by slot
(`Codec.same_write_iff`).
-/

namespace RepoSurvey

/-- Whether written values hold the same data exactly if `R` relates the things written. -/
def Codec.Tells {α : Type} (c : Codec α) (R : α → α → Prop) : Prop :=
  ∀ sp a b, (c.write sp a).same (c.write sp b) = true ↔ R a b

theorem Named.Lawful.name_inj {α : Type} [Named α] [Named.Lawful α] {a b : α} :
    Named.name a = Named.name b ↔ a = b := by
  refine ⟨fun h => ?_, congrArg _⟩
  have hfound := Named.Lawful.find?_name a
  rw [h, Named.Lawful.find?_name] at hfound
  exact (Option.some.inj hfound).symm

namespace Codec

variable {α : Type} {c : Codec α} {R : α → α → Prop}

/-! ## Single values -/

theorem text_tells : text.Tells Eq := fun _ a b => by simp [text, Value.same_text]

theorem integer_tells : integer.Tells Eq := fun _ a b => by simp [integer, Value.same_int]

theorem number_tells : number.Tells fun x y => x.same y = true :=
  fun _ x y => by simp [number, Value.same_real]

theorem flag_tells : flag.Tells Eq := fun _ a b => by simp [flag, Value.same_bool]

theorem named_tells [Named α] [Named.Lawful α] : (named : Codec α).Tells Eq := fun _ a b => by
  simp [named, Value.same_text, Named.Lawful.name_inj]

theorem optional_tells (h : c.Tells R) (hnull : ∀ sp a, c.write sp a ≠ .null) :
    c.optional.Tells (Option.Rel R) := by
  intro sp a b
  cases a with
  | none =>
    cases b with
    | none => exact iff_of_true rfl .none
    | some b =>
      exact iff_of_false (fun hsame => hnull sp b (Value.same_null_left.mp hsame)) nofun
  | some a =>
    cases b with
    | none => exact iff_of_false (fun hsame => hnull sp a (Value.same_null_right.mp hsame)) nofun
    | some b => exact (h sp a b).trans ⟨.some, fun hrel => by cases hrel; assumption⟩

theorem after_tells (h : c.Tells R) (change : Value → Value) : (c.after change).Tells R := h

/-! ## Lists and mappings -/

theorem list_tells (h : c.Tells Eq) : c.list.Tells Eq := by
  intro sp as bs
  show Value.same (.list (as.map (c.write sp))) (.list (bs.map (c.write sp))) = true ↔ as = bs
  rw [Value.same_list_iff, List.forall₂_map_left_iff, List.forall₂_map_right_iff]
  simp only [h sp, List.forall₂_eq_eq_eq]

theorem mapping_tells (h : c.Tells Eq) : c.mapping.Tells Keyed.Agree := by
  intro sp as bs
  have hlookup : ∀ key, (bs.map fun b => (b.1, c.write sp b.2)).lookup key =
      (bs.lookup key).map (c.write sp) := by
    intro key
    induction bs with
    | nil => rfl
    | cons b bs ih =>
      rw [List.map_cons, Keyed.lookup_cons, Keyed.lookup_cons, ih]
      split <;> rfl
  show Value.same (.object _) (.object _) = true ↔ _
  rw [Value.same_object_iff, List.length_map, List.length_map, List.forall_mem_map, Keyed.Agree]
  refine and_congr_right fun _ => forall₂_congr fun a _ => ?_
  rw [hlookup]
  cases bs.lookup a.1 with
  | none => simp
  | some b =>
    simp only [Option.map_some, Option.some.injEq, exists_eq_left', h sp a.2 b]
    exact eq_comm

end Codec

/-! ## Records -/

namespace Slot

variable {α σ : Type} {ss : List (Slot σ)}

/-- Whether what a slot writes of two records holds the same data exactly if `R` relates them. -/
def Tells (s : Slot σ) (R : σ → σ → Prop) : Prop :=
  ∀ sp x y, (s.write sp x).same (s.write sp y) = true ↔ R x y

theorem tells_optional {l : Label} {c : Codec α} {get : σ → α} {set : α → σ → σ}
    {R : α → α → Prop} (h : c.Tells R) :
    (optional l c get set).Tells fun x y => R (get x) (get y) :=
  fun sp x y => h sp (get x) (get y)

theorem tells_required {l : Label} {c : Codec α} {get : σ → α} {set : α → σ → σ}
    {R : α → α → Prop} (h : c.Tells R) :
    (required l c get set).Tells fun x y => R (get x) (get y) :=
  fun sp x y => h sp (get x) (get y)

theorem Separate.nodup_spelled (h : Separate ss) (sp : Spelling) :
    (ss.map fun s => s.label.spelled sp).Nodup := by
  rw [List.Nodup, List.pairwise_map]
  refine h.imp fun {s t} hst heq => ?_
  have hkey := t.label.spells_spelled sp
  rw [← heq] at hkey
  exact hst _ (s.label.spells_spelled sp) hkey

theorem forall_same_iff {Rs : List (σ → σ → Prop)} (h : List.Forall₂ Tells ss Rs) (sp : Spelling)
    (x y : σ) :
    (∀ s ∈ ss, (s.write sp x).same (s.write sp y) = true) ↔ ∀ R ∈ Rs, R x y := by
  induction h with
  | nil => simp
  | cons hs _ ih => rw [List.forall_mem_cons, List.forall_mem_cons, hs sp x y, ih]

end Slot

section Record

variable {σ : Type} {known : Record → Option σ} {blank : σ} {slots : List (Slot σ)}

theorem Codec.same_write_iff {Rs : List (σ → σ → Prop)} (hsep : Slot.Separate slots)
    (h : List.Forall₂ Slot.Tells slots Rs) (sp : Spelling) (x y : σ) :
    ((record known blank slots).write sp x).same ((record known blank slots).write sp y) = true ↔
      ∀ R ∈ Rs, R x y :=
  (Value.same_object_map_iff (hsep.nodup_spelled sp) _ _).trans (Slot.forall_same_iff h sp x y)

/-- Records are told apart by what their slots tell. -/
theorem Codec.record_tells {Rs : List (σ → σ → Prop)} {R : σ → σ → Prop}
    (hsep : Slot.Separate slots) (h : List.Forall₂ Slot.Tells slots Rs)
    (hR : ∀ x y, (∀ Q ∈ Rs, Q x y) ↔ R x y) : (record known blank slots).Tells R :=
  fun sp x y => (same_write_iff hsep h sp x y).trans (hR x y)

def Value.without (key : String) : Value → Value
  | .object fs => .object (Fields.drop fs key)
  | v => v

/-- A field makes no difference between two records that write the same data there. -/
theorem Codec.same_without_iff {key : String} (hsep : Slot.Separate slots) (sp : Spelling) {x y : σ}
    (h : ∀ s ∈ slots, s.label.spelled sp = key → (s.write sp x).same (s.write sp y) = true) :
    (((record known blank slots).write sp x).without key).same
        (((record known blank slots).write sp y).without key) = true ↔
      ((record known blank slots).write sp x).same ((record known blank slots).write sp y) =
        true := by
  have hdrop : ∀ z, ((record known blank slots).write sp z).without key =
      .object ((slots.filter fun s => s.label.spelled sp != key).map fun s =>
        (s.label.spelled sp, s.write sp z)) := by
    intro z
    show Value.object (Fields.drop (Slot.fields slots sp z) key) = _
    rw [Fields.drop, Slot.fields, List.filter_map]
    rfl
  have hdistinct := hsep.nodup_spelled sp
  rw [hdrop, hdrop, Value.same_object_map_iff (hdistinct.sublist (List.filter_sublist.map _))]
  refine Iff.trans ?_ (Value.same_object_map_iff hdistinct _ _).symm
  simp only [List.mem_filter, bne_iff_ne, and_imp]
  refine forall₂_congr fun s hs => ⟨fun hsame => ?_, fun hsame _ => hsame⟩
  by_cases hkey : s.label.spelled sp = key
  · exact h s hs hkey
  · exact hsame hkey

end Record

end RepoSurvey
