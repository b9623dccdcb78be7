import RepoSurvey.Proofs.Drift

/-!
# RepoSurvey.Proofs.Drift.Dependencies

Which dependencies count as new. A dependency is known by its ends, but it is compared by its key,
and an arrow in a path can be taken for the one between the ends (`Edge.key_eq_iff`). So a new
dependency may be missed, but none is counted that is not new (`newDependencies_counts`).
-/

namespace RepoSurvey

/-! ## Keys of edges -/

namespace Edge

def ends (e : Edge) : String × String := (e.source, e.target)

/-- Whether the key of an edge can be split at a later arrow so that it becomes that of another: a
piece of the path goes over from the target to the source. -/
def Confusable (e f : Edge) : Prop :=
  ∃ piece, f.source = e.source ++ "->" ++ piece ∧ e.target = piece ++ "->" ++ f.target

variable {e f : Edge}

theorem ends_eq_iff : e.ends = f.ends ↔ e.source = f.source ∧ e.target = f.target :=
  Prod.ext_iff

theorem key_of_ends (h : e.ends = f.ends) : e.key = f.key := by
  obtain ⟨hsource, htarget⟩ := ends_eq_iff.mp h
  rw [key, key, hsource, htarget]

theorem Confusable.key_eq (h : e.Confusable f) : e.key = f.key := by
  obtain ⟨piece, hsource, htarget⟩ := h
  rw [key, key, hsource, htarget]
  simp only [String.append_assoc]

theorem Confusable.ends_ne (h : e.Confusable f) : e.ends ≠ f.ends := by
  obtain ⟨piece, hsource, _⟩ := h
  intro hends
  have hlength := congrArg String.length ((ends_eq_iff.mp hends).1.trans hsource)
  have harrow : "->".length = 2 := rfl
  simp only [String.length_append, harrow] at hlength
  omega

theorem Confusable.arrows (h : e.Confusable f) :
    "->".toList <:+: f.source.toList ∧ "->".toList <:+: e.target.toList := by
  obtain ⟨piece, hsource, htarget⟩ := h
  rw [hsource, htarget]
  simp only [String.toList_append]
  exact ⟨⟨_, _, rfl⟩, ⟨_, _, rfl⟩⟩

theorem toList_key (e : Edge) :
    e.key.toList = e.source.toList ++ '-' :: '>' :: e.target.toList := by
  have harrow : "->".toList = ['-', '>'] := rfl
  simp only [key, String.toList_append, harrow, List.append_assoc, List.cons_append, List.nil_append]

/-- If keys agree and one source starts with the other, then the ends agree as well unless the arrow
of the longer one stands in the target of the shorter one. -/
theorem ends_or_confusable (h : e.key = f.key) {more : List Char}
    (hsource : f.source.toList = e.source.toList ++ more) : e.ends = f.ends ∨ e.Confusable f := by
  have hkeys : e.source.toList ++ '-' :: '>' :: e.target.toList =
      e.source.toList ++ (more ++ '-' :: '>' :: f.target.toList) := by
    rw [← toList_key, h, toList_key, hsource, List.append_assoc]
  have hrest := List.append_cancel_left hkeys
  match more with
  | [] =>
    rw [List.append_nil] at hsource
    have htarget : e.target.toList = f.target.toList := by simpa using hrest
    exact .inl (ends_eq_iff.mpr
      ⟨(String.toList_inj.mp hsource).symm, String.toList_inj.mp htarget⟩)
  | [c] =>
    -- The first arrow would have to overlap with the second.
    simp at hrest
  | c :: c' :: piece =>
    obtain ⟨rfl, rfl, htarget⟩ : '-' = c ∧ '>' = c' ∧
        e.target.toList = piece ++ '-' :: '>' :: f.target.toList := by
      simpa using hrest
    refine .inr ⟨String.ofList piece, ?_, ?_⟩
    · rw [← String.toList_inj, hsource]
      simp
    · rw [← String.toList_inj, htarget]
      simp

theorem key_eq_iff : e.key = f.key ↔ e.ends = f.ends ∨ e.Confusable f ∨ f.Confusable e := by
  constructor
  · intro h
    have hkeys := congrArg String.toList h
    rw [toList_key, toList_key] at hkeys
    obtain ⟨more, hsource, _⟩ | ⟨more, hsource, _⟩ := List.append_eq_append_iff.mp hkeys
    · exact (ends_or_confusable h hsource).imp_right .inl
    · exact (ends_or_confusable h.symm hsource).imp Eq.symm .inr
  · rintro (h | h | h)
    · exact key_of_ends h
    · exact h.key_eq
    · exact h.key_eq.symm

end Edge

namespace Drift

/-! ## New dependencies -/

section Images

variable {α β : Type} [DecidableEq α] [DecidableEq β] (f : α → β) (s t : Finset α)

theorem sdiff_image_subset : s.image f \ t.image f ⊆ (s \ t).image f := by
  intro b hb
  obtain ⟨hs, ht⟩ := Finset.mem_sdiff.mp hb
  obtain ⟨a, ha, rfl⟩ := Finset.mem_image.mp hs
  exact Finset.mem_image_of_mem f
    (Finset.mem_sdiff.mpr ⟨ha, fun hat => ht (Finset.mem_image_of_mem f hat)⟩)

theorem card_sdiff_image_le : (s.image f \ t.image f).card ≤ (s \ t).card :=
  (Finset.card_le_card (sdiff_image_subset f s t)).trans Finset.card_image_le

/-- Nothing is lost exactly if no member that is in `s` only shares its image with another. -/
theorem card_sdiff_image_eq_iff :
    (s.image f \ t.image f).card = (s \ t).card ↔
      ∀ a ∈ s \ t, ∀ b ∈ s ∪ t, f a = f b → a = b := by
  have hsubset := sdiff_image_subset f s t
  constructor
  · intro hcard a ha b hb hab
    have himage : s.image f \ t.image f = (s \ t).image f :=
      Finset.eq_of_subset_of_card_le hsubset (hcard ▸ Finset.card_image_le)
    have hinj : Set.InjOn f ↑(s \ t) := Finset.card_image_iff.mp (himage ▸ hcard)
    have hbt : b ∉ t := by
      intro hbt
      have hfa : f a ∈ s.image f \ t.image f := himage ▸ Finset.mem_image_of_mem f ha
      exact (Finset.mem_sdiff.mp hfa).2 (hab ▸ Finset.mem_image_of_mem f hbt)
    have hbs : b ∈ s := (Finset.mem_union.mp hb).resolve_right hbt
    exact hinj (Finset.mem_coe.mpr ha) (Finset.mem_coe.mpr (Finset.mem_sdiff.mpr ⟨hbs, hbt⟩)) hab
  · intro h
    have himage : s.image f \ t.image f = (s \ t).image f := by
      refine hsubset.antisymm fun b hb => ?_
      obtain ⟨a, ha, rfl⟩ := Finset.mem_image.mp hb
      obtain ⟨has, hat⟩ := Finset.mem_sdiff.mp ha
      refine Finset.mem_sdiff.mpr ⟨Finset.mem_image_of_mem f has, fun hfa => ?_⟩
      obtain ⟨a', ha', heq⟩ := Finset.mem_image.mp hfa
      rw [h a ha a' (Finset.mem_union_right s ha') heq.symm] at hat
      exact hat ha'
    rw [himage]
    refine Finset.card_image_of_injOn fun a ha b hb => ?_
    have hbs : b ∈ s := (Finset.mem_sdiff.mp (Finset.mem_coe.mp hb)).1
    exact h a (Finset.mem_coe.mp ha) b (Finset.mem_union_left t hbs)

end Images

/-- The pairs of ends that occur in one list of edges and not in another. -/
def newEnds (current baseline : List Edge) : Finset (String × String) :=
  (current.map Edge.ends).toFinset \ (baseline.map Edge.ends).toFinset

theorem toFinset_map_key (edges : List Edge) :
    (edges.map Edge.key).toFinset =
      (edges.map Edge.ends).toFinset.image fun p => p.1 ++ "->" ++ p.2 := by
  ext k
  simp [Edge.key, Edge.ends]

section Count

variable {current baseline : Snapshot} {d : Drift}

theorem Contents.newDependencies_eq_card (h : Contents current baseline d) :
    d.newDependencies = (((current.dependencies.map Edge.key).toFinset \
      (baseline.dependencies.map Edge.key).toFinset).card : Int) :=
  h.newDependencies.trans (missing_eq_card _ _)

theorem Contents.newDependencies_le (h : Contents current baseline d) :
    d.newDependencies ≤ (newEnds current.dependencies baseline.dependencies).card := by
  rw [h.newDependencies_eq_card, toFinset_map_key, toFinset_map_key]
  exact_mod_cast card_sdiff_image_le _ _ _

theorem Contents.newDependencies_eq_iff (h : Contents current baseline d) :
    d.newDependencies = (newEnds current.dependencies baseline.dependencies).card ↔
      ∀ e ∈ current.dependencies, e.ends ∈ newEnds current.dependencies baseline.dependencies →
        ∀ f ∈ current.dependencies ++ baseline.dependencies,
          ¬ e.Confusable f ∧ ¬ f.Confusable e := by
  have hends : ∀ {p : String × String} {edges : List Edge},
      p ∈ (edges.map Edge.ends).toFinset ↔ ∃ e ∈ edges, e.ends = p := by
    intro p edges
    rw [List.mem_toFinset, List.mem_map]
  rw [h.newDependencies_eq_card, toFinset_map_key, toFinset_map_key, Nat.cast_inj, newEnds,
    card_sdiff_image_eq_iff]
  constructor
  · intro hinj e he hnew f hf
    have hfends : f.ends ∈ (current.dependencies.map Edge.ends).toFinset ∪
        (baseline.dependencies.map Edge.ends).toFinset := by
      rw [Finset.mem_union, hends, hends]
      exact (List.mem_append.mp hf).imp (fun hf => ⟨f, hf, rfl⟩) fun hf => ⟨f, hf, rfl⟩
    have hkeys : e.key = f.key → e.ends = f.ends := hinj e.ends hnew f.ends hfends
    exact ⟨fun hconf => hconf.ends_ne (hkeys hconf.key_eq),
      fun hconf => hconf.ends_ne (hkeys hconf.key_eq.symm).symm⟩
  · intro hclear p hp q hq hpq
    obtain ⟨e, he, rfl⟩ := hends.mp (Finset.mem_sdiff.mp hp).1
    obtain ⟨f, hf, rfl⟩ : ∃ f ∈ current.dependencies ++ baseline.dependencies, f.ends = q := by
      rw [Finset.mem_union, hends, hends] at hq
      obtain ⟨f, hf, rfl⟩ | ⟨f, hf, rfl⟩ := hq
      · exact ⟨f, List.mem_append_left _ hf, rfl⟩
      · exact ⟨f, List.mem_append_right _ hf, rfl⟩
    obtain ⟨hef, hfe⟩ := hclear e he hp f hf
    exact (Edge.key_eq_iff.mp hpq).resolve_right fun hconf => hconf.elim hef hfe

end Count

/-- The number of new dependencies is at most that of new pairs of ends. It is less exactly if a new
dependency can be confused with another one, and that takes both a source and a target with an arrow
inside. -/
theorem newDependencies_counts (current baseline : Snapshot) :
    (∀ now, (∃ d, (run now current baseline).result = .ok d) ↔
      |current.score - baseline.score| < Binary64.integerLimit) ∧
      (∀ e f : Edge, e.key = f.key ↔ e.ends = f.ends ∨ e.Confusable f ∨ f.Confusable e) ∧
      ∀ d, Compares current baseline d →
        let pairs := newEnds current.dependencies baseline.dependencies
        let edges := current.dependencies ++ baseline.dependencies
        d.newDependencies ≤ pairs.card ∧
        (d.newDependencies = pairs.card ↔ ∀ e ∈ current.dependencies, e.ends ∈ pairs →
          ∀ f ∈ edges, ¬ e.Confusable f ∧ ¬ f.Confusable e) ∧
        ((∀ e ∈ edges, ¬ "->".toList <:+: e.source.toList) ∨
          (∀ e ∈ edges, ¬ "->".toList <:+: e.target.toList) →
            d.newDependencies = pairs.card) := by
  refine ⟨fun now => exists_run_iff now, fun e f => Edge.key_eq_iff, fun d hd => ?_⟩
  have hcount := hd.contents.newDependencies_eq_iff
  refine ⟨hd.contents.newDependencies_le, hcount, fun harrows => hcount.mpr ?_⟩
  intro e he _ f hf
  have he := List.mem_append_left baseline.dependencies he
  obtain hsources | htargets := harrows
  · exact ⟨fun h => hsources f hf h.arrows.1, fun h => hsources e he h.arrows.1⟩
  · exact ⟨fun h => htargets e he h.arrows.2, fun h => htargets f hf h.arrows.2⟩

/-- A dependency of a file on one with an arrow in its name. -/
def arrowInTarget : Snapshot where
  name := "r"
  dependencies := [{ source := "a", target := "b->c" }]

/-- A dependency of a file with an arrow in its name. -/
def arrowInSource : Snapshot where
  name := "r"
  dependencies := [{ source := "a->b", target := "c" }]

/-- The new dependency is missed. -/
theorem newDependencies_counts_arrows :
    ∃ d, Compares arrowInTarget arrowInSource d ∧
      (newEnds arrowInTarget.dependencies arrowInSource.dependencies).card = 1 ∧
      d.newDependencies < 1 := by
  obtain ⟨hexists, _, hcounts⟩ := newDependencies_counts arrowInTarget arrowInSource
  obtain ⟨d, hd⟩ := (hexists 0).mpr (by decide +kernel)
  obtain ⟨hle, heq, _⟩ := hcounts d ⟨0, hd⟩
  have hcard : (newEnds arrowInTarget.dependencies arrowInSource.dependencies).card = 1 := by
    decide +kernel
  have hconf : Edge.Confusable { source := "a", target := "b->c" }
      { source := "a->b", target := "c" } := ⟨"b", by decide +kernel, by decide +kernel⟩
  rw [hcard] at hle heq
  refine ⟨d, ⟨0, hd⟩, hcard, lt_of_le_of_ne hle fun hone => ?_⟩
  have hclear := heq.mp hone { source := "a", target := "b->c" } (by decide +kernel)
    (by decide +kernel) { source := "a->b", target := "c" } (by decide +kernel)
  exact hclear.1 hconf

end Drift

end RepoSurvey
