import Mathlib.Data.List.Pairwise
import RepoSurvey.Codec
import RepoSurvey.Proofs.Fields

/-!
# RepoSurvey.Proofs.Slot

A slot read by itself. `Slot.best` is what some fields change through a slot when nothing but the
two keys of the slot is looked at: the value in camel case counts if it can be read, else the one in
snake case.

* When all slots together are read without a fault, each of them changed what it changes by itself
  (`updates_eq_ok`).
* The keys at fault are those at which some slot finds its value unreadable (`mem_faults_updates`),
  so without them every slot still changes the same, as long as no two slots share a key
  (`best_without_faults`).
-/

namespace RepoSurvey

/-! ## Faults -/

namespace Decoded

variable {α β : Type}

@[simp] theorem toOption_ok (a : α) : (ok a).toOption = some a := rfl

@[simp] theorem toOption_failed (f : Fault) (more : List Fault) :
    (failed f more : Decoded α).toOption = none := rfl

theorem toOption_eq_some {d : Decoded α} {a : α} : d.toOption = some a ↔ d = .ok a := by
  cases d <;> simp

theorem toOption_map (f : α → β) (d : Decoded α) : (d.map f).toOption = d.toOption.map f := by
  cases d <;> rfl

theorem map_eq_ok {f : α → β} {d : Decoded α} {b : β} :
    d.map f = .ok b ↔ ∃ a, d = .ok a ∧ f a = b := by
  cases d <;> simp [map]

theorem head_faults_under {d : Decoded α} {s : Step} {f : Fault} (h : f ∈ (d.under s).faults) :
    f.path.head? = some s := by
  cases d with
  | ok a => cases h
  | failed e es =>
    rcases List.mem_cons.mp h with rfl | h
    · rfl
    · obtain ⟨e, _, rfl⟩ := List.mem_map.mp h
      rfl

theorem exists_fault_under {d : Decoded α} {s t : Step} :
    (∃ f ∈ (d.under s).faults, f.path.head? = some t) ↔ d.toOption = none ∧ s = t := by
  cases d <;> simp [under, faults]

end Decoded

/-! ## One field -/

/-- What a codec makes of one field: of the value in camel case if that can be read, else of the one
in snake case. -/
def Codec.readField? {α : Type} (c : Codec α) (fs : Fields) (l : Label) : Option α :=
  ((fs.last? l.camel).bind fun v => (c.read v).toOption).or
    ((fs.last? l.snake).bind fun v => (c.read v).toOption)

/-! ## One slot -/

/-- Whether a name is one of the two spellings. -/
def Label.Spells (l : Label) (key : String) : Prop := key = l.camel ∨ key = l.snake

namespace Slot

variable {α σ : Type}

/-- What the value under one key changes through a slot, if it can be read. -/
def readAt (s : Slot σ) (fs : Fields) (key : String) : Option (σ → σ) :=
  (fs.last? key).bind fun v => (s.read v).toOption

/-- What fields change through a slot that is read by itself. -/
def best (s : Slot σ) (fs : Fields) : σ → σ :=
  ((s.readAt fs s.label.camel).or (s.readAt fs s.label.snake)).getD id

/-- The key at which a slot finds a fault. -/
def faultKey? (s : Slot σ) (fs : Fields) : Option String :=
  match fs.field? s.label with
  | some (key, v) => if (s.read v).toOption.isNone then some key else none
  | none => if s.mandatory then some s.label.camel else none

theorem readAt_congr (s : Slot σ) {fs gs : Fields} {key : String}
    (h : gs.last? key = fs.last? key) : s.readAt gs key = s.readAt fs key := by
  rw [readAt, readAt, h]

theorem best_congr {s : Slot σ} {fs gs : Fields}
    (h : ∀ key, s.label.Spells key → gs.last? key = fs.last? key) : s.best gs = s.best fs := by
  rw [best, best, s.readAt_congr (h _ (.inl rfl)), s.readAt_congr (h _ (.inr rfl))]

theorem readAt_optional (l : Label) (c : Codec α) (get : σ → α) (set : α → σ → σ) (fs : Fields)
    (key : String) :
    (optional l c get set).readAt fs key =
      ((fs.last? key).bind fun v => (c.read v).toOption).map set := by
  cases h : fs.last? key <;> simp [readAt, optional, h, Decoded.toOption_map]

theorem readAt_required (l : Label) (c : Codec α) (get : σ → α) (set : α → σ → σ) (fs : Fields)
    (key : String) :
    (required l c get set).readAt fs key =
      ((fs.last? key).bind fun v => (c.read v).toOption).map set :=
  readAt_optional l c get set fs key

theorem best_optional {l : Label} {c : Codec α} {get : σ → α} {set : α → σ → σ} (fs : Fields)
    {x : σ} (hset : set (get x) x = x) :
    (optional l c get set).best fs x = set ((c.readField? fs l).getD (get x)) x := by
  rw [best, readAt_optional, readAt_optional, ← Option.map_or]
  show ((c.readField? fs l).map set).getD id x = _
  cases c.readField? fs l with
  | some a => rfl
  | none => exact hset.symm

theorem best_required {l : Label} {c : Codec α} {get : σ → α} {set : α → σ → σ} (fs : Fields)
    {x : σ} (hset : set (get x) x = x) :
    (required l c get set).best fs x = set ((c.readField? fs l).getD (get x)) x :=
  best_optional fs hset

theorem read_of_update {l : Label} {c : Codec α} {get : σ → α} {set : α → σ → σ} {fs : Fields}
    {g : σ → σ} (h : (optional l c get set).update fs = .ok g) {v : Value}
    (hv : fs.last? l.camel = some v) : ∃ a, c.read v = .ok a := by
  simp only [update, Fields.field?, optional, hv, Decoded.under_eq_ok] at h
  obtain ⟨a, ha, _⟩ := Decoded.map_eq_ok.mp h
  exact ⟨a, ha⟩

theorem update_eq_ok {s : Slot σ} {fs : Fields} {f : σ → σ} (h : s.update fs = .ok f) :
    f = s.best fs := by
  rw [update, Fields.field?] at h
  rw [best]
  cases hcamel : fs.last? s.label.camel with
  | some v =>
    simp only [hcamel, Decoded.under_eq_ok] at h
    simp [readAt, hcamel, h]
  | none =>
    cases hsnake : fs.last? s.label.snake with
    | some v =>
      simp only [hcamel, hsnake, Option.map_some, Decoded.under_eq_ok] at h
      simp [readAt, hcamel, hsnake, h]
    | none =>
      simp only [hcamel, hsnake, Option.map_none] at h
      split at h
      · cases h
      · cases h
        simp [readAt, hcamel, hsnake]

theorem faultKey?_eq_some {s : Slot σ} {fs : Fields} {key : String}
    (h : s.faultKey? fs = some key) :
    s.label.Spells key ∧ s.readAt fs key = none ∧
      (fs.has key = true ∨ s.mandatory = true ∧ key = s.label.camel ∧ fs.has key = false) := by
  rw [faultKey?, Fields.field?] at h
  simp only [Fields.has_eq_isSome, readAt]
  cases hcamel : fs.last? s.label.camel with
  | some v =>
    simp only [hcamel] at h
    split at h
    · next hread =>
      cases h
      exact ⟨.inl rfl, by simpa [hcamel] using hread, .inl (by simp [hcamel])⟩
    · cases h
  | none =>
    simp only [hcamel] at h
    cases hsnake : fs.last? s.label.snake with
    | some v =>
      simp only [hsnake, Option.map_some] at h
      split at h
      · next hread =>
        cases h
        exact ⟨.inr rfl, by simpa [hsnake] using hread, .inl (by simp [hsnake])⟩
      · cases h
    | none =>
      simp only [hsnake, Option.map_none] at h
      split at h
      · next hmandatory =>
        cases h
        exact ⟨.inl rfl, by simp [hcamel], .inr ⟨hmandatory, rfl, by simp [hcamel]⟩⟩
      · cases h

theorem mem_faults_update {s : Slot σ} {fs : Fields} {key : String} :
    (∃ f ∈ (s.update fs).faults, f.path.head? = some (.key key)) ↔ s.faultKey? fs = some key := by
  rw [update, faultKey?]
  cases fs.field? s.label with
  | some found =>
    obtain ⟨k, v⟩ := found
    simp [Decoded.exists_fault_under]
  | none => cases hm : s.mandatory <;> simp [Decoded.faults]

theorem head_faults_update {s : Slot σ} {fs : Fields} {f : Fault}
    (h : f ∈ (s.update fs).faults) : ∃ key, f.path.head? = some (.key key) := by
  rw [update] at h
  cases hfield : fs.field? s.label with
  | some found =>
    obtain ⟨key, v⟩ := found
    rw [hfield] at h
    exact ⟨key, Decoded.head_faults_under h⟩
  | none =>
    refine ⟨s.label.camel, ?_⟩
    cases hm : s.mandatory <;> simp [hfield, hm, Decoded.faults] at h
    simp [h]

/-! ## All slots -/

/-- What fields change through slots each of which is read by itself. -/
def bests (fs : Fields) : List (Slot σ) → σ → σ
  | [], x => x
  | s :: ss, x => bests fs ss (s.best fs x)

theorem bests_congr {ss : List (Slot σ)} {fs gs : Fields}
    (h : ∀ s ∈ ss, s.best gs = s.best fs) (x : σ) : bests gs ss x = bests fs ss x := by
  induction ss generalizing x with
  | nil => rfl
  | cons s ss ih =>
    rw [bests, bests, h s List.mem_cons_self]
    exact ih (fun t ht => h t (List.mem_cons_of_mem _ ht)) _

theorem updates_eq_ok {ss : List (Slot σ)} {fs : Fields} {f : σ → σ}
    (h : updates fs ss = .ok f) : f = bests fs ss := by
  induction ss generalizing f with
  | nil => cases h; rfl
  | cons s ss ih =>
    obtain ⟨g, rest, hg, hrest, rfl⟩ := Decoded.zipWith_eq_ok.mp h
    rw [update_eq_ok hg, ih hrest]
    rfl

theorem update_of_updates {ss : List (Slot σ)} {fs : Fields} {f : σ → σ}
    (h : updates fs ss = .ok f) {s : Slot σ} (hs : s ∈ ss) : ∃ g, s.update fs = .ok g := by
  induction ss generalizing f with
  | nil => cases hs
  | cons t ss ih =>
    obtain ⟨g, rest, hg, hrest, _⟩ := Decoded.zipWith_eq_ok.mp h
    rcases List.mem_cons.mp hs with rfl | hs
    · exact ⟨g, hg⟩
    · exact ih hrest hs

theorem faults_updates (fs : Fields) (ss : List (Slot σ)) :
    (updates fs ss).faults = ss.flatMap fun s => (s.update fs).faults := by
  induction ss with
  | nil => rfl
  | cons s ss ih => rw [updates, Decoded.faults_zipWith, ih, List.flatMap_cons]

theorem mem_faults_updates {ss : List (Slot σ)} {fs : Fields} {key : String} :
    (∃ f ∈ (updates fs ss).faults, f.path.head? = some (.key key)) ↔
      ∃ s ∈ ss, s.faultKey? fs = some key := by
  simp only [faults_updates, List.mem_flatMap, ← mem_faults_update]
  constructor
  · rintro ⟨f, ⟨s, hs, hf⟩, hkey⟩
    exact ⟨s, hs, f, hf, hkey⟩
  · rintro ⟨s, hs, f, hf, hkey⟩
    exact ⟨f, ⟨s, hs, hf⟩, hkey⟩

/-- No two slots share a spelling. -/
def Separate (ss : List (Slot σ)) : Prop :=
  ss.Pairwise fun s t => ∀ key, s.label.Spells key → ¬ t.label.Spells key

theorem Separate.eq_of_spells {ss : List (Slot σ)} (h : Separate ss) {s t : Slot σ} {key : String}
    (hs : s ∈ ss) (ht : t ∈ ss) (hkey : s.label.Spells key) (hkey' : t.label.Spells key) :
    s = t := by
  by_contra hne
  have : Std.Symm fun s t : Slot σ => ∀ key, s.label.Spells key → ¬ t.label.Spells key :=
    ⟨fun _ _ h key ht hs => h key hs ht⟩
  exact h.forall hs ht hne key hkey hkey'

theorem best_without_faults {ss : List (Slot σ)} (hsep : Separate ss) {fs : Fields}
    {keys : List String} (hkeys : ∀ key, key ∈ keys ↔ ∃ s ∈ ss, s.faultKey? fs = some key)
    {s : Slot σ} (hs : s ∈ ss) :
    s.best (fs.filter fun f => !keys.contains f.1) = s.best fs := by
  have hsame : ∀ key, s.label.Spells key →
      s.readAt (fs.filter fun f => !keys.contains f.1) key = s.readAt fs key := by
    intro key hkey
    have hlast := Fields.last?_filter (fun k => !keys.contains k) fs key
    by_cases hmem : key ∈ keys
    · obtain ⟨t, ht, hfault⟩ := (hkeys key).mp hmem
      obtain rfl := hsep.eq_of_spells hs ht hkey (faultKey?_eq_some hfault).1
      rw [(faultKey?_eq_some hfault).2.1, readAt, hlast]
      simp [hmem]
    · refine s.readAt_congr ?_
      rw [hlast]
      simp [hmem]
  rw [best, best, hsame _ (.inl rfl), hsame _ (.inr rfl)]

end Slot

end RepoSurvey
