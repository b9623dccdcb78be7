import Mathlib.Data.List.Nodup
import Mathlib.Logic.Relation
import RepoSurvey.Graph.Adjacency

/-!
# RepoSurvey.Proofs.Graph.Arc

The dependency graph as a relation on nodes.

* `Arc edges s t`: some edge leads from `s` to `t`. The order of the edges, their kinds and how
  often one occurs do not matter to it.
* `Acyclic edges`: no node is reached from itself by one or more arcs.

The adjacency that the program computes lists exactly the arcs, each once: `mem_targets` and
`nodup_targets`.
-/

namespace RepoSurvey.Graph

/-- Induction along the removal of duplicates: after the first element come those that differ from
it. -/
@[elab_as_elim]
theorem eraseDups_induction {α : Type} [DecidableEq α] {motive : List α → Prop}
    (nil : motive []) (cons : ∀ x xs, motive (xs.filter fun y => !y == x) → motive (x :: xs))
    (xs : List α) : motive xs := by
  induction h : xs.length using Nat.strongRecOn generalizing xs with
  | _ n ih =>
    cases xs with
    | nil => exact nil
    | cons x xs =>
      have hlen : (xs.filter fun y => !y == x).length < n := by
        have := List.length_filter_le (fun y => !y == x) xs
        simp only [List.length_cons] at h
        omega
      exact cons x xs (ih _ hlen _ rfl)

theorem nodup_eraseDups {α : Type} [DecidableEq α] (xs : List α) : xs.eraseDups.Nodup := by
  induction xs using eraseDups_induction with
  | nil => simp
  | cons x xs ih =>
    rw [List.eraseDups_cons, List.nodup_cons]
    exact ⟨by simp [List.mem_eraseDups], ih⟩

/-! ## Arcs -/

/-- Some edge leads from `s` to `t`. -/
def Arc (edges : List Edge) (s t : String) : Prop := ∃ e ∈ edges, e.source = s ∧ e.target = t

/-- No node is reached from itself by one or more arcs. -/
def Acyclic (edges : List Edge) : Prop := ∀ n, ¬ Relation.TransGen (Arc edges) n n

theorem Arc.of_mem {edges : List Edge} {e : Edge} (h : e ∈ edges) :
    Arc edges e.source e.target := ⟨e, h, rfl, rfl⟩

theorem acyclic_congr {es fs : List Edge} (h : ∀ s t, Arc es s t ↔ Arc fs s t) :
    Acyclic es ↔ Acyclic fs := by
  have : Arc es = Arc fs := by
    funext s t
    exact propext (h s t)
  rw [Acyclic, Acyclic, this]

theorem Acyclic.mono {es fs : List Edge} (h : ∀ s t, Arc es s t → Arc fs s t)
    (hfs : Acyclic fs) : Acyclic es := by
  intro n hcycle
  exact hfs n (Relation.TransGen.mono h n n hcycle)

/-- A node from which every way along the arcs ends does not lie on a cycle. -/
theorem not_transGen_of_acc {r : String → String → Prop} {n : String}
    (h : Acc (fun t s => r s t) n) : ¬ Relation.TransGen r n n := by
  have hacc := h.transGen
  intro hn
  have hloop : Relation.TransGen (fun t s => r s t) n n := Relation.transGen_swap.mpr hn
  clear h hn
  induction hacc with
  | intro m _ ih => exact ih m hloop hloop

/-! ## The adjacency -/

theorem lookup_map_self {β : Type} (f : String → β) (keys : List String) (key : String) :
    (keys.map fun k => (k, f k)).lookup key = if key ∈ keys then some (f key) else none := by
  induction keys with
  | nil => simp
  | cons k keys ih =>
    by_cases h : key = k
    · subst h; simp
    · have hb : (key == k) = false := by simp [h]
      simp [List.lookup_cons, hb, ih, h]

theorem targets_adjacency (edges : List Edge) (n : String) :
    (adjacency edges).targets n =
      ((edges.filter fun e => e.source = n).map (·.target)).eraseDups := by
  rw [Adjacency.targets, adjacency, lookup_map_self]
  by_cases h : n ∈ (edges.map (·.source)).eraseDups
  · simp [h]
  · rw [if_neg h]
    have hnone : edges.filter (fun e => e.source = n) = [] := by
      rw [List.filter_eq_nil_iff]
      intro e he hs
      apply h
      rw [List.mem_eraseDups]
      simp only [decide_eq_true_eq] at hs
      exact List.mem_map.mpr ⟨e, he, hs⟩
    simp [hnone]

@[simp] theorem mem_targets {edges : List Edge} {s t : String} :
    t ∈ (adjacency edges).targets s ↔ Arc edges s t := by
  rw [targets_adjacency, List.mem_eraseDups]
  simp only [List.mem_map, List.mem_filter, decide_eq_true_eq, Arc, and_assoc]

theorem nodup_targets (edges : List Edge) (n : String) : ((adjacency edges).targets n).Nodup := by
  rw [targets_adjacency]
  exact nodup_eraseDups _

theorem sources_adjacency (edges : List Edge) :
    (adjacency edges).map (·.1) = (edges.map (·.source)).eraseDups := by
  simp [adjacency, Function.comp_def]

theorem mem_adjacency {edges : List Edge} {n : String} {ts : List String} :
    (n, ts) ∈ adjacency edges ↔
      n ∈ edges.map (·.source) ∧ ts = (adjacency edges).targets n := by
  rw [targets_adjacency]
  simp only [adjacency, List.mem_map (l := List.eraseDups _), List.mem_eraseDups, Prod.mk.injEq]
  constructor
  · rintro ⟨m, hm, rfl, rfl⟩
    exact ⟨hm, rfl⟩
  · rintro ⟨hn, rfl⟩
    exact ⟨n, hn, rfl, rfl⟩

theorem Arc.source_mem {edges : List Edge} {s t : String} (h : Arc edges s t) :
    s ∈ edges.map (·.source) := by
  obtain ⟨e, he, rfl, rfl⟩ := h
  exact List.mem_map.mpr ⟨e, he, rfl⟩

end RepoSurvey.Graph
