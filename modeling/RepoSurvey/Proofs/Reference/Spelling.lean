import Mathlib.Logic.Relation
import RepoSurvey.Proofs.Reference.Subdirectory

/-!
# RepoSurvey.Proofs.Reference.Spelling

The many spellings of a relative specifier. A detour is a step that stays or a step into a directory
and out again. Walking acts on directories step by step (`Path.walk_append`), so a detour at any
place leaves the end of a walk where it was (`Path.walk_eq_of_detour`).

Leaving out all detours, and the steps up from the root, takes a path from the root to its normal
form. It has only one, which is where walking it ends (`Path.normalForm_iff`). A specifier denotes
the normal form of itself after the directory of its source, and leads to it with the first suffix
that makes it a path (`Resolution.relative_respelled`).
-/

namespace RepoSurvey

/-! ## Detours -/

namespace Path

variable {dir steps long short names path : List String}

/-- Walks compose: the steps act on the directories. -/
theorem walk_append (dir front back : List String) :
    walk dir (front ++ back) = walk (walk dir front) back := by
  induction front generalizing dir with
  | nil => rfl
  | cons step front ih =>
    rw [List.cons_append, walk, walk]
    split
    · exact ih dir
    · split
      · exact ih dir.dropLast
      · exact ih (dir ++ [step])

theorem walk_of_stay {step : String} (hstep : step = "" ∨ step = ".") :
    walk dir (step :: steps) = walk dir steps := by
  rw [walk, if_pos hstep]

theorem walk_of_up : walk dir (".." :: steps) = walk dir.dropLast steps := by
  rw [walk, if_neg (by decide), if_pos rfl]

theorem walk_of_down {step : String} (hstep : goesDown step = true) :
    walk dir (step :: steps) = walk (dir ++ [step]) steps := by
  obtain ⟨hempty, hdot, hup⟩ : step ≠ "" ∧ step ≠ "." ∧ step ≠ ".." := by
    simpa [goesDown] using hstep
  rw [walk, if_neg (by simp [hempty, hdot]), if_neg hup]

/-- The first steps are the second ones with a detour at some place: a step that stays, or a step
into a directory and out again. -/
inductive Detour : List String → List String → Prop where
  | stay {step : String} (front back : List String) (hstep : step = "" ∨ step = ".") :
      Detour (front ++ step :: back) (front ++ back)
  | back {name : String} (front back : List String) (hname : goesDown name = true) :
      Detour (front ++ name :: ".." :: back) (front ++ back)

theorem walk_eq_of_detour (h : Detour long short) (dir : List String) :
    walk dir long = walk dir short := by
  cases h with
  | stay front back hstep => rw [walk_append, walk_append, walk_of_stay hstep]
  | back front back hname =>
    rw [walk_append, walk_append, walk_of_down hname, walk_of_up, List.dropLast_concat]

theorem walk_eq_of_detours (h : Relation.ReflTransGen Detour long short) (dir : List String) :
    walk dir long = walk dir short := by
  induction h with
  | refl => rfl
  | tail _ hlast ih => exact ih.trans (walk_eq_of_detour hlast dir)

/-! ## Normal forms -/

/-- What may be left out of a path from the root: a detour, or a first step up, since the root is
its own parent. -/
inductive Shortens : List String → List String → Prop where
  | detour {long short : List String} (h : Detour long short) : Shortens long short
  | root (steps : List String) : Shortens (".." :: steps) steps

/-- Whether some names are what is left of a path from the root when nothing more may be left out.
-/
structure NormalForm (path names : List String) : Prop where
  shortens : Relation.ReflTransGen Shortens path names
  goesDown_of_mem : ∀ name ∈ names, goesDown name = true

theorem walk_root_eq_of_shortens (h : Relation.ReflTransGen Shortens path names) :
    walk [] path = walk [] names := by
  induction h with
  | refl => rfl
  | tail _ hlast ih =>
    cases hlast with
    | detour hdetour => exact ih.trans (walk_eq_of_detour hdetour [])
    | root => exact ih.trans walk_of_up

theorem walk_names (dir : List String) (hnames : ∀ name ∈ names, goesDown name = true) :
    walk dir names = dir ++ names := by
  induction names generalizing dir with
  | nil => rw [walk, List.append_nil]
  | cons name names ih =>
    obtain ⟨hname, hrest⟩ := List.forall_mem_cons.mp hnames
    rw [walk_of_down hname, ih _ hrest, List.append_assoc, List.singleton_append]

/-- A walk ends at the normal form of the whole way from the root. -/
theorem normalForm_walk (hdir : ∀ name ∈ dir, goesDown name = true) :
    NormalForm (dir ++ steps) (walk dir steps) := by
  induction steps generalizing dir with
  | nil => exact ⟨by rw [walk, List.append_nil], hdir⟩
  | cons step steps ih =>
    by_cases hstay : step = "" ∨ step = "."
    · rw [walk_of_stay hstay]
      exact ⟨.head (.detour (.stay dir steps hstay)) (ih hdir).1, (ih hdir).2⟩
    by_cases hup : step = ".."
    · subst hup
      rw [walk_of_up]
      rcases List.eq_nil_or_concat dir with rfl | ⟨above, name, rfl⟩
      · exact ⟨.head (.root steps) (ih hdir).1, (ih hdir).2⟩
      · rw [List.concat_eq_append] at hdir ⊢
        obtain ⟨habove, hname⟩ := List.forall_mem_append.mp hdir
        have hback : Detour (above ++ [name] ++ ".." :: steps) (above ++ steps) := by
          rw [List.append_assoc]
          exact .back above steps (hname name (List.mem_singleton_self name))
        rw [List.dropLast_concat]
        exact ⟨.head (.detour hback) (ih habove).1, (ih habove).2⟩
    · have hdown : goesDown step = true := by simpa [goesDown, hup] using hstay
      rw [walk_of_down hdown, List.append_cons dir step steps]
      exact ih (List.forall_mem_append.mpr ⟨hdir, by simpa using hdown⟩)

/-- Every path from the root has exactly one normal form, where walking it ends. -/
theorem normalForm_iff : NormalForm path names ↔ names = walk [] path := by
  constructor
  · intro h
    rw [walk_root_eq_of_shortens h.shortens, walk_names [] h.goesDown_of_mem, List.nil_append]
  · rintro rfl
    exact normalForm_walk (List.forall_mem_nil _)

end Path

/-! ## Specifiers -/

theorem Text.head?_of_splitAt {sep c : Char} (hc : c ≠ sep) {s piece : List Char}
    {pieces : List (List Char)} (h : splitAt sep s = piece :: pieces) :
    s.head? = some c ↔ piece.head? = some c := by
  cases s with
  | nil =>
    obtain ⟨rfl, rfl⟩ := List.cons.inj h
    rfl
  | cons d s =>
    rw [splitAt] at h
    split at h
    · next hd =>
      obtain ⟨rfl, rfl⟩ := List.cons.inj h
      simp [hd, hc.symm]
    · split at h
      · obtain ⟨rfl, rfl⟩ := List.cons.inj h
        rfl
      · obtain ⟨rfl, rfl⟩ := List.cons.inj h
        rfl

theorem Text.head?_of_split {sep c : Char} (hc : c ≠ sep) {s piece : String} {pieces : List String}
    (h : split sep s = piece :: pieces) :
    s.toList.head? = some c ↔ piece.toList.head? = some c := by
  obtain ⟨chars, _, hsplit, rfl, _⟩ := List.map_eq_cons_iff.mp h
  rw [String.toList_ofList]
  exact head?_of_splitAt hc hsplit

namespace Resolution

variable {source text text' target first : String} {steps long short : List String} {ix : PathIndex}

theorem denoted_respelled (htext : Text.split '/' text = first :: short)
    (htext' : Text.split '/' text' = first :: long)
    (hdetours : Relation.ReflTransGen Path.Detour long short) :
    denoted source text' = denoted source text := by
  have hfirst : ∀ steps, Path.walk (Path.directory source) (first :: steps) =
      Path.walk (Path.walk (Path.directory source) [first]) steps :=
    Path.walk_append (Path.directory source) [first]
  rw [denoted, denoted, htext, htext', hfirst long, hfirst short,
    Path.walk_eq_of_detours hdetours]

/-- A specifier leads to what it denotes with the first suffix that makes it a path. -/
theorem relative_eq_some_iff (hdot : text.toList.head? = some '.') :
    relative source text ix = some target ↔
      denoted source text ≠ [] ∧ ix.contains target = true ∧ ∃ before suffix after,
        specifierSuffixes = before ++ suffix :: after ∧
        target = Path.ofSegments (denoted source text) ++ suffix ∧
        ∀ other ∈ before, ix.contains (Path.ofSegments (denoted source text) ++ other) = false := by
  rw [relative_eq_find?, specifierCandidates_of_dot hdot]
  split
  · next hroot => simp [hroot]
  · next hroot =>
    rw [and_iff_right hroot, List.find?_map, Option.map_eq_some_iff]
    simp only [List.find?_eq_some_iff_append, Function.comp_apply, Bool.not_eq_true']
    constructor
    · rintro ⟨suffix, ⟨hin, before, after, hsuffixes, hbefore⟩, rfl⟩
      exact ⟨hin, before, suffix, after, hsuffixes, rfl, hbefore⟩
    · rintro ⟨hin, before, suffix, after, hsuffixes, rfl, hbefore⟩
      exact ⟨suffix, ⟨hin, before, after, hsuffixes, hbefore⟩, rfl⟩

/-- Detours anywhere after the first segment of a specifier do not change where it leads. It leads
to what it denotes with the first suffix that makes it a path of the index, and nowhere if no suffix
does. Unless the directory of the source has segments that are no names, the specifier denotes the
normal form of the way from the root to there and along the specifier. -/
theorem relative_respelled (source text text' : String) (ix : PathIndex)
    (hdot : text.toList.head? = some '.') (htext : Text.split '/' text = first :: short)
    (htext' : Text.split '/' text' = first :: long)
    (hdetours : Relation.ReflTransGen Path.Detour long short) :
    relative source text' ix = relative source text ix ∧
    (∀ target, relative source text ix = some target ↔
      denoted source text ≠ [] ∧ ix.contains target = true ∧ ∃ before suffix after,
        specifierSuffixes = before ++ suffix :: after ∧
        target = Path.ofSegments (denoted source text) ++ suffix ∧
        ∀ other ∈ before, ix.contains (Path.ofSegments (denoted source text) ++ other) = false) ∧
    ((∀ name ∈ Path.directory source, Path.goesDown name = true) → ∀ names,
      Path.NormalForm (Path.directory source ++ Text.split '/' text) names ↔
        names = denoted source text) := by
  have hslash : '.' ≠ '/' := by decide
  have hdot' : text'.toList.head? = some '.' := by
    rw [Text.head?_of_split hslash htext', ← Text.head?_of_split hslash htext]
    exact hdot
  refine ⟨?_, fun target => relative_eq_some_iff hdot, fun hdir names => ?_⟩
  · rw [relative_eq_find?, relative_eq_find?, specifierCandidates_of_dot hdot',
      specifierCandidates_of_dot hdot, denoted_respelled htext htext' hdetours]
  · rw [Path.normalForm_iff, Path.walk_append, Path.walk_names [] hdir, List.nil_append, denoted]

/-- A directory beside the source, spelled with an empty segment, a dot, and a way into a directory
and out again after a climb that stops at the root. -/
theorem relative_respelled_lib :
    relative "src/a.ts" "../.././/lib/x/../." (.ofList ["src/a.ts", "lib/index.js"]) =
      relative "src/a.ts" "../../lib" (.ofList ["src/a.ts", "lib/index.js"]) ∧
    relative "src/a.ts" "../../lib" (.ofList ["src/a.ts", "lib/index.js"]) =
      some "lib/index.js" := by
  have hdetours : Relation.ReflTransGen Path.Detour ["..", ".", "", "lib", "x", "..", "."]
      ["..", "lib"] :=
    .head (.stay [".."] ["", "lib", "x", "..", "."] (.inr rfl)) <|
    .head (.stay [".."] ["lib", "x", "..", "."] (.inl rfl)) <|
    .head (.back ["..", "lib"] ["."] (by decide)) <|
    .head (.stay ["..", "lib"] [] (.inr rfl)) .refl
  have hshort : Text.split '/' "../../lib" = ["..", "..", "lib"] := by decide +kernel
  have hlong : Text.split '/' "../.././/lib/x/../." =
      ["..", "..", ".", "", "lib", "x", "..", "."] := by decide +kernel
  have hlib := relative_respelled "src/a.ts" "../../lib" "../.././/lib/x/../."
    (.ofList ["src/a.ts", "lib/index.js"]) (by decide +kernel) hshort hlong hdetours
  refine ⟨hlib.1, (hlib.2.1 _).mpr ⟨by decide +kernel, by decide +kernel, ?_⟩⟩
  exact ⟨["", ".ts", ".tsx", ".js", ".jsx", "/index.ts"], "/index.js", [], rfl, by decide +kernel,
    by decide +kernel⟩

end Resolution

end RepoSurvey
