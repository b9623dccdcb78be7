import Mathlib.Data.List.Basic
import RepoSurvey.Scan

/-!
# RepoSurvey.Proofs.Scan

What scanners read and what patterns find, as the grammar of the text they are run on. For each
scanner one lemma says which texts it accepts and what it leaves of them (`Scan.*_eq_some_iff`).

A text of several lines is searched line by line: if a pattern finds the same in a line whatever
lines follow (`Pattern.FindsInLine`), then it finds in the whole text what it finds in the lines, in
their order (`Pattern.find_lines`). No match goes on into the next line then, and none hides one.
-/

namespace RepoSurvey

/-! ## Classes of characters -/

namespace Text

/-- Whether no character of a class is at the front of a text. -/
def EndsRun (p : Char → Bool) (rest : List Char) : Prop := ∀ c ∈ rest.head?, p c = false

theorem endsRun_nil (p : Char → Bool) : EndsRun p [] := nofun

theorem endsRun_cons {p : Char → Bool} {c : Char} {cs : List Char} :
    EndsRun p (c :: cs) ↔ p c = false := by
  simp [EndsRun]

theorem takeWhile_append_of_endsRun {p : Char → Bool} {w rest : List Char}
    (hw : ∀ c ∈ w, p c = true) (hrest : EndsRun p rest) :
    (w ++ rest).takeWhile p = w ∧ (w ++ rest).dropWhile p = rest := by
  rw [List.takeWhile_append_of_pos hw, List.dropWhile_append_of_pos hw]
  cases rest with
  | nil => exact ⟨List.append_nil w, rfl⟩
  | cons c rest =>
    have hc : ¬ p c = true := by simpa using endsRun_cons.mp hrest
    rw [List.takeWhile_cons_of_neg hc, List.dropWhile_cons_of_neg hc, List.append_nil]
    exact ⟨rfl, rfl⟩

theorem endsRun_dropWhile (p : Char → Bool) (cs : List Char) : EndsRun p (cs.dropWhile p) := by
  have h := List.head?_dropWhile_not p cs
  intro c hc
  rw [hc] at h
  exact h

/-- A text starts with only one run of a class. -/
theorem append_inj_of_endsRun {p : Char → Bool} {w w' rest rest' : List Char}
    (hw : ∀ c ∈ w, p c = true) (hw' : ∀ c ∈ w', p c = true) (hrest : EndsRun p rest)
    (hrest' : EndsRun p rest') (h : w ++ rest = w' ++ rest') : w = w' ∧ rest = rest' := by
  obtain ⟨htake, hdrop⟩ := takeWhile_append_of_endsRun hw hrest
  obtain ⟨htake', hdrop'⟩ := takeWhile_append_of_endsRun hw' hrest'
  exact ⟨htake.symm.trans (h ▸ htake'), hdrop.symm.trans (h ▸ hdrop')⟩

/-- Whether a text is empty or the end of a line. -/
def EndsLine (rest : List Char) : Prop := ∀ c ∈ rest.head?, c = '\n'

theorem EndsLine.endsRun {p : Char → Bool} {rest : List Char} (h : EndsLine rest)
    (hp : p '\n' = false) : EndsRun p rest :=
  fun c hc => h c hc ▸ hp

/-- A text over a class of characters, of at least one character. -/
structure Run (p : Char → Bool) where
  chars : List Char
  ne_nil : chars ≠ []
  all : ∀ c ∈ chars, p c = true

namespace Run

variable {p : Char → Bool}

def text (r : Run p) : String := String.ofList r.chars

@[simp] theorem toList_text (r : Run p) : r.text.toList = r.chars := String.toList_ofList

/-- A run of one class ends a run of another if they have no character in common. -/
theorem endsRun_append (r : Run p) {q : Char → Bool} (h : ∀ c, p c = true → q c = false)
    (rest : List Char) : EndsRun q (r.chars ++ rest) := by
  obtain ⟨c, cs, hcs⟩ := List.exists_cons_of_ne_nil r.ne_nil
  rw [hcs, List.cons_append, endsRun_cons]
  exact h c (r.all c (hcs ▸ List.mem_cons_self))

theorem not_mem (r : Run p) {c : Char} (hc : p c = false) : c ∉ r.chars :=
  fun hmem => Bool.false_ne_true (hc.symm.trans (r.all c hmem))

end Run

/-- No blank is a character of words. -/
theorem isBlank_eq_false_of_isWord {c : Char} (h : isWord c = true) : isBlank c = false := by
  rw [Bool.eq_false_iff]
  intro hblank
  have hcode : c.toNat ∈ [9, 10, 11, 12, 13, 28, 29, 30, 31, 32, 0x85, 0xA0, 0x1680, 0x2000, 0x2001,
      0x2002, 0x2003, 0x2004, 0x2005, 0x2006, 0x2007, 0x2008, 0x2009, 0x200A, 0x2028, 0x2029,
      0x202F, 0x205F, 0x3000] := by
    simp only [isBlank, isSpace, Bool.or_eq_true, Bool.and_eq_true, decide_eq_true_eq,
      beq_iff_eq] at hblank
    simp only [List.mem_cons, List.not_mem_nil, or_false]
    omega
  have hnone : ∀ n ∈ [9, 10, 11, 12, 13, 28, 29, 30, 31, 32, 0x85, 0xA0, 0x1680, 0x2000, 0x2001,
      0x2002, 0x2003, 0x2004, 0x2005, 0x2006, 0x2007, 0x2008, 0x2009, 0x200A, 0x2028, 0x2029,
      0x202F, 0x205F, 0x3000], isWord (Char.ofNat n) = false := by decide +kernel
  have := hnone c.toNat hcode
  rw [Char.ofNat_toNat] at this
  exact Bool.false_ne_true (this.symm.trans h)

end Text

/-! ## Scanners -/

namespace Scan

open Text

variable {α β : Type} {cs rest : List Char}

theorem bind_apply (x : Scan α) (f : α → Scan β) (cs : List Char) :
    (x >>= f) cs = (x cs).bind fun r => f r.1 r.2 := rfl

theorem bind_eq_some_iff {x : Scan α} {f : α → Scan β} {r : β × List Char} :
    (x >>= f) cs = some r ↔ ∃ a rest, x cs = some (a, rest) ∧ f a rest = some r := by
  rw [bind_apply, Option.bind_eq_some_iff, Prod.exists]

theorem bind_of_eq_some {x : Scan α} {f : α → Scan β} {a : α} (h : x cs = some (a, rest)) :
    (x >>= f) cs = f a rest := by
  rw [bind_apply, h, Option.bind_some]

theorem orElse_apply (x y : Scan α) (cs : List Char) :
    (x <|> y) cs = (x cs).orElse fun _ => y cs := rfl

theorem orElse_of_eq_some {x y : Scan α} {r : α × List Char} (h : x cs = some r) :
    (x <|> y) cs = some r := by
  rw [orElse_apply, h, Option.orElse_some]

theorem orElse_of_eq_none {x y : Scan α} (h : x cs = none) : (x <|> y) cs = y cs := by
  rw [orElse_apply, h, Option.orElse_none]

theorem pure_eq_some_iff {a b : α} : (pure a : Scan α) cs = some (b, rest) ↔ b = a ∧ cs = rest := by
  have hpure : (pure a : Scan α) cs = some (a, cs) := rfl
  rw [hpure, Option.some.injEq, Prod.mk.injEq, @eq_comm _ a b]

theorem char_eq_some_iff {c : Char} {u : Unit} : char c cs = some (u, rest) ↔ cs = c :: rest := by
  cases cs with
  | nil => simp [char]
  | cons d cs => simp [char]

theorem exactly_eq_some_iff {w : String} {u : Unit} :
    exactly w cs = some (u, rest) ↔ cs = w.toList ++ rest := by
  rw [exactly]
  constructor
  · intro h
    split at h
    · next hpre =>
      obtain ⟨tail, rfl⟩ := List.isPrefixOf_iff_prefix.mp hpre
      rw [List.drop_left] at h
      cases h
      rfl
    · cases h
  · rintro rfl
    rw [if_pos (List.isPrefixOf_iff_prefix.mpr (List.prefix_append ..)), List.drop_left]

theorem exactly_append (w : String) (rest : List Char) :
    exactly w (w.toList ++ rest) = some ((), rest) :=
  exactly_eq_some_iff.mpr rfl

theorem one_eq_some_iff {p : Char → Bool} {c : Char} :
    one p cs = some (c, rest) ↔ cs = c :: rest ∧ p c = true := by
  cases cs with
  | nil => simp [one]
  | cons d cs =>
    rw [one]
    split
    · next hd =>
      simp only [Option.some.injEq, Prod.mk.injEq, List.cons.injEq]
      exact ⟨fun h => ⟨h, h.1 ▸ hd⟩, And.left⟩
    · next hd =>
      simp only [reduceCtorEq, List.cons.injEq, false_iff, not_and]
      rintro ⟨rfl, _⟩
      exact hd

theorem many_eq_some_iff {p : Char → Bool} {w : List Char} :
    many p cs = some (w, rest) ↔ cs = w ++ rest ∧ (∀ c ∈ w, p c = true) ∧ EndsRun p rest := by
  rw [many, Option.some.injEq, Prod.mk.injEq]
  constructor
  · rintro ⟨rfl, rfl⟩
    exact ⟨List.takeWhile_append_dropWhile.symm, List.all_eq_true.mp List.all_takeWhile,
      endsRun_dropWhile p cs⟩
  · rintro ⟨rfl, hw, hrest⟩
    exact takeWhile_append_of_endsRun hw hrest

theorem many1_eq_some_iff {p : Char → Bool} {w : List Char} :
    many1 p cs = some (w, rest) ↔
      w ≠ [] ∧ cs = w ++ rest ∧ (∀ c ∈ w, p c = true) ∧ EndsRun p rest := by
  rw [← many_eq_some_iff, many, many1, Option.some.injEq, Prod.mk.injEq]
  cases cs.takeWhile p with
  | nil =>
    simp only [reduceCtorEq, false_iff, not_and]
    exact fun hw h => absurd h.symm hw
  | cons c w' =>
    rw [Option.some.injEq, Prod.mk.injEq, iff_and_self]
    exact fun h => h.1 ▸ List.cons_ne_nil c w'

theorem blanks_eq_some_iff {u : Unit} :
    blanks cs = some (u, rest) ↔
      ∃ w, cs = w ++ rest ∧ (∀ c ∈ w, isBlank c = true) ∧ EndsRun isBlank rest := by
  simp only [blanks, bind_eq_some_iff, many_eq_some_iff, pure_eq_some_iff]
  constructor
  · rintro ⟨w, rest, hw, -, rfl⟩
    exact ⟨w, hw⟩
  · rintro ⟨w, hw⟩
    exact ⟨w, rest, hw, trivial, rfl⟩

theorem blanks1_eq_some_iff {u : Unit} :
    blanks1 cs = some (u, rest) ↔
      ∃ w, w ≠ [] ∧ cs = w ++ rest ∧ (∀ c ∈ w, isBlank c = true) ∧ EndsRun isBlank rest := by
  simp only [blanks1, bind_eq_some_iff, many1_eq_some_iff, pure_eq_some_iff]
  constructor
  · rintro ⟨w, rest, hw, -, rfl⟩
    exact ⟨w, hw⟩
  · rintro ⟨w, hw⟩
    exact ⟨w, rest, hw, trivial, rfl⟩

theorem indent_eq_some_iff {u : Unit} :
    indent cs = some (u, rest) ↔ ∃ w, cs = w ++ rest ∧ (∀ c ∈ w, c = ' ' ∨ c = '\t') ∧
      EndsRun (fun c => c = ' ' ∨ c = '\t') rest := by
  simp only [indent, bind_eq_some_iff, many_eq_some_iff, pure_eq_some_iff, decide_eq_true_eq]
  constructor
  · rintro ⟨w, rest, hw, -, rfl⟩
    exact ⟨w, hw⟩
  · rintro ⟨w, hw⟩
    exact ⟨w, rest, hw, trivial, rfl⟩

theorem blanks1_space (hrest : EndsRun isBlank rest) : blanks1 (' ' :: rest) = some ((), rest) :=
  blanks1_eq_some_iff.mpr
    ⟨[' '], List.cons_ne_nil _ _, rfl, List.forall_mem_singleton.mpr (by decide), hrest⟩

theorem wordEnd_eq_some_iff {u : Unit} :
    wordEnd cs = some (u, rest) ↔ cs = rest ∧ EndsRun isWord rest := by
  cases cs with
  | nil =>
    simp only [wordEnd, Option.some.injEq, Prod.mk.injEq, true_and, iff_self_and]
    rintro rfl
    exact endsRun_nil isWord
  | cons c cs =>
    rw [wordEnd]
    split
    · next hc =>
      simp only [reduceCtorEq, false_iff, not_and]
      rintro rfl hrest
      exact Bool.false_ne_true ((endsRun_cons.mp hrest).symm.trans hc)
    · next hc =>
      simp only [Option.some.injEq, Prod.mk.injEq, true_and, iff_self_and]
      rintro rfl
      exact endsRun_cons.mpr (Bool.eq_false_iff.mpr hc)

theorem optional_of_eq_none {s : Scan Unit} (h : s cs = none) : optional s cs = some ((), cs) := by
  rw [optional, h]

theorem optional_of_eq_some {s : Scan Unit} {r : Unit × List Char} (h : s cs = some r) :
    optional s cs = some r := by
  rw [optional, h]

theorem optional_cases {s : Scan Unit} {r : Unit × List Char} (h : optional s cs = some r) :
    s cs = some r ∨ r = ((), cs) := by
  rw [optional] at h
  split at h
  · next hs => exact .inl (hs.trans h)
  · exact .inr (Option.some.inj h).symm

theorem optional_char_of_endsRun {c : Char} (h : EndsRun (· == c) cs) :
    optional (char c) cs = some ((), cs) := by
  refine optional_of_eq_none (Option.eq_none_iff_forall_ne_some.mpr fun r hr => ?_)
  rw [char_eq_some_iff.mp hr, endsRun_cons, beq_self_eq_true] at h
  cases h

end Scan

/-! ## Patterns -/

namespace Pattern

open Text

variable {α : Type} {p : Pattern α} {before : Option Char} {front rest : List Char}

/-- The character that stands before what follows `front`. -/
def after (before : Option Char) (front : List Char) : Option Char := front.getLast?.or before

theorem after_cons (before : Option Char) (c : Char) (front : List Char) :
    after before (c :: front) = after (some c) front := by
  rw [after, after, List.getLast?_cons, Option.or_some, Option.some_or]

theorem findFrom_nil (p : Pattern α) (skip : Nat) (before : Option Char) :
    p.findFrom skip before [] = [] := by
  cases skip <;> rfl

theorem findFrom_add (p : Pattern α) (skip : Nat) (before : Option Char) (front rest : List Char) :
    p.findFrom (front.length + skip) before (front ++ rest) =
      p.findFrom skip (after before front) rest := by
  induction front generalizing before with
  | nil => rw [List.length_nil, Nat.zero_add]; rfl
  | cons c front ih =>
    rw [List.length_cons, Nat.succ_add, List.cons_append, findFrom, ih, after_cons]

theorem findFrom_cons_of_match {c : Char} {cs : List Char} {a : α} (hopens : p.opens before = true)
    (hscan : p.scan (c :: cs) = some (a, rest)) :
    p.findFrom 0 before (c :: cs) = a :: p.findFrom (cs.length - rest.length) (some c) cs := by
  simp only [findFrom, hopens, if_true, hscan]

/-- A match at the front is found, and the search goes on behind it. -/
theorem findFrom_of_scan {a : α} (hopens : p.opens before = true) (hfront : front ≠ [])
    (hscan : p.scan (front ++ rest) = some (a, rest)) :
    p.findFrom 0 before (front ++ rest) = a :: p.findFrom 0 (after before front) rest := by
  cases front with
  | nil => exact absurd rfl hfront
  | cons c front =>
    have hlength : (front ++ rest).length - rest.length = front.length + 0 := by
      rw [List.length_append, Nat.add_sub_cancel, Nat.add_zero]
    rw [List.cons_append] at hscan ⊢
    rw [findFrom_cons_of_match hopens hscan, hlength, findFrom_add, after_cons]

theorem findFrom_cons_of_not_match {c : Char}
    (h : p.opens before = false ∨ p.scan (c :: rest) = none) :
    p.findFrom 0 before (c :: rest) = p.findFrom 0 (some c) rest := by
  have hnone : (if p.opens before then p.scan (c :: rest) else none) = none := by
    rcases h with h | h
    · simp [h]
    · simp [h]
  rw [findFrom, hnone]

/-- Where no match starts in a text, the search goes on behind the text. -/
theorem findFrom_of_not_match
    (h : ∀ tail, tail <:+ front → tail ≠ [] → p.scan (tail ++ rest) = none) :
    p.findFrom 0 before (front ++ rest) = p.findFrom 0 (after before front) rest := by
  induction front generalizing before with
  | nil => rfl
  | cons c front ih =>
    have hc : p.scan (c :: (front ++ rest)) = none := h _ List.suffix_rfl (List.cons_ne_nil c front)
    rw [List.cons_append, findFrom_cons_of_not_match (.inr hc), after_cons]
    exact ih fun tail htail => h tail (htail.trans (List.suffix_cons c front))

theorem findFrom_of_endsLine (hrest : EndsLine rest)
    (h : ∀ more, p.opens before = false ∨ p.scan ('\n' :: more) = none) :
    p.findFrom 0 before rest = p.findFrom 0 (some '\n') rest.tail := by
  cases rest with
  | nil => simp only [List.tail_nil, findFrom_nil]
  | cons c more =>
    obtain rfl : c = '\n' := hrest c rfl
    exact findFrom_cons_of_not_match (h more)

/-! ### Lines -/

/-- Whether a character stands before a line. -/
def StartsLine (before : Option Char) : Prop := before = none ∨ before = some '\n'

theorem opens_atWord (scan : Scan α) (h : StartsLine before) :
    (atWord scan).opens before = true := by
  rcases h with rfl | rfl <;> rfl

theorem opens_atLine (scan : Scan α) (h : StartsLine before) :
    (atLine scan).opens before = true := by
  rcases h with rfl | rfl <;> rfl

/-- What a pattern finds in a line, whatever lines follow. -/
def FindsInLine (p : Pattern α) (line : List Char) (found : List α) : Prop :=
  ∀ before rest, StartsLine before → EndsLine rest →
    p.findFrom 0 before (line ++ rest) = found ++ p.findFrom 0 (some '\n') rest.tail

theorem findFrom_lines {ι : Type} {line : ι → List Char} {found : ι → List α} (items : List ι)
    (h : ∀ i ∈ items, FindsInLine p (line i) (found i)) (hbefore : StartsLine before) :
    p.findFrom 0 before (['\n'].intercalate (items.map line)) = items.flatMap found := by
  induction items generalizing before with
  | nil => exact findFrom_nil p 0 before
  | cons i items ih =>
    obtain ⟨hi, hitems⟩ := List.forall_mem_cons.mp h
    cases items with
    | nil =>
      have hlast := hi before [] hbefore nofun
      simpa only [List.append_nil, List.tail_nil, findFrom_nil, List.map_cons, List.map_nil,
        List.intercalate_singleton, List.flatMap_cons, List.flatMap_nil] using hlast
    | cons j items =>
      have hline := hi before ('\n' :: ['\n'].intercalate ((j :: items).map line)) hbefore
        (by simp [EndsLine])
      rw [List.tail_cons, ih hitems (.inr rfl)] at hline
      simpa only [List.map_cons, List.intercalate_cons_cons, List.append_assoc,
        List.singleton_append, List.flatMap_cons] using hline

/-- In lines that are joined, a pattern finds what it finds in each of them. -/
theorem find_lines {ι : Type} {text : ι → String} {found : ι → List α} (items : List ι)
    (h : ∀ i ∈ items, FindsInLine p (text i).toList (found i)) :
    p.find ("\n".intercalate (items.map text)).toList = items.flatMap found := by
  rw [String.toList_intercalate, List.map_map]
  exact findFrom_lines items h (.inl rfl)

/-- What is read to its end, and does not end with a line break of its own, is one match of a
pattern that starts at the front of lines. -/
theorem findsInLine_atLine {scan : Scan α} {line : List Char} {a : α} (hline : line ≠ [])
    (hbreak : '\n' ∉ line.getLast?)
    (hscan : ∀ rest, EndsLine rest → scan (line ++ rest) = some (a, rest)) :
    FindsInLine (atLine scan) line [a] := by
  intro before rest hbefore hrest
  have hinside : (atLine scan).opens (after before line) = false := by
    obtain ⟨c, hc⟩ := Option.ne_none_iff_exists'.mp (mt List.getLast?_eq_none_iff.mp hline)
    have hne : c ≠ '\n' := fun h => hbreak (h ▸ hc)
    rw [after, hc]
    simp [atLine, hne]
  rw [findFrom_of_scan (opens_atLine scan hbefore) hline (hscan rest hrest),
    findFrom_of_endsLine hrest fun _ => .inl hinside]
  rfl

end Pattern

end RepoSurvey
