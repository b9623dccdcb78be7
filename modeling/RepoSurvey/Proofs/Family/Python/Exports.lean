import RepoSurvey.Proofs.Family.Python
import RepoSurvey.Proofs.Scan.Covers

/-!
# RepoSurvey.Proofs.Family.Python.Exports

Public names of a module among its classes and functions. The blanks behind a keyword may hold line
breaks, so a function can take the keyword that opens the next line for its name, and the public
function there is not one of its own. But the searches for public names never run ahead: a name that
is found from inside a class or a function reaches at least to the end of it.

That is seen without looking at what the words are. Behind a keyword both go on at the next word
(`nextWord`), and of two places in a text the later one has the later next word.
-/

namespace RepoSurvey.Family.Python

open Text

variable {cs rest : List Char}

/-! ## Suffixes of a text -/

theorem dropWhile_suffix_of_suffix {s t : List Char} (p : Char → Bool) (h : s <:+ t) :
    s.dropWhile p <:+ t.dropWhile p := by
  induction t with
  | nil =>
    obtain rfl := List.suffix_nil.mp h
    exact List.suffix_rfl
  | cons c t ih =>
    rcases List.suffix_cons_iff.mp h with rfl | h
    · exact List.suffix_rfl
    · have hrest := ih h
      by_cases hc : p c = true
      · rwa [List.dropWhile_cons_of_pos hc]
      · rw [List.dropWhile_cons_of_neg hc]
        exact (hrest.trans (List.dropWhile_suffix p)).trans (List.suffix_cons c t)

theorem suffix_append_cases {s x y : List Char} (h : s <:+ x ++ y) :
    s <:+ y ∨ ∃ c ∈ x, ∃ more, s = c :: more := by
  induction x with
  | nil => exact .inl h
  | cons c x ih =>
    rcases List.suffix_cons_iff.mp h with rfl | h
    · exact .inr ⟨c, List.mem_cons_self, _, rfl⟩
    · refine (ih h).imp_right ?_
      rintro ⟨d, hd, hs⟩
      exact ⟨d, List.mem_cons_of_mem c hd, hs⟩

/-- What follows the word at the front of a text and the blanks behind it. -/
def nextWord (cs : List Char) : List Char := (cs.dropWhile isWord).dropWhile isBlank

theorem nextWord_suffix (cs : List Char) : nextWord cs <:+ cs :=
  (List.dropWhile_suffix isBlank).trans (List.dropWhile_suffix isWord)

theorem nextWord_suffix_of_suffix {s t : List Char} (h : s <:+ t) : nextWord s <:+ nextWord t :=
  dropWhile_suffix_of_suffix isBlank (dropWhile_suffix_of_suffix isWord h)

/-- What follows the second word of a text. -/
def nameEnd (cs : List Char) : List Char := (nextWord cs).dropWhile isWord

theorem nameEnd_suffix_of_suffix {s t : List Char} (h : s <:+ t) : nameEnd s <:+ nameEnd t :=
  dropWhile_suffix_of_suffix isWord (nextWord_suffix_of_suffix h)

/-! ## What is read -/

/-- Whether a keyword and the blanks behind it are read from the front of a text. -/
def ReadsKeyword (keyword : String) (cs rest : List Char) : Prop :=
  ∃ blanks, blanks ≠ [] ∧ cs = keyword.toList ++ (blanks ++ rest) ∧
    (∀ c ∈ blanks, isBlank c = true) ∧ EndsRun isBlank rest

theorem readsKeyword_of_scan {keyword : String} {more : List Char} {u v : Unit}
    (hkeyword : Scan.exactly keyword cs = some (u, more))
    (hblanks : Scan.blanks1 more = some (v, rest)) : ReadsKeyword keyword cs rest := by
  obtain ⟨blanks, hne, rfl, hall, hrest⟩ := Scan.blanks1_eq_some_iff.mp hblanks
  exact ⟨blanks, hne, Scan.exactly_eq_some_iff.mp hkeyword, hall, hrest⟩

theorem ReadsKeyword.nextWord_eq {keyword : String} (h : ReadsKeyword keyword cs rest)
    (hword : keyword.toList.all isWord = true) : nextWord cs = rest := by
  obtain ⟨blanks, hne, rfl, hall, hrest⟩ := h
  have hblanks : EndsRun isWord (blanks ++ rest) := by
    obtain ⟨c, blanks, rfl⟩ := List.exists_cons_of_ne_nil hne
    rw [List.cons_append, endsRun_cons]
    by_contra hc
    rw [Bool.not_eq_false] at hc
    exact Bool.false_ne_true ((isBlank_eq_false_of_isWord hc).symm.trans
      (hall c List.mem_cons_self))
  rw [nextWord, (takeWhile_append_of_endsRun (List.all_eq_true.mp hword) hblanks).2,
    (takeWhile_append_of_endsRun hall hrest).2]

theorem anyName_eq_some_iff {u : Unit} :
    anyName cs = some (u, rest) ↔
      ∃ w, w ≠ [] ∧ cs = w ++ rest ∧ (∀ c ∈ w, isWord c = true) ∧ EndsRun isWord rest := by
  simp only [anyName, Scan.bind_eq_some_iff, Scan.many1_eq_some_iff, Scan.pure_eq_some_iff]
  constructor
  · rintro ⟨w, rest, hw, -, rfl⟩
    exact ⟨w, hw⟩
  · rintro ⟨w, hw⟩
    exact ⟨w, rest, hw, trivial, rfl⟩

theorem dropWhile_of_anyName {u : Unit} (h : anyName cs = some (u, rest)) :
    cs.dropWhile isWord = rest := by
  obtain ⟨w, _, rfl, hw, hrest⟩ := anyName_eq_some_iff.mp h
  exact (takeWhile_append_of_endsRun hw hrest).2

theorem isWord_of_isLetter {c : Char} (h : isLetter c = true) : isWord c = true := by
  have hascii : c.toNat < 128 := by
    rcases Bool.or_eq_true_iff.mp (show (c.isUpper || c.isLower) = true from h) with h | h
    · have hle : 'A'.val ≤ c.val ∧ c.val ≤ 'Z'.val := of_decide_eq_true h
      exact Nat.lt_of_le_of_lt (UInt32.le_iff_toNat_le.mp hle.2) (by decide)
    · have hle : c.val ≤ 'z'.val := of_decide_eq_true (Bool.and_eq_true_iff.mp h).2
      exact Nat.lt_of_le_of_lt (UInt32.le_iff_toNat_le.mp hle) (by decide)
  refine isWord_of_isAlphanum ?_ hascii
  rw [Char.isAlphanum, show c.isAlpha = true from h, Bool.true_or]

/-- A public name is a name. -/
theorem anyName_of_publicName {r : Unit × List Char} (h : publicName cs = some r) :
    anyName cs = some r := by
  obtain ⟨u, rest⟩ := r
  simp only [publicName, Scan.name, Scan.bind_eq_some_iff, Scan.one_eq_some_iff,
    Scan.many_eq_some_iff, Scan.pure_eq_some_iff] at h
  obtain ⟨c, _, ⟨rfl, hc⟩, w, _, ⟨rfl, hw, hrest⟩, _, rfl⟩ := h
  exact anyName_eq_some_iff.mpr ⟨c :: w, List.cons_ne_nil c w, rfl,
    List.forall_mem_cons.mpr ⟨isWord_of_isLetter hc, hw⟩, hrest⟩

def classNamed (name : Scan Unit) : Scan Unit := do
  Scan.exactly "class"
  Scan.blanks1
  name

def functionNamed (name : Scan Unit) : Scan Unit := do
  asyncMark
  Scan.exactly "def"
  Scan.blanks1
  name

/-- Whether a scanner starts at a letter, and of two places of a text where it reads, reads further
from the later one. -/
structure ReadsOn (scan : Scan Unit) : Prop where
  starts : ∀ {cs r}, scan cs = some r → ∃ c more, cs = c :: more ∧ isLetter c = true ∧ r.2 <:+ more
  suffix : ∀ {cs s r r'}, scan cs = some r → s <:+ cs → scan s = some r' → r'.2 <:+ r.2

theorem classNamed_eq_some {r : Unit × List Char} (h : classNamed anyName cs = some r) :
    (∃ more, cs = 'c' :: more) ∧ r.2 = nameEnd cs := by
  obtain ⟨_, _, hkeyword, h⟩ := Scan.bind_eq_some_iff.mp h
  obtain ⟨_, _, hblanks, hname⟩ := Scan.bind_eq_some_iff.mp h
  have hread := readsKeyword_of_scan hkeyword hblanks
  refine ⟨⟨_, Scan.exactly_eq_some_iff.mp hkeyword⟩, ?_⟩
  rw [nameEnd, hread.nextWord_eq (by decide), dropWhile_of_anyName hname]

theorem nameEnd_cons_suffix {c : Char} (hc : isLetter c = true) (cs : List Char) :
    nameEnd (c :: cs) <:+ cs := by
  rw [nameEnd, nextWord, List.dropWhile_cons_of_pos (isWord_of_isLetter hc)]
  exact (List.dropWhile_suffix _).trans (nextWord_suffix cs)

theorem readsOn_classNamed : ReadsOn (classNamed anyName) where
  starts := by
    intro cs r h
    obtain ⟨⟨more, rfl⟩, hrest⟩ := classNamed_eq_some h
    exact ⟨'c', more, rfl, by decide, hrest ▸ nameEnd_cons_suffix (by decide) more⟩
  suffix := by
    intro cs s r r' h hs h'
    rw [(classNamed_eq_some h).2, (classNamed_eq_some h').2]
    exact nameEnd_suffix_of_suffix hs

theorem functionNamed_eq_some {r : Unit × List Char} (h : functionNamed anyName cs = some r) :
    ∃ start, ((∃ more, start = 'd' :: more) ∧ r.2 = nameEnd start) ∧
      (start = cs ∨ ReadsKeyword "async" cs start) := by
  obtain ⟨_, start, hmark, h⟩ := Scan.bind_eq_some_iff.mp h
  obtain ⟨_, _, hkeyword, h⟩ := Scan.bind_eq_some_iff.mp h
  obtain ⟨_, _, hblanks, hname⟩ := Scan.bind_eq_some_iff.mp h
  have hread := readsKeyword_of_scan hkeyword hblanks
  refine ⟨start, ⟨⟨_, Scan.exactly_eq_some_iff.mp hkeyword⟩, ?_⟩, ?_⟩
  · rw [nameEnd, hread.nextWord_eq (by decide), dropWhile_of_anyName hname]
  · rcases Scan.optional_cases hmark with hasync | hnone
    · obtain ⟨_, _, hasync, hgap⟩ := Scan.bind_eq_some_iff.mp hasync
      exact .inr (readsKeyword_of_scan hasync hgap)
    · exact .inl (Prod.mk.inj hnone).2

theorem readsOn_functionNamed : ReadsOn (functionNamed anyName) where
  starts := by
    intro cs r h
    obtain ⟨start, ⟨⟨more, rfl⟩, hrest⟩, rfl | hasync⟩ := functionNamed_eq_some h
    · exact ⟨'d', more, rfl, by decide, hrest ▸ nameEnd_cons_suffix (by decide) more⟩
    · obtain ⟨blanks, _, rfl, _⟩ := hasync
      refine ⟨'a', "sync".toList ++ (blanks ++ 'd' :: more), rfl, by decide, ?_⟩
      rw [hrest, ← List.append_assoc]
      exact (nameEnd_cons_suffix (by decide) more).trans
        ((List.suffix_cons 'd' more).trans (List.suffix_append _ _))
  suffix := by
    intro cs s r r' h hs h'
    obtain ⟨start, ⟨_, hrest⟩, hcs⟩ := functionNamed_eq_some h
    obtain ⟨start', ⟨⟨more, hmore⟩, hrest'⟩, hs'⟩ := functionNamed_eq_some h'
    rw [hrest, hrest']
    refine nameEnd_suffix_of_suffix ?_
    have hstart' : start' <:+ s := by
      rcases hs' with rfl | hs'
      · exact List.suffix_rfl
      · exact hs'.nextWord_eq (by decide) ▸ nextWord_suffix s
    rcases hcs with rfl | hcs
    · exact hstart'.trans hs
    · rcases hs' with rfl | hs'
      · -- The keyword of the later place stands neither in the mark nor in the blanks behind it.
        obtain ⟨blanks, _, rfl, hblanks, _⟩ := hcs
        rw [← List.append_assoc] at hs
        rcases suffix_append_cases hs with hs | ⟨c, hc, _, hcons⟩
        · exact hs
        · obtain ⟨rfl, _⟩ := List.cons.inj (hmore.symm.trans hcons)
          rcases List.mem_append.mp hc with hc | hc
          · exact absurd hc (by decide)
          · exact absurd (hblanks 'd' hc) (by decide)
      · rw [← hcs.nextWord_eq (by decide), ← hs'.nextWord_eq (by decide)]
        exact nextWord_suffix_of_suffix hs

/-! ## Public names -/

/-- What is indented covers what is not, if they differ in the names they take besides. -/
theorem covers_of_readsOn {wide narrow : Scan Unit} (hwide : ReadsOn wide)
    (hnarrow : ∀ {cs r}, narrow cs = some r → wide cs = some r) :
    (Pattern.atLine (do Scan.indent; wide)).Covers (.atLine narrow) where
  opens _ h := h
  scans := by
    intro cs r h
    obtain ⟨c, more, rfl, hc, _⟩ := hwide.starts (hnarrow h)
    have hindent : Scan.indent (c :: more) = some ((), c :: more) := by
      refine Scan.indent_eq_some_iff.mpr ⟨[], rfl, nofun, endsRun_cons.mpr ?_⟩
      rw [decide_eq_false_iff_not]
      rintro (rfl | rfl)
      · exact absurd hc (by decide)
      · exact absurd hc (by decide)
    exact ⟨r, (Scan.bind_of_eq_some hindent).trans (hnarrow h)⟩
  advances := by
    intro cs r h
    obtain ⟨_, start, hindent, hread⟩ := Scan.bind_eq_some_iff.mp h
    obtain ⟨indent, rfl, _⟩ := Scan.indent_eq_some_iff.mp hindent
    obtain ⟨c, more, rfl, _, front, rfl⟩ := hwide.starts hread
    exact ⟨indent ++ c :: front, List.append_ne_nil_of_right_ne_nil _ (List.cons_ne_nil _ _),
      by rw [List.append_assoc, List.cons_append]⟩
  reaches := by
    intro front rest a h tail htail _ r hr
    obtain ⟨_, start, hindent, hread⟩ := Scan.bind_eq_some_iff.mp h
    obtain ⟨indent, hsplit, hall, _⟩ := Scan.indent_eq_some_iff.mp hindent
    obtain ⟨skipped, rfl⟩ := htail
    have hsuffix : tail ++ rest <:+ indent ++ start := by
      rw [← hsplit, List.append_assoc]
      exact List.suffix_append _ _
    rcases suffix_append_cases hsuffix with hstart | ⟨c, hc, more, hcons⟩
    · exact hwide.suffix hread hstart (hnarrow hr)
    · obtain ⟨d, _, hd, hletter, _⟩ := hwide.starts (hnarrow hr)
      obtain ⟨rfl, _⟩ := List.cons.inj (hcons.symm.trans hd)
      rcases hall c hc with rfl | rfl
      · exact absurd hletter (by decide)
      · exact absurd hletter (by decide)

theorem bind_mono {α β : Type} {x : Scan α} {f g : α → Scan β}
    (h : ∀ {a cs r}, f a cs = some r → g a cs = some r) {r : β × List Char}
    (hr : (x >>= f) cs = some r) : (x >>= g) cs = some r := by
  obtain ⟨a, rest, hx, hf⟩ := Scan.bind_eq_some_iff.mp hr
  exact (Scan.bind_of_eq_some hx).trans (h hf)

/-- Functions cover the public functions, and classes the public classes. -/
theorem covers_exports :
    List.Forall₂ (fun symbols exports => symbols.Covers exports) (functions ++ classes)
      exports := by
  refine .cons (covers_of_readsOn readsOn_functionNamed ?_)
    (.cons (covers_of_readsOn readsOn_classNamed ?_) .nil)
  · exact bind_mono (bind_mono (bind_mono anyName_of_publicName))
  · exact bind_mono (bind_mono anyName_of_publicName)

/-- A module has at most as many public names as classes and functions. Each public function starts
inside a function of its own and each public class inside a class of its own, in the order in which
they are found. -/
theorem exports_among_symbols (content : String) :
    (Family.python.symbols content).exports ≤
        (Family.python.symbols content).classes + (Family.python.symbols content).functions ∧
      List.Forall₂ (fun symbols exports => List.SublistForall₂ Pattern.Place.StartsIn
        (exports.placed.find content.toList) (symbols.placed.find content.toList))
        (functions ++ classes) exports := by
  refine ⟨?_, covers_exports.imp fun _ _ h => h.sublistForall₂_find content.toList⟩
  have hcount := Pattern.count_le_of_covers covers_exports content.toList
  rw [Pattern.count_append, Int.add_comm] at hcount
  exact hcount

/-- A function with the keyword of the next line for its name, in which a public one starts. -/
example : Family.python.symbols "  def\nasync def run" =
    { classes := 0, functions := 1, exports := 1 } := by
  decide +kernel

end RepoSurvey.Family.Python
