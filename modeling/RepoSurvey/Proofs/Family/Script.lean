import RepoSurvey.Family
import RepoSurvey.Proofs.Scan

/-!
# RepoSurvey.Proofs.Family.Script

Import statements of scripts, one on each line, and what is read back from them. Both kinds of scan
read a keyword, something without quotes, and a quoted specifier (`ReadsQuoted`). So in a line with
one quoted specifier a match can only start in front of the quote that opens it: from inside the
specifier the next quote is the one that closes it, and no other follows before the line ends.
What stands in front tells the two kinds apart, since only a call has a parenthesis there.
-/

namespace RepoSurvey.Family.Script

open Text

/-! ## What is read -/

/-- The characters of a specifier. -/
def isSpecifier (c : Char) : Bool := !isQuote c && c ≠ '\n'

theorem isQuote_iff {c : Char} : isQuote c = true ↔ c = '\'' ∨ c = '"' := by
  simp [isQuote]

section Class

/-! A class of characters without the two quotes. -/

variable {p : Char → Bool} {c : Char}

theorem eq_false_of_isQuote (hp : p '\'' = false ∧ p '"' = false) (hc : isQuote c = true) :
    p c = false := by
  rcases isQuote_iff.mp hc with rfl | rfl
  · exact hp.1
  · exact hp.2

theorem isQuote_eq_false (hp : p '\'' = false ∧ p '"' = false) (hc : p c = true) :
    isQuote c = false :=
  Bool.eq_false_iff.mpr fun hquote =>
    Bool.false_ne_true ((eq_false_of_isQuote hp hquote).symm.trans hc)

end Class

theorem isClause_quotes : isClause '\'' = false ∧ isClause '"' = false := by decide +kernel

theorem isBlank_quotes : isBlank '\'' = false ∧ isBlank '"' = false := by decide

theorem isSpecifier_quotes : isSpecifier '\'' = false ∧ isSpecifier '"' = false := by decide

theorem identifierRest_quotes : identifierRest '\'' = false ∧ identifierRest '"' = false := by
  decide +kernel

variable {cs rest : List Char} {s : String}

theorem isQuote_eq_false_of_all (h : cs.all isSpecifier = true) : ∀ c ∈ cs, isQuote c = false :=
  fun c hc => isQuote_eq_false isSpecifier_quotes (List.all_eq_true.mp h c hc)

theorem quoted_eq_some_iff :
    quoted cs = some (s, rest) ↔ ∃ o w c, cs = o :: (w ++ c :: rest) ∧ isQuote o = true ∧
      isQuote c = true ∧ w ≠ [] ∧ (∀ x ∈ w, isSpecifier x = true) ∧ s = String.ofList w := by
  simp only [quoted, Scan.bind_eq_some_iff, Scan.one_eq_some_iff, Scan.many1_eq_some_iff,
    Scan.pure_eq_some_iff]
  constructor
  · rintro ⟨o, _, ⟨rfl, ho⟩, w, _, ⟨hne, rfl, hw, _⟩, c, _, ⟨rfl, hc⟩, rfl, rfl⟩
    exact ⟨o, w, c, rfl, ho, hc, hne, hw, rfl⟩
  · rintro ⟨o, w, c, rfl, ho, hc, hne, hw, rfl⟩
    exact ⟨o, _, ⟨rfl, ho⟩, w, _, ⟨hne, rfl, hw, endsRun_cons.mpr
      (eq_false_of_isQuote isSpecifier_quotes hc)⟩, c, _, ⟨rfl, hc⟩, rfl, rfl⟩

theorem importSpecifier_eq_some_iff :
    importSpecifier cs = some (s, rest) ↔ ∃ clause tail, cs = "import".toList ++ (clause ++ tail) ∧
      (∀ c ∈ clause, isClause c = true) ∧ isImportClause clause = true ∧
      quoted tail = some (s, rest) := by
  simp only [importSpecifier, Scan.bind_eq_some_iff, Scan.exactly_eq_some_iff,
    Scan.many_eq_some_iff]
  constructor
  · rintro ⟨_, _, rfl, clause, tail, ⟨rfl, hclause, _⟩, htail⟩
    split at htail
    · next himport => exact ⟨clause, tail, rfl, hclause, himport, htail⟩
    · cases htail
  · rintro ⟨clause, tail, rfl, hclause, himport, htail⟩
    obtain ⟨o, w, c, rfl, ho, _⟩ := quoted_eq_some_iff.mp htail
    refine ⟨(), _, rfl, clause, _, ⟨rfl, hclause, endsRun_cons.mpr
      (eq_false_of_isQuote isClause_quotes ho)⟩, ?_⟩
    rw [if_pos himport, htail]

theorem requireSpecifier_eq_some_iff :
    requireSpecifier cs = some (s, rest) ↔ ∃ beforeCall beforeQuote tail beforeEnd,
      cs = "require".toList ++ (beforeCall ++ '(' :: (beforeQuote ++ tail)) ∧
      (∀ c ∈ beforeCall, isBlank c = true) ∧ (∀ c ∈ beforeQuote, isBlank c = true) ∧
      quoted tail = some (s, beforeEnd ++ ')' :: rest) ∧ ∀ c ∈ beforeEnd, isBlank c = true := by
  simp only [requireSpecifier, Scan.bind_eq_some_iff, Scan.exactly_eq_some_iff,
    Scan.blanks_eq_some_iff, Scan.char_eq_some_iff, Scan.pure_eq_some_iff]
  constructor
  · rintro ⟨_, _, rfl, _, _, ⟨b, rfl, hb, _⟩, _, _, rfl, _, tail, ⟨b', rfl, hb', _⟩, _, _, htail,
      _, _, ⟨b'', rfl, hb'', _⟩, _, _, rfl, rfl, rfl⟩
    exact ⟨b, b', tail, b'', rfl, hb, hb', htail, hb''⟩
  · rintro ⟨b, b', tail, b'', rfl, hb, hb', htail, hb''⟩
    obtain ⟨o, w, c, rfl, ho, _⟩ := quoted_eq_some_iff.mp htail
    exact ⟨(), _, rfl, (), _, ⟨b, rfl, hb, endsRun_cons.mpr (by decide +kernel)⟩, (), _, rfl, (), _,
      ⟨b', rfl, hb', endsRun_cons.mpr (eq_false_of_isQuote isBlank_quotes ho)⟩, s, _, htail, (), _,
      ⟨b'', rfl, hb'', endsRun_cons.mpr (by decide +kernel)⟩, (), _, rfl, rfl, rfl⟩

/-! ## What stands in front of a specifier -/

/-- A scan for something that starts with a letter and has no quotes, and then a quoted specifier.
-/
structure ReadsQuoted (scan : Scan String) (Lead : List Char → Prop) : Prop where
  eq_append : ∀ {cs : List Char} {r : String × List Char}, scan cs = some r →
    ∃ lead o w c back, cs = lead ++ o :: (w ++ c :: back) ∧ Lead lead ∧ isQuote o = true ∧
      isQuote c = true ∧ ∀ x ∈ w, isSpecifier x = true
  starts : ∀ {lead : List Char}, Lead lead → ∃ k more, lead = k :: more ∧ isLetter k = true
  no_quote : ∀ {lead : List Char}, Lead lead → ∀ c ∈ lead, isQuote c = false

/-- What may stand in front of the specifier of an import. -/
def ImportLead (lead : List Char) : Prop :=
  ∃ clause, lead = "import".toList ++ clause ∧ ∀ c ∈ clause, isClause c = true

def RequireLead (lead : List Char) : Prop :=
  ∃ beforeCall beforeQuote, lead = "require".toList ++ (beforeCall ++ '(' :: beforeQuote) ∧
    (∀ c ∈ beforeCall, isBlank c = true) ∧ ∀ c ∈ beforeQuote, isBlank c = true

theorem ImportLead.isClause {lead : List Char} (h : ImportLead lead) :
    ∀ c ∈ lead, isClause c = true := by
  obtain ⟨clause, rfl, hclause⟩ := h
  exact List.forall_mem_append.mpr ⟨List.all_eq_true.mp (by decide +kernel), hclause⟩

theorem RequireLead.paren_mem {lead : List Char} (h : RequireLead lead) : '(' ∈ lead := by
  obtain ⟨b, b', rfl, _⟩ := h
  simp

theorem RequireLead.mem_or_isBlank {lead : List Char} (h : RequireLead lead) :
    ∀ c ∈ lead, c ∈ "require(".toList ∨ isBlank c = true := by
  obtain ⟨b, b', rfl, hb, hb'⟩ := h
  intro c hc
  simp only [List.mem_append, List.mem_cons] at hc
  rcases hc with hc | hc | rfl | hc
  · exact .inl (List.mem_append_left ['('] hc)
  · exact .inr (hb c hc)
  · exact .inl (by decide)
  · exact .inr (hb' c hc)

theorem readsQuoted_import : ReadsQuoted importSpecifier ImportLead where
  eq_append := by
    intro cs r h
    obtain ⟨clause, tail, rfl, hclause, _, htail⟩ := importSpecifier_eq_some_iff.mp h
    obtain ⟨o, w, c, rfl, ho, hc, _, hw, _⟩ := quoted_eq_some_iff.mp htail
    exact ⟨"import".toList ++ clause, o, w, c, r.2, (List.append_assoc ..).symm,
      ⟨clause, rfl, hclause⟩, ho, hc, hw⟩
  starts := by
    rintro _ ⟨clause, rfl, _⟩
    exact ⟨'i', "mport".toList ++ clause, rfl, by decide⟩
  no_quote h c hc := isQuote_eq_false isClause_quotes (h.isClause c hc)

theorem readsQuoted_require : ReadsQuoted requireSpecifier RequireLead where
  eq_append := by
    intro cs r h
    obtain ⟨b, b', tail, b'', rfl, hb, hb', htail, _⟩ := requireSpecifier_eq_some_iff.mp h
    obtain ⟨o, w, c, rfl, ho, hc, _, hw, _⟩ := quoted_eq_some_iff.mp htail
    exact ⟨"require".toList ++ (b ++ '(' :: b'), o, w, c, b'' ++ ')' :: r.2, by simp,
      ⟨b, b', rfl, hb, hb'⟩, ho, hc, hw⟩
  starts := by
    rintro _ ⟨b, b', rfl, _⟩
    exact ⟨'r', "equire".toList ++ (b ++ '(' :: b'), rfl, by decide⟩
  no_quote := by
    intro lead h c hc
    rcases h.mem_or_isBlank c hc with hletter | hblank
    · exact isQuote_eq_false_of_all (by decide) c hletter
    · exact isQuote_eq_false isBlank_quotes hblank

namespace ReadsQuoted

variable {scan : Scan String} {Lead : List Char → Prop} {front back : List Char} {q : Char}
  {before : Option Char}

theorem scan_cons (h : ReadsQuoted scan Lead) {c : Char} (hc : isLetter c = false) :
    scan (c :: rest) = Option.none := by
  refine Option.eq_none_iff_forall_ne_some.mpr fun r hr => ?_
  obtain ⟨lead, o, w, c', more, heq, hlead, _⟩ := h.eq_append hr
  obtain ⟨k, lead, rfl, hk⟩ := h.starts hlead
  obtain ⟨rfl, _⟩ := List.cons.inj heq
  exact Bool.false_ne_true (hc.symm.trans hk)

/-- A match reaches to the next two quotes. -/
theorem lead_of_scan (h : ReadsQuoted scan Lead) {tail : List Char} {r : String × List Char}
    (hfront : ∀ c ∈ front, isQuote c = false) (hq : isQuote q = true)
    (hscan : scan (front ++ q :: tail) = some r) :
    Lead front ∧ ∃ w c more, tail = w ++ c :: more ∧ isQuote c = true ∧
      ∀ x ∈ w, isSpecifier x = true := by
  obtain ⟨lead, o, w, c, more, heq, hlead, ho, hc, hw⟩ := h.eq_append hscan
  obtain ⟨rfl, htail⟩ := append_inj_of_endsRun (p := fun c => !isQuote c)
    (by simpa using hfront) (by simpa using h.no_quote hlead)
    (endsRun_cons.mpr (by simpa using hq)) (endsRun_cons.mpr (by simpa using ho)) heq
  exact ⟨hlead, w, c, more, (List.cons.inj htail).2, hc, hw⟩

/-- Behind a specifier there is no second one before the line ends. -/
theorem append_ne_of_endsLine {w more : List Char} {c : Char}
    (hback : ∀ c ∈ back, isSpecifier c = true) (hrest : EndsLine rest)
    (hw : ∀ x ∈ w, isSpecifier x = true) (hc : isQuote c = true) :
    back ++ rest ≠ w ++ c :: more := by
  intro heq
  obtain ⟨_, rfl⟩ := append_inj_of_endsRun hback hw (hrest.endsRun (by decide))
    (endsRun_cons.mpr (eq_false_of_isQuote isSpecifier_quotes hc)) heq
  obtain rfl : c = '\n' := hrest c rfl
  exact absurd hc (by decide)

/-- From the quote that opens a specifier to the end of the line nothing more is found. -/
theorem findFrom_specifier (h : ReadsQuoted scan Lead) (specifier : Run isSpecifier)
    (hq : isQuote q = true) (hback : ∀ c ∈ back, isSpecifier c = true ∧ isLetter c = false)
    (hrest : EndsLine rest) :
    (Pattern.atWord scan).findFrom 0 before
        (q :: (specifier.chars ++ q :: (back ++ rest))) =
      (Pattern.atWord scan).findFrom 0 (some '\n') rest.tail := by
  have hletter : isLetter q = false := eq_false_of_isQuote (by decide) hq
  rw [Pattern.findFrom_cons_of_not_match (.inr (h.scan_cons hletter)),
    Pattern.findFrom_of_not_match, Pattern.findFrom_cons_of_not_match (.inr (h.scan_cons hletter)),
    Pattern.findFrom_of_not_match,
    Pattern.findFrom_of_endsLine hrest fun _ => .inr (h.scan_cons (by decide))]
  · intro tail htail hne
    obtain ⟨c, tail, rfl⟩ := List.exists_cons_of_ne_nil hne
    exact h.scan_cons (hback c (htail.subset List.mem_cons_self)).2
  · intro tail htail _
    refine Option.eq_none_iff_forall_ne_some.mpr fun r hr => ?_
    have htail' : ∀ c ∈ tail, isQuote c = false := fun c hc =>
      isQuote_eq_false isSpecifier_quotes (specifier.all c (htail.subset hc))
    obtain ⟨_, w, c, more, heq, hc, hw⟩ := h.lead_of_scan htail' hq hr
    exact append_ne_of_endsLine (fun c hc => (hback c hc).1) hrest hw hc heq

end ReadsQuoted

/-! ## Statements -/

/-- The quotes in which a specifier may stand. -/
inductive Quote where
  | single | double

def Quote.char : Quote → Char
  | single => '\''
  | double => '"'

theorem Quote.isQuote_char (q : Quote) : isQuote q.char = true := by
  cases q <;> rfl

/-- The forms of statements that name another file: an import of nothing, of the whole or of a part
of it, and a call of `require`. -/
inductive Form where
  | bare
  | whole (name : Run identifierRest)
  | part (name : Run identifierRest)
  | call (name : Run identifierRest)

namespace Form

def front : Form → String
  | bare => "import "
  | whole name => "import " ++ name.text ++ " from "
  | part name => "import \x7b " ++ name.text ++ " \x7d from "
  | call name => "const " ++ name.text ++ " = require("

def back : Form → String
  | call _ => ")"
  | _ => ""

def kind : Form → EdgeKind
  | call _ => .required
  | _ => .imported

end Form

/-- A statement on a line of its own. -/
structure Statement where
  form : Form
  quote : Quote
  specifier : Run isSpecifier

def Statement.text (s : Statement) : String :=
  s.form.front ++ String.singleton s.quote.char ++ s.specifier.text ++
    String.singleton s.quote.char ++ s.form.back

def content (statements : List Statement) : String := "\n".intercalate (statements.map (·.text))

/-- The specifiers of the statements that make one kind of dependency. -/
def specifiers (kind : EdgeKind) (statements : List Statement) : List String :=
  (statements.filter (·.form.kind = kind)).map (·.specifier.text)

/-! ## What is found in a statement -/

theorem Statement.toList_text (s : Statement) :
    s.text.toList = s.form.front.toList ++
      s.quote.char :: (s.specifier.chars ++ s.quote.char :: s.form.back.toList) := by
  simp [text]

theorem Form.isQuote_front (form : Form) : ∀ c ∈ form.front.toList, isQuote c = false := by
  have hname : ∀ (name : Run identifierRest), ∀ c ∈ name.chars, isQuote c = false :=
    fun name c hc => isQuote_eq_false identifierRest_quotes (name.all c hc)
  cases form with
  | bare => exact isQuote_eq_false_of_all (by decide)
  | whole name =>
    simp only [front, String.toList_append, Run.toList_text, List.forall_mem_append]
    exact ⟨⟨isQuote_eq_false_of_all (by decide), hname name⟩, isQuote_eq_false_of_all (by decide)⟩
  | part name =>
    simp only [front, String.toList_append, Run.toList_text, List.forall_mem_append]
    exact ⟨⟨isQuote_eq_false_of_all (by decide), hname name⟩, isQuote_eq_false_of_all (by decide)⟩
  | call name =>
    simp only [front, String.toList_append, Run.toList_text, List.forall_mem_append]
    exact ⟨⟨isQuote_eq_false_of_all (by decide), hname name⟩, isQuote_eq_false_of_all (by decide)⟩

theorem Form.isSpecifier_back (form : Form) :
    ∀ c ∈ form.back.toList, isSpecifier c = true ∧ isLetter c = false := by
  have hcall : ∀ c ∈ ")".toList, isSpecifier c = true ∧ isLetter c = false :=
    List.forall_mem_singleton.mpr (by decide)
  cases form with
  | call name => exact hcall
  | bare => exact nofun
  | whole name => exact nofun
  | part name => exact nofun

namespace ReadsQuoted

variable {scan : Scan String} {Lead : List Char → Prop}

theorem finds_nothing (h : ReadsQuoted scan Lead) (s : Statement)
    (hfront : ∀ tail, tail <:+ s.form.front.toList → ¬ Lead tail) :
    Pattern.FindsInLine (.atWord scan) s.text.toList [] := by
  intro before rest _ hrest
  rw [s.toList_text, List.append_assoc, List.cons_append, List.append_assoc, List.cons_append,
    Pattern.findFrom_of_not_match,
    h.findFrom_specifier s.specifier s.quote.isQuote_char s.form.isSpecifier_back hrest]
  · rfl
  · intro tail htail _
    refine Option.eq_none_iff_forall_ne_some.mpr fun r hr => hfront tail htail ?_
    exact (h.lead_of_scan (fun c hc => s.form.isQuote_front c (htail.subset hc))
      s.quote.isQuote_char hr).1

/-- The specifier is found if a scan reads it with some of what stands in front of it and with
nothing more of that. -/
theorem finds_specifier (h : ReadsQuoted scan Lead) (s : Statement) (skipped lead : List Char)
    (hfront : s.form.front.toList = skipped ++ lead) (hlead : lead ≠ [])
    (hskipped : ∀ tail, tail <:+ skipped → tail ≠ [] → ¬ Lead (tail ++ lead))
    (hopens : ∀ before, Pattern.StartsLine before →
      (Pattern.atWord scan).opens (Pattern.after before skipped) = true)
    (hscan : ∀ rest, scan (lead ++ s.quote.char :: (s.specifier.chars ++
      s.quote.char :: (s.form.back.toList ++ rest))) = some (s.specifier.text, rest)) :
    Pattern.FindsInLine (.atWord scan) s.text.toList [s.specifier.text] := by
  intro before rest hbefore hrest
  have hquote := s.form.isQuote_front
  rw [hfront] at hquote
  let line := lead ++ s.quote.char :: (s.specifier.chars ++ s.quote.char :: s.form.back.toList)
  have hline : s.text.toList ++ rest = skipped ++ (line ++ rest) := by
    simp [line, s.toList_text, hfront]
  have hread : scan (line ++ rest) = some (s.specifier.text, rest) := by
    simpa [line] using hscan rest
  rw [hline, Pattern.findFrom_of_not_match, Pattern.findFrom_of_scan (hopens before hbefore)
    (List.append_ne_nil_of_left_ne_nil hlead _) hread,
    Pattern.findFrom_of_endsLine hrest fun _ => .inr (h.scan_cons (by decide))]
  · rfl
  · intro tail htail hne
    refine Option.eq_none_iff_forall_ne_some.mpr fun r hr => hskipped tail htail hne ?_
    have hr' : scan ((tail ++ lead) ++ s.quote.char :: (s.specifier.chars ++
        s.quote.char :: (s.form.back.toList ++ rest))) = some r := by
      simpa [line, Pattern.atWord] using hr
    refine (h.lead_of_scan (fun c hc => hquote c ?_) s.quote.isQuote_char hr').1
    rcases List.mem_append.mp hc with hc | hc
    · exact List.mem_append_left _ (htail.subset hc)
    · exact List.mem_append_right _ hc

end ReadsQuoted

theorem quoted_statement (s : Statement) (rest : List Char) :
    quoted (s.quote.char :: (s.specifier.chars ++ s.quote.char :: rest)) =
      some (s.specifier.text, rest) :=
  quoted_eq_some_iff.mpr ⟨s.quote.char, s.specifier.chars, s.quote.char, rfl, s.quote.isQuote_char,
    s.quote.isQuote_char, s.specifier.ne_nil, s.specifier.all, rfl⟩

/-! ### Imports -/

theorem isImportClause_from {names : List Char} (hnames : names ≠ []) :
    isImportClause (' ' :: (names ++ " from ".toList)) = true := by
  have hreverse : (' ' :: (names ++ " from ".toList)).reverse.dropWhile isBlank =
      'm' :: 'o' :: 'r' :: 'f' :: ' ' :: (names.reverse ++ [' ']) := by
    have hspace : isBlank ' ' = true := by decide
    have hm : isBlank 'm' = false := by decide
    simp [hspace, hm]
  have hlength : 0 < names.length := List.length_pos_iff.mpr hnames
  have hspace : isBlank ' ' = true := by decide
  rw [isImportClause, hreverse]
  simp [hspace, List.getLast?_cons]
  omega

theorem isClause_of_mem_name (name : Run identifierRest) :
    ∀ c ∈ name.chars, isClause c = true := by
  intro c hc
  simp [isClause, name.all c hc]

/-- A form is an import, with its keyword and a clause in front of the specifier, or a call, with
its keyword and a parenthesis there. -/
theorem Form.imports_or_requires (form : Form) :
    (form.kind = .imported ∧ form.back = "" ∧ ∃ clause,
      form.front.toList = "import".toList ++ clause ∧ (∀ c ∈ clause, isClause c = true) ∧
      isImportClause clause = true) ∨
    (form.kind = .required ∧ form.back = ")" ∧ ∃ bound,
      form.front.toList = bound ++ [' ', '=', ' '] ++ "require(".toList) := by
  have hspace : isClause ' ' = true := by decide +kernel
  have hfrom : ∀ c ∈ " from ".toList, isClause c = true := List.all_eq_true.mp (by decide +kernel)
  cases form with
  | bare => exact .inl ⟨rfl, rfl, [' '], by decide, List.forall_mem_singleton.mpr hspace, by decide⟩
  | whole name =>
    refine .inl ⟨rfl, rfl, ' ' :: (name.chars ++ " from ".toList), by simp [front], ?_,
      isImportClause_from name.ne_nil⟩
    simp only [List.forall_mem_cons, List.forall_mem_append]
    exact ⟨hspace, isClause_of_mem_name name, hfrom⟩
  | part name =>
    have hopen : ∀ c ∈ "\x7b ".toList, isClause c = true := List.all_eq_true.mp (by decide +kernel)
    have hclose : ∀ c ∈ " \x7d".toList, isClause c = true := List.all_eq_true.mp (by decide +kernel)
    refine .inl ⟨rfl, rfl, ' ' :: (("\x7b ".toList ++ name.chars ++ " \x7d".toList) ++
      " from ".toList), by simp [front], ?_, isImportClause_from (by simp)⟩
    simp only [List.forall_mem_cons, List.forall_mem_append]
    exact ⟨hspace, ⟨⟨hopen, isClause_of_mem_name name⟩, hclose⟩, hfrom⟩
  | call name => exact .inr ⟨rfl, rfl, "const ".toList ++ name.chars, by simp [front]⟩

/-- In an import its specifier is found. In a call of `require` nothing is, since its parenthesis
stands in front of the specifier. -/
theorem import_findsInLine (s : Statement) :
    Pattern.FindsInLine (.atWord importSpecifier) s.text.toList
      (if s.form.kind = .imported then [s.specifier.text] else []) := by
  rcases s.form.imports_or_requires with
    ⟨hkind, hback, clause, hfront, hclause, himport⟩ | ⟨hkind, _, bound, hfront⟩
  · rw [if_pos hkind]
    refine readsQuoted_import.finds_specifier s [] ("import".toList ++ clause) hfront
      (List.cons_ne_nil _ _) ?_ ?_ ?_
    · exact fun tail htail hne => absurd (List.suffix_nil.mp htail) hne
    · exact fun before hbefore => Pattern.opens_atWord importSpecifier hbefore
    · intro rest
      rw [hback, List.append_assoc]
      exact importSpecifier_eq_some_iff.mpr
        ⟨clause, _, rfl, hclause, himport, quoted_statement s rest⟩
  · rw [if_neg (by rw [hkind]; decide)]
    refine readsQuoted_import.finds_nothing s fun tail htail hlead => ?_
    have hend : "require(".toList = "require".toList ++ ['('] := by decide
    rw [hfront, hend, ← List.append_assoc, List.suffix_concat_iff] at htail
    rcases htail with rfl | ⟨tail, rfl, _⟩
    · obtain ⟨k, more, hnil, _⟩ := readsQuoted_import.starts hlead
      cases hnil
    · exact absurd (hlead.isClause '(' (by simp)) (by decide +kernel)

/-! ### Calls of `require` -/

/-- In a call of `require` its specifier is found. In an import nothing is, since no parenthesis
stands in front of the specifier. -/
theorem require_findsInLine (s : Statement) :
    Pattern.FindsInLine (.atWord requireSpecifier) s.text.toList
      (if s.form.kind = .required then [s.specifier.text] else []) := by
  rcases s.form.imports_or_requires with
    ⟨hkind, _, clause, hfront, hclause, _⟩ | ⟨hkind, hback, bound, hfront⟩
  · rw [if_neg (by rw [hkind]; decide)]
    refine readsQuoted_require.finds_nothing s fun tail htail hlead => ?_
    have hparen : '(' ∈ "import".toList ++ clause := hfront ▸ htail.subset hlead.paren_mem
    have himport : ImportLead ("import".toList ++ clause) := ⟨clause, rfl, hclause⟩
    exact absurd (himport.isClause '(' hparen) (by decide +kernel)
  · rw [if_pos hkind]
    refine readsQuoted_require.finds_specifier s (bound ++ [' ', '=', ' ']) "require(".toList hfront
      (by decide) ?_ ?_ ?_
    · intro tail htail hne hlead
      -- Of what stands in front of the keyword only the last blank does not hold the equals sign.
      have hends : bound ++ [' ', '=', ' '] = ((bound ++ [' ']) ++ ['=']) ++ [' '] := by simp
      rw [hends, List.suffix_concat_iff] at htail
      rcases htail with rfl | ⟨tail, rfl, htail⟩
      · exact hne rfl
      rcases List.suffix_concat_iff.mp htail with rfl | ⟨tail, rfl, _⟩
      · obtain ⟨k, more, hcons, hk⟩ := readsQuoted_require.starts hlead
        obtain ⟨rfl, _⟩ := List.cons.inj hcons
        exact absurd hk (by decide)
      · rcases hlead.mem_or_isBlank '=' (by simp) with hletter | hblank
        · exact absurd hletter (by decide)
        · exact absurd hblank (by decide)
    · intro before _
      have hlast : (bound ++ [' ', '=', ' ']).getLast? = some ' ' := by simp
      rw [Pattern.after, hlast, Option.some_or]
      decide +kernel
    · intro rest
      rw [hback]
      exact requireSpecifier_eq_some_iff.mpr
        ⟨[], [], _, [], by simp, List.forall_mem_nil _, List.forall_mem_nil _, quoted_statement s _,
          List.forall_mem_nil _⟩

/-! ## What a script depends on -/

theorem flatMap_if_kind (kind : EdgeKind) (statements : List Statement) :
    (statements.flatMap fun s => if s.form.kind = kind then [s.specifier.text] else []) =
      specifiers kind statements := by
  induction statements with
  | nil => rfl
  | cons s statements ih =>
    rw [List.flatMap_cons, ih, specifiers, specifiers, List.filter_cons]
    by_cases hkind : s.form.kind = kind
    · simp [hkind]
    · simp [hkind]

/-- A script of statements depends on what the specifiers of its imports lead to, in their order,
and then on what those of its calls of `require` lead to. What leads nowhere is dropped, and there
is nothing else. -/
theorem edges_of_statements (statements : List Statement) (path : String) (ix : PathIndex) :
    Family.script.edges path (content statements) ix =
      ((specifiers .imported statements).filterMap fun s =>
        (Resolution.relative path s ix).map fun target =>
          { source := path, target, kind := .imported }) ++
      (specifiers .required statements).filterMap fun s =>
        (Resolution.relative path s ix).map fun target =>
          { source := path, target, kind := .required } := by
  have himports := Pattern.find_lines statements fun s _ => import_findsInLine s
  have hcalls := Pattern.find_lines statements fun s _ => require_findsInLine s
  rw [flatMap_if_kind] at himports hcalls
  simp only [Family.edges, edges, edgesOf, content, himports, hcalls]

example : Family.script.edges "src/a.ts"
    "import \x7b from \x7d from './b'\nconst require = require(\"./c\")\nimport 'require('"
    (.ofList ["src/b.ts", "src/c.js"]) =
      [{ source := "src/a.ts", target := "src/b.ts", kind := .imported },
        { source := "src/a.ts", target := "src/c.js", kind := .required }] := by
  decide +kernel

end RepoSurvey.Family.Script
