import RepoSurvey.Proofs.Assessment
import RepoSurvey.Proofs.Except
import RepoSurvey.Proofs.Fields
import Mathlib.Algebra.Order.BigOperators.Group.List

/-!
# RepoSurvey.Proofs.Assessment.Account

What a report says follows from the rules that fire and from the values the categories start at.
The parts of a report agree with each other: scores, issues, checklist and recommendations all tell
of the same rules, and the lines that only inform count for nothing.
-/

namespace RepoSurvey

/-- The rules that fire, in order. -/
def Rule.firing (s : Snapshot) (risk : RiskMetrics) : List Rule :=
  Rule.all.filter fun r => (r.message? s risk).isSome

/-- What the rules that fire take from a category, all together. -/
def Rule.penalties (s : Snapshot) (risk : RiskMetrics) (c : Category) : Int :=
  (((firing s risk).filter (·.category = c)).map penalty).sum

/-- Whether the issue of a rule comes before that of another: critical ones come first, otherwise
the order of the rules holds. -/
def Rule.Precedes (a b : Rule) : Prop :=
  (a.severity = .critical ∧ b.severity ≠ .critical) ∨
    ((a.severity = .critical ↔ b.severity = .critical) ∧ Rule.all.idxOf a < Rule.all.idxOf b)

theorem Rule.mem_all (r : Rule) : r ∈ Rule.all := by cases r <;> decide

theorem Rule.penalty_nonneg (r : Rule) : 0 ≤ r.penalty := by cases r <;> decide

theorem Rule.Precedes.ne {a b : Rule} (h : a.Precedes b) : a ≠ b := by
  rintro rfl
  obtain ⟨hcritical, hother⟩ | ⟨_, hlt⟩ := h
  · exact hother hcritical
  · exact Nat.lt_irrefl _ hlt

theorem Rule.id_injective {a b : Rule} (h : a.id = b.id) : a = b := by
  revert h
  cases a <;> cases b <;> decide

theorem Rule.issue_inj {a b : Rule} {m n : String} (h : a.issue m = b.issue n) : a = b ∧ m = n :=
  ⟨id_injective (congrArg Issue.id h), congrArg Issue.message h⟩

theorem Category.name_injective {c d : Category} (h : Named.name c = Named.name d) : c = d := by
  revert h
  cases c <;> cases d <;> decide

theorem CategoryScores.ext_get {a b : CategoryScores} (h : ∀ c, a.get c = b.get c) : a = b := by
  cases a
  cases b
  obtain ⟨rfl, rfl, rfl, rfl⟩ : _ ∧ _ ∧ _ ∧ _ :=
    ⟨h .consistency, h .completeness, h .security, h .structural⟩
  rfl

namespace Assessment

/-! ## Where the categories start -/

/-- The value that a category has once given values have replaced `n`: the integer given last for
it, moved into the range of scores. -/
def replaced (start : Fields) (c : Category) (n : Int) : Except Failure Int :=
  match start.last? (Named.name c) with
  | none => .ok n
  | some v => v.toInteger.map fun m => max 0 (min 100 m)

theorem replaced_cons (f : String × Value) (rest : Fields) (c : Category) (n : Int) :
    replaced (f :: rest) c n =
      if f.1 = Named.name c then
        match rest.last? (Named.name c) with
        | none => f.2.toInteger.map fun m => max 0 (min 100 m)
        | some _ => replaced rest c n
      else replaced rest c n := by
  rw [replaced, replaced, Fields.last?_cons]
  by_cases h : f.1 = Named.name c
  · cases hrest : Fields.last? rest (Named.name c) <;> simp [h]
  · simp [h]

theorem replaced_of_starting {start : Fields} {scores first : CategoryScores}
    (h : starting scores start = .ok first) (c : Category) :
    replaced start c (scores.get c) = .ok (first.get c) := by
  induction start generalizing scores with
  | nil => cases h; rfl
  | cons f rest ih =>
    rw [replaced_cons]
    obtain ⟨hname, hrest⟩ | ⟨d, n, hname, hn, hrest⟩ := starting_cons_cases h
    · rw [if_neg (hname c)]
      exact ih hrest
    · have hget := ih hrest
      rw [CategoryScores.get_set] at hget
      by_cases hd : d = c
      · subst hd
        rw [if_pos rfl] at hget
        rw [if_pos hname, ← hget]
        -- If the category is given a value again, that value counts; otherwise this one does.
        cases hlast : Fields.last? rest (Named.name d) <;> simp [replaced, hlast, hn, Except.map]
      · rw [if_neg hd] at hget
        rw [if_neg fun hc => hd (Category.name_injective (hname.symm.trans hc))]
        exact hget

theorem starting_filter (scores : CategoryScores) (start : Fields) :
    starting scores (start.filter fun f => isCategory f.1) = starting scores start := by
  induction start generalizing scores with
  | nil => rfl
  | cons f rest ih =>
    rw [List.filter_cons, isCategory_eq]
    cases hfind : (Named.find? f.1 : Option Category) with
    | none => simp [starting, hfind, ih]
    | some c => simp [starting, hfind, ih]

theorem run_filter (options : ScoringOptions) (now : Int) (start : Fields) (v : Value) :
    run options now (start.filter fun f => isCategory f.1) v = run options now start v := by
  simp only [run, report, starting_filter]

/-! ## Penalties -/

theorem get_penalise (scores : CategoryScores) (r : Rule) (c : Category) :
    (penalise scores r).get c =
      if r.category = c then max 0 (scores.get c - r.penalty) else scores.get c := by
  rw [penalise, CategoryScores.get_set]
  by_cases h : r.category = c
  · rw [if_pos h, if_pos h, h]
  · rw [if_neg h, if_neg h]

/-- Although every single penalty stops at zero, a category loses the sum of its penalties. -/
theorem get_foldl_penalise {scores : CategoryScores} {c : Category} (h : 0 ≤ scores.get c)
    (rs : List Rule) :
    (rs.foldl penalise scores).get c =
      max 0 (scores.get c - ((rs.filter (·.category = c)).map Rule.penalty).sum) := by
  induction rs generalizing scores with
  | nil => simp [h]
  | cons r rs ih =>
    -- What is still to be taken is not negative, so it does not matter where zero was reached.
    have hsum : 0 ≤ ((rs.filter (·.category = c)).map Rule.penalty).sum :=
      List.sum_nonneg fun n hn => by
        obtain ⟨q, _, rfl⟩ := List.mem_map.mp hn
        exact q.penalty_nonneg
    have hget := get_penalise scores r c
    by_cases hc : r.category = c
    · rw [if_pos hc] at hget
      rw [List.foldl_cons, ih (by omega), hget, List.filter_cons_of_pos (by simpa using hc),
        List.map_cons, List.sum_cons]
      omega
    · rw [if_neg hc] at hget
      rw [List.foldl_cons, ih (by omega), hget, List.filter_cons_of_neg (by simpa using hc)]

theorem map_fst_fired (s : Snapshot) (risk : RiskMetrics) :
    (fired s risk).map (·.1) = Rule.firing s risk := by
  rw [fired, List.map_filterMap, Rule.firing, ← List.filterMap_eq_filter]
  refine List.filterMap_congr fun r _ => ?_
  cases h : r.message? s risk <;> simp [Option.guard, h]

/-! ## Issues and checklist -/

theorem mem_fired {s : Snapshot} {risk : RiskMetrics} {r : Rule} {m : String} :
    (r, m) ∈ fired s risk ↔ r.message? s risk = some m := by
  simp only [fired, List.mem_filterMap, Option.map_eq_some_iff, Prod.mk.injEq]
  constructor
  · rintro ⟨r', _, m', hm, rfl, rfl⟩
    exact hm
  · intro h
    exact ⟨r, r.mem_all, m, h, rfl, rfl⟩

theorem pairwise_fired (s : Snapshot) (risk : RiskMetrics) :
    (fired s risk).Pairwise fun f g => Rule.all.idxOf f.1 < Rule.all.idxOf g.1 := by
  have hall : Rule.all.Pairwise fun a b => Rule.all.idxOf a < Rule.all.idxOf b := by decide
  have hfiring := hall.filter fun r => (r.message? s risk).isSome
  rwa [← Rule.firing, ← map_fst_fired, List.pairwise_map] at hfiring

/-- The rules that fire, with their messages, in the order of the issues. -/
def found (s : Snapshot) (risk : RiskMetrics) : List (Rule × String) :=
  (fired s risk).filter (·.1.severity = .critical) ++
    (fired s risk).filter (·.1.severity ≠ .critical)

theorem criticalFirst_fired (s : Snapshot) (risk : RiskMetrics) :
    criticalFirst ((fired s risk).map fun f => f.1.issue f.2) =
      (found s risk).map fun f => f.1.issue f.2 := by
  rw [criticalFirst, found, List.map_append, List.filter_map, List.filter_map]
  rfl

theorem mem_found {s : Snapshot} {risk : RiskMetrics} {r : Rule} {m : String} :
    (r, m) ∈ found s risk ↔ r.message? s risk = some m := by
  by_cases h : r.severity = .critical <;> simp [found, mem_fired, h]

theorem pairwise_found (s : Snapshot) (risk : RiskMetrics) :
    (found s risk).Pairwise fun f g => f.1.Precedes g.1 := by
  have hfired := pairwise_fired s risk
  rw [found, List.pairwise_append]
  refine ⟨?critical, ?others, ?across⟩
  case critical =>
    refine (hfired.filter _).imp_of_mem fun {f g} hf hg hlt => ?_
    rw [List.mem_filter, decide_eq_true_eq] at hf hg
    exact .inr ⟨⟨fun _ => hg.2, fun _ => hf.2⟩, hlt⟩
  case others =>
    refine (hfired.filter _).imp_of_mem fun {f g} hf hg hlt => ?_
    rw [List.mem_filter, decide_eq_true_eq] at hf hg
    exact .inr ⟨⟨fun h => absurd h hf.2, fun h => absurd h hg.2⟩, hlt⟩
  case across =>
    intro f hf g hg
    rw [List.mem_filter, decide_eq_true_eq] at hf hg
    exact .inl ⟨hf.2, hg.2⟩

/-- Whether a line of the checklist tells what became of a rule: it fails with the message of the
issue if there is one, and otherwise passes. -/
structure Tells (issues : List Issue) (r : Rule) (line : Check) : Prop where
  label : line.label = r.label
  fail_iff : ∀ m, line.status = .fail ∧ line.message = m ↔ r.issue m ∈ issues
  pass : line.status ≠ .fail → line.status = .pass

theorem issue_mem_iff {s : Snapshot} {risk : RiskMetrics} {r : Rule} {m : String} :
    r.issue m ∈ (found s risk).map (fun f => f.1.issue f.2) ↔ r.message? s risk = some m := by
  rw [← mem_found, List.mem_map]
  constructor
  · rintro ⟨⟨a, n⟩, ha, h⟩
    obtain ⟨rfl, rfl⟩ := Rule.issue_inj h
    exact ha
  · intro h
    exact ⟨(r, m), h, rfl⟩

theorem tells_checkOf (s : Snapshot) (risk : RiskMetrics) (r : Rule) :
    Tells ((found s risk).map fun f => f.1.issue f.2) r (checkOf s risk r) := by
  cases h : r.message? s risk <;> constructor <;> simp [issue_mem_iff, checkOf, h]

/-! ## What a report says -/

/-- Whether a report says of a snapshot what the rules that fire and the values given for its
categories amount to. -/
structure Accounts (options : ScoringOptions) (start : Fields) (s : Snapshot) (r : Report) :
    Prop where
  riskMetrics : r.riskMetrics = Risk.metrics s.dependencies
    (Risk.buckets (s.entries.map (·.path)) s.dependencies) options.cycleDetection
  categories : ∀ c, ∃ n, replaced start c 100 = .ok n ∧
    r.categories.get c = max 0 (n - Rule.penalties s r.riskMetrics c)
  inRange : r.categories.InRange
  issues : ∀ i, i ∈ r.issues ↔ ∃ (rule : Rule) (m : String),
    rule.message? s r.riskMetrics = some m ∧ i = rule.issue m
  issues_once : (r.issues.map (·.id)).Nodup
  issues_order : r.issues.Pairwise fun i j =>
    ∃ a b : Rule, i.id = a.id ∧ j.id = b.id ∧ a.Precedes b
  checks : ∃ lines, r.checks = lines ++ Check.informational s ∧
    List.Forall₂ (Tells r.issues) Rule.all lines
  recommendations : r.recommendations.map some = r.issues.map (·.suggestion)
  score : Score.final r.categories = .ok r.score
  summaryBadge : r.summaryBadge = Score.badge (.int r.score)

theorem accounts_of_report {options : ScoringOptions} {now : Int} {start : Fields} {s : Snapshot}
    {r : Report} (h : report options now start s = .ok r) : Accounts options start s r := by
  simp only [report, Except.bind_eq_ok_iff] at h
  obtain ⟨first, hfirst, score, hscore, nodes, _, h⟩ := h
  -- The metrics and the fold get names, so that no later step unfolds them.
  generalize hrisk : Risk.metrics s.dependencies
    (Risk.buckets (s.entries.map (·.path)) s.dependencies) options.cycleDetection = risk at h hscore
  generalize hcategories : ((fired s risk).map (·.1)).foldl penalise first = categories
    at h hscore
  cases h
  have hrange := inRange_of_starting inRange_full hfirst
  have hissues := criticalFirst_fired s risk
  have hpairwise := pairwise_found s risk
  constructor
  case riskMetrics => exact hrisk.symm
  case categories =>
    intro c
    have hfirst' : replaced start c 100 = .ok (first.get c) := by
      have := replaced_of_starting hfirst c
      rwa [show ({} : CategoryScores).get c = 100 by cases c <;> rfl] at this
    refine ⟨first.get c, hfirst', ?_⟩
    rw [← hcategories, get_foldl_penalise (hrange c).1, map_fst_fired, Rule.penalties]
  case inRange =>
    show categories.InRange
    rw [← hcategories]
    exact inRange_foldl_penalise hrange _
  case issues =>
    intro i
    simp only [hissues, List.mem_map, Prod.exists, mem_found, eq_comm]
  case issues_once =>
    simp only [hissues, List.map_map]
    rw [List.Nodup, List.pairwise_map]
    exact hpairwise.imp fun h hid => h.ne (Rule.id_injective hid)
  case issues_order =>
    simp only [hissues, List.pairwise_map]
    exact hpairwise.imp fun h => ⟨_, _, rfl, rfl, h⟩
  case checks =>
    refine ⟨_, rfl, ?_⟩
    simp only [hissues, List.forall₂_map_right_iff, List.forall₂_same]
    exact fun rule _ => tells_checkOf s risk rule
  case recommendations =>
    simp only [hissues, List.map_map]
    rfl
  case score => exact hscore
  case summaryBadge => rfl

theorem Accounts.exists_issue_iff {options : ScoringOptions} {start : Fields} {s : Snapshot}
    {r : Report} (h : Accounts options start s r) (rule : Rule) :
    (∃ i ∈ r.issues, i.id = rule.id) ↔ (rule.message? s r.riskMetrics).isSome = true := by
  rw [Option.isSome_iff_exists]
  constructor
  · rintro ⟨i, hi, hid⟩
    obtain ⟨rule', m, hm, rfl⟩ := (h.issues i).mp hi
    obtain rfl := Rule.id_injective hid
    exact ⟨m, hm⟩
  · rintro ⟨m, hm⟩
    exact ⟨rule.issue m, (h.issues _).mpr ⟨rule, m, hm, rfl⟩, rfl⟩

/-! ## What the scores depend on -/

theorem Accounts.statuses {options : ScoringOptions} {start : Fields} {s : Snapshot} {r : Report}
    (h : Accounts options start s r) :
    (r.checks.take Rule.all.length).map (·.status) = Rule.all.map fun rule =>
      if (rule.message? s r.riskMetrics).isSome then .fail else .pass := by
  obtain ⟨lines, hchecks, htells⟩ := h.checks
  rw [hchecks, htells.length_eq, List.take_left, ← List.forall₂_eq_eq_eq,
    List.forall₂_map_left_iff, List.forall₂_map_right_iff]
  refine htells.flip.imp fun line rule hline => ?_
  cases hm : rule.message? s r.riskMetrics with
  | some m => exact ((hline.fail_iff m).mpr ((h.issues _).mpr ⟨rule, m, hm, rfl⟩)).1
  | none =>
    refine hline.pass fun hfail => ?_
    obtain ⟨rule', m, hm', hissue⟩ := (h.issues _).mp ((hline.fail_iff _).mp ⟨hfail, rfl⟩)
    obtain ⟨rfl, rfl⟩ := Rule.issue_inj hissue
    rw [hm] at hm'
    cases hm'

theorem Accounts.scores_congr {options options' : ScoringOptions} {start : Fields}
    {s s' : Snapshot} {r r' : Report} (h : Accounts options start s r)
    (h' : Accounts options' start s' r')
    (hstatus : (r.checks.take Rule.all.length).map (·.status) =
      (r'.checks.take Rule.all.length).map (·.status)) :
    r.categories = r'.categories ∧ r.score = r'.score ∧ r.summaryBadge = r'.summaryBadge := by
  have hfiring : Rule.firing s r.riskMetrics = Rule.firing s' r'.riskMetrics := by
    -- The status of a rule's line tells whether the rule fires.
    rw [h.statuses, h'.statuses, List.map_inj_left] at hstatus
    refine List.filter_congr fun rule hrule => ?_
    have hline := hstatus rule hrule
    cases hm : (rule.message? s r.riskMetrics).isSome <;>
      cases hm' : (rule.message? s' r'.riskMetrics).isSome <;> simp [hm, hm'] at hline ⊢
  have hget : ∀ c, r.categories.get c = r'.categories.get c := by
    intro c
    obtain ⟨n, hn, hc⟩ := h.categories c
    obtain ⟨n', hn', hc'⟩ := h'.categories c
    obtain rfl : n = n' := Except.ok.inj (hn.symm.trans hn')
    rw [hc, hc', Rule.penalties, Rule.penalties, hfiring]
  have hcategories := CategoryScores.ext_get hget
  have hscore : r.score = r'.score := by
    have := h.score
    rw [hcategories, h'.score] at this
    exact (Except.ok.inj this).symm
  exact ⟨hcategories, hscore, by rw [h.summaryBadge, h'.summaryBadge, hscore]⟩

theorem accounts_of_run {options : ScoringOptions} {now : Int} {start : Fields} {v : Value}
    {r : Report} (h : (run options now start v).result = .ok r) :
    ∃ s, (Snapshot.recover v).result = .ok s ∧ Accounts options start s r := by
  simp only [run, Logged.bind_eq_ok_iff, Logged.result_ofExcept, Logged.result_pure] at h
  obtain ⟨s, hs, r', hr', _, _, hr⟩ := h
  cases hr
  exact ⟨s, hs, accounts_of_report hr'⟩

/-- Every report accounts for the snapshot that was handed over, and there is one if the values
given for the categories are integers (and the parts of the snapshot can be counted at all). What
else is given makes no difference, and scores depend on the values given and on the lines of the
rules only, whatever the lines say that just inform. -/
theorem reports_account (options : ScoringOptions) (now : Int) (start : Fields) (v : Value) :
    (GivesIntegers start → ∀ k < 1000, v.size ≤ 2 ^ k →
      ∃ r, (run options now start v).result = .ok r) ∧
    (∀ r, (run options now start v).result = .ok r →
      (∃ s, (Snapshot.recover v).result = .ok s ∧ Accounts options start s r) ∧
      ∀ options' now' v' r', (run options' now' start v').result = .ok r' →
        (r.checks.take Rule.all.length).map (·.status) =
          (r'.checks.take Rule.all.length).map (·.status) →
        r.categories = r'.categories ∧ r.score = r'.score ∧ r.summaryBadge = r'.summaryBadge) ∧
    run options now (start.filter fun f => isCategory f.1) v = run options now start v := by
  refine ⟨fun hstart k hk hv => run_eq_ok_of_integers options now hstart hk hv, ?_,
    run_filter options now start v⟩
  intro r hr
  obtain ⟨s, hs, haccounts⟩ := accounts_of_run hr
  refine ⟨⟨s, hs, haccounts⟩, fun options' now' v' r' hr' hstatus => ?_⟩
  obtain ⟨s', _, haccounts'⟩ := accounts_of_run hr'
  exact haccounts.scores_congr haccounts' hstatus

/-- A snapshot with a secret and without the workspaces it should have. -/
def exposed : Snapshot where
  name := "r"
  entries := [{ path := ".env", name := ".env" }]
  isMonorepo := true

/-- Values to start at, two of them out of range and one for no category. -/
def given : Fields := [
  ("security", .int 150), ("structure", .int 10), ("speed", .int 3), ("completeness", .int (-5))]

/-- A secret is reported and takes sixty from security, whether there is a readme file or not. -/
theorem reports_account_exposed :
    let documented : Snapshot :=
      { exposed with entries := exposed.entries ++ [{ path := "README.md", name := "README.md" }] }
    ∃ r r', (run {} 0 given (.record (.snapshot exposed))).result = .ok r ∧
      (run {} 0 given (.record (.snapshot documented))).result = .ok r' ∧
      Accounts {} given exposed r ∧ r.categories = ⟨100, 0, 40, 0⟩ ∧ r.checks ≠ r'.checks ∧
      r.score = r'.score := by
  intro documented
  have hgiven : GivesIntegers given := by
    intro f hf _
    simp only [given, List.mem_cons, List.not_mem_nil, or_false] at hf
    rcases hf with rfl | rfl | rfl | rfl <;> exact ⟨_, rfl⟩
  obtain ⟨hreport, haccounts, _⟩ := reports_account {} 0 given (.record (.snapshot exposed))
  obtain ⟨r, hr⟩ := hreport hgiven 7 (by decide) (by decide)
  obtain ⟨r', hr'⟩ := (reports_account {} 0 given (.record (.snapshot documented))).1
    hgiven 7 (by decide) (by decide)
  obtain ⟨⟨s, hs, hs'⟩, hsame⟩ := haccounts r hr
  cases hs
  have hcategories : (run {} 0 given (.record (.snapshot exposed))).result.map (·.categories) =
      .ok ⟨100, 0, 40, 0⟩ := by decide +kernel
  have hchecks : (run {} 0 given (.record (.snapshot exposed))).result.map (·.checks) ≠
      (run {} 0 given (.record (.snapshot documented))).result.map (·.checks) := by decide +kernel
  have hstatus :
      (run {} 0 given (.record (.snapshot exposed))).result.map
        (fun r => (r.checks.take Rule.all.length).map (·.status)) =
      (run {} 0 given (.record (.snapshot documented))).result.map
        (fun r => (r.checks.take Rule.all.length).map (·.status)) := by decide +kernel
  rw [hr] at hcategories
  rw [hr, hr'] at hchecks hstatus
  exact ⟨r, r', hr, hr', hs', Except.ok.inj hcategories, fun h => hchecks (congrArg Except.ok h),
    (hsame {} 0 _ r' hr' (Except.ok.inj hstatus)).2.1⟩

end Assessment

end RepoSurvey
