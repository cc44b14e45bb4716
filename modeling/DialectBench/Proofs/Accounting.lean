import Mathlib.Algebra.GroupWithZero.Nat
import DialectBench.Report.Summary

/-!
# The report accounts for every result

    A run is reported in three parts: a status text for each result, the
    unexpected outcomes under one heading each, and the counts.  An ACCOUNT of
    a run is what the last two parts have to hold: sections that list the
    failed and the unexpectedly passed results, each of them once and under the
    heading of its own outcome, and counts that add up to the number of
    results.

    The route: results that have reports have verdicts, one each and in order.
    The headings are the unexpected outcomes in the order of their first
    occurrence, which is a list without repetitions, so the groups below them
    split the unexpected results.
-/

namespace DialectBench

/-! ## Groups and pieces -/

section

variable {α κ : Type} [BEq κ] [LawfulBEq κ]

/-- What a list adds to the keys seen so far: nothing twice, and every key. -/
theorem foldl_seen (keys : List κ) : ∀ (seen : List κ), seen.Nodup →
    (keys.foldl (fun seen k => if seen.contains k then seen else seen ++ [k]) seen).Nodup ∧
      ∀ k, k ∈ keys.foldl (fun seen k => if seen.contains k then seen else seen ++ [k]) seen ↔
        k ∈ seen ∨ k ∈ keys := by
  induction keys with
  | nil =>
      intro seen hseen
      exact ⟨hseen, fun k => by simp⟩
  | cons k keys ih =>
      intro seen hseen
      rw [List.foldl_cons]
      -- a key that was seen adds nothing, a new one comes last
      by_cases hk : seen.contains k = true
      · rw [if_pos hk]
        obtain ⟨hnodup, hmem⟩ := ih seen hseen
        refine ⟨hnodup, fun j => (hmem j).trans ?_⟩
        have hk' : k ∈ seen := List.contains_iff_mem.mp hk
        constructor
        · rintro (hj | hj)
          · exact .inl hj
          · exact .inr (List.mem_cons_of_mem k hj)
        · rintro (hj | hj)
          · exact .inl hj
          · rcases List.mem_cons.mp hj with rfl | hj
            · exact .inl hk'
            · exact .inr hj
      · rw [if_neg hk]
        have hk' : k ∉ seen := fun hmem => hk (List.contains_iff_mem.mpr hmem)
        obtain ⟨hnodup, hmem⟩ := ih (seen ++ [k]) (by
          rw [List.nodup_append]
          refine ⟨hseen, List.pairwise_singleton _ k, ?_⟩
          intro a ha b hb hab
          rw [List.mem_singleton.mp hb] at hab
          exact hk' (hab ▸ ha))
        refine ⟨hnodup, fun j => (hmem j).trans ?_⟩
        rw [List.mem_append, List.mem_singleton, List.mem_cons, or_assoc]

/-- **GROUPS SPLIT A LIST**: the groups of different keys hold, all together,
    the elements with one of these keys, each as often as the list does. -/
theorem flatMap_groups_perm (key : α → κ) (xs : List α) {keys : List κ} (h : keys.Nodup) :
    (keys.flatMap fun k => xs.filter fun x => key x == k).Perm
      (xs.filter fun x => keys.contains (key x)) := by
  induction keys with
  | nil =>
      simp
  | cons k keys ih =>
      obtain ⟨hk, hkeys⟩ := List.nodup_cons.mp h
      let within := xs.filter fun x => (k :: keys).contains (key x)
      -- the elements with one of the keys fall into those of the first key and the others
      have hfirst : within.filter (fun x => key x == k) = xs.filter fun x => key x == k := by
        rw [List.filter_filter]
        refine List.filter_congr fun x _ => ?_
        by_cases hx : key x = k
        · simp [hx]
        · simp [hx]
      have hothers : within.filter (fun x => !(key x == k))
          = xs.filter fun x => keys.contains (key x) := by
        rw [List.filter_filter]
        refine List.filter_congr fun x _ => ?_
        by_cases hx : key x = k
        · simp [hx, hk]
        · simp [hx]
      rw [List.flatMap_cons]
      refine ((ih hkeys).append_left _).trans ?_
      rw [← hfirst, ← hothers]
      exact List.filter_append_perm _ within

end

/-- Pieces without a fault are written out. -/
theorem Printed.ofPieces_ok (texts : List String) :
    Printed.ofPieces (texts.map .ok) = ⟨String.join texts, .ok ()⟩ := by
  induction texts with
  | nil => rfl
  | cons t texts ih => rw [List.map_cons, Printed.ofPieces, ih, String.join_cons]

theorem join_flatMap {α : Type} (f : α → List String) (xs : List α) :
    String.join (xs.flatMap f) = String.join (xs.map fun x => String.join (f x)) := by
  induction xs with
  | nil => rfl
  | cons x xs ih => rw [List.flatMap_cons, String.join_append, ih, List.map_cons, String.join_cons]

/-- An outcome is unexpected where failing and being expected to fail part
    ways. -/
theorem Outcome.unexpected_of (failed expected : Bool) :
    (Outcome.of failed expected).unexpected = (failed != expected) := by
  cases failed <;> cases expected <;> rfl

theorem mem_unexpectedOutcomes {vs : List Verdict} {o : Outcome} :
    o ∈ unexpectedOutcomes vs ↔ o.unexpected = true ∧ ∃ v ∈ vs, v.outcome = o := by
  unfold unexpectedOutcomes
  rw [(foldl_seen _ [] List.nodup_nil).2 o]
  simp only [List.not_mem_nil, false_or, List.mem_filter, List.mem_map]
  exact And.comm

theorem nodup_unexpectedOutcomes (vs : List Verdict) : (unexpectedOutcomes vs).Nodup :=
  (foldl_seen _ [] List.nodup_nil).1

/-- There is a heading exactly if there is an unexpected outcome. -/
theorem isEmpty_unexpectedOutcomes (vs : List Verdict) :
    (unexpectedOutcomes vs).isEmpty = !vs.any fun v => v.outcome.unexpected := by
  rw [Bool.eq_iff_iff, List.isEmpty_iff, List.eq_nil_iff_forall_not_mem, Bool.not_eq_true',
    List.any_eq_false]
  constructor
  · intro h v hv hu
    exact h v.outcome (mem_unexpectedOutcomes.mpr ⟨hu, v, hv, rfl⟩)
  · rintro h o ho
    obtain ⟨hu, v, hv, rfl⟩ := mem_unexpectedOutcomes.mp ho
    exact h v hv hu

section

variable [Gauge]

/-! ## The outcome of a result -/

/-- Whether the report on a result calls it failed; without a report it is. -/
def TestResult.failed (r : TestResult Value) : Bool :=
  match SingleReport.of .empty r with
  | .ok report => report.failed
  | .error _ => true

/-- The outcome of a result where the tests of some names are expected to
    fail. -/
def TestResult.outcome (expected : List String) (r : TestResult Value) : Outcome :=
  .of r.failed (expected.contains r.name)

/-- The status text of a result: a word for whether it failed and whether it
    was expected to, and its name. -/
def TestResult.status (expected : List String) (r : TestResult Value) : String :=
  (match r.failed, expected.contains r.name with
    | false, false => "PASS"
    | true, false => "FAIL"
    | true, true => "XFAIL"
    | false, true => "XPASS") ++ " - \"" ++ r.name ++ "\"\n"

theorem TestResult.status_eq (expected : List String) (r : TestResult Value) :
    r.status expected = (r.outcome expected).word ++ " - \"" ++ r.name ++ "\"\n" := by
  unfold TestResult.status TestResult.outcome
  cases r.failed <;> cases expected.contains r.name <;> rfl

/-! ## Verdicts -/

/-- The result that a verdict is on. -/
def Verdict.result (v : Verdict) : TestResult Value := v.report.result

/-- A report keeps the result that it is on. -/
theorem SingleReport.result_of {c : Context} {r : TestResult Value} {report : SingleReport}
    (h : SingleReport.of c r = .ok report) : report.result = r := by
  unfold SingleReport.of at h
  split at h
  · cases h
    rfl
  · split at h
    · next t g _ _ =>
        cases hi : traceReasons c 0 t g with
        | error e => rw [hi] at h; exact nomatch h
        | ok items =>
            rw [hi] at h
            cases h
            rfl
    · exact nomatch h

theorem Verdict.of_reported (expected : List String) {r : TestResult Value}
    {report : SingleReport} (h : SingleReport.of .empty r = .ok report) :
    Verdict.of expected r = .ok ⟨r.outcome expected, report⟩ := by
  have hfailed : r.failed = report.failed := by
    unfold TestResult.failed
    rw [h]
  unfold Verdict.of TestResult.outcome
  rw [h, hfailed]
  rfl

/-- Results that have reports have verdicts, one each and in order, with the
    outcomes of the results. -/
theorem verdicts_of_reported (expected : List String) {results : List (TestResult Value)}
    (h : ∀ r ∈ results, ∃ report, SingleReport.of .empty r = .ok report) :
    ∃ vs, verdicts expected results = (vs, none) ∧ vs.map Verdict.result = results ∧
      ∀ v ∈ vs, v.outcome = v.result.outcome expected := by
  induction results with
  | nil => exact ⟨[], rfl, rfl, fun v hv => (nomatch hv)⟩
  | cons r rs ih =>
      obtain ⟨⟨report, hreport⟩, hrest⟩ := List.forall_mem_cons.mp h
      obtain ⟨vs, hvs, hresults, hout⟩ := ih hrest
      have hresult : report.result = r := SingleReport.result_of hreport
      refine ⟨⟨r.outcome expected, report⟩ :: vs, ?_, ?_, ?_⟩
      · rw [verdicts, Verdict.of_reported expected hreport, hvs]
      · rw [List.map_cons, hresults]
        exact congrArg (· :: rs) hresult
      · refine List.forall_mem_cons.mpr ⟨?_, hout⟩
        show r.outcome expected = report.result.outcome expected
        rw [hresult]

theorem Verdict.statusLine_eq {expected : List String} {v : Verdict}
    (h : v.outcome = v.result.outcome expected) : v.statusLine = v.result.status expected := by
  rw [TestResult.status_eq, ← h]
  rfl

/-- The results of a group of verdicts are the results of the outcome. -/
theorem map_result_withOutcome {expected : List String} {vs : List Verdict}
    (h : ∀ v ∈ vs, v.outcome = v.result.outcome expected) (o : Outcome) :
    (withOutcome o vs).map Verdict.result
      = (vs.map Verdict.result).filter fun r => r.outcome expected == o := by
  unfold withOutcome
  rw [List.filter_map]
  refine congrArg (List.map Verdict.result) (List.filter_congr ?_)
  intro v hv
  rw [h v hv]
  rfl

/-! ## Sections and counts -/

/-- A section of the report: results under the heading of an outcome. -/
structure Section where
  outcome : Outcome
  listed : List (TestResult Value)

/-- The text of a section: the heading with the number of results, and a line
    for each of them. -/
def Section.text (s : Section) : String :=
  "\n****** " ++ s.outcome.meaning ++ " tests - " ++ toString s.listed.length ++ " tests\n" ++
    String.join (s.listed.map fun r => "    " ++ s.outcome.word ++ " - \"" ++ r.name ++ "\"\n")

/-- An account of the results of a run. -/
structure RunAccount (expected : List String) (results : List (TestResult Value)) where
  sections : List Section
  counts : List (Outcome × Nat)
  /-- No outcome has two sections. -/
  sections_nodup : (sections.map Section.outcome).Nodup
  /-- A section lists the results of its outcome, in order. -/
  listed_eq : ∀ s ∈ sections,
    s.listed = results.filter fun r => r.outcome expected == s.outcome
  /-- The sections list the results that failed or passed against what was
      expected, each of them once, and no others. -/
  listed_perm : (sections.flatMap Section.listed).Perm
    (results.filter fun r => r.failed != expected.contains r.name)
  /-- No outcome is counted twice. -/
  counts_nodup : (counts.map Prod.fst).Nodup
  /-- An outcome that occurs is counted with the number of its results. -/
  mem_counts_iff : ∀ o n, (o, n) ∈ counts ↔
    n ≠ 0 ∧ n = results.countP fun r => r.outcome expected == o
  /-- All results are counted. -/
  sum_counts : (counts.map Prod.snd).sum = results.length

/-- The report that goes with an account. -/
def RunAccount.text {expected : List String} {results : List (TestResult Value)}
    (a : RunAccount expected results) : String :=
  String.join (results.map (TestResult.status expected)) ++
    (if a.sections.isEmpty then "" else "\nUnexpected outcome summary:\n") ++
    String.join (a.sections.map Section.text) ++ "\nSummary:\n" ++
    String.join (a.counts.map fun c => "    " ++ c.1.meaning ++ ": " ++ toString c.2 ++ "\n")

/-- The section of an outcome. -/
def sectionOf (expected : List String) (results : List (TestResult Value)) (o : Outcome) :
    Section :=
  ⟨o, results.filter fun r => r.outcome expected == o⟩

/-- The entry of an outcome in the counts, if it occurs. -/
def countOf (expected : List String) (results : List (TestResult Value)) (o : Outcome) :
    Option (Outcome × Nat) :=
  if (results.countP fun r => r.outcome expected == o) = 0 then none
  else some (o, results.countP fun r => r.outcome expected == o)

theorem countOf_eq_some_iff {expected : List String} {results : List (TestResult Value)}
    {o o' : Outcome} {n : Nat} :
    countOf expected results o = some (o', n) ↔
      o = o' ∧ n ≠ 0 ∧ n = results.countP fun r => r.outcome expected == o' := by
  unfold countOf
  split
  · next h =>
      constructor
      · intro h'
        exact nomatch h'
      · rintro ⟨rfl, hn, rfl⟩
        exact absurd h hn
  · next h =>
      rw [Option.some.injEq, Prod.mk.injEq]
      constructor
      · rintro ⟨rfl, rfl⟩
        exact ⟨rfl, h, rfl⟩
      · rintro ⟨rfl, _, rfl⟩
        exact ⟨rfl, rfl⟩

theorem nodup_counts (expected : List String) (results : List (TestResult Value))
    {os : List Outcome} (h : os.Nodup) :
    ((os.filterMap (countOf expected results)).map Prod.fst).Nodup := by
  induction os with
  | nil => exact List.nodup_nil
  | cons o os ih =>
      obtain ⟨ho, hos⟩ := List.nodup_cons.mp h
      rw [List.filterMap_cons]
      cases hc : countOf expected results o with
      | none => exact ih hos
      | some c =>
          obtain ⟨o₁, n⟩ := c
          obtain ⟨rfl, _⟩ := countOf_eq_some_iff.mp hc
          refine List.nodup_cons.mpr ⟨?_, ih hos⟩
          intro hmem
          obtain ⟨⟨o₂, n'⟩, hc', rfl⟩ := List.mem_map.mp hmem
          obtain ⟨o', ho', hsome⟩ := List.mem_filterMap.mp hc'
          obtain ⟨rfl, _⟩ := countOf_eq_some_iff.mp hsome
          exact ho ho'

/-- Leaving out the outcomes that do not occur does not change the sum. -/
theorem sum_filterMap_countOf (expected : List String) (results : List (TestResult Value))
    (os : List Outcome) :
    ((os.filterMap (countOf expected results)).map Prod.snd).sum
      = (os.map fun o => results.countP fun r => r.outcome expected == o).sum := by
  induction os with
  | nil => rfl
  | cons o os ih =>
      rw [List.filterMap_cons, List.map_cons, List.sum_cons, ← ih]
      unfold countOf
      by_cases h : (results.countP fun r => r.outcome expected == o) = 0
      · simp only [h, if_true, Nat.zero_add]
      · simp only [h, if_false, List.map_cons, List.sum_cons]

/-- Every result has one of the four outcomes. -/
theorem sum_countP_outcome (expected : List String) (results : List (TestResult Value)) :
    (Outcome.all.map fun o => results.countP fun r => r.outcome expected == o).sum
      = results.length := by
  induction results with
  | nil => rfl
  | cons r rs ih =>
      simp only [Outcome.all, List.map_cons, List.map_nil, List.sum_cons, List.sum_nil,
        List.countP_cons, List.length_cons] at ih ⊢
      cases r.outcome expected <;> simp <;> omega

/-! ## The report -/

/-- The texts of the section of an outcome: its heading and a line for each of
    its verdicts. -/
def sectionTexts (vs : List Verdict) (o : Outcome) : List String :=
  heading o (withOutcome o vs).length :: (withOutcome o vs).map fun v => "    " ++ v.statusLine

theorem join_sectionTexts {expected : List String} {vs : List Verdict}
    (h : ∀ v ∈ vs, v.outcome = v.result.outcome expected) (o : Outcome) :
    String.join (sectionTexts vs o) = (sectionOf expected (vs.map Verdict.result) o).text := by
  have hlisted : (sectionOf expected (vs.map Verdict.result) o).listed
      = (withOutcome o vs).map Verdict.result := (map_result_withOutcome h o).symm
  have hlines : (withOutcome o vs).map (fun v => "    " ++ v.statusLine)
      = (withOutcome o vs).map fun v => "    " ++ o.word ++ " - \"" ++ v.result.name ++ "\"\n" := by
    refine List.map_congr_left fun v hv => ?_
    have ho : v.outcome = o := beq_iff_eq.mp (List.mem_filter.mp hv).2
    rw [Verdict.statusLine, ho, String.append_assoc, String.append_assoc, String.append_assoc,
      String.append_assoc, String.append_assoc]
    rfl
  unfold sectionTexts Section.text
  rw [String.join_cons, hlines, hlisted, List.length_map, List.map_map]
  rfl

/-- Without details of the failures, the middle of the report is the text of
    the sections. -/
theorem details_eq {expected : List String} {vs : List Verdict}
    (h : ∀ v ∈ vs, v.outcome = v.result.outcome expected) :
    details false vs
      = ⟨String.join ((unexpectedOutcomes vs).map fun o =>
          (sectionOf expected (vs.map Verdict.result) o).text), .ok ()⟩ := by
  have hpieces : details false vs
      = Printed.ofPieces (((unexpectedOutcomes vs).flatMap (sectionTexts vs)).map .ok) := by
    unfold details
    rw [List.map_flatMap]
    refine congrArg (fun f => Printed.ofPieces ((unexpectedOutcomes vs).flatMap f))
      (funext fun o => ?_)
    rw [sectionTexts, List.map_cons, List.map_map, List.map_eq_flatMap]
    rfl
  rw [hpieces, Printed.ofPieces_ok, join_flatMap]
  exact congrArg (fun ts => Printed.mk (String.join ts) (.ok ()))
    (List.map_congr_left fun o _ => join_sectionTexts h o)

/-- The closing summary holds the counts. -/
theorem closing_eq {expected : List String} {vs : List Verdict}
    (h : ∀ v ∈ vs, v.outcome = v.result.outcome expected) :
    closing vs = "\nSummary:\n" ++
      String.join ((Outcome.all.filterMap (countOf expected (vs.map Verdict.result))).map
        fun c => "    " ++ c.1.meaning ++ ": " ++ toString c.2 ++ "\n") := by
  unfold closing
  refine congrArg (fun ts => "\nSummary:\n" ++ String.join ts) ?_
  rw [List.map_filterMap]
  refine congrArg (fun f => Outcome.all.filterMap f) (funext fun o => ?_)
  have hcount : ((vs.map Verdict.result).countP fun r => r.outcome expected == o)
      = (withOutcome o vs).length := by
    rw [List.countP_eq_length_filter, ← map_result_withOutcome h, List.length_map]
  unfold countOf
  rw [hcount]
  by_cases hn : (withOutcome o vs).length = 0
  · simp [hn]
  · simp [hn]

/-- The account of the verdicts of a run. -/
def runAccount (expected : List String) {vs : List Verdict}
    (h : ∀ v ∈ vs, v.outcome = v.result.outcome expected) :
    RunAccount expected (vs.map Verdict.result) where
  sections := (unexpectedOutcomes vs).map (sectionOf expected (vs.map Verdict.result))
  counts := Outcome.all.filterMap (countOf expected (vs.map Verdict.result))
  sections_nodup := by
    rw [List.map_map]
    show ((unexpectedOutcomes vs).map id).Nodup
    rw [List.map_id]
    exact nodup_unexpectedOutcomes vs
  listed_eq := by
    intro s hs
    obtain ⟨o, _, rfl⟩ := List.mem_map.mp hs
    rfl
  listed_perm := by
    rw [List.flatMap_map]
    refine (flatMap_groups_perm (TestResult.outcome expected) (vs.map Verdict.result)
      (nodup_unexpectedOutcomes vs)).trans (.of_eq (List.filter_congr fun r hr => ?_))
    obtain ⟨v, hv, rfl⟩ := List.mem_map.mp hr
    rw [← Outcome.unexpected_of, ← TestResult.outcome, Bool.eq_iff_iff, List.contains_iff_mem,
      mem_unexpectedOutcomes]
    constructor
    · exact And.left
    · intro hu
      exact ⟨hu, v, hv, h v hv⟩
  counts_nodup := nodup_counts expected _ (by decide)
  mem_counts_iff := by
    intro o n
    rw [List.mem_filterMap]
    constructor
    · rintro ⟨o', _, ho'⟩
      exact (countOf_eq_some_iff.mp ho').2
    · intro hn
      refine ⟨o, ?_, countOf_eq_some_iff.mpr ⟨rfl, hn⟩⟩
      cases o <;> decide
  sum_counts := (sum_filterMap_countOf expected _ Outcome.all).trans
    (sum_countP_outcome expected _)

/-- The status lines of the verdicts are the status texts of their results. -/
theorem map_status_result {expected : List String} {vs : List Verdict}
    (h : ∀ v ∈ vs, v.outcome = v.result.outcome expected) :
    (vs.map Verdict.result).map (TestResult.status expected) = vs.map Verdict.statusLine := by
  rw [List.map_map]
  exact List.map_congr_left fun v hv => (Verdict.statusLine_eq (h v hv)).symm

/-- The sections are announced exactly if there is an unexpected outcome. -/
theorem intro_runAccount (expected : List String) {vs : List Verdict}
    (h : ∀ v ∈ vs, v.outcome = v.result.outcome expected) :
    (if (runAccount expected h).sections.isEmpty then "" else "\nUnexpected outcome summary:\n")
      = if vs.any fun v => v.outcome.unexpected then "\nUnexpected outcome summary:\n" else "" := by
  show (if ((unexpectedOutcomes vs).map _).isEmpty then _ else _) = _
  rw [List.isEmpty_map, isEmpty_unexpectedOutcomes]
  cases vs.any fun v => v.outcome.unexpected <;> rfl

/-- The parts of the report make up the text of the account. -/
theorem text_runAccount (expected : List String) {vs : List Verdict}
    (h : ∀ v ∈ vs, v.outcome = v.result.outcome expected) :
    (runAccount expected h).text =
      String.join (vs.map Verdict.statusLine) ++
        (if vs.any fun v => v.outcome.unexpected then "\nUnexpected outcome summary:\n" else "") ++
        (details false vs).text ++ closing vs := by
  have hsections : (runAccount expected h).sections.map Section.text
      = (unexpectedOutcomes vs).map fun o =>
          (sectionOf expected (vs.map Verdict.result) o).text := List.map_map
  unfold RunAccount.text
  rw [map_status_result h, intro_runAccount expected h, hsections, details_eq h, closing_eq h,
    String.append_assoc]
  rfl

/-- An outcome is unexpected exactly if some result failed against what was
    expected or passed against it. -/
theorem any_unexpected_iff {expected : List String} {vs : List Verdict}
    (h : ∀ v ∈ vs, v.outcome = v.result.outcome expected) :
    (vs.any fun v => v.outcome.unexpected) = true ↔
      ∃ r ∈ vs.map Verdict.result, r.failed ≠ expected.contains r.name := by
  have hbad : ∀ v ∈ vs, v.outcome.unexpected = true ↔
      v.result.failed ≠ expected.contains v.result.name := by
    intro v hv
    rw [h v hv, TestResult.outcome, Outcome.unexpected_of, bne_iff_ne]
  rw [List.any_eq_true]
  constructor
  · rintro ⟨v, hv, hu⟩
    exact ⟨v.result, List.mem_map_of_mem hv, (hbad v hv).mp hu⟩
  · rintro ⟨r, hr, hne⟩
    obtain ⟨v, hv, rfl⟩ := List.mem_map.mp hr
    exact ⟨v, hv, (hbad v hv).mpr hne⟩

/-- **THE REPORT ACCOUNTS FOR EVERY RESULT**: if all results have reports, the
    report on the run is the text of an account of its results, and the run is
    called bad exactly if some result failed against what was expected or
    passed against it. -/
theorem reportResults_accounts (results : List (TestResult Value)) (expected : List String)
    (h : ∀ r ∈ results, ∃ report, SingleReport.of .empty r = .ok report) :
    ∃ (a : RunAccount expected results) (bad : Bool),
      reportResults results expected false = ⟨a.text, .ok bad⟩ ∧
      (bad = true ↔ ∃ r ∈ results, r.failed ≠ expected.contains r.name) := by
  obtain ⟨vs, hvs, rfl, hout⟩ := verdicts_of_reported expected h
  refine ⟨runAccount expected hout, vs.any fun v => v.outcome.unexpected, ?_, ?_⟩
  · have hok : (details false vs).outcome = .ok () := by rw [details_eq hout]
    rw [text_runAccount]
    simp only [reportResults, hvs, hok]
  · exact any_unexpected_iff hout

end

/-- A run with all four outcomes, two results of one name among them. -/
def mixedRun : List (TestResult Value) :=
  [⟨"late", none, some "RuntimeError", none, none⟩,
    ⟨"sound", none, none, some [⟨"forward", [], .int 1⟩], some [⟨"forward", [], .int 1⟩]⟩,
    ⟨"known", some "AssertionError", none, none, none⟩,
    ⟨"mended", none, none, some [], some []⟩,
    ⟨"late", none, none, some [⟨"forward", [], .int 2⟩], some [⟨"forward", [], .int 1⟩]⟩]

theorem reportResults_accounts_mixedRun :
    (∀ r ∈ mixedRun, ∃ report, SingleReport.of .empty r = .ok report) ∧
      ∃ (a : RunAccount ["known", "mended"] mixedRun) (bad : Bool),
        reportResults mixedRun ["known", "mended"] false = ⟨a.text, .ok bad⟩ ∧
        (bad = true ↔
          ∃ r ∈ mixedRun, r.failed ≠ (["known", "mended"] : List String).contains r.name) := by
  have h : ∀ r ∈ mixedRun, ∃ report, SingleReport.of .empty r = .ok report := by
    intro r hr
    simp only [mixedRun, List.mem_cons, List.not_mem_nil, or_false] at hr
    rcases hr with rfl | rfl | rfl | rfl | rfl
    · exact ⟨_, rfl⟩
    · exact ⟨_, rfl⟩
    · exact ⟨_, rfl⟩
    · exact ⟨_, rfl⟩
    · exact ⟨_, rfl⟩
  exact ⟨h, reportResults_accounts mixedRun ["known", "mended"] h⟩

end DialectBench
