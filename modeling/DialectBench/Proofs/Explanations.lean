import Mathlib.Data.List.Basic
import DialectBench.Proofs.Accounting

/-! # What a verbose report explains

    A verbose report puts an explanation under every failed result that it
    lists: the error text of a report, indented.  The reports are made in a
    first pass over the results and the explanations are written in a second
    one, when only the report on the LAST result of the run is still at hand.

    So the sections hold the explanation of the last result wherever an
    explanation stands (`verbose_report_explains_last`).  If the last result
    passed it has no error text, and asking for one stops the report.

    The route: what stands in a section is written as a list of pieces that
    depends on a choice of explanations, and two choices give the same pieces
    exactly if they agree on the failed results. -/

namespace DialectBench

/-! ## Listings -/

/-- What lists a result in the section of an outcome: its line and, among the
    failures, an explanation. -/
def listing (explain : TestResult Value → Piece) (o : Outcome) (r : TestResult Value) :
    List Piece :=
  .ok ("    " ++ o.word ++ " - \"" ++ r.name ++ "\"\n") :: if o = .fail then [explain r] else []

/-- Lists joined from parts of equal lengths are equal exactly if their parts
    are. -/
theorem flatMap_eq_iff {α β : Type} {f g : α → List β} {xs : List α}
    (hlength : ∀ x ∈ xs, (f x).length = (g x).length) :
    xs.flatMap f = xs.flatMap g ↔ ∀ x ∈ xs, f x = g x := by
  induction xs with
  | nil => simp
  | cons x xs ih =>
      obtain ⟨hx, hxs⟩ := List.forall_mem_cons.mp hlength
      rw [List.flatMap_cons, List.flatMap_cons, List.forall_mem_cons, ← ih hxs]
      constructor
      · exact fun h => List.append_inj h hx
      · rintro ⟨hhead, htail⟩
        rw [hhead, htail]

theorem listing_eq_iff (f g : TestResult Value → Piece) (o : Outcome) (r : TestResult Value) :
    listing f o r = listing g o r ↔ (o = .fail → f r = g r) := by
  by_cases ho : o = .fail
  · simp [listing, ho]
  · simp [listing, ho]

theorem length_listing (f g : TestResult Value → Piece) (o : Outcome) (r : TestResult Value) :
    (listing f o r).length = (listing g o r).length := by
  by_cases ho : o = .fail
  · simp [listing, ho]
  · simp [listing, ho]

/-- A section: its heading and what lists its results. -/
def Section.pieces (explain : TestResult Value → Piece) (s : Section) : List Piece :=
  .ok (heading s.outcome s.listed.length) :: s.listed.flatMap (listing explain s.outcome)

theorem Section.length_pieces (f g : TestResult Value → Piece) (s : Section) :
    (s.pieces f).length = (s.pieces g).length := by
  rw [Section.pieces, Section.pieces, List.length_cons, List.length_cons, List.length_flatMap,
    List.length_flatMap]
  simp only [length_listing f g]

theorem Section.pieces_eq_iff (f g : TestResult Value → Piece) (s : Section) :
    s.pieces f = s.pieces g ↔ (s.outcome = .fail → ∀ r ∈ s.listed, f r = g r) := by
  rw [Section.pieces, Section.pieces, List.cons_inj_right,
    flatMap_eq_iff fun r _ => length_listing f g s.outcome r]
  simp only [listing_eq_iff]
  exact ⟨fun h ho r hr => h r hr ho, fun h r hr ho => h ho r hr⟩

section

variable [Gauge]

/-! ## Sections with explanations -/

/-- The explanation of a result: the error text of its own report, indented. -/
def TestResult.explanation (r : TestResult Value) : Piece :=
  (SingleReport.of .empty r).bind fun report =>
    report.errorText.map fun t => Text.indent "        " t ++ "\n"

/-- The explanation of the last result of a run. -/
def lastExplanation (results : List (TestResult Value)) : Piece :=
  match results.getLast? with
  | some r => r.explanation
  | none => .error .unbound

section

variable {expected : List String} {results : List (TestResult Value)}

/-- The sections of an account, with explanations of the failures. -/
def RunAccount.pieces (a : RunAccount expected results) (explain : TestResult Value → Piece) :
    List Piece :=
  a.sections.flatMap (Section.pieces explain)

/-- The report that goes with an account whose sections are written in the
    given pieces: a fault in a piece ends the report there. -/
def RunAccount.report (a : RunAccount expected results) (pieces : List Piece) (bad : Bool) :
    Printed Bool :=
  let front := String.join (results.map (TestResult.status expected)) ++
    if a.sections.isEmpty then "" else "\nUnexpected outcome summary:\n"
  let middle := Printed.ofPieces pieces
  match middle.outcome with
  | .error e => ⟨front ++ middle.text, .error e⟩
  | .ok () => ⟨front ++ middle.text ++ ("\nSummary:\n" ++
      String.join (a.counts.map fun c => "    " ++ c.1.meaning ++ ": " ++ toString c.2 ++ "\n")),
      .ok bad⟩

theorem RunAccount.outcome_report (a : RunAccount expected results) (pieces : List Piece)
    (bad : Bool) :
    (a.report pieces bad).outcome = (Printed.ofPieces pieces).outcome.map fun _ => bad := by
  simp only [RunAccount.report]
  cases (Printed.ofPieces pieces).outcome with
  | error e => rfl
  | ok u => rfl

/-- A failed result stands in the section of failures. -/
theorem RunAccount.exists_section (a : RunAccount expected results) {r : TestResult Value}
    (hr : r ∈ results) (hfail : r.outcome expected = .fail) :
    ∃ s ∈ a.sections, s.outcome = .fail ∧ r ∈ s.listed := by
  have hunexpected : (r.failed != expected.contains r.name) = true := by
    rw [← Outcome.unexpected_of, ← TestResult.outcome, hfail]
    rfl
  have hlisted : r ∈ a.sections.flatMap Section.listed :=
    a.listed_perm.mem_iff.mpr (List.mem_filter.mpr ⟨hr, hunexpected⟩)
  obtain ⟨s, hs, hmem⟩ := List.mem_flatMap.mp hlisted
  refine ⟨s, hs, ?_, hmem⟩
  rw [a.listed_eq s hs] at hmem
  exact (beq_iff_eq.mp (List.mem_filter.mp hmem).2).symm.trans hfail

/-- What a section lists are results of the run that have its outcome. -/
theorem RunAccount.mem_listed (a : RunAccount expected results) {s : Section}
    (hs : s ∈ a.sections) {r : TestResult Value} (hr : r ∈ s.listed) :
    r ∈ results ∧ r.outcome expected = s.outcome := by
  rw [a.listed_eq s hs] at hr
  exact ⟨(List.mem_filter.mp hr).1, beq_iff_eq.mp (List.mem_filter.mp hr).2⟩

end

/-! ## Pieces that depend on the explanations -/

section

variable {expected : List String} {results : List (TestResult Value)}

/-- Two choices of explanations give the same sections exactly if they agree on
    the failed results. -/
theorem RunAccount.pieces_eq_iff (a : RunAccount expected results)
    (f g : TestResult Value → Piece) :
    a.pieces f = a.pieces g ↔ ∀ r ∈ results, r.outcome expected = .fail → f r = g r := by
  rw [RunAccount.pieces, RunAccount.pieces, flatMap_eq_iff fun s _ => Section.length_pieces f g s]
  simp only [Section.pieces_eq_iff]
  constructor
  · intro h r hr hfail
    obtain ⟨s, hs, hout, hmem⟩ := a.exists_section hr hfail
    exact h s hs hout r hmem
  · intro h s hs hout r hmem
    obtain ⟨hr, hrs⟩ := a.mem_listed hs hmem
    exact h r hr (hrs.trans hout)

/-- The faults in the sections are the faulty explanations of failed results. -/
theorem RunAccount.error_mem_pieces (a : RunAccount expected results)
    (explain : TestResult Value → Piece) (e : Fault) :
    .error e ∈ a.pieces explain ↔
      ∃ r ∈ results, r.outcome expected = .fail ∧ explain r = .error e := by
  rw [RunAccount.pieces, List.mem_flatMap]
  constructor
  · rintro ⟨s, hs, hmem⟩
    rcases List.mem_cons.mp hmem with heq | hmem
    · cases heq
    · obtain ⟨r, hr, hmem⟩ := List.mem_flatMap.mp hmem
      obtain ⟨hresult, hrs⟩ := a.mem_listed hs hr
      rw [listing] at hmem
      by_cases ho : s.outcome = .fail
      · rw [if_pos ho] at hmem
        rcases List.mem_cons.mp hmem with heq | hmem
        · cases heq
        · exact ⟨r, hresult, hrs.trans ho, (List.mem_singleton.mp hmem).symm⟩
      · simp [ho] at hmem
  · rintro ⟨r, hr, hfail, he⟩
    obtain ⟨s, hs, hout, hmem⟩ := a.exists_section hr hfail
    refine ⟨s, hs, List.mem_cons_of_mem _ (List.mem_flatMap.mpr ⟨r, hmem, ?_⟩)⟩
    simp [listing, hout, he]

end

/-! ## The explanation at hand -/

theorem explanation_of_failed {r : TestResult Value} {report : SingleReport}
    (h : SingleReport.of .empty r = .ok report) (hfailed : r.failed = true) :
    ∃ t, r.explanation = .ok t := by
  have hreport : report.failed = true := by
    rw [TestResult.failed, h] at hfailed
    exact hfailed
  have htext : ∃ t, report.errorText = .ok t := by
    rw [SingleReport.errorText, hreport]
    cases report.result.compilationError with
    | some e => exact ⟨_, rfl⟩
    | none =>
        cases report.result.runtimeError with
        | some e => exact ⟨_, rfl⟩
        | none => exact ⟨_, rfl⟩
  obtain ⟨t, ht⟩ := htext
  rw [TestResult.explanation, h]
  show ∃ u, report.errorText.map _ = .ok u
  rw [ht]
  exact ⟨_, rfl⟩

/-- A result that passed has no error text. -/
theorem explanation_of_passed {r : TestResult Value} {report : SingleReport}
    (h : SingleReport.of .empty r = .ok report) (hfailed : r.failed = false) :
    r.explanation = .error (.assertion "") := by
  have hreport : report.failed = false := by
    rw [TestResult.failed, h] at hfailed
    exact hfailed
  have htext : report.errorText = .error (.assertion "") := by
    rw [SingleReport.errorText, hreport]
    rfl
  rw [TestResult.explanation, h]
  show report.errorText.map _ = _
  rw [htext]
  rfl

/-- A verdict holds the report on its result. -/
theorem report_of_verdicts {expected : List String} {results : List (TestResult Value)}
    {vs : List Verdict} (h : verdicts expected results = (vs, none)) :
    ∀ v ∈ vs, SingleReport.of .empty v.result = .ok v.report := by
  induction results generalizing vs with
  | nil =>
      cases h
      exact fun v hv => absurd hv List.not_mem_nil
  | cons r rs ih =>
      rw [verdicts] at h
      cases hreport : SingleReport.of .empty r with
      | error e =>
          rw [Verdict.of, hreport] at h
          cases h
      | ok report =>
          rw [Verdict.of_reported expected hreport] at h
          rcases hrest : verdicts expected rs with ⟨ws, stop⟩
          rw [hrest] at h
          cases h
          refine List.forall_mem_cons.mpr ⟨?_, ih hrest⟩
          show SingleReport.of .empty report.result = .ok report
          rw [SingleReport.result_of hreport, hreport]

/-- The second pass explains a failure by the last verdict. -/
theorem detail_eq_listing {vs : List Verdict}
    (hreport : ∀ v ∈ vs, SingleReport.of .empty v.result = .ok v.report) (v : Verdict) :
    detail true (vs.getLast?.map Verdict.report) v
      = listing (fun _ => lastExplanation (vs.map Verdict.result)) v.outcome v.result := by
  have hentry : "    " ++ v.statusLine
      = "    " ++ v.outcome.word ++ " - \"" ++ v.result.name ++ "\"\n" := by
    rw [Verdict.statusLine, String.append_assoc, String.append_assoc, String.append_assoc,
      String.append_assoc, String.append_assoc]
    rfl
  rw [detail.eq_def, listing, lastExplanation, List.getLast?_map, hentry, Bool.true_and]
  by_cases ho : v.outcome = .fail
  · rw [if_pos (beq_iff_eq.mpr ho), if_pos ho]
    cases hlast : vs.getLast? with
    | none => rfl
    | some w =>
        have hw : w ∈ vs := List.mem_of_getLast? hlast
        show _ = [_, w.result.explanation]
        rw [TestResult.explanation, hreport w hw]
        rfl
  · rw [if_neg (fun h => ho (beq_iff_eq.mp h)), if_neg ho]

/-- The middle of a verbose report is made of the sections of the account, with
    the explanation of the last result under every failure. -/
theorem details_verbose_eq {expected : List String} {vs : List Verdict}
    (hout : ∀ v ∈ vs, v.outcome = v.result.outcome expected)
    (hreport : ∀ v ∈ vs, SingleReport.of .empty v.result = .ok v.report) :
    details true vs = Printed.ofPieces ((runAccount expected hout).pieces
      fun _ => lastExplanation (vs.map Verdict.result)) := by
  have hsection : ∀ o, (.ok (heading o (withOutcome o vs).length) ::
        (withOutcome o vs).flatMap (detail true (vs.getLast?.map Verdict.report)) : List Piece)
      = (sectionOf expected (vs.map Verdict.result) o).pieces
          fun _ => lastExplanation (vs.map Verdict.result) := by
    intro o
    have hlisted : (sectionOf expected (vs.map Verdict.result) o).listed
        = (withOutcome o vs).map Verdict.result := (map_result_withOutcome hout o).symm
    rw [Section.pieces, hlisted, List.length_map, List.flatMap_map]
    refine congrArg (_ :: ·) (List.flatMap_congr fun v hv => ?_)
    have ho : v.outcome = o := beq_iff_eq.mp (List.mem_filter.mp hv).2
    rw [detail_eq_listing hreport v, ho]
    rfl
  rw [details, RunAccount.pieces]
  show Printed.ofPieces ((unexpectedOutcomes vs).flatMap _)
    = Printed.ofPieces (((unexpectedOutcomes vs).map _).flatMap _)
  rw [List.flatMap_map]
  exact congrArg (fun f => Printed.ofPieces ((unexpectedOutcomes vs).flatMap f))
    (funext hsection)

/-- A verbose report is the report of the account with these sections. -/
theorem reportResults_verbose_eq {expected : List String} {results : List (TestResult Value)}
    {vs : List Verdict} (h : verdicts expected results = (vs, none))
    (hout : ∀ v ∈ vs, v.outcome = v.result.outcome expected) :
    reportResults results expected true
      = (runAccount expected hout).report ((runAccount expected hout).pieces
          fun _ => lastExplanation (vs.map Verdict.result))
        (vs.any fun v => v.outcome.unexpected) := by
  simp only [reportResults, h, RunAccount.report, map_status_result hout, intro_runAccount,
    details_verbose_eq hout (report_of_verdicts h), closing_eq hout]
  rfl

/-- The sections are written to their end exactly if nothing failed or the last
    result, which has to explain the failures, failed itself. -/
theorem RunAccount.finishes_iff {expected : List String} {results : List (TestResult Value)}
    (a : RunAccount expected results)
    (h : ∀ r ∈ results, ∃ report, SingleReport.of .empty r = .ok report) :
    (Printed.ofPieces (a.pieces fun _ => lastExplanation results)).outcome = .ok () ↔
      ((∃ r ∈ results, r.outcome expected = .fail) →
        ∃ last, results.getLast? = some last ∧ last.failed = true) := by
  by_cases hfail : ∃ r ∈ results, r.outcome expected = .fail
  · obtain ⟨r, hr, hout⟩ := hfail
    obtain ⟨last, hlast⟩ : ∃ last, results.getLast? = some last :=
      Option.isSome_iff_exists.mp (List.getLast?_isSome.mpr (List.ne_nil_of_mem hr))
    obtain ⟨report, hreport⟩ := h last (List.mem_of_getLast? hlast)
    have hexplain : lastExplanation results = last.explanation := by
      rw [lastExplanation, hlast]
    cases hfailed : last.failed with
    | true =>
        obtain ⟨t, ht⟩ := explanation_of_failed hreport hfailed
        refine iff_of_true (Printed.outcome_ofPieces_eq_ok_iff.mpr fun e he => ?_)
          fun _ => ⟨last, hlast, hfailed⟩
        obtain ⟨_, _, _, herror⟩ := (a.error_mem_pieces _ e).mp he
        rw [hexplain, ht] at herror
        cases herror
    | false =>
        have herror : lastExplanation results = .error (.assertion "") := by
          rw [hexplain, explanation_of_passed hreport hfailed]
        refine iff_of_false ?_ ?_
        · intro hok
          exact Printed.outcome_ofPieces_eq_ok_iff.mp hok _
            ((a.error_mem_pieces _ _).mpr ⟨r, hr, hout, herror⟩)
        · intro hall
          obtain ⟨last', hlast', hfailed'⟩ := hall ⟨r, hr, hout⟩
          obtain rfl : last = last' := Option.some.inj (hlast.symm.trans hlast')
          rw [hfailed] at hfailed'
          cases hfailed'
  · refine iff_of_true (Printed.outcome_ofPieces_eq_ok_iff.mpr fun e he => ?_)
      fun hex => absurd hex hfail
    obtain ⟨r, hr, hout, _⟩ := (a.error_mem_pieces _ e).mp he
    exact hfail ⟨r, hr, hout⟩

/-- **FAILURES ARE EXPLAINED BY THE LAST RESULT**: if all results have reports,
    a verbose report is that of an account of the run with the explanation of
    the LAST result under every failure.  So it comes to an end exactly if
    nothing failed or the last result failed (else the last report is asked for
    an error text that it does not have), and every failure has its own
    explanation exactly if all of them are explained alike. -/
theorem verbose_report_explains_last (results : List (TestResult Value)) (expected : List String)
    (h : ∀ r ∈ results, ∃ report, SingleReport.of .empty r = .ok report) :
    ∃ (a : RunAccount expected results) (bad : Bool),
      reportResults results expected true
        = a.report (a.pieces fun _ => lastExplanation results) bad ∧
      (bad = true ↔ ∃ r ∈ results, r.failed ≠ expected.contains r.name) ∧
      ((reportResults results expected true).outcome = .ok bad ↔
        ((∃ r ∈ results, r.outcome expected = .fail) →
          ∃ last, results.getLast? = some last ∧ last.failed = true)) ∧
      (a.pieces (fun _ => lastExplanation results) = a.pieces TestResult.explanation ↔
        ∀ r ∈ results, r.outcome expected = .fail →
          lastExplanation results = r.explanation) := by
  obtain ⟨vs, hvs, rfl, hout⟩ := verdicts_of_reported expected h
  have hreport := reportResults_verbose_eq hvs hout
  refine ⟨runAccount expected hout, _, hreport, any_unexpected_iff hout, ?_,
    RunAccount.pieces_eq_iff _ _ _⟩
  rw [hreport, RunAccount.outcome_report, ← (runAccount expected hout).finishes_iff h]
  cases (Printed.ofPieces ((runAccount expected hout).pieces
      fun _ => lastExplanation (vs.map Verdict.result))).outcome with
  | error e => exact iff_of_false (fun hok => nomatch hok) (fun hok => nomatch hok)
  | ok u => exact iff_of_true rfl rfl

end

/-- A result that did not compile. -/
def uncompiled : TestResult Value := ⟨"early", some "no such operator", none, none, none⟩

/-- A result that compiled and did not run. -/
def unrun : TestResult Value := ⟨"late", none, some "out of memory", none, none⟩

theorem verbose_report_explains_last_uncompiled :
    (∀ r ∈ [uncompiled, unrun], ∃ report, SingleReport.of .empty r = .ok report) ∧
    ∃ (a : RunAccount [] [uncompiled, unrun]) (bad : Bool),
      reportResults [uncompiled, unrun] [] true
        = a.report (a.pieces fun _ => lastExplanation [uncompiled, unrun]) bad ∧
      (bad = true ↔ ∃ r ∈ [uncompiled, unrun], r.failed ≠ ([] : List String).contains r.name) ∧
      ((reportResults [uncompiled, unrun] [] true).outcome = .ok bad ↔
        ((∃ r ∈ [uncompiled, unrun], r.outcome [] = .fail) →
          ∃ last, [uncompiled, unrun].getLast? = some last ∧ last.failed = true)) ∧
      (a.pieces (fun _ => lastExplanation [uncompiled, unrun])
          = a.pieces TestResult.explanation ↔
        ∀ r ∈ [uncompiled, unrun], r.outcome [] = .fail →
          lastExplanation [uncompiled, unrun] = r.explanation) := by
  have h : ∀ r ∈ [uncompiled, unrun], ∃ report, SingleReport.of .empty r = .ok report := by
    intro r hr
    rcases List.mem_cons.mp hr with rfl | hr
    · exact ⟨_, rfl⟩
    · obtain rfl : r = unrun := List.mem_singleton.mp hr
      exact ⟨_, rfl⟩
  exact ⟨h, verbose_report_explains_last [uncompiled, unrun] [] h⟩

/-- The first of two failures stands with the explanation of the second, and a
    failure before a result that passed ends the report. -/
theorem earlier_failure_misexplained :
    uncompiled.explanation = .ok "        Compilation error: no such operator\n" ∧
    (reportResults [uncompiled, unrun] [] true).outcome = .ok true ∧
    (reportResults [uncompiled, unrun] [] true).text =
      "FAIL - \"early\"\nFAIL - \"late\"\n\nUnexpected outcome summary:\n\n" ++
      "****** Failed tests - 2 tests\n" ++
      "    FAIL - \"early\"\n        Runtime error: out of memory\n" ++
      "    FAIL - \"late\"\n        Runtime error: out of memory\n" ++
      "\nSummary:\n    Failed: 2\n" ∧
    (reportResults [uncompiled, ⟨"sound", none, none, some [], some []⟩] [] true).outcome
      = .error (.assertion "") := by
  refine ⟨by rfl, by rfl, by decide +kernel, by rfl⟩

end DialectBench
