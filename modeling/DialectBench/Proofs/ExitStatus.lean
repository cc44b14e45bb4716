import DialectBench.Proofs.Accounting
import DialectBench.Proofs.Isolation
import DialectBench.Suite.Command

/-!
# The exit status is the verdict

    The command settles on a configuration and on what is expected to fail under
    it, selects tests by their names, runs them and reports.  Its exit status is
    zero exactly if there was something to run and every selected test failed
    exactly if it was expected to.

    The route: a report that comes to an end had a report on every result, so
    that its verdict is about all of them; the results stand in the order of the
    tests and under their names; and whichever configuration is chosen, the
    command judges all tests by the failures that are expected under it.
-/

namespace DialectBench

/-! ## Reports that come to an end -/

section

variable [Gauge]

/-- If no result stopped the verdicts, all results have reports. -/
theorem reported_of_verdicts {expected : List String} {results : List (TestResult Value)}
    {vs : List Verdict} (h : verdicts expected results = (vs, none)) :
    ∀ r ∈ results, ∃ report, SingleReport.of .empty r = .ok report := by
  induction results generalizing vs with
  | nil => exact fun r hr => absurd hr List.not_mem_nil
  | cons r rs ih =>
      rw [verdicts] at h
      cases hreport : SingleReport.of .empty r with
      | error e =>
          rw [Verdict.of, hreport] at h
          cases h
      | ok report =>
          rw [Verdict.of_reported expected hreport] at h
          rcases hrest : verdicts expected rs with ⟨ws, stop⟩
          rw [hrest] at h
          cases h
          exact List.forall_mem_cons.mpr ⟨⟨report, hreport⟩, ih hrest⟩

/-- A run is called bad by its verdicts, if nothing stops the report. -/
theorem outcome_reportResults {results : List (TestResult Value)} {expected : List String}
    {vs : List Verdict} (h : verdicts expected results = (vs, none)) (verbose : Bool) :
    (reportResults results expected verbose).outcome
      = (details verbose vs).outcome.map fun _ => vs.any fun v => v.outcome.unexpected := by
  simp only [reportResults, h]
  cases (details verbose vs).outcome with
  | error e => rfl
  | ok u => rfl

/-- **A REPORT THAT COMES TO AN END** tells whether some result failed against
    what was expected or passed against it, however much it says. -/
theorem bad_of_reportResults {results : List (TestResult Value)} {expected : List String}
    {verbose bad : Bool} (h : (reportResults results expected verbose).outcome = .ok bad) :
    bad = true ↔ ∃ r ∈ results, r.failed ≠ expected.contains r.name := by
  rcases hvs : verdicts expected results with ⟨vs, stop⟩
  cases stop with
  | some e =>
      rw [reportResults, hvs] at h
      cases h
  | none =>
      obtain ⟨vs', hvs', rfl, hout⟩ := verdicts_of_reported expected (reported_of_verdicts hvs)
      obtain rfl : vs = vs' := congrArg Prod.fst (hvs.symm.trans hvs')
      rw [outcome_reportResults hvs] at h
      cases hdetails : (details verbose vs).outcome with
      | error e =>
          rw [hdetails] at h
          cases h
      | ok u =>
          rw [hdetails] at h
          cases h
          exact any_unexpected_iff hout

/-- A report that says no more than it must comes to an end if all results have
    reports. -/
theorem reportResults_ends {results : List (TestResult Value)} (expected : List String)
    (h : ∀ r ∈ results, ∃ report, SingleReport.of .empty r = .ok report) :
    ∃ bad, (reportResults results expected false).outcome = .ok bad := by
  obtain ⟨vs, hvs, rfl, hout⟩ := verdicts_of_reported expected h
  rw [outcome_reportResults hvs, details_eq hout]
  exact ⟨_, rfl⟩

end

/-! ## Tests in order -/

section

variable {ω S A V : Type} {account : Fault → String} {c : Config ω S A V}

/-- Tests are run one after the other, each once, in the world that the ones
    before it left. -/
inductive RunsInOrder (account : Fault → String) (c : Config ω S A V) :
    List (Test ω S V) → ω → List (TestResult V) → ω → Prop where
  | nil (w : ω) : RunsInOrder account c [] w [] w
  | cons {t : Test ω S V} {ts : List (Test ω S V)} {w w₁ w' : ω} {r : TestResult V}
      {rs : List (TestResult V)} (first : RunsTo account c t w r w₁)
      (rest : RunsInOrder account c ts w₁ rs w') :
      RunsInOrder account c (t :: ts) w (r :: rs) w'

theorem runsInOrder_runTests (account : Fault → String) (c : Config ω S A V)
    (tests : List (Test ω S V)) (w : ω) :
    RunsInOrder account c tests w (runTests account c tests w).1
      (runTests account c tests w).2 := by
  induction tests generalizing w with
  | nil => exact .nil w
  | cons t ts ih =>
      obtain ⟨r, w₁, hruns⟩ := exists_runsTo account c t w
      rw [runTests_cons, hruns.runTest_eq]
      exact .cons hruns (ih w₁)

/-- The results stand in the order of the tests and under their names. -/
theorem RunsInOrder.forall₂_iff {tests : List (Test ω S V)} {w w' : ω}
    {results : List (TestResult V)} (h : RunsInOrder account c tests w results w')
    (P : String → TestResult V → Prop) :
    List.Forall₂ (fun t r => P t.name r) tests results ↔ ∀ r ∈ results, P r.name r := by
  induction h with
  | nil w => exact ⟨fun _ r hr => absurd hr List.not_mem_nil, fun _ => .nil⟩
  | cons first _ ih => rw [List.forall₂_cons, List.forall_mem_cons, ih, first.shape.1]

end

namespace Suite

/-! ## Judging -/

section

variable {ω S A V : Type} [Gauge]

/-- What running and judging tests comes to.  The tests are run in order, each
    once, and no others.  If the report comes to an end, the status is zero
    exactly if there was a test and each test failed exactly if that was
    expected of its name; and the report does come to an end if it says no more
    than it must and all results have reports. -/
structure Judged (account : Fault → String) (view : ω → V → Value) (c : Config ω S A V)
    (selected : List (Test ω S V)) (expected : String → Prop) (verbose : Bool) (w : ω)
    (results : List (TestResult V)) (out : Printed Nat × ω) : Prop where
  order : RunsInOrder account c selected w results out.2
  status : ∀ n, out.1.outcome = .ok n → (n = 0 ↔ selected ≠ [] ∧
    List.Forall₂ (fun t r => (r.map (view out.2)).failed = true ↔ expected t.name)
      selected results)
  ends : verbose = false →
    (∀ r ∈ results, ∃ report, SingleReport.of .empty (r.map (view out.2)) = .ok report) →
    ∃ n, out.1.outcome = .ok n

variable {account : Fault → String} {view : ω → V → Value} {c : Config ω S A V}
  {names : List String} {filter : String} {accepts : String → Bool} {verbose : Bool}
  {tests : List (Test ω S V)} {w : ω}

theorem judge_of_none (h : select accepts tests = []) :
    judge account view c names filter accepts verbose tests w
      = (⟨noneSelected filter (tests.map (·.name)), .ok 1⟩, w) := by
  rw [judge, h]
  rfl

theorem judge_of_some (h : select accepts tests ≠ []) {results : List (TestResult V)} {w' : ω}
    (hrun : runTests account c (select accepts tests) w = (results, w')) :
    judge account view c names filter accepts verbose tests w
      = (reportStatus (results.map (TestResult.map (view w'))) names verbose, w') := by
  have hjudge : judge account view c names filter accepts verbose tests
      = runTests account c (select accepts tests) >>= fun results => do
        return reportStatus (results.map (TestResult.map (view (← get)))) names verbose := by
    simp only [judge, List.isEmpty_eq_false_iff.mpr h]
    rfl
  rw [hjudge, stateM_bind_of_eq hrun]
  rfl

/-- The status is zero exactly if every result failed as expected. -/
theorem outcome_reportStatus {results : List (TestResult Value)} {n : Nat}
    (h : (reportStatus results names verbose).outcome = .ok n) :
    n = 0 ↔ ∀ r ∈ results, r.failed = true ↔ r.name ∈ names := by
  have houtcome : (reportResults results names verbose).outcome.map
      (fun unexpected => if unexpected then 1 else 0) = .ok n := h
  cases hreport : (reportResults results names verbose).outcome with
  | error e =>
      rw [hreport] at houtcome
      cases houtcome
  | ok bad =>
      rw [hreport] at houtcome
      cases houtcome
      have hstatus : (if bad then 1 else 0) = 0 ↔ ¬ bad = true := by cases bad <;> decide
      have hfails : ∀ r : TestResult Value,
          (r.failed = true ↔ r.name ∈ names) ↔ r.failed = names.contains r.name := by
        intro r
        rw [← List.contains_iff_mem]
        exact Bool.eq_iff_iff.symm
      rw [hstatus, bad_of_reportResults hreport]
      simp only [hfails, not_exists, not_and, ne_eq, not_not]

/-- **JUDGING TESTS** runs the selected ones and is told by their names what to
    expect of them. -/
theorem judged_judge (account : Fault → String) (view : ω → V → Value) (c : Config ω S A V)
    (names : List String) (filter : String) (accepts : String → Bool) (verbose : Bool)
    (tests : List (Test ω S V)) (w : ω) :
    ∃ results, Judged account view c (select accepts tests) (· ∈ names) verbose w results
      (judge account view c names filter accepts verbose tests w) := by
  by_cases hnone : select accepts tests = []
  · rw [judge_of_none hnone, hnone]
    refine ⟨[], .nil w, fun n hn => ?_, fun _ _ => ⟨1, rfl⟩⟩
    cases hn
    exact ⟨fun h => absurd h (by decide), fun h => absurd rfl h.1⟩
  · rcases hrun : runTests account c (select accepts tests) w with ⟨results, w'⟩
    have horder := runsInOrder_runTests account c (select accepts tests) w
    rw [hrun] at horder
    rw [judge_of_some hnone hrun]
    refine ⟨results, horder, fun n hn => ?_, fun hverbose hreported => ?_⟩
    · rw [outcome_reportStatus hn, List.forall_mem_map, horder.forall₂_iff
        fun name r => (r.map (view w')).failed = true ↔ name ∈ names]
      exact ⟨fun h => ⟨hnone, h⟩, fun h => h.2⟩
    · subst hverbose
      obtain ⟨bad, hbad⟩ := reportResults_ends names (List.forall_mem_map.mpr hreported)
      exact ⟨_, congrArg (Except.map _) hbad⟩

end

/-! ## The configurations -/

/-- The configurations that the command offers, and the names of which failure
    is expected under each. -/
inductive Offered {B : Type} (place : Surroundings B) (s : Settings)
    (tests : List (Test World Program Datum)) :
    {A : Type} → Config World Program A Datum → (String → Prop) → Prop where
  | native (choice : s.choice = .native) : Offered place s tests nativeConfig fun _ => False
  | scripted (choice : s.choice = .scripted) : Offered place s tests scriptedConfig fun _ => False
  | reference (choice : s.choice = .reference) :
      Offered place s tests (backendConfig place.toolchain .linalg
        ⟨Pipeline.Dialect.linalg.backendStages, place.loaded⟩) fun n => n ∈ unloweredTests
  /-- All names of all tests but those that pass. -/
  | tosa (choice : s.choice = .tosa) :
      Offered place s tests (backendConfig place.toolchain .tosa
        ⟨Pipeline.Dialect.tosa.backendStages, place.loaded⟩)
        fun n => (∃ t ∈ tests, t.name = n) ∧ n ∉ tosaPassing
  | external {path : String} {c : Config World Program B Datum} {names : List String}
      (choice : s.choice = .external) (script : s.script = some path)
      (sets : place.scripts.lookup path = some ⟨some c, some names⟩) :
      Offered place s tests c fun n => n ∈ names

section

variable {A B : Type} {place : Surroundings B} {s : Settings} {c : Config World Program A Datum}
  {expected : String → Prop}

theorem mem_tosaFailing {tests : List (Test World Program Datum)} {n : String} :
    n ∈ tosaFailing (tests.map (·.name)) ↔ (∃ t ∈ tests, t.name = n) ∧ n ∉ tosaPassing := by
  rw [tosaFailing, List.mem_filter, List.mem_map, Bool.not_eq_true', ← Bool.not_eq_true,
    List.contains_iff_mem]

/-- Whichever configuration is chosen, the command judges all tests by the
    failures that are expected under it. -/
theorem runAccepting_of_offered [Gauge] (account : Fault → String)
    {registry : List (Test World Program Datum)}
    (h : Offered place s (allTests registry place s) c expected) (accepts : String → Bool) :
    ∃ names : List String, (∀ n, n ∈ names ↔ expected n) ∧
      runAccepting account (.ok accepts) registry place s
        = judge account (fun w => w.store.freeze) c names s.filter accepts s.verbose
          (allTests registry place s) := by
  unfold runAccepting
  cases h with
  | native choice =>
      refine ⟨[], fun n => List.mem_nil_iff n, ?_⟩
      simp only [choice]
      rfl
  | scripted choice =>
      refine ⟨[], fun n => List.mem_nil_iff n, ?_⟩
      simp only [choice]
      rfl
  | reference choice =>
      refine ⟨unloweredTests, fun n => Iff.rfl, ?_⟩
      simp only [choice]
      rfl
  | tosa choice =>
      refine ⟨tosaFailing _, fun n => mem_tosaFailing, ?_⟩
      simp only [choice]
      rfl
  | external choice script sets =>
      refine ⟨_, fun n => Iff.rfl, ?_⟩
      simp only [choice, script, sets]
      rfl

/-- **THE EXIT STATUS IS THE VERDICT**: for all registrations, all surroundings,
    all settings under which a configuration is offered, and every predicate on
    names as the filter.  The tests are the registered ones in the order of their
    registration and then the saved ones; those whose names the filter accepts
    are run in order, each once, and judged by the failures that are expected
    under the configuration.  The command with arguments does this with the
    filter that it reads from them. -/
theorem exit_status_is_verdict [Gauge] (account : Fault → String)
    (regs : List (Test World Program Datum)) (accepts : String → Bool)
    (h : Offered place s (regs ++ (s.savedTests.map place.savedIn).getD []) c expected)
    (w : World) :
    (∃ results, Judged account (fun w => w.store.freeze) c
      ((regs ++ (s.savedTests.map place.savedIn).getD []).filter fun t => accepts t.name)
      expected s.verbose w results
      (runAccepting account (.ok accepts) (regs.foldl register []) place s w)) ∧
    ∀ args pattern, Settings.read args = .ok s → Pattern.read s.filter = .ok pattern →
      (∀ n, pattern.accepts n = accepts n) →
      command account (regs.foldl register []) place args w
        = runAccepting account (.ok accepts) (regs.foldl register []) place s w := by
  rw [foldl_register, List.nil_append]
  refine ⟨?_, fun args pattern hargs hpattern haccepts => ?_⟩
  · obtain ⟨names, hnames, hrun⟩ := runAccepting_of_offered account h accepts
    obtain ⟨results, hjudged⟩ := judged_judge account (fun w => w.store.freeze) c names s.filter
      accepts s.verbose (allTests regs place s) w
    rw [funext fun n => propext (hnames n)] at hjudged
    rw [hrun]
    exact ⟨results, hjudged⟩
  · obtain rfl : pattern.accepts = accepts := funext haccepts
    rw [command, hargs]
    show runWith account regs place s w = _
    rw [runWith, hpattern]
    rfl

end

/-- A compiler that leaves modules alone, and a backend that loads a module which
    returns its arguments. -/
def echoPlace : Surroundings Unit where
  toolchain := .planned "/tmp" "" ⟨none, .ok "module"⟩ none none
  loaded := .ok ticking.module
  scripts := []
  saved := []

/-- The settings without any arguments. -/
def plainSettings : Settings := ⟨.reference, none, ".*", false, none⟩

/-- A test that passes and one that is expected to fail and does. -/
def echoTests : List (Test World Program Datum) :=
  [programTest "EchoModule_basic" (.ok ticking)
      [.call ["forward"] [.value (.list [.int 3]), .value (.str "x")] []],
    programTest "QuantizedMLP_basic" (.error (.general "no operator")) []]

/-- The configuration that is offered there. -/
def echoConfig : Config World Program Unit Datum :=
  backendConfig echoPlace.toolchain .linalg
    ⟨Pipeline.Dialect.linalg.backendStages, echoPlace.loaded⟩

/-- Without arguments the command accepts both tests and ends with zero. -/
theorem outcome_echoTests :
    (runAccepting Fault.lastLine (.ok (Pattern.accepts (.star .any)))
      (echoTests.foldl register []) echoPlace plainSettings World.fresh).1.outcome = .ok 0 := by
  have h : (runAccepting Fault.lastLine (.ok (Pattern.accepts (.star .any)))
      (echoTests.foldl register []) echoPlace plainSettings World.fresh).1.outcome.toOption
        = some 0 := by decide +kernel
  generalize (runAccepting Fault.lastLine (.ok (Pattern.accepts (.star .any)))
    (echoTests.foldl register []) echoPlace plainSettings World.fresh).1.outcome = outcome at h ⊢
  cases outcome with
  | error e => cases h
  | ok n =>
      cases h
      rfl

theorem exit_status_is_verdict_echo :
    Offered echoPlace plainSettings echoTests echoConfig (· ∈ unloweredTests) ∧
      (command Fault.lastLine (echoTests.foldl register []) echoPlace []
        World.fresh).1.outcome = .ok 0 ∧
      ∃ results, RunsInOrder Fault.lastLine echoConfig echoTests World.fresh results
          (command Fault.lastLine (echoTests.foldl register []) echoPlace [] World.fresh).2 ∧
        List.Forall₂ (fun t r => (r.map
            (command Fault.lastLine (echoTests.foldl register []) echoPlace []
              World.fresh).2.store.freeze).failed
          = true ↔ t.name ∈ unloweredTests) echoTests results := by
  have hoffered : Offered echoPlace plainSettings echoTests echoConfig (· ∈ unloweredTests) :=
    .reference rfl
  obtain ⟨⟨results, horder, hstatus, _⟩, hcommand⟩ :=
    exit_status_is_verdict Fault.lastLine echoTests (Pattern.accepts (.star .any)) hoffered
      World.fresh
  rw [hcommand [] (.star .any) rfl rfl fun _ => rfl]
  exact ⟨hoffered, outcome_echoTests, results, horder,
    ((hstatus 0 outcome_echoTests).mp rfl).2⟩

end Suite

end DialectBench
