import DialectBench.Report.Trace
import DialectBench.Printed

/-!
# The report on a run of tests

One status line per result, then the unexpected outcomes in detail, then the counts.  A test that
is expected to fail and does is as good as one that passes; the other two outcomes are unexpected.
-/

namespace DialectBench

variable [Gauge]

/-- How a test came out, given whether it was expected to fail. -/
inductive Outcome where
  | pass
  | fail
  | xfail
  | xpass
  deriving DecidableEq, Repr

namespace Outcome

/-- The outcome of a test. -/
def of (failed expectedFailure : Bool) : Outcome :=
  match expectedFailure, failed with
  | true, true => .xfail
  | true, false => .xpass
  | false, true => .fail
  | false, false => .pass

/-- The word for an outcome. -/
def word : Outcome → String
  | .pass => "PASS"
  | .fail => "FAIL"
  | .xfail => "XFAIL"
  | .xpass => "XPASS"

/-- The meaning of an outcome. -/
def meaning : Outcome → String
  | .pass => "Passed"
  | .fail => "Failed"
  | .xfail => "Expectedly Failed"
  | .xpass => "Unexpectedly Passed"

/-- All outcomes, in the order of the closing summary. -/
def all : List Outcome := [.pass, .fail, .xfail, .xpass]

/-- The outcomes that a run should not have. -/
def unexpected : Outcome → Bool
  | .fail | .xpass => true
  | .pass | .xfail => false

end Outcome

/-- A reported test: its outcome and its report. -/
structure Verdict where
  outcome : Outcome
  report : SingleReport

/-- The name of the test. -/
def Verdict.name (v : Verdict) : String := v.report.result.name

/-- The verdict on a result. -/
def Verdict.of (expectedFailures : List String) (r : TestResult Value) : Except Fault Verdict :=
  (SingleReport.of .empty r).map fun report =>
    ⟨.of report.failed (expectedFailures.contains r.name), report⟩

/-- The verdicts on the results, up to the first whose report cannot be made. -/
def verdicts (expectedFailures : List String) :
    List (TestResult Value) → List Verdict × Option Fault
  | [] => ([], none)
  | r :: rs =>
    match Verdict.of expectedFailures r with
    | .error e => ([], some e)
    | .ok v =>
      let (vs, stop) := verdicts expectedFailures rs
      (v :: vs, stop)

/-- The status line of a test. -/
def Verdict.statusLine (v : Verdict) : String :=
  v.outcome.word ++ " - \"" ++ v.name ++ "\"\n"

/-- The verdicts with an outcome. -/
def withOutcome (o : Outcome) (vs : List Verdict) : List Verdict :=
  vs.filter fun v => v.outcome == o

/-- The unexpected outcomes in the order in which they first occur. -/
def unexpectedOutcomes (vs : List Verdict) : List Outcome :=
  (vs.map Verdict.outcome).filter Outcome.unexpected |>.foldl
    (fun seen o => if seen.contains o then seen else seen ++ [o]) []

/-- The entry of one test under the heading of its outcome.  In a verbose report a failed test is
    followed by the error text of `last`, indented. -/
def detail (verbose : Bool) (last : Option SingleReport) (v : Verdict) : List Piece :=
  let entry : Piece := .ok ("    " ++ v.statusLine)
  if verbose && v.outcome == .fail then
    match last with
    | some report => [entry, report.errorText.map fun t => Text.indent "        " t ++ "\n"]
    | none => [entry, .error .unbound]
  else [entry]

/-- The heading of an unexpected outcome. -/
def heading (o : Outcome) (count : Nat) : String :=
  "\n****** " ++ o.meaning ++ " tests - " ++ toString count ++ " tests\n"

/-- The unexpected outcomes in detail. -/
def details (verbose : Bool) (vs : List Verdict) : Printed Unit :=
  let last := vs.getLast?.map Verdict.report
  Printed.ofPieces <| (unexpectedOutcomes vs).flatMap fun o =>
    let group := withOutcome o vs
    .ok (heading o group.length) :: group.flatMap (detail verbose last)

/-- The closing summary: how many tests had each outcome that occurred. -/
def closing (vs : List Verdict) : String :=
  "\nSummary:\n" ++ String.join (Outcome.all.filterMap fun o =>
    let n := (withOutcome o vs).length
    if n == 0 then none else some ("    " ++ o.meaning ++ ": " ++ toString n ++ "\n"))

/-- Reports on the results of a run; true if any outcome was unexpected. -/
def reportResults (results : List (TestResult Value)) (expectedFailures : List String)
    (verbose : Bool) : Printed Bool :=
  let (vs, stop) := verdicts expectedFailures results
  let statuses := String.join (vs.map Verdict.statusLine)
  match stop with
  | some e => ⟨statuses, .error e⟩
  | none =>
    let bad := vs.any fun v => v.outcome.unexpected
    let intro := if bad then "\nUnexpected outcome summary:\n" else ""
    let middle := details verbose vs
    match middle.outcome with
    | .error e => ⟨statuses ++ intro ++ middle.text, .error e⟩
    | .ok () => ⟨statuses ++ intro ++ middle.text ++ closing vs, .ok bad⟩

end DialectBench
