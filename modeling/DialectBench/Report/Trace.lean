import DialectBench.Report.Context
import DialectBench.Report.Finding

/-!
# Reports on values, calls and tests

The verdict on a test compares the trace that a configuration produced with the golden trace, call
by call.  A report is the list of reasons why its subject failed; no reasons means that it passed.
-/

namespace DialectBench

variable [Gauge]

/-- A recorded call: the name called, its positional arguments and what it returned. -/
structure TraceItem (V : Type) where
  symbol : String
  inputs : List V
  output : V
  deriving Repr

/-- The calls made into a program, in order. -/
abbrev Trace (V : Type) := List (TraceItem V)

/-- The calls of a trace with their values seen through a function. -/
def TraceItem.map {V W : Type} (f : V → W) (i : TraceItem V) : TraceItem W :=
  ⟨i.symbol, i.inputs.map f, f i.output⟩

/-- What running a test under a configuration gave. -/
structure TestResult (V : Type) where
  name : String
  compilationError : Option String
  runtimeError : Option String
  trace : Option (Trace V)
  goldenTrace : Option (Trace V)
  deriving Repr

/-- A result with its values seen through a function. -/
def TestResult.map {V W : Type} (f : V → W) (r : TestResult V) : TestResult W :=
  { name := r.name
    compilationError := r.compilationError
    runtimeError := r.runtimeError
    trace := r.trace.map fun t => t.map (TraceItem.map f)
    goldenTrace := r.goldenTrace.map fun t => t.map (TraceItem.map f) }

/-- The report of a finding in a context. -/
def Finding.report (c : Context) (f : Finding) : String :=
  (c.chainAll (f.path.map Step.text)).format f.cause.message

/-- The reasons why a value fails against a golden value. -/
def valueReasons (c : Context) (value golden : Value) : Except Fault (List String) :=
  (golden.test value).map fun fs => fs.map (Finding.report c)

/-- Reasons as one text; no text if there are none. -/
def reasonText (reasons : List String) : String := Text.joinWith "\n" reasons

/-- The reasons of one value as one reason of the call around it. -/
def bundle (reasons : List String) : List String :=
  if reasons.isEmpty then [] else [reasonText reasons]

/-- The reasons why the inputs of a call fail, numbering them from `i` on; inputs without a partner
    are not looked at. -/
def inputReasons (c : Context) (symbol : String) :
    Nat → List Value → List Value → Except Fault (List String)
  | i, v :: vs, g :: gs =>
    match valueReasons (c.chain ("input #" ++ toString i ++ " of call to \"" ++ symbol ++ "\""))
        v g with
    | .error e => .error e
    | .ok rs =>
      match inputReasons c symbol (i + 1) vs gs with
      | .error e => .error e
      | .ok rest => .ok (bundle rs ++ rest)
  | _, _, _ => .ok []

/-- The reasons why a call fails against the golden call. -/
def itemReasons (c : Context) (item golden : TraceItem Value) : Except Fault (List String) :=
  let symbols := if item.symbol != golden.symbol then
      [c.format ("not invoking the same symbol: got \"" ++ item.symbol ++ "\", expected \"" ++
        golden.symbol ++ "\"")]
    else []
  let counts := if item.inputs.length != golden.inputs.length then
      [c.format ("different number of inputs: got \"" ++ toString item.inputs.length ++
        "\", expected \"" ++ toString golden.inputs.length ++ "\"")]
    else []
  match inputReasons c item.symbol 0 item.inputs golden.inputs with
  | .error e => .error e
  | .ok inputs =>
    match valueReasons (c.chain ("output of call to \"" ++ item.symbol ++ "\"")) item.output
        golden.output with
    | .error e => .error e
    | .ok output => .ok (symbols ++ counts ++ inputs ++ bundle output)

/-- The report on one test: its result and the reasons of each compared call, if any were. -/
structure SingleReport where
  result : TestResult Value
  items : Option (List (List String))

/-- The reasons of the calls of two traces, numbering them from `i` on; calls without a partner are
    not looked at. -/
def traceReasons (c : Context) :
    Nat → Trace Value → Trace Value → Except Fault (List (List String))
  | i, item :: rest, golden :: goldens =>
    let place := "trace item #" ++ toString i ++ " - call to \"" ++ item.symbol ++ "\""
    match itemReasons (c.chain place) item golden with
    | .error e => .error e
    | .ok rs =>
      match traceReasons c (i + 1) rest goldens with
      | .error e => .error e
      | .ok more => .ok (rs :: more)
  | _, _, _ => .ok []

/-- The report on a test result. -/
def SingleReport.of (c : Context) (r : TestResult Value) : Except Fault SingleReport :=
  if r.compilationError.isSome || r.runtimeError.isSome then .ok ⟨r, none⟩
  else match r.trace, r.goldenTrace with
    | some t, some g => (traceReasons c 0 t g).map fun items => ⟨r, some items⟩
    | _, _ => .error .wrongType

/-- Whether the test failed. -/
def SingleReport.failed (r : SingleReport) : Bool :=
  r.result.compilationError.isSome || r.result.runtimeError.isSome ||
    (r.items.getD []).any fun rs => !rs.isEmpty

/-- Why the test failed; a fault if it did not. -/
def SingleReport.errorText (r : SingleReport) : Except Fault String :=
  if !r.failed then .error (.assertion "")
  else match r.result.compilationError, r.result.runtimeError with
    | some e, _ => .ok ("Compilation error: " ++ e)
    | none, some e => .ok ("Runtime error: " ++ e)
    | none, none =>
      .ok (String.join ((r.items.getD []).filterMap fun rs =>
        if rs.isEmpty then none else some (reasonText rs ++ "\n")))

end DialectBench
