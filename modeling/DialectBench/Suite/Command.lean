import DialectBench.Options
import DialectBench.Report.Summary
import DialectBench.Suite.Expected
import DialectBench.Suite.Registry
import DialectBench.Text.Path
import DialectBench.Text.Pattern

/-!
# The command that runs the suite

The command chooses a configuration and the tests whose names a filter accepts, runs them, reports
on them, and tells by its exit status whether every outcome was the expected one.  `judge` is its
core, for any tests and any configuration.  How reports compare and describe tensors and how the
account of a fault reads are parameters.
-/

namespace DialectBench.Suite

/-! ## Running and judging -/

section Judging

variable {ω S A V : Type} [Gauge] (account : Fault → String)

/-- The tests whose names are accepted. -/
def select (accepts : String → Bool) (tests : List (Test ω S V)) : List (Test ω S V) :=
  tests.filter fun t => accepts t.name

/-- What is said when no test is selected. -/
def noneSelected (filter : String) (names : List String) : String :=
  "ERROR: the provided filter " ++ Text.quoted filter ++ " does not match any tests\n" ++
    "The available tests are:\n" ++ String.join (names.map (· ++ "\n"))

/-- The report on results, with the exit status that it gives. -/
def reportStatus (results : List (TestResult Value)) (expectedFailures : List String)
    (verbose : Bool) : Printed Nat :=
  let report := reportResults results expectedFailures verbose
  ⟨report.text, report.outcome.map fun unexpected => if unexpected then 1 else 0⟩

/-- Runs the selected tests and reports on them.  The exit status is zero if some test was selected
    and no outcome is unexpected. -/
def judge (view : ω → V → Value) (c : Config ω S A V) (expectedFailures : List String)
    (filter : String) (accepts : String → Bool) (verbose : Bool) (tests : List (Test ω S V)) :
    StateM ω (Printed Nat) := do
  let selected := select accepts tests
  if selected.isEmpty then
    return ⟨noneSelected filter (tests.map (·.name)), .ok 1⟩
  let results ← runTests account c selected
  return reportStatus (results.map (TestResult.map (view (← get)))) expectedFailures verbose

end Judging

/-! ## Settings -/

/-- The configurations that the command offers. -/
inductive Choice where
  /-- The program as it is. -/
  | native
  /-- The scripted form. -/
  | scripted
  /-- The reference backend. -/
  | reference
  /-- The reference backend by way of the tensor operator set. -/
  | tosa
  /-- What a script defines. -/
  | external
  deriving DecidableEq, Repr

/-- The spelling of a choice. -/
def Choice.name : Choice → String
  | .native => "native_torch"
  | .scripted => "torchscript"
  | .reference => "refbackend"
  | .tosa => "tosa"
  | .external => "external"

/-- All choices. -/
def Choice.all : List Choice := [.native, .scripted, .reference, .tosa, .external]

/-- The choice of a spelling. -/
def Choice.ofName? (s : String) : Option Choice := Choice.all.find? (·.name == s)

/-- The settings of the command. -/
structure Settings where
  choice : Choice
  /-- The path of the script that defines an external configuration. -/
  script : Option String
  filter : String
  verbose : Bool
  /-- The directory of saved tests. -/
  savedTests : Option String
  deriving Repr

/-- The switches of the command. -/
def switches : List Options.Switch := [
  ⟨"config", ["-c", "--config"], true, some (Choice.all.map Choice.name), false⟩,
  Options.valued "script" ["--external-config"],
  Options.valued "filter" ["-f", "--filter"],
  ⟨"verbose", ["-v", "--verbose"], false, none, false⟩,
  Options.valued "saved" ["--serialized-test-dir"]]

/-- The settings that arguments ask for. -/
def Settings.read (args : List String) : Except Options.Stop Settings := do
  let values ← Options.read switches args
  return { choice := ((values.lookup "config").bind Choice.ofName?).getD .reference
           script := values.lookup "script"
           filter := (values.lookup "filter").getD ".*"
           verbose := (values.lookup "verbose").isSome
           savedTests := (values.lookup "saved").filter fun d => !d.isEmpty }

/-! ## The command -/

/-- What a script that defines an external configuration sets; the configuration compiles programs
    to anything. -/
structure Script (A : Type) where
  config : Option (Config World Program A Datum)
  expectedFailures : Option (List String)

/-- What the command finds around it. -/
structure Surroundings (A : Type) where
  toolchain : Pipeline.Toolchain
  /-- What a compiled program is loaded as. -/
  loaded : Except Fault Module
  /-- Scripts by path. -/
  scripts : List (String × Script A)
  /-- Saved tests by path. -/
  saved : List (String × Test World Program Datum)

section Command

variable {A : Type} [Gauge] (account : Fault → String)

/-- The saved tests below a directory. -/
def Surroundings.savedIn (place : Surroundings A) (directory : String) :
    List (Test World Program Datum) :=
  let parts := ((Text.pathParts directory).reverse.dropWhile String.isEmpty).reverse
  place.saved.filterMap fun t =>
    if parts.isPrefixOf (Text.pathParts t.1) && parts.length < (Text.pathParts t.1).length then
      some t.2
    else none

/-- All tests: the registered ones, then the saved ones. -/
def allTests (registry : List (Test World Program Datum)) (place : Surroundings A) (s : Settings) :
    List (Test World Program Datum) :=
  registry ++ (s.savedTests.map place.savedIn).getD []

/-- What is said of a script that does not set a variable. -/
def notSet (path variableName : String) : Printed Nat :=
  ⟨"ERROR: the script " ++ path ++ " did not set a global variable `" ++ variableName ++ "`\n",
    .ok 1⟩

/-- Judges tests by the names that a filter accepts.  A filter that cannot be read is a fault as
    soon as it is tried on a name. -/
def judgeFiltered (accepts : Except Fault (String → Bool)) (s : Settings)
    (tests : List (Test World Program Datum)) (c : Config World Program A Datum)
    (expectedFailures : List String) : StateM World (Printed Nat) :=
  let judgeBy (accepts : String → Bool) : StateM World (Printed Nat) :=
    judge account (fun w => w.store.freeze) c expectedFailures s.filter accepts s.verbose tests
  match accepts with
  | .ok accepts => judgeBy accepts
  | .error e => if tests.isEmpty then judgeBy fun _ => false else return ⟨"", .error e⟩

/-- Runs the command with its settings and what the filter accepts. -/
def runAccepting (accepts : Except Fault (String → Bool))
    (registry : List (Test World Program Datum)) (place : Surroundings A) (s : Settings) :
    StateM World (Printed Nat) :=
  let tests := allTests registry place s
  let backend (d : Pipeline.Dialect) : Config World Program Unit Datum :=
    backendConfig place.toolchain d ⟨d.backendStages, place.loaded⟩
  match s.choice with
  | .native => judgeFiltered account accepts s tests nativeConfig []
  | .scripted => judgeFiltered account accepts s tests scriptedConfig []
  | .reference => judgeFiltered account accepts s tests (backend .linalg) unloweredTests
  | .tosa =>
    judgeFiltered account accepts s tests (backend .tosa) (tosaFailing (tests.map (·.name)))
  | .external =>
    match s.script with
    | none => return ⟨"", .error .wrongType⟩
    | some path =>
      match place.scripts.lookup path with
      | none => return ⟨"", .error .noFile⟩
      | some ⟨none, _⟩ => return notSet path "config"
      | some ⟨some _, none⟩ => return notSet path "xfail_set"
      | some ⟨some c, some expected⟩ => judgeFiltered account accepts s tests c expected

/-- Runs the command with its settings. -/
def runWith (registry : List (Test World Program Datum)) (place : Surroundings A) (s : Settings) :
    StateM World (Printed Nat) :=
  runAccepting account ((Pattern.read s.filter).map Pattern.accepts) registry place s

/-- Runs the command with its arguments. -/
def command (registry : List (Test World Program Datum)) (place : Surroundings A)
    (args : List String) : StateM World (Printed Nat) :=
  match Settings.read args with
  | .error stop => return ⟨"", .ok stop.status⟩
  | .ok s => runWith account registry place s

end Command

/-- The configuration of a script that fails for programs of given classes and otherwise returns
    the trace it is given. -/
def scriptConfig (failCompile failRun : List String) : Config World Program String Datum where
  compile := fun p =>
    let name := p.module.className
    if failCompile.contains name then throw (.general ("cannot compile " ++ name)) else return name
  run := fun name trace =>
    if failRun.contains name then throw (.general ("cannot run " ++ name)) else return trace

end DialectBench.Suite
