import DialectBench.Report.Trace

/-!
# Tests and configurations

A test makes a program and calls into it; what it calls and gets back is its golden trace.  A
configuration compiles the program and runs the calls of the golden trace again, giving a trace of
its own.  Everything acts on a world `ω` that programs, compilers and calls may change; instances
of programs are of type `S`, compiled ones of type `A` and the values passed of type `V`.
-/

namespace DialectBench

/-- Work on a world that may stop with a fault; what was done to the world before stays done. -/
abbrev Run (ω : Type) := ExceptT Fault (StateM ω)

/-- How an instance of a program is called: at a path of member names, with positional and keyword
    arguments.  A call may change the instance. -/
abbrev Calling (ω S V : Type) :=
  List String → List V → List (String × V) → StateT S (Run ω) V

/-- Calls into one instance with a record of the calls made so far. -/
abbrev Session (ω S V : Type) := StateT (S × Trace V) (Run ω)

/-- A test. -/
structure Test (ω S V : Type) where
  name : String
  /-- Makes a new instance of the program. -/
  factory : Run ω S
  /-- The calls into an instance. -/
  invoke : Session ω S V Unit

/-- A configuration. -/
structure Config (ω S A V : Type) where
  compile : S → Run ω A
  run : A → Trace V → Run ω (Trace V)

variable {ω S A V : Type}

/-- Calls into the instance of a session and records the call if it returns.  Keyword arguments are
    not recorded. -/
def tracedCall (call : Calling ω S V) (path : List String) (args : List V)
    (kwargs : List (String × V)) : Session ω S V V := fun state => do
  let (output, instance') ← call path args kwargs state.1
  return (output, instance', state.2 ++ [⟨Text.joinWith "." path, args, output⟩])

/-- The trace of a test on the program as it is. -/
def Test.golden (t : Test ω S V) : Run ω (Trace V) := do
  let s ← t.factory
  let ((), _, trace) ← t.invoke (s, [])
  return trace

/-- Makes the calls of a trace again, by name and positional arguments. -/
def replay (call : String → List V → StateT A (Run ω) V) : Trace V → StateT A (Run ω) (Trace V)
  | [] => return []
  | item :: rest => do
    let output ← call item.symbol item.inputs
    return ⟨item.symbol, item.inputs, output⟩ :: (← replay call rest)

/-- The session that makes the calls of a trace, each at the path that its name spells. -/
def replayTraced (call : Calling ω S V) : Trace V → Session ω S V Unit
  | [] => return ()
  | item :: rest => do
    let _ ← tracedCall call (Text.split '.' item.symbol) item.inputs []
    replayTraced call rest

/-- Adds a test to a registry, at its end. -/
def register (registry : List (Test ω S V)) (t : Test ω S V) : List (Test ω S V) := registry ++ [t]

/-- The last line of the account of a fault. -/
def Fault.lastLine (f : Fault) : String :=
  ((Text.linesOf (Text.trimEnd f.line.toList)).getLast?.map fun l => String.ofList l.body).getD ""

/-- Runs a test: first the golden trace and the compilation, then the compiled program.  A result
    keeps the whole account of a fault, which `account` gives. -/
def runTest (account : Fault → String) (c : Config ω S A V) (t : Test ω S V) :
    StateM ω (TestResult V) := do
  let prepared ← (do
    let golden ← t.golden
    let program ← t.factory
    return (golden, ← c.compile program) : Run ω (Trace V × A)).run
  match prepared with
  | .error e => return ⟨t.name, some (account e), none, none, none⟩
  | .ok (golden, compiled) =>
    match ← (c.run compiled golden).run with
    | .error e => return ⟨t.name, none, some (account e), none, none⟩
    | .ok trace => return ⟨t.name, none, none, some trace, some golden⟩

/-- Runs tests one after the other. -/
def runTests (account : Fault → String) (c : Config ω S A V) :
    List (Test ω S V) → StateM ω (List (TestResult V))
  | [] => return []
  | t :: ts => do
    let r ← runTest account c t
    return r :: (← runTests account c ts)

end DialectBench
