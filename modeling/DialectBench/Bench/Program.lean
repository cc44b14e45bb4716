import DialectBench.Bench.Border
import DialectBench.Notes.Export
import DialectBench.Pipeline.Lowering

/-!
# Programs under test

A program is a tree of modules together with what the scripting front end makes of it.  Tests are
lists of calls in which a later call can pass on what an earlier one returned; they are made for any
instances that can be called, of which programs are one sort.  The configurations run the program as
it is, in its scripted form, or as lowered for a backend.
-/

namespace DialectBench

/-- The world of programs under test: what they share, and the compiler's surroundings. -/
structure World where
  store : Store
  shop : Pipeline.Shop

/-- The world in which nothing has happened. -/
def World.fresh : World := ⟨.empty, .fresh⟩

/-- Work on what programs share as work on the world. -/
def onStore {α : Type} (r : Run Store α) : Run World α := fun w =>
  let (out, s) := r w.store
  (out, { w with store := s })

/-- Work on the compiler's surroundings as work on the world. -/
def onShop {α : Type} (r : Run Pipeline.Shop α) : Run World α := fun w =>
  let (out, s) := r w.shop
  (out, { w with shop := s })

/-- A program under test. -/
structure Program where
  module : Module
  /-- What scripting makes of the program; the program itself if nothing is given. -/
  scripted : Option Module

/-- The scripted form of a program. -/
def Program.script (p : Program) : Module := p.scripted.getD p.module

/-- Calls into a module. -/
def Module.calling : Calling World Module Datum := fun path args kwargs m =>
  onStore (m.call path ⟨args, kwargs⟩)

/-- Calls into a program. -/
def Program.calling : Calling World Program Datum := fun path args kwargs p => do
  let (out, m) ← Module.calling path args kwargs p.module
  return (out, { p with module := m })

/-! ## Tests -/

/-- An argument of a call: a value, or what an earlier call of the test returned. -/
inductive Argument where
  | value (v : Value)
  | ref (call : Nat)
  deriving Repr

/-- A step of a test. -/
inductive CallStep where
  | call (path : List String) (args : List Argument) (kwargs : List (String × Argument))
  /-- The test itself fails. -/
  | raise (f : Fault)
  deriving Repr

/-- The datum that an argument stands for, given what the earlier calls returned. -/
def Argument.datum (outputs : List Datum) : Argument → Run World Datum
  | .value v => onStore (thawIn v)
  | .ref n =>
    match outputs[n]? with
    | some d => return d
    | none => throw .badIndex

/-- The data that arguments stand for. -/
def Argument.data (outputs : List Datum) : List Argument → Run World (List Datum)
  | [] => return []
  | a :: as => do
    let d ← a.datum outputs
    return d :: (← Argument.data outputs as)

/-- Makes the calls of a test, given what the earlier calls returned. -/
def runCalls {S : Type} (call : Calling World S Datum) :
    List CallStep → List Datum → Session World S Datum Unit
  | [], _ => return ()
  | .raise f :: _, _ => throw f
  | .call path args kwargs :: rest, outputs => do
    let positional ← Argument.data outputs args
    let values ← Argument.data outputs (kwargs.map Prod.snd)
    let out ← tracedCall call path positional ((kwargs.map Prod.fst).zip values)
    runCalls call rest (outputs ++ [out])

/-- The test that makes calls into what a factory gives. -/
def callTest {S : Type} (call : Calling World S Datum) (name : String) (factory : Run World S)
    (calls : List CallStep) : Test World S Datum where
  name := name
  factory := factory
  invoke := runCalls call calls []

/-- Puts the inputs of recorded calls into new cells; what the calls returned is left out. -/
def thawInputs (trace : Trace Value) : Run World (Trace Datum) :=
  trace.mapM fun i => do
    let inputs ← i.inputs.mapM fun v => onStore (thawIn v)
    return ⟨i.symbol, inputs, .leaf .none⟩

/-- The test that makes the calls of a recorded trace again. -/
def replayTest {S : Type} (call : Calling World S Datum) (name : String) (factory : Run World S)
    (trace : Trace Value) : Test World S Datum where
  name := name
  factory := factory
  invoke := do replayTraced call (← thawInputs trace)

/-- A test of a program, or of a factory that fails. -/
def programTest (name : String) (program : Except Fault Program) (calls : List CallStep) :
    Test World Program Datum :=
  callTest Program.calling name (fun w => (program, w)) calls

/-- The test that makes the calls of a recorded trace into a program again. -/
def recordedTest (name : String) (program : Except Fault Program) (trace : Trace Value) :
    Test World Program Datum :=
  replayTest Program.calling name (fun w => (program, w)) trace

/-- The test that a saved trace and a saved module make; the notes are put back on each instance of
    the module. -/
def savedTest (name : String) (notes : ModuleNotes) (m : Module) (trace : Trace Value) :
    Test World Program Datum :=
  let (out, noted) := Notes.apply notes m
  recordedTest name (out.map fun () => ⟨noted, none⟩) trace

/-! ## Configurations -/

/-- The configuration that compiles programs and makes recorded calls into what it got, at the path
    that the name of a call is cut into. -/
def pathConfig {S A : Type} (compile : S → Run World A) (call : Calling World A Datum)
    (cut : String → List String) : Config World S A Datum where
  compile := compile
  run := fun a trace => do
    let (out, _) ← replay (fun symbol args => call (cut symbol) args []) trace a
    return out

/-- The program as it is.  The name of a recorded call is looked up as one member. -/
def nativeConfig : Config World Program Module Datum :=
  pathConfig (fun p => return p.module) Module.calling fun symbol => [symbol]

/-- The scripted form of the program.  The name of a recorded call is a path of members. -/
def scriptedConfig : Config World Program Module Datum :=
  pathConfig (fun p => return p.script) Module.calling (Text.split '.')

/-- Converts a datum: lists, tuples and dictionaries are rebuilt, tensors and arrays stay in their
    memory. -/
def convertDatum (d : Direction) (x : Datum) : Run World Datum := onStore (x.convert d)

/-- Converts data in order. -/
def convertData (d : Direction) : List Datum → Run World (List Datum)
  | [] => return []
  | x :: xs => do
    let y ← convertDatum d x
    return y :: (← convertData d xs)

/-- The name that the scripting front end gives to the type of a module. -/
def Module.typeName (scripted : Module) : String := "__torch__." ++ scripted.sourceName

/-- What the compiler is told of a program. -/
def Program.told (p : Program) : Notes.Told :=
  Notes.tell Module.typeName p.scripted.isNone p.module p.script

/-- What the compiler is told of a program before it is imported. -/
def Program.notices (p : Program) : Run World (List Notes.Notice) :=
  let told := p.told
  match told.outcome with
  | .error e => throw e
  | .ok () => return told.notices

/-- Lowers a program for a backend and runs what the backend does with it. -/
def Program.lower (t : Pipeline.Toolchain) (d : Pipeline.Dialect) (backend : List Pipeline.Stage)
    (p : Program) : Run World (List Notes.Notice) := do
  let notices ← p.notices
  let _ ← onShop (Pipeline.onNewModule do
    Pipeline.lower t d
    Pipeline.runStages t backend)
  return notices

/-- A backend: the stages that it runs on a lowered program, and what the outcome is loaded as. -/
structure Backend where
  stages : List Pipeline.Stage
  loaded : Except Fault Module

/-- How what a backend loaded is called: by name and with arrays.  A call may change it. -/
abbrev ArrayCalling (A : Type) := String → List Datum → StateT A (Run World) Datum

/-- Makes a call across the border: the arguments go over as arrays, and what comes back is made of
    tensors again. -/
def onArrays {A : Type} (call : ArrayCalling A) : ArrayCalling A := fun symbol args => do
  let inputs ← convertData .toArrays args
  let output ← call symbol inputs
  convertDatum .fromArrays output

/-- Makes the calls of a trace into what a backend loaded. -/
def runOnArrays {A : Type} (call : ArrayCalling A) (loaded : Except Fault A) (trace : Trace Datum) :
    Run World (Trace Datum) :=
  match loaded with
  | .error e => throw e
  | .ok a => do
    let (out, _) ← replay (onArrays call) trace a
    return out

/-- Calls the member of a name of a module that a backend loaded. -/
def Module.callingMember : ArrayCalling Module := fun symbol args => Module.calling [symbol] args []

/-- The program as lowered for a backend. -/
def backendConfig (t : Pipeline.Toolchain) (d : Pipeline.Dialect) (b : Backend) :
    Config World Program Unit Datum where
  compile := fun p => do
    let _ ← p.lower t d b.stages
    return ()
  run := fun () trace => runOnArrays Module.callingMember b.loaded trace

/-- A configuration that fails where it is told to and otherwise returns a given trace. -/
def fixedConfig (compileFault runFault : Option Fault) (trace : Trace Value) :
    Config World Program Unit Datum where
  compile := fun _ =>
    match compileFault with
    | some f => throw f
    | none => return ()
  run := fun () _ =>
    match runFault with
    | some f => throw f
    | none => trace.mapM fun i => do
      let inputs ← i.inputs.mapM fun v => onStore (thawIn v)
      return ⟨i.symbol, inputs, ← onStore (thawIn i.output)⟩

/-- Runs tests and reads the results when all are through. -/
def runProgramTests {S A : Type} (account : Fault → String) (c : Config World S A Datum)
    (tests : List (Test World S Datum)) : List (TestResult Value) × World :=
  let (results, w) := runTests account c tests World.fresh
  (results.map (TestResult.map w.store.freeze), w)

/-- The golden trace of a test, read when the test is through. -/
def goldenTrace {S : Type} (t : Test World S Datum) : Except Fault (Trace Value) :=
  let (out, w) := t.golden World.fresh
  out.map fun trace => trace.map (TraceItem.map w.store.freeze)

end DialectBench
