import DialectBench.Bench.Program

/-!
# Tests of the suite

A test of the suite makes a program from its blueprint and calls `forward` on random tensors.  The
blueprint holds the code that sets the program up, the declared types of the arguments and the code
of `forward`; the scripting front end compiles `forward` and keeps the members.  All code runs over
an operator library, which is a parameter.
-/

namespace DialectBench.Suite

/-! ## Words for expressions -/

/-- An integer. -/
def int (n : Int) : Expr := .value (.int n)

/-- A float. -/
def float (x : Float) : Expr := .value (.float x)

/-- A truth value. -/
def flag (b : Bool) : Expr := .value (.bool b)

/-- An element type. -/
def dtype (name : String) : Expr := .value (.dtype name)

/-- Nothing. -/
def nothing : Expr := .value .none

/-- A tuple of integers. -/
def shape (ns : List Int) : Expr := .value (.tuple (ns.map .int))

/-- A list of integers. -/
def ints (ns : List Int) : Expr := .value (.list (ns.map .int))

/-- A list of floats. -/
def floats (xs : List Float) : Expr := .value (.list (xs.map .float))

/-- A range of positions. -/
def span (start stop : Option Int) : Expr := .value (.symbol (.slice start stop none))

/-- All positions. -/
def everything : Expr := span none none

/-- A call of a function of the library. -/
def torch (f : String) (args : List Expr) : Expr := .call ("torch." ++ f) args []

/-- A call of a function of the library with keyword arguments. -/
def torchWith (f : String) (args : List Expr) (keywords : List (String × Expr)) : Expr :=
  .call ("torch." ++ f) args keywords

/-- A call of a method of an object. -/
def method (f : String) (object : Expr) (args : List Expr) : Expr :=
  .call ("." ++ f) (object :: args) []

/-- A call of a method of an object with keyword arguments. -/
def methodWith (f : String) (object : Expr) (args : List Expr) (keywords : List (String × Expr)) :
    Expr :=
  .call ("." ++ f) (object :: args) keywords

/-- A call of a layer that the program holds. -/
def layer (name : String) (x : Expr) : Expr := .call "call" [.field name, x] []

/-- An item of an object. -/
def item (object key : Expr) : Expr := .call "[]" [object, key] []

/-- Sets an attribute of a layer that the program holds. -/
def setAttr (name attr : String) (e : Expr) : Stmt :=
  .run (.call "setattr" [.field name, .value (.str attr), e] [])

/-- Starts the random numbers anew. -/
def seed : Stmt := .run (torch "manual_seed" [int 0])

/-- A tensor of random numbers within bounds. -/
def randIn (sizes : List Int) (low high : Float) : Expr :=
  method "uniform_" (torch "empty" [shape sizes]) [float low, float high]

/-- A tensor of random numbers between zero and one. -/
def rand (sizes : List Int) : Expr := randIn sizes 0.0 1.0

/-- A call that applies an operator's sign. -/
def operator (sign : String) (a b : Expr) : Expr := .call sign [a, b] []

instance : Add Expr := ⟨operator "+"⟩

instance : Sub Expr := ⟨operator "-"⟩

instance : Mul Expr := ⟨operator "*"⟩

instance : Div Expr := ⟨operator "/"⟩

/-! ## Blueprints -/

/-- The declared type of an argument: a tensor of a shape, in which `-1` leaves a dimension open,
    and an element type. -/
def tensorOf (name : String) (dims : List Int) : Value :=
  .tuple [.list (dims.map .int), .dtype name, .bool true]

/-- The declared type of a single-precision tensor. -/
def f32 (dims : List Int) : Value := tensorOf "float32" dims

/-- The declared type of a double-precision tensor. -/
def f64 (dims : List Int) : Value := tensorOf "float64" dims

/-- The declared type of a tensor of integers. -/
def i64 (dims : List Int) : Value := tensorOf "int64" dims

/-- The declared type of a tensor of short integers. -/
def i32 (dims : List Int) : Value := tensorOf "int32" dims

/-- A program of the suite. -/
structure Blueprint where
  className : String
  /-- Sets up the members of a new program. -/
  init : List Stmt := []
  /-- The parameters of `forward` and their declared types. -/
  params : List (String × Value)
  /-- What `forward` does before it returns. -/
  body : List Stmt := []
  /-- What `forward` returns. -/
  result : Expr

/-- The expression that stands for a program itself. -/
def Blueprint.self (className : String) : Expr := .value (.symbol (.program className))

variable (lib : Library)

namespace Blueprint

/-- The method `forward`.  It is exported, and its first argument is the program itself. -/
def forward (b : Blueprint) (isScripted : Bool) : Method :=
  .define (.body (Code.run lib ⟨b.params.map (·.1), b.body, b.result⟩)) (some (.bool true))
    (some (.list (.none :: b.params.map (·.2)))) isScripted

/-- The program as its class defines it. -/
def plain (b : Blueprint) (values : Table String Member) : Module :=
  ⟨b.className, values, [("forward", b.forward lib false)], [], b.className, false⟩

/-- The scripted form of the program. -/
def scripted (b : Blueprint) (values : Table String Member) : Module :=
  ⟨b.className, ("forward", .method (b.forward lib true)) :: values, [], [], b.className, false⟩

/-- Makes a new program, where some names are known already. -/
def build (b : Blueprint) (known : List (String × Value)) : Run World Program := do
  let scope ← onStore (onLog (Stmt.execAll lib b.init (.ofVars known)))
  let values := setValues [] scope.assigned
  return ⟨b.plain lib values, some (b.scripted lib values)⟩

end Blueprint

/-! ## Tests -/

/-- A step of a test. -/
inductive Step where
  | set (name : String) (e : Expr)
  /-- Calls `forward` and keeps what it returns under a name. -/
  | call (result : String) (args : List Expr)
  deriving Repr

/-- Calls `forward`. -/
def forward (args : List Expr) : Step := .call "_" args

/-- Puts the parts of values into new cells of the store of the world. -/
def thawAllIn : List Value → Run World (List Datum)
  | [] => return []
  | v :: vs => do
    let d ← onStore (thawIn v)
    return d :: (← thawAllIn vs)

/-- Reads a datum as the value that it is at this moment. -/
def readDatum (d : Datum) : Run World Value := fun w => (.ok (w.store.freeze d), w)

/-- Carries out the steps of a test. -/
def runSteps : List Step → List (String × Value) → Session World Program Datum Unit
  | [], _ => return ()
  | .set x e :: rest, vars => do
    let v ← onStore (onLog (e.eval lib (.ofVars vars)))
    runSteps rest ((x, v) :: vars)
  | .call x args :: rest, vars => do
    let values ← onStore (onLog (Expr.evalAll lib (.ofVars vars) args))
    let out ← tracedCall Program.calling ["forward"] (← thawAllIn values) []
    let v ← readDatum out
    runSteps rest ((x, v) :: vars)

/-- A test of the suite. -/
structure SuiteTest where
  name : String
  program : Blueprint
  steps : List Step

/-- The test as one that configurations can run, where some names are known already.  Its random
    numbers start anew once the program is made. -/
def SuiteTest.test (t : SuiteTest) (known : List (String × Value)) : Test World Program Datum where
  name := t.name
  factory := t.program.build lib known
  invoke := do
    let _ ← onStore (onLog (seed.exec lib (.ofVars [])))
    runSteps lib t.steps known

/-- What a test does. -/
structure Account where
  className : String
  /-- The library calls of the golden run. -/
  calls : List LibraryCall
  trace : Trace Value
  /-- What the compiler is told of another program of the same blueprint. -/
  notices : List Notes.Notice

/-- What a test does in a world, where some names are known already: the numbering library writes
    its calls down. -/
def SuiteTest.account (t : SuiteTest) (known : List (String × Value)) (w : World) :
    Except Fault Account :=
  let test := t.test .numbering known
  let (golden, after) := test.golden w
  let (notices, _) := (do (← test.factory).notices : Run World (List Notes.Notice)) after
  golden.bind fun trace => notices.map fun told =>
    ⟨t.program.className, after.store.log.toList.drop w.store.log.size,
     trace.map (TraceItem.map after.store.freeze), told⟩

end DialectBench.Suite
