import DialectBench.Value.Basic
import DialectBench.Fault
import DialectBench.Text.Lines
import DialectBench.Text.Quoted

/-!
# Invoking compiled functions

A compiled function does not return its result but hands it to one of a fixed set of consumers,
which keep it for the caller to collect.  Arguments are arrays of a few element types.
-/

namespace DialectBench.Pipeline

/-- The element types that arguments may have. -/
def supportedTypes : List String := ["float32", "float64", "int32", "int64", "bool"]

/-- Checks the element type of an argument. -/
def checkElementType (name : String) : Except Fault Unit :=
  if supportedTypes.contains name then .ok ()
  else .error (.assertion ("Only numpy arrays with dtypes in [" ++
    Text.joinWith ", " (supportedTypes.map fun t => "<class 'numpy." ++ t ++ "'>") ++
    "] are supported"))

/-- Checks an argument: it has to have an element type, and that of an array has to be supported. -/
def checkArgument : Value → Except Fault Unit
  | .array (.dense dtype _ _) => checkElementType dtype
  | .tensor (.dense dtype _ _) => checkElementType ("torch." ++ dtype)
  | _ => .error .noAttribute

/-- Checks arguments in order. -/
def checkArguments : List Value → Except Fault Unit
  | [] => .ok ()
  | v :: vs =>
    match checkArgument v with
    | .error e => .error e
    | .ok () => checkArguments vs

/-- The number of dimensions of an argument. -/
def rank : Value → Nat
  | .array (.dense _ shape _) => shape.length
  | .tensor (.dense _ shape _) => shape.length
  | _ => 0

/-! ## Results -/

/-- An integer reduced to a number of bits, one of which is the sign. -/
def wrap (bits : Nat) (n : Int) : Int := Int.bmod n (Nat.pow 2 bits)

/-- What a compiled function hands over when it calls a consumer. -/
inductive Delivery where
  /-- An array, to the consumer for arrays of its element type. -/
  | array (a : Value)
  | int64 (n : Int)
  | float32 (x : Float)
  | float64 (x : Float)
  | arrays (a b c : Value)

/-- What the consumer keeps: integers pass through 32 bits, the shorter floats through single
    precision, arrays as they are, and three arrays as a tuple. -/
def Delivery.kept : Delivery → Value
  | .array a => a
  | .int64 n => .int (wrap 32 n)
  | .float32 x => .float x.toFloat32.toFloat
  | .float64 x => .float x
  | .arrays a b c => .tuple [a, b, c]

/-- A number as a double. -/
def float? : Value → Option Float
  | .float x => some x
  | v => v.int?.map Float.ofInt

/-- The consumers: five of arrays, one for each element type, three of numbers, and one of three
    arrays at once. -/
def consumers : List String :=
  ["mri1", "mri32", "mri64", "mrf32", "mrf64", "i64", "f32", "f64", "mrf32_mrf32_mrf32"]

/-- The values that a consumer takes, as a delivery; `none` if they are not of its kind.  Values
    beyond those that it takes do not count. -/
def Delivery.ofValues? (consumer : String) (values : List Value) : Option Delivery :=
  match consumer, values with
  | "i64", v :: _ => v.int?.map .int64
  | "f32", v :: _ => (float? v).map .float32
  | "f64", v :: _ => (float? v).map .float64
  | "mrf32_mrf32_mrf32", a :: b :: c :: _ => some (.arrays a b c)
  | "mrf32_mrf32_mrf32", _ => none
  | _, v :: _ => some (.array v)
  | _, [] => none

/-- The delivery that calling a consumer by its name makes. -/
def Delivery.ofCall (consumer : String) (values : List Value) : Except Fault Delivery :=
  if consumers.contains consumer then
    match Delivery.ofValues? consumer values with
    | some d => .ok d
    | none => .error .wrongType
  else .error (.missingKey (Text.quoted ("refbackend_consume_func_return_" ++ consumer)))

/-- What running a compiled function does: it calls consumers, one after the other, and may end with
    a fault before, between or after these calls. -/
structure Execution where
  delivered : List Delivery
  fault : Option Fault

/-- The execution of a function that calls one consumer. -/
def Execution.ofCall (consumer : String) (values : List Value) : Execution :=
  match Delivery.ofCall consumer values with
  | .ok d => ⟨[d], none⟩
  | .error e => ⟨[], some e⟩

/-! ## Invokers -/

/-- A request to invoke a function. -/
structure Request where
  function : String
  args : List Value
  run : Execution

/-- The state of an invoker: the result that waits to be collected, or nothing. -/
structure Invoker where
  result : Value

/-- An invoker that has not been used. -/
def Invoker.fresh : Invoker := ⟨.none⟩

/-- A consumer puts what it keeps in place of the result. -/
def Invoker.receive (_ : Invoker) (d : Delivery) : Invoker := ⟨d.kept⟩

/-- A call of a compiled function that got past the checks. -/
structure Invoked where
  function : String
  ranks : List Nat
  deriving DecidableEq, Repr

/-- What an invocation comes to. -/
structure Invocation where
  answer : Except Fault Value
  /-- The call itself, if the arguments passed the checks. -/
  invoked : Option Invoked
  /-- The invoker afterwards. -/
  after : Invoker

/-- Collects the result, which is then gone; that there is none is a fault. -/
def Invoker.collect (i : Invoker) (invoked : Invoked) : Invocation :=
  match i.result with
  | .none => ⟨.error (.assertion "Invocation didn't produce a result"), some invoked, i⟩
  | v => ⟨.ok v, some invoked, .fresh⟩

/-- Invokes a function: arguments that do not pass the checks and a fault of the function leave the
    result as it is at that moment. -/
def Invoker.invoke (i : Invoker) (r : Request) : Invocation :=
  match checkArguments r.args with
  | .error e => ⟨.error e, none, i⟩
  | .ok () =>
    let invoked : Invoked := ⟨r.function, r.args.map rank⟩
    let i := r.run.delivered.foldl Invoker.receive i
    match r.run.fault with
    | some e => ⟨.error e, some invoked, i⟩
    | none => i.collect invoked

/-- Invokes functions one after the other. -/
def Invoker.invokeAll (i : Invoker) : List Request → List (Except Fault Value) × List Invoked
  | [] => ([], [])
  | r :: rest =>
    let o := i.invoke r
    let (outs, more) := o.after.invokeAll rest
    (o.answer :: outs, o.invoked.toList ++ more)

end DialectBench.Pipeline
