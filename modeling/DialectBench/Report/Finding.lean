import DialectBench.Value.Printer
import DialectBench.Value.Key

/-!
# Findings: where a value differs from a golden value

A golden value puts a test to another value (`Value.test`).  The test descends through lists,
tuples and dictionaries as long as the two sides agree in kind and in length or keys, and records a
finding at each position where they do not: the path to the position and what is wrong there.
Positions are visited depth first, elements by index and entries in the order of their keys.
-/

namespace DialectBench

variable [Gauge]

/-- A step from a container into one of its elements. -/
inductive Step where
  | list (index : Nat)
  | tuple (index : Nat)
  | dict (key : Value)

/-- Words for a step. -/
def Step.text : Step → String
  | .list i => "list element " ++ toString i
  | .tuple i => "tuple element " ++ toString i
  | .dict k => "dict element at key " ++ k.show

/-- What is wrong at a position. -/
inductive Mismatch where
  /-- The value is not of the golden value's kind. -/
  | kind (expected actual : String)
  /-- Two floats that are not close. -/
  | float (value golden : Float)
  /-- Two integers or two strings that are not equal. -/
  | leaf (value golden : Value)
  /-- Two sequences of different lengths. -/
  | length (value golden : Nat)
  /-- Two dictionaries with different keys; both key lists are in order. -/
  | keys (value golden : List Value)
  /-- Two tensors of different shapes. -/
  | shape (value golden : List Nat)
  /-- Two tensors of different element types. -/
  | dtype (value golden : String)
  /-- Two tensors whose elements are not close. -/
  | tensor (value golden : Tensor)
  /-- The golden value is of a kind that no comparison supports. -/
  | golden (kind : String)

/-- Words for the shape of a tensor. -/
def sizeText (shape : List Nat) : String := "torch.Size(" ++ Tensor.shapeText shape ++ ")"

/-- Words for a mismatch. -/
def Mismatch.message : Mismatch → String
  | .kind expected actual =>
    "expected a value of type `" ++ expected ++ "` but got `" ++ actual ++ "`"
  | .float v g =>
    "value (" ++ (Value.float v).show ++ ") is not close to golden value (" ++
      (Value.float g).show ++ ")"
  | .leaf v g => "value (" ++ v.show ++ ") is not equal to golden value (" ++ g.show ++ ")"
  | .length v g =>
    "value (" ++ toString v ++ ") is not equal to golden value (" ++ toString g ++ ")"
  | .keys v g =>
    "dict keys (" ++ (Value.list v).show ++ ") are not equal to golden keys (" ++
      (Value.list g).show ++ ")"
  | .shape v g =>
    "shape (" ++ sizeText v ++ ") is not equal to golden shape (" ++ sizeText g ++ ")"
  | .dtype v g => "shape (torch." ++ v ++ ") is not equal to golden dtype (torch." ++ g ++ ")"
  | .tensor v g =>
    "value (" ++ Gauge.summary v ++ ") is not close to golden value (" ++ Gauge.summary g ++ ")"
  | .golden k => "unexpected golden value of type `" ++ k ++ "`"

/-- A position and what is wrong there. -/
structure Finding where
  path : List Step
  cause : Mismatch

/-- The same finding seen from a container around it. -/
def Finding.under (s : Step) (f : Finding) : Finding := ⟨s :: f.path, f.cause⟩

/-- A finding at the value itself. -/
def Finding.here (m : Mismatch) : Finding := ⟨[], m⟩

/-- The outcome of a test: all findings, or the fault that stopped it. -/
abbrev Findings := Except Fault (List Finding)

/-- The test that a golden value puts to another value. -/
abbrev Comparison := Value → Findings

/-- The tolerance of the comparison of floats. -/
def floatTolerance : Float := 1e-4

/-- Compares floats: the distance, divided by the golden float, may not exceed the tolerance. -/
def testFloat (v g : Float) : Findings :=
  if g == 0.0 then .error .divisionByZero
  else if (v - g).abs / g > floatTolerance then .ok [.here (.float v g)]
  else .ok []

/-- Compares tensors: shape, then element type, then elements. -/
def testTensor (v g : Tensor) : List Finding :=
  if v.shape? != g.shape? then [.here (.shape (v.shape?.getD []) (g.shape?.getD []))]
  else if v.dtype? != g.dtype? then [.here (.dtype (v.dtype?.getD "") (g.dtype?.getD ""))]
  else if !Gauge.close v g then [.here (.tensor v g)]
  else []

/-- Runs the tests of a sequence on the elements of another, numbering the steps from `i` on. -/
def testItems (step : Nat → Step) : Nat → List Comparison → List Value → Findings
  | _, [], _ => .ok []
  | _, _ :: _, [] => .ok []
  | i, t :: ts, v :: vs =>
    match t v with
    | .error e => .error e
    | .ok fs =>
      match testItems step (i + 1) ts vs with
      | .error e => .error e
      | .ok rest => .ok (fs.map (Finding.under (step i)) ++ rest)

/-- Compares sequences of one kind: lengths, then elements. -/
def testSequence (step : Nat → Step) (ts : List Comparison) (vs : List Value) : Findings :=
  if vs.length != ts.length then .ok [.here (.length vs.length ts.length)]
  else testItems step 0 ts vs

/-- Runs the tests at the given keys on the entries of another dictionary. -/
def testEntries (ts : List (Value × Comparison)) (es : List (Value × Value)) : List Value → Findings
  | [] => .ok []
  | k :: ks =>
    match lookup? k ts, lookup? k es with
    | some t, some v =>
      match t v with
      | .error e => .error e
      | .ok fs =>
        match testEntries ts es ks with
        | .error e => .error e
        | .ok rest => .ok (fs.map (Finding.under (.dict k)) ++ rest)
    | _, _ => .error (.missingKey k.show)

/-- Compares dictionaries: keys, then entries in the order of the keys. -/
def testDict (ts : List (Value × Comparison)) (es : List (Value × Value)) : Findings :=
  match sortKeys (ts.map Prod.fst) with
  | .error e => .error e
  | .ok gkeys =>
    match sortKeys (es.map Prod.fst) with
    | .error e => .error e
    | .ok vkeys =>
      if !Value.sameAll gkeys vkeys then .ok [.here (.keys vkeys gkeys)]
      else testEntries ts es gkeys

/-- The finding that a value is not of the expected kind. -/
def wrongKind (expected : String) (v : Value) : Findings :=
  .ok [.here (.kind expected v.kind)]

/-- Compares integers; truth values count as integers. -/
def testInt (golden : Value) (g : Int) (v : Value) : Findings :=
  match v.int? with
  | none => wrongKind "int" v
  | some n => if n != g then .ok [.here (.leaf v golden)] else .ok []

mutual

/-- The test that a golden value puts to another value. -/
def Value.test : Value → Comparison
  | .float g => fun v =>
    match v with
    | .float x => testFloat x g
    | _ => wrongKind "float" v
  | .bool b => testInt (.bool b) (if b then 1 else 0)
  | .int n => testInt (.int n) n
  | .str g => fun v =>
    match v with
    | .str s => if s != g then .ok [.here (.leaf v (.str g))] else .ok []
    | _ => wrongKind "str" v
  | .tuple gs => fun v =>
    match v with
    | .tuple vs => testSequence .tuple (Value.tests gs) vs
    | _ => wrongKind "tuple" v
  | .list gs => fun v =>
    match v with
    | .list vs => testSequence .list (Value.tests gs) vs
    | _ => wrongKind "list" v
  | .dict ges => fun v =>
    match v with
    | .dict ves => testDict (Value.entryTests ges) ves
    | _ => wrongKind "dict" v
  | .tensor g => fun v =>
    match v with
    | .tensor t => .ok (testTensor t g)
    | _ => wrongKind "torch.Tensor" v
  | g => fun _ => .ok [.here (.golden g.kind)]

/-- The tests of the elements of a sequence. -/
def Value.tests : List Value → List Comparison
  | [] => []
  | g :: gs => g.test :: Value.tests gs

/-- The tests of the values of a dictionary, each with its key. -/
def Value.entryTests : List (Value × Value) → List (Value × Comparison)
  | [] => []
  | (k, g) :: es => (k, g.test) :: Value.entryTests es

end

end DialectBench
