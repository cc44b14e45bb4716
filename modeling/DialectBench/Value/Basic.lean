import DialectBench.Value.Tensor

/-!
# Values

What programs under test take and return.  The values are dynamic: any of them may stand wherever
a value may, and a check has to look at the kind.  Truth values count as integers.
-/

namespace DialectBench

/-- Things that only name something of an operator library or of a program. -/
inductive Symbol where
  /-- The result of the recorded call with this number, or what a path of member names below it
      leads to. -/
  | recorded (call : Nat) (path : List String)
  /-- A member of the library by its dotted name. -/
  | name (dotted : String)
  | ellipsis
  | slice (start stop step : Option Int)
  /-- A program, by the name of its class. -/
  | program (className : String)
  | parser
  | task
  | settings (fields : List (String × Int))
  deriving DecidableEq, Repr

/-- Empty values of classes that no comparison supports. -/
inductive Oddity where
  | bytes
  | set
  | complex
  deriving DecidableEq, Repr

/-- A value. -/
inductive Value where
  | none
  | bool (b : Bool)
  | int (n : Int)
  | float (x : Float)
  | str (s : String)
  | list (items : List Value)
  | tuple (items : List Value)
  /-- A dictionary, entries in insertion order. -/
  | dict (entries : List (Value × Value))
  /-- An element type of tensors. -/
  | dtype (name : String)
  | odd (o : Oddity)
  | tensor (t : Tensor)
  /-- The contents of a tensor outside the tensor library. -/
  | array (t : Tensor)
  | symbol (s : Symbol)
  deriving Inhabited, Repr

/-- The name of the class of a value. -/
def Value.kind : Value → String
  | .none => "NoneType"
  | .bool _ => "bool"
  | .int _ => "int"
  | .float _ => "float"
  | .str _ => "str"
  | .list _ => "list"
  | .tuple _ => "tuple"
  | .dict _ => "dict"
  | .dtype _ => "dtype"
  | .odd .bytes => "bytes"
  | .odd .set => "set"
  | .odd .complex => "complex"
  | .tensor _ => "Tensor"
  | .array _ => "ndarray"
  | .symbol .ellipsis => "ellipsis"
  | .symbol (.slice _ _ _) => "slice"
  | .symbol (.program c) => c
  | .symbol _ => "object"

/-- A tensor seen as an array; other values are seen as they are. -/
def Value.asArray : Value → Value
  | .tensor t => .array t
  | v => v

/-- The integer that a value counts as: truth values count zero and one. -/
def Value.int? : Value → Option Int
  | .bool b => some (if b then 1 else 0)
  | .int n => some n
  | _ => Option.none

/-- Whether a value counts as true: nothing, zero and empty values do not. -/
def Value.isTruthy : Value → Bool
  | .none | .odd _ => false
  | .bool b => b
  | .int n => n ≠ 0
  | .float x => x != 0.0
  | .str s => !s.isEmpty
  | .list xs | .tuple xs => !xs.isEmpty
  | .dict es => !es.isEmpty
  | .dtype _ | .tensor _ | .array _ | .symbol _ => true

end DialectBench
