import DialectBench.Value.Printer
import DialectBench.Fault

/-!
# Conversion between tensors and arrays

Compiled programs take and return arrays where programs under test use tensors.  A conversion
rebuilds lists, tuples and dictionaries and leaves dictionary keys alone; strings, floats, integers
and truth values pass, and any other leaf is a fault that shows it.
-/

namespace DialectBench

/-- The two directions of conversion. -/
inductive Direction where
  | toArrays
  | fromArrays
  deriving DecidableEq, Repr

namespace Direction

/-- What a direction makes of a leaf; `none` if it does not take it. -/
def leaf? : Direction → Value → Option Value
  | .toArrays, .tensor t => some (.array t)
  | .fromArrays, .array t => some (.tensor t)
  | _, .str s => some (.str s)
  | _, .float x => some (.float x)
  | _, .int n => some (.int n)
  | _, .bool b => some (.bool b)
  | _, _ => none

/-- The side of a function call that a direction belongs to. -/
def side : Direction → String
  | .toArrays => "input"
  | .fromArrays => "output"

/-- The fault of a leaf that a direction does not take. -/
def refuse (d : Direction) (v : Value) : Fault :=
  .general ("Unexpected Python function " ++ d.side ++ ": " ++ v.plain)

end Direction

mutual

/-- Converts a value. -/
def Value.convert (d : Direction) : Value → Except Fault Value
  | .tuple xs => (Value.convertAll d xs).map .tuple
  | .list xs => (Value.convertAll d xs).map .list
  | .dict es => (Value.convertEntries d es).map .dict
  | v =>
    match d.leaf? v with
    | some w => .ok w
    | Option.none => .error (d.refuse v)

/-- Converts values in order. -/
def Value.convertAll (d : Direction) : List Value → Except Fault (List Value)
  | [] => .ok []
  | x :: xs =>
    match x.convert d with
    | .error e => .error e
    | .ok y => (Value.convertAll d xs).map (y :: ·)

/-- Converts the values of dictionary entries in order. -/
def Value.convertEntries (d : Direction) :
    List (Value × Value) → Except Fault (List (Value × Value))
  | [] => .ok []
  | (k, v) :: es =>
    match v.convert d with
    | .error e => .error e
    | .ok w => (Value.convertEntries d es).map ((k, w) :: ·)

end

/-- Whether a conversion hands back the very value that it was given: strings, numbers and truth
    values are not rebuilt, nor is the empty tuple. -/
def Value.isKept : Value → Bool
  | .str _ | .float _ | .int _ | .bool _ | .tuple [] => true
  | _ => false

end DialectBench
