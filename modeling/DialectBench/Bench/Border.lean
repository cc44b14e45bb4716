import DialectBench.Bench.Module
import DialectBench.Value.Arrays

/-!
# Data across the border of the tensor library

Compiled programs take and return arrays where programs under test use tensors.  Taking a datum
across rebuilds its lists, tuples and dictionaries.  Nothing is copied for tensors and arrays: an
array lies in the memory of the tensor that it was made from, and a tensor in that of its array, so
that what is written through one of them shows in the other.
-/

namespace DialectBench

/-- Converts the array in a cell, given what the cell holds and how what is in a cell is converted:
    where there is no tensor there is no array, and what is there goes across as it is. -/
def Cell.convertArray (d : Direction) (cell : Nat → Run Store Datum) (a : Nat) :
    Cell → Run Store Datum
  | .tensor t =>
    match d with
    | .toArrays => throw (d.refuse (.array t))
    | .fromArrays => return .object a
  | _ => cell a

mutual

/-- Converts a datum, given how what is in a cell is converted. -/
def Datum.convertWith (d : Direction) (cell : Nat → Run Store Datum) : Datum → Run Store Datum
  | .leaf v =>
    match v.convert d with
    | .ok w => return .leaf w
    | .error e => throw e
  | .object a => cell a
  | .array a => do ((← get).read a).convertArray d cell a
  | .tuple xs => do return .tuple (← Datum.convertAllWith d cell xs)

/-- Converts data in order, given how what is in a cell is converted. -/
def Datum.convertAllWith (d : Direction) (cell : Nat → Run Store Datum) :
    List Datum → Run Store (List Datum)
  | [] => return []
  | x :: xs => do
    let y ← x.convertWith d cell
    return y :: (← Datum.convertAllWith d cell xs)

end

/-- Converts the object in a cell, given what the cell holds and how what is in a cell is
    converted. -/
def Cell.convertObject (d : Direction) (cell : Nat → Run Store Datum) (a : Nat) :
    Cell → Run Store Datum
  | .list xs => do allocIn (.list (← Datum.convertAllWith d cell xs))
  | .dict es => do
    let values ← Datum.convertAllWith d cell (es.map Prod.snd)
    allocIn (.dict ((es.map Prod.fst).zip values))
  | .tensor t =>
    match d with
    | .toArrays => return .array a
    | .fromArrays => throw (d.refuse (.tensor t))

/-- Converts what is in a cell, following cells within cells to a depth. -/
def convertCell (d : Direction) : Nat → Nat → Run Store Datum
  | 0, _ => throw (.raised "RecursionError" "maximum recursion depth exceeded")
  | depth + 1, a => do ((← get).read a).convertObject d (convertCell d depth) a

/-- Converts a datum.  No object is within itself, so that no chain of cells is longer than the
    store. -/
def Datum.convert (d : Direction) (x : Datum) : Run Store Datum := fun s =>
  x.convertWith d (convertCell d s.cells.length) s

end DialectBench
