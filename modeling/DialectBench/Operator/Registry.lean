import DialectBench.Operator.Names
import DialectBench.Table

/-!
# The registry of operators

Operators under their keys and under their triples.  Of several operators with one key the last
one counts, and likewise with triples.
-/

namespace DialectBench

/-- An indexed collection of operators. -/
structure Registry where
  byKey : Table String Operator
  byTriple : Table Triple Operator

namespace Registry

/-- The registry without operators. -/
def empty : Registry := ⟨[], []⟩

/-- Adds an operator. -/
def insert (r : Registry) (o : Operator) : Registry :=
  ⟨Table.set o.key o r.byKey, Table.set o.triple o r.byTriple⟩

/-- The registry of a list of operators. -/
def ofList (os : List Operator) : Registry := os.foldl insert empty

/-- The registry of a list of records, or the fault of the first that describes no operator. -/
def ofRecords (rs : List Record) : Except Fault Registry :=
  (rs.mapM Operator.ofRecord).map ofList

/-- Looks up an operator by its key. -/
def get (r : Registry) (key : String) : Except Fault Operator :=
  match r.byKey.lookup key with
  | some o => .ok o
  | none => .error (.missingKey (Text.quoted key))

/-- Looks up an operator by its triple. -/
def getTriple (r : Registry) (t : Triple) : Except Fault Operator :=
  match r.byTriple.lookup t with
  | some o => .ok o
  | none => .error (.missingKey (Value.tuple [.str t.scope, .str t.base, .str t.overload]).show)

/-- Looks up an operator by a list of names; only a list of three can be a triple. -/
def getNames (r : Registry) (names : List String) : Except Fault Operator :=
  match names with
  | [scope, base, overload] => r.getTriple ⟨scope, base, overload⟩
  | _ => .error (.missingKey (Value.tuple (names.map .str)).show)

/-- The descriptions of all operators, in the order of their keys. -/
def dump (r : Registry) : String :=
  String.join ((r.byKey.mergeSort fun a b => !decide (b.1 < a.1)).map fun e => e.2.describe)

end Registry

end DialectBench
