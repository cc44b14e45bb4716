import DialectBench.Value.Basic

/-!
# What programs share

Lists, dictionaries and tensors are shared, not copied: one that is changed in place changes
wherever it is held.  A datum is a value in which each of them is the address of a cell of a store.
An array has no cell of its own: it is made from a tensor or becomes one without a copy, so that it
lies in the memory of that tensor.  `Value.thaw` puts the parts of a value into new cells and
`Store.freeze` reads a datum back as the value that it is at that moment.  The store also keeps the
log of the library calls that programs make, where a library writes one.
-/

namespace DialectBench

/-- A value whose lists, dictionaries and tensors are shared. -/
inductive Datum where
  /-- A value that cannot be changed in place. -/
  | leaf (v : Value)
  /-- The list, dictionary or tensor in a cell. -/
  | object (address : Nat)
  /-- The array in the memory of the tensor in a cell. -/
  | array (address : Nat)
  | tuple (items : List Datum)
  deriving Inhabited, Repr

/-- What a cell holds. -/
inductive Cell where
  | list (items : List Datum)
  /-- A dictionary, entries in insertion order. -/
  | dict (entries : List (Value × Datum))
  | tensor (contents : Tensor)
  deriving Inhabited, Repr

/-- A call of the operator library: a function or an operator, with what it was given. -/
structure LibraryCall where
  function : String
  args : List Value
  keywords : List (String × Value)
  deriving Repr

/-- The library calls made so far; a call's number is its place here. -/
abbrev Log := Array LibraryCall

/-- What programs share. -/
structure Store where
  /-- The shared objects, by address. -/
  cells : List Cell
  log : Log
  deriving Repr

namespace Store

/-- The store without objects and calls. -/
def empty : Store := ⟨[], #[]⟩

/-- Puts an object into a new cell. -/
def alloc (s : Store) (c : Cell) : Nat × Store :=
  (s.cells.length, { s with cells := s.cells ++ [c] })

/-- The object in a cell; an empty list outside the store. -/
def read (s : Store) (address : Nat) : Cell := s.cells[address]?.getD (.list [])

/-- Changes the object in a cell. -/
def write (s : Store) (address : Nat) (c : Cell) : Store :=
  { s with cells := s.cells.set address c }

end Store

mutual

/-- Puts the parts of a value into new cells. -/
def Value.thaw : Value → StateM Store Datum
  | .list xs => do
    let items ← Value.thawAll xs
    modifyGet fun s => let (a, s') := s.alloc (.list items); (.object a, s')
  | .tuple xs => do return .tuple (← Value.thawAll xs)
  | .dict es => do
    let entries ← Value.thawEntries es
    modifyGet fun s => let (a, s') := s.alloc (.dict entries); (.object a, s')
  | .tensor t => modifyGet fun s => let (a, s') := s.alloc (.tensor t); (.object a, s')
  | .array t => modifyGet fun s => let (a, s') := s.alloc (.tensor t); (.array a, s')
  | v => return .leaf v

/-- Puts the parts of values into new cells. -/
def Value.thawAll : List Value → StateM Store (List Datum)
  | [] => return []
  | x :: xs => do
    let d ← x.thaw
    return d :: (← Value.thawAll xs)

/-- Puts the parts of the values of dictionary entries into new cells. -/
def Value.thawEntries : List (Value × Value) → StateM Store (List (Value × Datum))
  | [] => return []
  | (k, v) :: es => do
    let d ← v.thaw
    return (k, d) :: (← Value.thawEntries es)

end

mutual

/-- Reads a datum as a value, given the values of what is in cells. -/
def Datum.freezeWith (shown : Nat → Value) : Datum → Value
  | .leaf v => v
  | .object a => shown a
  | .array a => (shown a).asArray
  | .tuple xs => .tuple (Datum.freezeAllWith shown xs)

/-- Reads data as values, given the values of what is in cells. -/
def Datum.freezeAllWith (shown : Nat → Value) : List Datum → List Value
  | [] => []
  | x :: xs => x.freezeWith shown :: Datum.freezeAllWith shown xs

end

/-- Reads what is in a cell as a value, given the values of what is in cells. -/
def Cell.freezeWith (shown : Nat → Value) : Cell → Value
  | .list xs => .list (xs.map (Datum.freezeWith shown))
  | .dict es => .dict (es.map fun e => (e.1, e.2.freezeWith shown))
  | .tensor t => .tensor t

namespace Store

/-- The value of what is in a cell, following cells within cells to a depth. -/
def cellValue (s : Store) : Nat → Nat → Value
  | 0, _ => .none
  | depth + 1, a => (s.read a).freezeWith (s.cellValue depth)

/-- The value that a datum is at this moment.  No object is within itself, so that no chain of cells
    is longer than the store. -/
def freeze (s : Store) (d : Datum) : Value := d.freezeWith (s.cellValue s.cells.length)

end Store

end DialectBench
