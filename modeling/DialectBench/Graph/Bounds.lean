import DialectBench.Graph.Type
import DialectBench.Table

/-!
# Bounds on arguments

What is said about the types of a function's arguments becomes an attribute of the function, in the
module that it was imported into: an array with a dictionary per argument.  The assembly text of a
type becomes a type of the dialect by `parse`, which may refuse it.
-/

namespace DialectBench.Graph

/-- The text of a list of types. -/
def boundsText (types : List ArgType) : String :=
  "Annotation instance with " ++ toString types.length ++ " types\n" ++
    String.join (types.zipIdx.map fun t =>
      "    Type of argument " ++ toString (t.2 + 1) ++ ": " ++ t.1.text ++ "\n")

/-- An attribute of an operation. -/
inductive Attribute where
  /-- A type of the dialect. -/
  | type (asm : String)
  | array (items : List Attribute)
  | dict (entries : List (String × Attribute))
  /-- Any other attribute, by its text. -/
  | other (text : String)
  deriving Repr

/-- The type of the dialect that a type of arguments is. -/
def ArgType.typed (parse : String → Except Fault String) (t : ArgType) : Except Fault String :=
  match t.asm with
  | .error e => .error e
  | .ok asm => parse asm

/-- The name under which a dictionary holds the type that bounds an argument. -/
def boundName : String := "torch.type_bound"

/-- The bound that a type sets on an argument: a dictionary with the type for a tensor, an empty one
    for all else, which is not even looked at. -/
def bound (parse : String → Except Fault String) : ArgType → Except Fault Attribute
  | .tensor shape dtype =>
    ((ArgType.tensor shape dtype).typed parse).map fun asm => .dict [(boundName, .type asm)]
  | _ => .ok (.dict [])

/-- The bounds that types set on arguments, in order. -/
def bounds (parse : String → Except Fault String) : List ArgType → Except Fault (List Attribute)
  | [] => .ok []
  | t :: ts =>
    match bound parse t with
    | .error e => .error e
    | .ok b => (bounds parse ts).map (b :: ·)

/-- An operation at the top of an imported module. -/
structure TopOp where
  name : String
  isFunction : Bool
  attributes : Table String Attribute
  deriving Repr

namespace TopOp

/-- Whether an operation is a function of a name. -/
def isNamed (name : String) (op : TopOp) : Bool := op.isFunction && op.name == name

/-- Puts an attribute on an operation, in place of the one of that name if there is one. -/
def put (key : String) (a : Attribute) (op : TopOp) : TopOp :=
  { op with attributes := Table.set key a op.attributes }

end TopOp

/-- The name of the attribute that holds the bounds on the arguments of a function. -/
def boundsName : String := "arg_attrs"

/-- The fault of a module without a function of the name that is asked for. -/
def missingFunction : Fault :=
  .assertion ("Unable to find FuncOp in new module. Make sure function was imported " ++
    "correctly into ModuleBuilder")

/-- Sets the bounds that types give on the arguments of the first function of a name.  The function
    has to be there before the types are looked at.  The operations are given as they are
    afterwards, however it ends. -/
def annotate (parse : String → Except Fault String) (name : String) (types : List ArgType)
    (ops : List TopOp) : Except Fault Unit × List TopOp :=
  match ops.findIdx? (·.isNamed name) with
  | none => (.error missingFunction, ops)
  | some i =>
    match bounds parse types with
    | .error e => (.error e, ops)
    | .ok bs => (.ok (), ops.modify i (·.put boundsName (.array bs)))

end DialectBench.Graph
