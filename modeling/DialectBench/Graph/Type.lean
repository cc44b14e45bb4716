import DialectBench.Value.Printer
import DialectBench.Fault

/-!
# Types of arguments

What is said about the arguments of a function in a graph: that one is a tensor, perhaps of known
shape and element type, a plain scalar, or a module.  Each type has a readable text and an assembly
text in the dialect.
-/

namespace DialectBench.Graph

/-- The plain classes of values. -/
inductive Plain where
  | bool
  | int
  | none
  | float
  | str
  | list
  | dict
  deriving DecidableEq, Repr

/-- The text of a plain class. -/
def Plain.text : Plain → String
  | .bool => "<class 'bool'>"
  | .int => "<class 'int'>"
  | .none => "<class 'NoneType'>"
  | .float => "<class 'float'>"
  | .str => "<class 'str'>"
  | .list => "<class 'list'>"
  | .dict => "<class 'dict'>"

/-- The type of an argument. -/
inductive ArgType where
  /-- A tensor; shape and element type are nothing where they are not known. -/
  | tensor (shape dtype : Value)
  | plain (c : Plain)
  | module (name : String)
  /-- A plain class that was not made a type of arguments. -/
  | bare (c : Plain)
  deriving Repr

namespace ArgType

/-- A tensor type.  A shape without an element type is refused. -/
def ofTensor (shape dtype : Value) : Except Fault ArgType :=
  match dtype, shape with
  | .none, .none => .ok (.tensor shape dtype)
  | .none, _ => .error (.tensorType "If shape is specified, dtype must also be specified")
  | _, _ => .ok (.tensor shape dtype)

/-- The type as it is said about an argument: a bare class is taken for the type of its values. -/
def adopt : ArgType → ArgType
  | .bare c => .plain c
  | t => t

/-- The text of a type. -/
def text : ArgType → String
  | .tensor shape dtype =>
    "Torch Tensor (shape=" ++ shape.plain ++ ", dtype=" ++ dtype.plain ++ ")"
  | .plain c => c.text
  | .module _ => "torch.nn.Module"
  | .bare c => c.text

/-- The sizes that a shape lists; `none` if it cannot be gone through. -/
def sizes? : Value → Option (List Value)
  | .list xs => some xs
  | .tuple xs => some xs
  | .str s => some (s.toList.map fun c => .str (String.ofList [c]))
  | .dict es => some (es.map Prod.fst)
  | .odd .bytes => some []
  | .odd .set => some []
  | _ => Option.none

/-- A size in a shape; an unknown one is a question mark. -/
def sizeAsm : Value → String
  | .none => "?"
  | v => v.plain

/-- The assembly text of a shape; an asterisk if it is not known. -/
def shapeAsm : Value → Except Fault String
  | .none => .ok "*"
  | shape =>
    match sizes? shape with
    | some xs => .ok ("[" ++ Text.joinWith "," (xs.map sizeAsm) ++ "]")
    | Option.none => .error .wrongType

/-- The assembly text of an element type; only single precision is supported. -/
def dtypeAsm (dtype : Value) : Except Fault String :=
  match dtype with
  | .dtype "float32" | .dtype "float" => .ok "f32"
  | d => .error (.unsupported ("Unsupported dtype: " ++ d.plain))

/-- The assembly text of the tensor type of which nothing is known. -/
def anyTensor : String := "!torch.tensor"

/-- The assembly text of the type of a module. -/
def moduleAsm (name : String) : String := "!torch.nn.Module<\"" ++ name ++ "\">"

/-- The assembly text of a plain class; only some have one. -/
def plainAsm : Plain → Except Fault String
  | .bool => .ok "!torch.bool"
  | .int => .ok "!torch.int"
  | .none => .ok "!torch.none"
  | c => .error (.unsupported ("Unsupported type: " ++ c.text))

/-- The assembly text of a type. -/
def asm : ArgType → Except Fault String
  | .tensor _ .none => .ok anyTensor
  | .tensor shape dtype =>
    match shapeAsm shape with
    | .error e => .error e
    | .ok s => (dtypeAsm dtype).map fun d => "!torch.vtensor<" ++ s ++ "," ++ d ++ ">"
  | .plain c => plainAsm c
  | .module name => .ok (moduleAsm name)
  | .bare _ => .error .noAttribute

end ArgType

end DialectBench.Graph
