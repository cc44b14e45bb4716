import DialectBench.Graph.Basic
import DialectBench.Table

/-!
# From graphs to the dialect

A graph module becomes a class with an attribute per public attribute of the module, an instance of
that class with a slot per attribute, and a function that computes what the graph computes.  Two
builders put operations into a module under construction, which has four insertion points: the ends
of its own body and of the bodies of the class, the instance and the function.  Every operation with
a result names it by a number, and numbers count in the order of insertion.
-/

namespace DialectBench.Graph

/-- A value in the dialect: an argument of the function or the result of an instruction. -/
inductive Operand where
  | arg (n : Nat)
  | result (n : Nat)
  deriving DecidableEq, Repr

/-- The text of an operand. -/
def Operand.text : Operand → String
  | .arg n => "%arg" ++ toString n
  | .result n => "%" ++ toString n

/-- An instruction. -/
inductive Instr where
  | constantInt (result : Nat) (n : Int)
  | sigmoid (result : Nat) (input : Operand)
  | tanh (result : Nat) (input : Operand)
  | add (result : Nat) (input other alpha : Operand)
  | ret (operands : List Operand)
  deriving DecidableEq, Repr

/-- The assembly text of the type of integers. -/
def intAsm : String := "!torch.int"

/-- The assembly text of the type of truth values. -/
def truthAsm : String := "!torch.bool"

/-- The types of what an instruction assigns: every operator gives a tensor of which nothing is
    known. -/
def Instr.resultTypes : Instr → List String
  | .constantInt _ _ => [intAsm]
  | .sigmoid _ _ => [ArgType.anyTensor]
  | .tanh _ _ => [ArgType.anyTensor]
  | .add _ _ _ _ => [ArgType.anyTensor]
  | .ret _ => []

/-- A function. -/
structure Func where
  name : String
  argTypes : List String
  resultTypes : List String
  body : List Instr
  deriving DecidableEq, Repr

/-- An operation in the body of a class. -/
inductive ClassOp where
  | attribute (name type : String) (isPrivate : Bool)
  /-- A method and the symbol of the function that it stands for. -/
  | method (name symbol : String) (isPrivate : Bool)
  | terminator
  deriving DecidableEq, Repr

/-- An operation in the body of the instance of a class. -/
inductive InstanceOp where
  | slot (name : String) (value : Operand)
  | terminator
  deriving DecidableEq, Repr

/-- An operation at the top of a built module. -/
inductive ModuleOp where
  | classType (name : String) (body : List ClassOp)
  | nnModule (type : String) (body : List InstanceOp)
  | constantBool (result : Nat) (b : Bool)
  | func (f : Func)
  deriving DecidableEq, Repr

/-! ## Modules under construction -/

/-- An operation at the top of a module under construction, without its body; the bodies are
    kept apart. -/
inductive OpHead where
  | classType (name : String)
  | nnModule (type : String)
  | constantBool (result : Nat) (b : Bool)
  | func (name : String) (argTypes resultTypes : List String)
  deriving DecidableEq, Repr

/-- A module under construction: what was put in at each of the four insertion points, and the
    number of the next result. -/
structure Draft where
  top : List OpHead
  classBody : List ClassOp
  instanceBody : List InstanceOp
  funcBody : List Instr
  next : Nat
  deriving DecidableEq, Repr

/-- The empty module. -/
def Draft.empty : Draft := ⟨[], [], [], [], 0⟩

/-- The operation with its body. -/
def Draft.complete (d : Draft) : OpHead → ModuleOp
  | .classType name => .classType name d.classBody
  | .nnModule type => .nnModule type d.instanceBody
  | .constantBool r b => .constantBool r b
  | .func name argTypes resultTypes => .func ⟨name, argTypes, resultTypes, d.funcBody⟩

/-- The operations of the module, in order. -/
def Draft.ops (d : Draft) : List ModuleOp := d.top.map d.complete

/-- Work on a module under construction. -/
abbrev Builder := StateT Draft (Except Fault)

/-- Puts an operation at the end of the module. -/
def insertTop (op : OpHead) : Builder Unit := modify fun d => { d with top := d.top ++ [op] }

/-- Puts an operation at the end of the class. -/
def insertInClass (op : ClassOp) : Builder Unit :=
  modify fun d => { d with classBody := d.classBody ++ [op] }

/-- Puts an operation at the end of the instance. -/
def insertInInstance (op : InstanceOp) : Builder Unit :=
  modify fun d => { d with instanceBody := d.instanceBody ++ [op] }

/-- Puts an instruction at the end of the function. -/
def insertInFunction (i : Instr) : Builder Unit :=
  modify fun d => { d with funcBody := d.funcBody ++ [i] }

/-- The number of a new result. -/
def newResult : Builder Nat := modifyGet fun d => (d.next, { d with next := d.next + 1 })

/-! ## The class -/

/-- Whether the name of an attribute is public. -/
def isPublic (name : String) : Bool := name.toList.head? != some '_'

/-- The attributes that are carried over: the public ones, then the parameters. -/
def GraphModule.visible (g : GraphModule) : List (String × Value) :=
  g.attributes.filter (fun a => isPublic a.1) ++ g.parameters

/-- The name of the function that a class's `forward` stands for. -/
def forwardName (className : String) : String := className ++ ".forward"

/-- The symbol by which a function is referred to. -/
def symbolOf (function : String) : String := "@" ++ function

/-- Declares an attribute, with a constant that holds its value and a slot for it.  Only truth
    values are supported. -/
def insertAttribute (a : String × Value) : Builder Unit := do
  match a.2 with
  | .bool b =>
    let r ← newResult
    insertTop (.constantBool r b)
    insertInClass (.attribute a.1 truthAsm true)
    insertInInstance (.slot a.1 (.result r))
  | v => throw (.unsupported ("Unsupported attribute type: <class '" ++ v.kind ++ "'>"))

/-- Declares attributes, in order. -/
def insertAttributes : List (String × Value) → Builder Unit
  | [] => return ()
  | a :: rest => do
    insertAttribute a
    insertAttributes rest

/-- Declares the method `forward`. -/
def insertForward (className : String) : Builder Unit :=
  insertInClass (.method "forward" (symbolOf (forwardName className)) false)

/-- Builds the class and its instance, which are both opened before anything is put into them. -/
def buildClass (g : GraphModule) : Builder Unit := do
  insertTop (.classType g.className)
  insertTop (.nnModule (ArgType.moduleAsm g.className))
  insertAttributes g.visible
  if g.hasForward then insertForward g.className
  insertInClass .terminator
  insertInInstance .terminator

/-! ## The function -/

/-- The types of the arguments that the placeholders stand for. -/
def placeholderTypes : List Node → Except Fault (List String)
  | [] => .ok []
  | n :: ns =>
    if n.isPlaceholder then
      match n.argType with
      | none => .error .noAttribute
      | some t =>
        match t.asm with
        | .error e => .error e
        | .ok asm => (placeholderTypes ns).map (asm :: ·)
    else placeholderTypes ns

/-- The values of nodes, by their positions. -/
abbrev Env := Table Nat Operand

/-- The values of the placeholders: the arguments in order, passing over those that have the type
    of the module itself. -/
def initialEnv (selfType : String) (types : List String) (nodes : List Node) : Env :=
  let placeholders := nodes.zipIdx.filterMap fun n => if n.1.isPlaceholder then some n.2 else none
  let args := types.zipIdx.filterMap fun t =>
    if t.1 == selfType then none else some (Operand.arg t.2)
  placeholders.zip args

/-- Whether a value can be looked up as a key. -/
def hashable : Value → Bool
  | .list _ | .dict _ | .odd .set | .array _ => false
  | .tuple xs => hashableAll xs
  | _ => true
where
  /-- Whether all values can be looked up as keys. -/
  hashableAll : List Value → Bool
  | [] => true
  | x :: xs => hashable x && hashableAll xs

/-- The value of what a node uses. -/
def lookupArg (nodes : List Node) (env : Env) : NodeArg → Except Fault Operand
  | .node i =>
    match env.lookup i with
    | some x => .ok x
    | none => .error (.missingKey ((nodes[i]?.map Node.name).getD ""))
  | .value v => .error (if hashable v then .missingKey v.show else .wrongType)

/-- The values of what a node uses, in order. -/
def lookupArgs (nodes : List Node) (env : Env) : List NodeArg → Except Fault (List Operand)
  | [] => .ok []
  | a :: as =>
    match lookupArg nodes env a with
    | .error e => .error e
    | .ok x => (lookupArgs nodes env as).map (x :: ·)

/-- The values of the nodes among keyword arguments; other keyword arguments do not count. -/
def lookupKwargs (nodes : List Node) (env : Env) :
    List (String × NodeArg) → Except Fault (List (String × Operand))
  | [] => .ok []
  | (name, .node i) :: rest =>
    match lookupArg nodes env (.node i) with
    | .error e => .error e
    | .ok x => (lookupKwargs nodes env rest).map ((name, x) :: ·)
  | (_, .value _) :: rest => lookupKwargs nodes env rest

/-- Inserts a call of an operator of one argument. -/
def insertUnary (make : Nat → Operand → Instr) (args : List (String × Operand)) : Builder Nat := do
  match args.lookup "input" with
  | some x =>
    let r ← newResult
    insertInFunction (make r x)
    return r
  | none => throw (.assertion "A call to this handler must include an argument named `input`")

/-- Inserts a call of the addition, which scales its second argument by a constant. -/
def insertAdd (args : List (String × Operand)) : Builder Nat := do
  match args.lookup "input", args.lookup "other" with
  | some x, some y =>
    let one ← newResult
    insertInFunction (.constantInt one 1)
    let r ← newResult
    insertInFunction (.add r x y (.result one))
    return r
  | _, _ => throw (.assertion ("A call to this handler must include an argument named `input` " ++
      "and an argument named `other`"))

/-- Inserts the instructions of a function call and gives the number of its result. -/
def insertCall (target : Target) (args : List (String × Operand)) : Builder Nat :=
  match target with
  | .name s => throw (.forwardBuilder ("f_node.targe = " ++ s ++ " must be of type " ++
      "Callable[..., Any], not str. Make sure the torch.fx.Graph has been normalized to using " ++
      "torch.fx.experimental.fx_acc.acc_ops"))
  | .operator "sigmoid" => insertUnary .sigmoid args
  | .operator "tanh" => insertUnary .tanh args
  | .operator "add" => insertAdd args
  | .operator name => throw (.unsupported ("Unsupported function: acc_ops." ++ name))
  | .nothing => throw (.unsupported "Unsupported function: None")

/-- Inserts the instructions of nodes from a position on, given the values of earlier nodes. -/
def insertNodes (all : List Node) : Nat → Env → List Node → Builder Unit
  | _, _, [] => return ()
  | i, env, n :: rest =>
    match n.sort with
    | "call_function" => do
      let args ← lookupKwargs all env n.kwargs
      let r ← insertCall n.target args
      insertNodes all (i + 1) (Table.set i (.result r) env) rest
    | "output" => do
      let xs ← lookupArgs all env n.args
      insertInFunction (.ret xs)
      insertNodes all (i + 1) env rest
    | "placeholder" => insertNodes all (i + 1) env rest
    | sort => throw (.unsupported ("Unsupported node.op type: " ++ sort))

/-- Builds the function, which returns a tensor of which nothing is known. -/
def buildFunction (g : GraphModule) : Builder Unit := do
  let selfType := ArgType.moduleAsm g.className
  let types ← placeholderTypes g.nodes
  let argTypes := selfType :: types
  insertTop (.func (forwardName g.className) argTypes [ArgType.anyTensor])
  insertNodes g.nodes 0 (initialEnv selfType argTypes g.nodes) g.nodes

/-- Builds the module of a graph module: first the class, then the function. -/
def build (g : GraphModule) : Except Fault (List ModuleOp) := do
  let (_, d) ← (do
    buildClass g
    buildFunction g : Builder Unit).run .empty
  return d.ops

end DialectBench.Graph
