import DialectBench.Proofs.GraphArguments

/-!
# What graphs and functions compute

    Two evaluators over one INTERPRETATION of the operators: a graph is
    evaluated node by node, the k-th placeholder taking the k-th argument, and
    the body of a function is evaluated instruction by instruction over a file
    of registers.  Neither looks at the other, so that the two can be compared.

    The operators of graphs take their operands by keyword only.  A call that
    is not in KEYWORD FORM (an operand given by position, a keyword missing or
    in excess) has no value.
-/

namespace DialectBench.Graph

universe u

/-! ## Interpretations -/

/-- A meaning of the operators in a domain of values.  The scaled addition of
    the dialect is free but for one law: at scale one it is the addition. -/
structure Interpretation (V : Type u) where
  sigmoid : V → V
  tanh : V → V
  add : V → V → V
  /-- The value of a constant that stands in a graph. -/
  constant : Value → V
  /-- The value of an integer constant of the dialect. -/
  int : Int → V
  /-- The addition of the dialect, whose last operand is the scale. -/
  addScaled : V → V → V → V
  addScaled_one : ∀ x y, addScaled x y (int 1) = add x y

/-- A finite map extended at one number. -/
def assign {V : Type u} (i : Nat) (v : V) (env : Nat → Option V) : Nat → Option V :=
  fun j => if j = i then some v else env j

section

variable {V : Type u}

@[simp] theorem assign_self (i : Nat) (v : V) (env : Nat → Option V) :
    assign i v env i = some v := if_pos rfl

theorem assign_of_ne {i j : Nat} (h : j ≠ i) (v : V) (env : Nat → Option V) :
    assign i v env j = env j := if_neg h

/-! ## Graphs -/

/-- The keywords that an operator takes. -/
def Target.keywords : Target → List String
  | .operator "sigmoid" => ["input"]
  | .operator "tanh" => ["input"]
  | .operator "add" => ["input", "other"]
  | _ => []

/-- Whether a node is a call. -/
def Node.isCall (n : Node) : Bool := n.sort == "call_function"

/-- Whether a call gives its operator the keywords that it takes and nothing
    else. -/
def Node.inKeywordForm (n : Node) : Bool :=
  n.args.isEmpty && (n.kwargs.map Prod.fst).isPerm n.target.keywords

/-- Whether a node, if it is a call, is in keyword form. -/
def Node.callsByKeyword (n : Node) : Bool := !n.isCall || n.inKeywordForm

/-- A node that is no call has nothing to give by keyword. -/
theorem Node.callsByKeyword_of_ne {n : Node} (h : n.sort ≠ "call_function") :
    n.callsByKeyword = true := by
  unfold Node.callsByKeyword Node.isCall
  rw [beq_eq_false_iff_ne.mpr h]
  rfl

theorem Node.callsByKeyword_of_call {n : Node} (h : n.sort = "call_function") :
    n.callsByKeyword = n.inKeywordForm := by
  unfold Node.callsByKeyword Node.isCall
  rw [beq_iff_eq.mpr h]
  rfl

/-- The value of what a node uses. -/
def argValue (I : Interpretation V) (env : Nat → Option V) : NodeArg → Option V
  | .node i => env i
  | .value c => some (I.constant c)

/-- The value of what a call gives under a keyword. -/
def keywordValue (I : Interpretation V) (env : Nat → Option V) (n : Node) (k : String) :
    Option V :=
  (n.kwargs.lookup k).bind (argValue I env)

/-- The value of a call. -/
def callValue (I : Interpretation V) (env : Nat → Option V) (n : Node) : Option V :=
  if n.inKeywordForm then
    match n.target with
    | .operator "sigmoid" => (keywordValue I env n "input").map I.sigmoid
    | .operator "tanh" => (keywordValue I env n "input").map I.tanh
    | .operator "add" =>
      (keywordValue I env n "input").bind fun x =>
        (keywordValue I env n "other").map fun y => I.add x y
    | _ => none
  else none

/-- What the nodes from a position on yield at the output, given the values of
    the nodes before them and the arguments not taken yet. -/
def nodesValue (I : Interpretation V) :
    Nat → (Nat → Option V) → List V → List Node → Option (List V)
  | _, _, _, [] => none
  | i, env, args, n :: rest =>
    match n.sort with
    | "placeholder" =>
      match args with
      | [] => none
      | a :: args => nodesValue I (i + 1) (assign i a env) args rest
    | "call_function" =>
      (callValue I env n).bind fun v => nodesValue I (i + 1) (assign i v env) args rest
    | "output" => if args.isEmpty then n.args.mapM (argValue I env) else none
    | _ => none

section

variable {I : Interpretation V} {i : Nat} {env : Nat → Option V} {args : List V} {n : Node}
variable {rest : List Node}

theorem nodesValue_placeholder (h : n.sort = "placeholder") (a : V) :
    nodesValue I i env (a :: args) (n :: rest)
      = nodesValue I (i + 1) (assign i a env) args rest := by
  simp only [nodesValue, h]

theorem nodesValue_call (h : n.sort = "call_function") :
    nodesValue I i env args (n :: rest)
      = (callValue I env n).bind fun v =>
          nodesValue I (i + 1) (assign i v env) args rest := by
  simp only [nodesValue, h]

theorem nodesValue_output (h : n.sort = "output") :
    nodesValue I i env [] (n :: rest) = n.args.mapM (argValue I env) := by
  simp only [nodesValue, h, List.isEmpty_nil, if_true]

end

/-- What a graph yields at its output, for as many arguments as it has
    placeholders. -/
def graphValue (I : Interpretation V) (nodes : List Node) (args : List V) :
    Option (List V) :=
  nodesValue I 0 (fun _ => none) args nodes

/-! ## Functions -/

/-- The operands of an instruction. -/
def Instr.operands : Instr → List Operand
  | .constantInt _ _ => []
  | .sigmoid _ x => [x]
  | .tanh _ x => [x]
  | .add _ x y alpha => [x, y, alpha]
  | .ret xs => xs

/-- The numbers that an instruction assigns: one, or none if it returns. -/
def Instr.results : Instr → List Nat
  | .constantInt r _ => [r]
  | .sigmoid r _ => [r]
  | .tanh r _ => [r]
  | .add r _ _ _ => [r]
  | .ret _ => []

/-- The numbers that an operation at the top of a module assigns, those in its
    body included. -/
def ModuleOp.results : ModuleOp → List Nat
  | .constantBool r _ => [r]
  | .func f => f.body.flatMap Instr.results
  | _ => []

/-- The value of an operand, given the arguments and the registers. -/
def Operand.value (args : List V) (regs : Nat → Option V) : Operand → Option V
  | .arg n => args[n]?
  | .result r => regs r

/-- What the instructions of a body return.  A body ends in its only return. -/
def bodyValue (I : Interpretation V) (args : List V) :
    (Nat → Option V) → List Instr → Option (List V)
  | _, [] => none
  | regs, .constantInt r n :: rest => bodyValue I args (assign r (I.int n) regs) rest
  | regs, .sigmoid r x :: rest =>
    (x.value args regs).bind fun v => bodyValue I args (assign r (I.sigmoid v) regs) rest
  | regs, .tanh r x :: rest =>
    (x.value args regs).bind fun v => bodyValue I args (assign r (I.tanh v) regs) rest
  | regs, .add r x y alpha :: rest =>
    (x.value args regs).bind fun v => (y.value args regs).bind fun w =>
      (alpha.value args regs).bind fun a =>
        bodyValue I args (assign r (I.addScaled v w a) regs) rest
  | regs, .ret xs :: rest =>
    if rest.isEmpty then xs.mapM (Operand.value args regs) else none

/-- What a function returns, for as many arguments as it declares. -/
def Func.value (I : Interpretation V) (f : Func) (args : List V) : Option (List V) :=
  if args.length = f.argTypes.length then bodyValue I args (fun _ => none) f.body else none

/-! ## Values that survive -/

/-- The registers that are set keep their values. -/
def Extends (regs regs' : Nat → Option V) : Prop :=
  ∀ r v, regs r = some v → regs' r = some v

/-- A register that was not set may be set. -/
theorem extends_assign {regs : Nat → Option V} {r : Nat} (h : regs r = none) (v : V) :
    Extends regs (assign r v regs) := by
  intro s w hs
  have hne : s ≠ r := by
    rintro rfl
    rw [h] at hs
    exact nomatch hs
  rw [assign_of_ne hne]
  exact hs

theorem Extends.trans {r₁ r₂ r₃ : Nat → Option V} (h₁ : Extends r₁ r₂)
    (h₂ : Extends r₂ r₃) : Extends r₁ r₃ :=
  fun r v h => h₂ r v (h₁ r v h)

/-- An operand keeps its value when registers are set that were not. -/
theorem Extends.value {regs regs' : Nat → Option V} (h : Extends regs regs')
    {args : List V} {x : Operand} {v : V} (hx : x.value args regs = some v) :
    x.value args regs' = some v := by
  cases x with
  | arg n => exact hx
  | result r => exact h r v hx

end

end DialectBench.Graph
