import DialectBench.Graph.Type

/-!
# Graphs

A traced program as a list of nodes, each of which may use earlier nodes, with the attributes of
the module that it belongs to.
-/

namespace DialectBench.Graph

/-- What a node uses: another node, by its position, or a value. -/
inductive NodeArg where
  | node (position : Nat)
  | value (v : Value)
  deriving Repr

/-- What a node calls. -/
inductive Target where
  /-- Something known by its name only. -/
  | name (s : String)
  /-- An operator of the set that graphs are normalised to. -/
  | operator (name : String)
  | nothing
  deriving DecidableEq, Repr

/-- A node. -/
structure Node where
  /-- The sort of node: placeholder, function call, output or another. -/
  sort : String
  name : String
  target : Target
  args : List NodeArg
  kwargs : List (String × NodeArg)
  /-- The type that was said about the node. -/
  argType : Option ArgType
  deriving Repr

/-- A graph and the module that it belongs to. -/
structure GraphModule where
  className : String
  /-- The attributes of the module, in order. -/
  attributes : List (String × Value)
  parameters : List (String × Value)
  hasForward : Bool
  nodes : List Node

/-- Whether a node stands for an argument. -/
def Node.isPlaceholder (n : Node) : Bool := n.sort == "placeholder"

/-- Says types about the placeholders, in order, as far as both last. -/
def annotateNodes : List Node → List ArgType → List Node
  | [], _ => []
  | ns, [] => ns
  | n :: ns, t :: ts =>
    if n.isPlaceholder then { n with argType := some t.adopt } :: annotateNodes ns ts
    else n :: annotateNodes ns (t :: ts)

/-- The nodes about which a type was said, with the text of the type. -/
def annotated (nodes : List Node) : List (String × String) :=
  nodes.filterMap fun n => n.argType.map fun t => (n.name, t.text)

end DialectBench.Graph
