import DialectBench.Operator.Basic
import DialectBench.Operator.Emitter
import DialectBench.Text.Capital

/-!
# Names of operators in the dialect

The name of the operation and the name of its definition, and the readable description of an
operator that shows both.
-/

namespace DialectBench.Operator

/-- The parts of an operator's name; an empty overload is no part. -/
def nameParts (o : Operator) : List String :=
  [o.scope, o.base] ++ (if o.overload.isEmpty then [] else [o.overload])

/-- The name of the operation. -/
def opName (o : Operator) : String := Text.joinWith "." o.nameParts

/-- A piece of a name between underscores, capitalised; an empty piece is an underscore. -/
def namePiece (cs : List Char) : List Char :=
  if cs.isEmpty then ['_'] else Text.capitalize cs

/-- A part of a name in the definition's name. -/
def definitionPart (part : List Char) : List Char :=
  (Text.splitChars '_' part).flatMap namePiece

/-- The name of the definition. -/
def definitionName (o : Operator) : String :=
  "Torch_" ++ String.ofList (o.nameParts.flatMap fun p => definitionPart p.toList) ++ "Op"

/-- A list of parameters in a description. -/
def describeParams (heading label : String) (ps : List Param) : String :=
  if ps.isEmpty then printed 1 (heading ++ " = []")
  else printed 1 (heading ++ ":") ++
    String.join (ps.map fun p => printed 2 (label ++ ": " ++ p.toValue.show))

/-- A description of an operator, one fact a line. -/
def describe (o : Operator) : String :=
  printed 0 ("JitOperator '" ++ o.key ++ "':") ++
  String.join (([
      ("MLIR op name", "torch." ++ o.opName),
      ("MLIR td def name", o.definitionName),
      ("namespace", o.scope),
      ("unqualified_name", o.base),
      ("overload_name", o.overload),
      ("is_c10_op", boolText o.isC10),
      ("is_vararg", boolText o.isVararg),
      ("is_varret", boolText o.isVarret),
      ("is_mutable", boolText o.isMutable)] : List (String × String)).map fun f =>
    printed 1 (f.1 ++ " = " ++ f.2)) ++
  describeParams "arguments" "arg" o.arguments ++
  describeParams "returns" "ret" o.returns

end DialectBench.Operator
