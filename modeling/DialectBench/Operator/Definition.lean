import DialectBench.Operator.Names
import DialectBench.Printed

/-!
# Definitions of operators

The text that defines an operator in the dialect: its name, traits, operands, results and the
format of its assembly.  Operands and results are first listed as declared values, each with the
predicate of its type, and then written; a fault stops the text where it occurs.
-/

namespace DialectBench.Operator

/-- The predicates of the types that have one. -/
def typePredicates : List (String × String) := [
  ("Tensor", "AnyTorchTensorType"),
  ("Tensor?", "AnyTorchOptionalTensorType"),
  ("Tensor?[]", "AnyTorchOptionalTensorListType"),
  ("Tensor[]", "AnyTorchTensorListType"),
  ("Scalar", "AnyTorchScalarType"),
  ("Scalar?", "AnyTorchOptionalScalarType"),
  ("int", "Torch_IntType"),
  ("int[]", "TorchIntListType"),
  ("int?", "TorchOptionalIntType"),
  ("bool", "Torch_BoolType"),
  ("bool[]", "TorchBoolListType"),
  ("bool?", "TorchOptionalBoolType"),
  ("float", "Torch_FloatType"),
  ("t[]", "AnyTorchListType"),
  ("t", "AnyTorchType"),
  ("t1", "AnyTorchType"),
  ("t2", "AnyTorchType"),
  ("Any", "AnyTorchType"),
  ("Device", "Torch_DeviceType"),
  ("Device?", "TorchOptionalDeviceType"),
  ("str", "Torch_StringType"),
  ("str[]", "TorchStringListType"),
  ("Dict", "Torch_DictType"),
  ("__torch__.torch.classes.quantized.LinearPackedParamsBase", "Torch_LinearParamsType")]

/-- The predicate of a type.  Dictionaries have one predicate, whatever they hold. -/
def typePredicate (type : String) : Except Fault String :=
  let type := if "Dict(".toList.isPrefixOf type.toList then "Dict" else type
  match typePredicates.lookup type with
  | some p => .ok p
  | none => .error (.general
      (Text.quoted type ++ " not in TORCH_TYPE_TO_ODS_TYPE mapping. Please add it!"))

/-! ## Declared operands and results -/

/-- A declared operand or result. -/
structure Declared where
  predicate : String
  name : String
  deriving DecidableEq, Repr

/-- The text of a declaration. -/
def Declared.text (d : Declared) : String := d.predicate ++ ":$" ++ d.name

/-- What an operator declares as operands or as results: a list of values, or any number of them
    under one name. -/
inductive Slots where
  | variadic (name : String)
  | listed (values : List Declared)
  deriving DecidableEq, Repr

/-- The text of declarations, one a line. -/
def Slots.text : Slots → String
  | .variadic name => "Variadic<AnyTorchType>:$" ++ name
  | .listed ds => Text.joinWith ",\n" (ds.map Declared.text)

/-- The declaration of a parameter. -/
def declareArgument (p : Param) : Except Fault Declared :=
  match p.type with
  | .error e => .error e
  | .ok type =>
    match typePredicate type with
    | .error e => .error e
    | .ok predicate => (p.get "name").map fun name => ⟨predicate, name.plain⟩

/-- The name of a result: its own, or `fallback` if that is empty. -/
def resultName (fallback : String) (p : Param) : Except Fault String :=
  (p.get "name").map fun name => if name.isTruthy then name.plain else fallback

/-- The declaration of a result. -/
def declareResult (fallback : String) (p : Param) : Except Fault Declared :=
  match p.type with
  | .error e => .error e
  | .ok type =>
    match typePredicate type with
    | .error e => .error e
    | .ok predicate => (resultName fallback p).map fun name => ⟨predicate, name⟩

/-- The name of the nameless result at a position; a lone result needs no number. -/
def genericName (count i : Nat) : String :=
  "result" ++ (if count > 1 then toString i else "")

/-- The results, each with the name that it falls back to. -/
def namedReturns (o : Operator) : List (String × Param) :=
  o.returns.zipIdx.map fun r => (genericName o.returns.length r.2, r.1)

/-- The declared operands. -/
def operands (o : Operator) : Except Fault Slots :=
  if o.isVararg then .ok (.variadic "operands")
  else (o.arguments.mapM declareArgument).map .listed

/-- The declared results. -/
def results (o : Operator) : Except Fault Slots :=
  if o.isVarret then .ok (.variadic "results")
  else (o.namedReturns.mapM fun r => declareResult r.1 r.2).map .listed

/-! ## The assembly format -/

/-- Items of an assembly format with a literal comma between neighbours. -/
def commaSeparated (items : List String) : String := Text.joinWith " `,` " items

/-- The operands in the assembly format, then their types. -/
def assemblyOperands (o : Operator) : Except Fault (String × String) :=
  if o.isVararg then .ok ("`(` $operands `)`", "type($operands)")
  else (o.arguments.mapM fun p : Param => p.getText "name").map fun names =>
    (commaSeparated (names.map ("$" ++ ·)),
      commaSeparated (names.map fun n => "type($" ++ n ++ ")"))

/-- The types of the results in the assembly format. -/
def assemblyResults (o : Operator) : Except Fault String :=
  if o.isVarret then .ok "type($results)"
  else (o.namedReturns.mapM fun r => resultName r.1 r.2).map fun names =>
    commaSeparated (names.map fun n => "type($" ++ n ++ ")")

/-- The assembly format: an arrow stands between the types if there are some on both sides. -/
def assemblyFormat (o : Operator) : Except Fault String :=
  match assemblyOperands o with
  | .error e => .error e
  | .ok (ins, inTypes) =>
    (assemblyResults o).map fun outTypes =>
      let arrow := if inTypes.isEmpty || outTypes.isEmpty then "" else " `->` "
      ins ++ " attr-dict `:` " ++ inTypes ++ arrow ++ outTypes

/-! ## The definition -/

/-- What a definition adds to its operator. -/
structure Extras where
  traits : List String
  hasFolder : Bool
  hasCanonicalizer : Bool
  deriving DecidableEq, Repr

/-- The definition of an operator, piece by piece. -/
def definition (o : Operator) (x : Extras) : List Piece := [
  .ok (printed 0 ("def " ++ o.definitionName ++ " : Torch_Op<" ++ quote o.opName ++ ", [")),
  .ok (printed 2 (Text.joinWith ",\n" x.traits)),
  .ok (printed 1 "]> \x7b"),
  .ok (printed 1 ("let summary = " ++ quote ("Generated op for `" ++ o.key ++ "`") ++ ";")),
  .ok (printed 1 "let arguments = (ins"),
  o.operands.map fun s => printed 2 s.text,
  .ok (printed 1 ");"),
  .ok (printed 1 "let results = (outs"),
  o.results.map fun s => printed 2 s.text,
  .ok (printed 1 ");"),
  (assemblyFormat o).map fun f => printed 1 ("let assemblyFormat = " ++ quote f ++ ";"),
  .ok (if x.hasFolder then printed 1 "let hasFolder = 1;" else ""),
  .ok (if x.hasCanonicalizer then printed 1 "let hasCanonicalizer = 1;" else ""),
  .ok (printed 0 "\x7d"),
  .ok (printed 0 "\n")]

/-- The definition of an operator whose list of traits may be missing, which is a fault where the
    traits would be written. -/
def definitionWith (o : Operator) (traits? : Option (List String))
    (hasFolder hasCanonicalizer : Bool) : List Piece :=
  match traits? with
  | some traits => o.definition ⟨traits, hasFolder, hasCanonicalizer⟩
  | none => (o.definition ⟨[], hasFolder, hasCanonicalizer⟩).take 1 ++ [.error .wrongType]

/-- Whether neither parameters nor results say that they alias anything. -/
def aliasFree (o : Operator) : Bool :=
  (o.arguments ++ o.returns).all fun p => (p.get? "alias_info").isNone

/-- Whether an operator works on values alone.  The aliasing of the unchecked cast is not on
    record, so that it is excluded by its key. -/
def hasValueSemantics (o : Operator) : Bool :=
  !o.isVararg && !o.isVarret && o.aliasFree && o.key != "prim::unchecked_cast : (t) -> (t)"

/-- Adds the traits that follow from the operator itself. -/
def deduceTraits (o : Operator) (traits : List String) : List String :=
  traits ++ ["AllowsTypeRefinement"] ++ (if o.hasValueSemantics then ["HasValueSemantics"] else [])

/-- The definition of an operator with the traits that follow from it added. -/
def fullDefinition (o : Operator) (x : Extras) : List Piece :=
  o.definition { x with traits := o.deduceTraits x.traits }

end DialectBench.Operator
