import DialectBench.Value.Printer
import DialectBench.Fault

/-!
# Operators

An operator has a name in three parts, four flags, and parameters and results that are dictionaries
of which only some members are read.  Its key is a readable text of name and types; an operator
carries the proof that its key belongs to it.
-/

namespace DialectBench

/-- A parameter or result of an operator: a dictionary of members. -/
structure Param where
  fields : List (String × Value)
  deriving Repr

namespace Param

/-- A member. -/
def get? (p : Param) (field : String) : Option Value := p.fields.lookup field

/-- A member that has to be there. -/
def get (p : Param) (field : String) : Except Fault Value :=
  match p.get? field with
  | some v => .ok v
  | none => .error (.missingKey (Text.quoted field))

/-- A member that has to be a text. -/
def getText (p : Param) (field : String) : Except Fault String :=
  match p.get field with
  | .error e => .error e
  | .ok (.str s) => .ok s
  | .ok _ => .error .wrongType

/-- The type. -/
def type (p : Param) : Except Fault String := p.getText "type"

/-- The parameter as a value. -/
def toValue (p : Param) : Value := .dict (p.fields.map fun f => (.str f.1, f.2))

end Param

/-- An operator as it is found in a registry; any member may be missing. -/
structure Record where
  name? : Option (List String)
  isC10? : Option Bool
  isVararg? : Option Bool
  isVarret? : Option Bool
  isMutable? : Option Bool
  arguments? : Option (List Param)
  returns? : Option (List Param)
  deriving Repr

namespace Operator

/-- The types of a signature as a text, an ellipsis for a variable number. -/
def typesText (variadic : Bool) (ps : List Param) : Except Fault String :=
  if variadic then .ok "..."
  else (ps.mapM Param.type).map (Text.joinWith ", ")

/-- The overload as a suffix of the name. -/
def overloadSuffix (overload : String) : String :=
  if overload.isEmpty then "" else "." ++ overload

/-- The key of an operator with given parts. -/
def keyText (scope base overload : String) (isVararg isVarret : Bool)
    (arguments returns : List Param) : Except Fault String :=
  match typesText isVararg arguments with
  | .error e => .error e
  | .ok ins =>
    (typesText isVarret returns).map fun outs =>
      scope ++ "::" ++ base ++ overloadSuffix overload ++ " : (" ++ ins ++ ") -> (" ++ outs ++ ")"

end Operator

/-- An operator. -/
structure Operator where
  /-- The part of the name in front of the double colon. -/
  scope : String
  base : String
  overload : String
  isC10 : Bool
  isVararg : Bool
  isVarret : Bool
  isMutable : Bool
  arguments : List Param
  returns : List Param
  key : String
  keyed : Operator.keyText scope base overload isVararg isVarret arguments returns = .ok key

/-- Scope, base name and overload of an operator. -/
structure Triple where
  scope : String
  base : String
  overload : String
  deriving DecidableEq, Repr

namespace Operator

/-- The triple of an operator. -/
def triple (o : Operator) : Triple := ⟨o.scope, o.base, o.overload⟩

/-- Cuts a name at its first double colon. -/
def cutScope : List Char → List Char × List Char
  | [] => ([], [])
  | ':' :: ':' :: rest => ([], rest)
  | c :: rest =>
    let (scope, base) := cutScope rest
    (c :: scope, base)

/-- A member of a record that has to be there. -/
def required {α : Type} (field : String) : Option α → Except Fault α
  | some a => .ok a
  | none => .error (.missingKey (Text.quoted field))

/-- The operator with given parts. -/
def ofParts (scope base overload : String) (isC10 isVararg isVarret isMutable : Bool)
    (arguments returns : List Param) : Except Fault Operator :=
  match h : keyText scope base overload isVararg isVarret arguments returns with
  | .error e => .error e
  | .ok key => .ok ⟨scope, base, overload, isC10, isVararg, isVarret, isMutable, arguments, returns,
      key, h⟩

/-- The operator that a record describes; members are read in a fixed order. -/
def ofRecord (r : Record) : Except Fault Operator := do
  let name ← required "name" r.name?
  match name with
  | qualified :: overload :: _ =>
    let (scope, base) := cutScope qualified.toList
    let isC10 ← required "is_c10_op" r.isC10?
    let isVararg ← required "is_vararg" r.isVararg?
    let isVarret ← required "is_varret" r.isVarret?
    let isMutable ← required "is_mutable" r.isMutable?
    let arguments ← required "arguments" r.arguments?
    let returns ← required "returns" r.returns?
    ofParts (String.ofList scope) (String.ofList base) overload isC10 isVararg isVarret isMutable
      arguments returns
  | _ => .error .badIndex

end Operator

end DialectBench
