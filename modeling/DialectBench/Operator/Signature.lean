import DialectBench.Operator.Basic

/-!
# Signatures

A one-line notation for records of operators: `scope::name.overload(type name; type name) ->
(type name)`.  An ellipsis stands for any number of parameters or results, and an exclamation mark
in front says that the operator changes its first parameter, or its first result if it has none.
-/

namespace DialectBench.Operator

/-- Cuts a list at the first occurrence of a pattern, which is dropped. -/
def cutAt (pattern : List Char) : List Char → List Char × List Char
  | [] => ([], [])
  | c :: cs =>
    if pattern.isPrefixOf (c :: cs) then ([], (c :: cs).drop pattern.length)
    else
      let (before, after) := cutAt pattern cs
      (c :: before, after)

/-- Cuts a list at every occurrence of a semicolon with a blank behind it. -/
def cutParams : List Char → List (List Char)
  | [] => [[]]
  | ';' :: ' ' :: cs => [] :: cutParams cs
  | c :: cs =>
    match cutParams cs with
    | [] => [[c]]
    | piece :: pieces => (c :: piece) :: pieces

/-- A type and a name; the name is what follows the last blank. -/
def readParam (cs : List Char) : Param :=
  let name := (cs.reverse.takeWhile (· != ' ')).reverse
  let type := ((cs.reverse.dropWhile (· != ' ')).drop 1).reverse
  ⟨[("name", .str (String.ofList name)), ("type", .str (String.ofList type))]⟩

/-- A list of parameters; `none` for an ellipsis. -/
def readParams (cs : List Char) : Option (List Param) :=
  if cs == "...".toList then none
  else if cs.isEmpty then some []
  else some ((cutParams cs).map readParam)

/-- Marks the first parameter as changed by the operator. -/
def markFirst : List Param → List Param
  | [] => []
  | p :: ps => ⟨("alias_info", .dict []) :: p.fields⟩ :: ps

/-- The record that a signature stands for. -/
def ofSignature (s : String) : Record :=
  let (mutable, cs) := match s.toList with
    | '!' :: cs => (true, cs)
    | cs => (false, cs)
  let (head, rest) := cutAt ['('] cs
  let (ins, outs) := cutAt ") -> (".toList rest
  let (name, overload) := cutAt ['.'] head
  let arguments := readParams ins
  let returns := readParams outs.dropLast
  let ins := arguments.getD []
  let outs := returns.getD []
  { name? := some [String.ofList name, String.ofList overload]
    isC10? := some true
    isVararg? := some arguments.isNone
    isVarret? := some returns.isNone
    isMutable? := some mutable
    arguments? := some (if mutable then markFirst ins else ins)
    returns? := some (if mutable && ins.isEmpty then markFirst outs else outs) }

end DialectBench.Operator
