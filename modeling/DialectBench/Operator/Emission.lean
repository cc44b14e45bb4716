import DialectBench.Operator.Definition

/-!
# Emissions

An operator is emitted with the traits of a list that its caller may hold.  The traits that follow
from the operator are put at the end of that very list, and the definition is written with what the
list then holds.  So an emission changes the list that it is given, and a later one that is given
the same list starts from what the earlier ones left in it.
-/

namespace DialectBench.Operator

/-- The lists of traits that callers hold, by number. -/
abbrev TraitLists := Nat → List String

/-- An emission of an operator. -/
structure Emission where
  operator : Operator
  /-- The number of the list that the caller gives, if it gives one. -/
  list : Option Nat
  hasFolder : Bool
  hasCanonicalizer : Bool

namespace Emission

/-- The traits that an emission starts from.  Where no list is given there is a new one, which
    nobody else holds. -/
def given (e : Emission) (held : TraitLists) : List String :=
  match e.list with
  | some l => held l
  | none => []

/-- Emits an operator: what is written, and the lists as they are afterwards. -/
def emit (e : Emission) (held : TraitLists) : Printed Unit × TraitLists :=
  let traits := e.operator.deduceTraits (e.given held)
  (.ofPieces (e.operator.definition ⟨traits, e.hasFolder, e.hasCanonicalizer⟩),
    fun l => if e.list = some l then traits else held l)

end Emission

/-- Emits operators one after the other.  A fault ends the emission in which it occurs. -/
def emitAll : List Emission → TraitLists → List (Printed Unit) × TraitLists
  | [], held => ([], held)
  | e :: es, held =>
    let (written, held') := e.emit held
    let (others, held'') := emitAll es held'
    (written :: others, held'')

end DialectBench.Operator
