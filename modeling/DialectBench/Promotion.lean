/-!
# Type promotion

The element type of a result from those of the operands.  Operands fall into three tiers: tensors
with dimensions, tensors without, and plain numbers.  Within a tier types are promoted to a common
type; a lower tier changes the type of a higher one only if it is of a higher category.
-/

namespace DialectBench

/-- The element types; `undefined` stands for none. -/
inductive ElementType where
  | byte
  | char
  | short
  | int
  | long
  | half
  | float
  | double
  | complexHalf
  | complexFloat
  | complexDouble
  | bool
  | qint8
  | quint8
  | qint32
  | bfloat16
  | quint4x2
  | quint2x4
  | undefined
  deriving DecidableEq, Repr

namespace ElementType

/-- The element types in the order of their numbers. -/
def all : List ElementType := [
  byte, char, short, int, long, half, float, double, complexHalf, complexFloat, complexDouble, bool,
  qint8, quint8, qint32, bfloat16, quint4x2, quint2x4, undefined]

/-- The element type with a number. -/
def ofNumber? (n : Nat) : Option ElementType := all[n]?

/-- The number of an element type. -/
def number (t : ElementType) : Nat := all.idxOf t

/-- Quantized types. -/
def isQuantized : ElementType → Bool
  | qint8 | quint8 | qint32 | quint4x2 | quint2x4 => true
  | _ => false

/-- Floating-point types. -/
def isFloating : ElementType → Bool
  | double | float | half | bfloat16 => true
  | _ => false

/-- Complex types. -/
def isComplex : ElementType → Bool
  | complexHalf | complexFloat | complexDouble => true
  | _ => false

/-- The rank of a type within the integers, truth values lowest.  The two types of eight bits have
    the same rank. -/
def integerRank? : ElementType → Option Nat
  | bool => some 0
  | byte => some 1
  | char => some 1
  | short => some 2
  | int => some 3
  | long => some 4
  | _ => none

/-- The common type of two integer types: the one of higher rank.  The two types of eight bits meet
    in the type of sixteen. -/
def joinIntegers (a b : ElementType) : ElementType :=
  match a, b with
  | byte, char | char, byte => short
  | _, _ =>
    match a.integerRank?, b.integerRank? with
    | some m, some n => if m < n then b else a
    | _, _ => undefined

/-- The common type of two floating-point types.  The two types of sixteen bits meet in the type of
    thirty-two. -/
def joinFloats : ElementType → ElementType → ElementType
  | double, _ | _, double => double
  | half, half => half
  | bfloat16, bfloat16 => bfloat16
  | _, _ => float

/-- The common type of a complex type, named first, and any type that is not quantized. -/
def joinComplex : ElementType → ElementType → ElementType
  | complexDouble, _ => complexDouble
  | complexFloat, double | complexFloat, complexDouble => complexDouble
  | complexFloat, _ => complexFloat
  | complexHalf, b => if b.isComplex then b else undefined
  | _, _ => undefined

/-- The common type of two types that are neither quantized nor undefined.  No type is known for
    the short complex type with a type that is not complex. -/
def join (a b : ElementType) : ElementType :=
  if a.isComplex then joinComplex a b
  else if b.isComplex then joinComplex b a
  else if a.isFloating && b.isFloating then joinFloats a b
  else if a.isFloating then a
  else if b.isFloating then b
  else joinIntegers a b

/-- Promotes two types to a common one; a quantized type goes only with itself. -/
def promote (a b : ElementType) : Option ElementType :=
  if a == undefined || b == undefined then some undefined
  else if a.isQuantized && a == b then some a
  else if a.isQuantized || b.isQuantized then none
  else some (join a b)

/-- Promotes two types of which an undefined one does not count. -/
def promoteSkip (a b : ElementType) : Option ElementType :=
  if a == undefined then some b
  else if b == undefined then some a
  else promote a b

/-- The type of a higher tier, as far as a lower tier changes it. -/
def combine (higher lower : ElementType) : Option ElementType :=
  if higher.isComplex then some higher
  else if !lower.isComplex && higher.isFloating then some higher
  else if higher == bool || lower.isFloating || lower.isComplex then promoteSkip higher lower
  else if higher != undefined then some higher
  else some lower

end ElementType

/-- The common types of the three tiers of operands. -/
structure TierTypes where
  dimensioned : ElementType
  wrapped : ElementType
  zeroDim : ElementType
  deriving DecidableEq, Repr

/-- The type of the result. -/
def TierTypes.result (t : TierTypes) : Option ElementType :=
  match ElementType.combine t.zeroDim t.wrapped with
  | none => none
  | some lower => ElementType.combine t.dimensioned lower

/-- The tiers of operands. -/
inductive Tier where
  | dimensioned
  | wrapped
  | zeroDim
  deriving DecidableEq, Repr

/-- The type of an operand and the tier that it belongs to. -/
structure OperandType where
  tier : Tier
  type : ElementType
  deriving DecidableEq, Repr

namespace TierTypes

/-- The type of a tier. -/
def get (t : TierTypes) : Tier → ElementType
  | .dimensioned => t.dimensioned
  | .wrapped => t.wrapped
  | .zeroDim => t.zeroDim

/-- Sets the type of a tier. -/
def set (t : TierTypes) (e : ElementType) : Tier → TierTypes
  | .dimensioned => { t with dimensioned := e }
  | .wrapped => { t with wrapped := e }
  | .zeroDim => { t with zeroDim := e }

/-- The types before any operand is looked at. -/
def start : TierTypes := ⟨.undefined, .undefined, .undefined⟩

/-- Promotes the type of an operand into the type of its tier. -/
def add (t : TierTypes) (o : OperandType) : Option TierTypes :=
  ((t.get o.tier).promoteSkip o.type).map fun e => t.set e o.tier

/-- The types of operands that are looked at one after the other. -/
def ofOperands (os : List OperandType) : Option TierTypes := os.foldlM add start

/-- Promotes the types of two groups of operands, tier by tier. -/
def merge (s t : TierTypes) : Option TierTypes := do
  return ⟨← s.dimensioned.promoteSkip t.dimensioned, ← s.wrapped.promoteSkip t.wrapped,
    ← s.zeroDim.promoteSkip t.zeroDim⟩

end TierTypes

end DialectBench
