import DialectBench.Decimal.Layout
import DialectBench.Text.Lines

/-!
# Tensors

A tensor holds an element type, a shape and its elements in row-major order, or it is the result
of an operator call of which only the expression is known.  Two tensors of the second sort are
close exactly when they are the same expression.  `Gauge` is what reports need of the library that
computes with tensors.
-/

namespace DialectBench

/-- An element of a tensor. -/
inductive Scalar where
  | bool (b : Bool)
  | int (n : Int)
  | float (x : Float)
  deriving Repr

/-- The element as a double; `true` counts one. -/
def Scalar.toFloat : Scalar → Float
  | .bool b => if b then 1.0 else 0.0
  | .int n => Float.ofInt n
  | .float x => x

/-- The expression of a result: an operator, or a constant, applied to expressions. -/
inductive Term where
  | node (head : String) (args : List Term)
  deriving Repr, BEq

/-- A tensor. -/
inductive Tensor where
  /-- Known contents: `data` lists the elements in row-major order. -/
  | dense (dtype : String) (shape : List Nat) (data : List Scalar)
  /-- The result of operator calls, of which only the expression is known. -/
  | result (term : Term)
  deriving Repr

namespace Tensor

/-- Brings an element into a single-precision tensor's element type. -/
def narrow (dtype : String) : Scalar → Scalar
  | .float x => .float (if dtype == "float32" then x.toFloat32.toFloat else x)
  | s => s

/-- A tensor with given contents, its elements rounded to its element type. -/
def ofData (dtype : String) (shape : List Nat) (data : List Scalar) : Tensor :=
  .dense dtype shape (data.map (narrow dtype))

/-- Text of a list of dimensions. -/
def shapeText (shape : List Nat) : String :=
  "[" ++ Text.joinWith ", " (shape.map toString) ++ "]"

/-- The shape, where it is known. -/
def shape? : Tensor → Option (List Nat)
  | .dense _ s _ => some s
  | .result _ => none

/-- The element type, where it is known. -/
def dtype? : Tensor → Option String
  | .dense d _ _ => some d
  | .result _ => none

/-- The elements as doubles. -/
def elements : Tensor → List Float
  | .dense _ _ xs => xs.map Scalar.toFloat
  | .result _ => []

/-- Relative tolerance of the closeness of elements. -/
def rtol : Float := 1e-3

/-- Absolute tolerance of the closeness of elements. -/
def atol : Float := 1e-7

/-- Closeness of two elements: equal infinities are close and other infinities are not, and not a
    number is close to itself only. -/
def closeElement (v g : Float) : Bool :=
  if v.isNaN || g.isNaN then v.isNaN && g.isNaN
  else if v.isInf || g.isInf then v == g
  else (v - g).abs ≤ atol + rtol * g.abs

/-- Closeness of two tensors of one shape and element type. -/
def close : Tensor → Tensor → Bool
  | .result s, .result t => s == t
  | t, u => (t.elements.zip u.elements).all fun p => closeElement p.1 p.2

/-- Folds from the left, with the first element as start; `none` of no elements. -/
def fold1? (f : Float → Float → Float) : List Float → Option Float
  | [] => none
  | x :: xs => some (xs.foldl f x)

/-- The smaller of two numbers; not a number wins. -/
def least (a b : Float) : Float := if a.isNaN || a ≤ b then a else b

/-- The greater of two numbers; not a number wins. -/
def greatest (a b : Float) : Float := if a.isNaN || b ≤ a then a else b

/-- A one-line description of the contents: shape, least, greatest and mean element. -/
def summary (t : Tensor) : String :=
  let xs := t.elements
  let show1 (x : Option Float) : String := Decimal.Layout.summary.write (x.getD 0.0)
  let mean := (fold1? (· + ·) xs).map (· / Float.ofNat xs.length)
  "Tensor with shape=" ++ shapeText (t.shape?.getD []) ++
    " min=" ++ show1 (fold1? least xs) ++
    ", max=" ++ show1 (fold1? greatest xs) ++
    ", mean=" ++ show1 mean

end Tensor

/-- What a tensor library says about tensors in reports: whether two of one shape and element type
    are close, and a line that describes one. -/
class Gauge where
  close : Tensor → Tensor → Bool
  summary : Tensor → String

/-- Tensors are compared element by element and described by their extremes and their mean. -/
instance Gauge.standard : Gauge := ⟨Tensor.close, Tensor.summary⟩

end DialectBench
