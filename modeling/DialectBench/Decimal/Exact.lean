/-!
# The exact value of a double

A double is not a number, an infinity, or an integer multiple of a power of two.  `Exact` names
these cases, so that order and equality of numbers can be said on integers: an `Int` and a `Float`
compare by what they stand for, and no rounding enters.
-/

namespace DialectBench.Decimal

/-- What a double stands for: `finite negative m q` is `m * 2 ^ q`, negated if `negative`. -/
inductive Exact where
  | nan
  | infinite (negative : Bool)
  | finite (negative : Bool) (m : Nat) (q : Int)
  deriving DecidableEq, Repr

/-- The exact value of a double, read off its bits. -/
def Exact.ofFloat (x : Float) : Exact :=
  let bits : Nat := x.toBits.toNat
  let negative := bits / Nat.pow 2 63 % 2 == 1
  let exponent : Nat := bits / Nat.pow 2 52 % Nat.pow 2 11
  let fraction : Nat := bits % Nat.pow 2 52
  if exponent == 2047 then
    if fraction == 0 then .infinite negative else .nan
  else if exponent == 0 then .finite negative fraction (-1074)
  else .finite negative (Nat.pow 2 52 + fraction) ((exponent : Int) - 1075)

/-- A number that has a place on the line: `ratio n k` is `n / 2 ^ k`. -/
inductive Number where
  | below
  | ratio (num : Int) (scale : Nat)
  | above
  deriving DecidableEq, Repr

/-- The place of a double on the line; not a number has none. -/
def Number.ofFloat? (x : Float) : Option Number :=
  match Exact.ofFloat x with
  | .nan => none
  | .infinite negative => some (if negative then .below else .above)
  | .finite negative m q =>
    let n : Int := if negative then -m else m
    some (if 0 ≤ q then .ratio (n * Nat.pow 2 q.toNat) 0 else .ratio n (-q).toNat)

/-- The place of an integer on the line. -/
def Number.ofInt (n : Int) : Number := .ratio n 0

/-- Strict order on the line. -/
def Number.lt : Number → Number → Bool
  | .below, .below => false
  | .below, _ => true
  | _, .below => false
  | .above, _ => false
  | .ratio _ _, .above => true
  | .ratio a j, .ratio b k => decide (a * Nat.pow 2 k < b * Nat.pow 2 j)

/-- The same place on the line. -/
def Number.same : Number → Number → Bool
  | .below, .below => true
  | .above, .above => true
  | .ratio a j, .ratio b k => decide (a * Nat.pow 2 k = b * Nat.pow 2 j)
  | _, _ => false

end DialectBench.Decimal
