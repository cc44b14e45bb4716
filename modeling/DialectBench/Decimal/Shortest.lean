import DialectBench.Decimal.Exact

/-!
# Decimal digits of a double

Two ways to write a positive `m * 2 ^ q` in decimal.  `shortest` takes the fewest digits that read
back as the same double and, of those, the ones nearest to it; `significant` takes a given number
of digits, rounded to nearest.  Both work in integers throughout.
-/

namespace DialectBench.Decimal

/-- A decimal number `digits * 10 ^ exponent`. -/
structure Scientific where
  digits : Nat
  exponent : Int
  deriving DecidableEq, Repr

/-- How many decimal digits a number has; zero has none. -/
def digitCount (n : Nat) : Nat :=
  if n == 0 then 0 else (Nat.toDigits 10 n).length

/-- The exponent of the leading decimal digit of `num / den`, both positive. -/
def leading (num den : Nat) : Int :=
  if den ≤ num then (digitCount (num / den) : Int) - 1
  else -(digitCount ((den - 1) / num) : Int)

/-- A positive fraction with the open ends of the interval that rounds to it, all three over one
    denominator; `closed` says whether the ends belong to the interval. -/
structure Target where
  value : Nat
  low : Nat
  high : Nat
  den : Nat
  closed : Bool

/-- The interval of reals that round to `m * 2 ^ q`.  Below a power of two the neighbour is half
    as far away, except at the smallest exponent. -/
def Target.ofDouble (m : Nat) (q : Int) : Target :=
  let unit := Nat.pow 2 q.toNat
  let narrow := m == Nat.pow 2 52 && q != -1074
  { value := 4 * m * unit
    low := (if narrow then 4 * m - 1 else 4 * m - 2) * unit
    high := (4 * m + 2) * unit
    den := 4 * Nat.pow 2 (-q).toNat
    closed := m % 2 == 0 }

/-- Whether `num / den` lies in the interval, for `num` over the target's own denominator. -/
def Target.holds (t : Target) (num scale : Nat) : Bool :=
  if t.closed then t.low * scale ≤ num && num ≤ t.high * scale
  else t.low * scale < num && num < t.high * scale

/-- The points of the grid of `10 ^ k` next to the target that lie in its interval: the nearer one
    if both do, the even one of two equally near. -/
def Target.onGrid? (t : Target) (k : Int) : Option Nat :=
  let up := Nat.pow 10 k.toNat
  let scale := Nat.pow 10 (-k).toNat
  let d := t.value * scale / (t.den * up)
  let point (c : Nat) := c * t.den * up
  let lowOk := d != 0 && t.holds (point d) scale
  let highOk := t.holds (point (d + 1)) scale
  let below := t.value * scale - point d
  let above := point (d + 1) - t.value * scale
  if lowOk && highOk then
    if below < above then some d
    else if above < below then some (d + 1)
    else some (if d % 2 == 0 then d else d + 1)
  else if lowOk then some d
  else if highOk then some (d + 1)
  else none

/-- Drops the zeros at the end of the digits; `fuel` bounds how many. -/
def Scientific.strip : Nat → Scientific → Scientific
  | 0, s => s
  | fuel + 1, s =>
    if s.digits != 0 && s.digits % 10 == 0 then
      Scientific.strip fuel ⟨s.digits / 10, s.exponent + 1⟩
    else s

/-- The fewest digits that read back as `m * 2 ^ q`, for positive `m`. -/
def shortest (m : Nat) (q : Int) : Scientific :=
  let t := Target.ofDouble m q
  let e := leading t.value t.den
  let hit := (List.range 17).findSome? fun (n : Nat) =>
    let k : Int := e - (n : Int)
    (t.onGrid? k).map fun d => (⟨d, k⟩ : Scientific)
  (hit.getD ⟨0, 0⟩).strip 20

/-- The quotient rounded to nearest, a tie to the even neighbour. -/
def roundDiv (num den : Nat) : Nat :=
  let d := num / den
  let r := num % den
  if 2 * r < den then d
  else if den < 2 * r then d + 1
  else if d % 2 == 0 then d else d + 1

/-- The `count` leading digits of `m * 2 ^ q`, rounded to nearest, without zeros at the end. -/
def significant (count m : Nat) (q : Int) : Scientific :=
  let num := m * Nat.pow 2 q.toNat
  let den := Nat.pow 2 (-q).toNat
  let k : Int := leading num den - ((count - 1 : Nat) : Int)
  let d := roundDiv (num * Nat.pow 10 (-k).toNat) (den * Nat.pow 10 k.toNat)
  (⟨d, k⟩ : Scientific).strip (count + 1)

end DialectBench.Decimal
