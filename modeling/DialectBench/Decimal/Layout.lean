import DialectBench.Decimal.Shortest

/-!
# Decimal texts of doubles

How the digits of a double are laid out.  The exponent of the leading digit decides between
positional text, which always shows a digit after the point, and text with an exponent of at least
two digits.  Two layouts are in use: `plain` for values and `summary` for the statistics of a
tensor, which are rounded to four digits and always signed.
-/

namespace DialectBench.Decimal

/-- A layout of decimal numbers. -/
structure Layout where
  /-- From this exponent of the leading digit on, the exponent is written out. -/
  large : Int
  /-- Whether a positive number shows its sign. -/
  plus : Bool
  /-- The number of digits to round to; `none` for the shortest text that reads back. -/
  digits : Option Nat

/-- Values: shortest digits, exponents from `10 ^ 16` on. -/
def Layout.plain : Layout := ⟨16, false, none⟩

/-- Statistics: signed, four digits, exponents from `10 ^ 3` on. -/
def Layout.summary : Layout := ⟨3, true, some 4⟩

/-- The smallest exponent of the leading digit that is written positionally. -/
def smallest : Int := -4

/-- Positional text of digits whose first one counts `10 ^ e`. -/
def positional (ds : List Char) (e : Int) : List Char :=
  if 0 ≤ e then
    let n := e.toNat + 1
    let whole := ds.take n ++ List.replicate (n - ds.length) '0'
    let rest := ds.drop n
    whole ++ '.' :: (if rest.isEmpty then ['0'] else rest)
  else '0' :: '.' :: (List.replicate ((-e).toNat - 1) '0' ++ ds)

/-- Text with an exponent. -/
def withExponent (ds : List Char) (e : Int) : List Char :=
  let es := Nat.toDigits 10 e.natAbs
  let mantissa := match ds with
    | [] => ['0']
    | [d] => [d]
    | d :: rest => d :: '.' :: rest
  mantissa ++ ['e', if e < 0 then '-' else '+'] ++ List.replicate (2 - es.length) '0' ++ es

/-- Text of an unsigned decimal number. -/
def Layout.unsigned (l : Layout) (s : Scientific) : List Char :=
  if s.digits == 0 then ['0', '.', '0']
  else
    let ds := Nat.toDigits 10 s.digits
    let e := s.exponent + ds.length - 1
    if smallest ≤ e && e < l.large then positional ds e else withExponent ds e

/-- The digits that a layout shows of `m * 2 ^ q`. -/
def Layout.scientific (l : Layout) (m : Nat) (q : Int) : Scientific :=
  if m == 0 then ⟨0, 0⟩
  else match l.digits with
    | none => shortest m q
    | some n => significant n m q

/-- The sign that a layout shows. -/
def Layout.sign (l : Layout) (negative : Bool) : List Char :=
  if negative then ['-'] else if l.plus then ['+'] else []

/-- Text of a double. -/
def Layout.write (l : Layout) (x : Float) : String :=
  String.ofList <| match Exact.ofFloat x with
    | .nan => l.sign false ++ ['n', 'a', 'n']
    | .infinite negative => l.sign negative ++ ['i', 'n', 'f']
    | .finite negative m q => l.sign negative ++ l.unsigned (l.scientific m q)

end DialectBench.Decimal
