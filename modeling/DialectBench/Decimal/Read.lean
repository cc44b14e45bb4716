/-!
# Reading decimal texts

The double nearest to a decimal text: an optional sign, digits with an optional point, and an
optional exponent, or one of the words `nan` and `inf`.
-/

namespace DialectBench.Decimal

/-- The number that a list of decimal digits writes. -/
def digitsValue (ds : List Char) : Nat :=
  ds.foldl (fun n d => 10 * n + (d.toNat - 48)) 0

/-- The leading decimal digits and what follows them. -/
def takeDigits (cs : List Char) : List Char × List Char :=
  (cs.takeWhile Char.isDigit, cs.dropWhile Char.isDigit)

/-- A sign, if there is one, and what follows it. -/
def takeSign : List Char → Bool × List Char
  | '-' :: rest => (true, rest)
  | '+' :: rest => (false, rest)
  | cs => (false, cs)

/-- The exponent that stands at the end of a number; `0` if there is none. -/
def readExponent? : List Char → Option Int
  | [] => some 0
  | c :: rest =>
    if c == 'e' || c == 'E' then
      let (negative, ds) := takeSign rest
      if ds.isEmpty || !ds.all Char.isDigit then none
      else some (if negative then -(digitsValue ds : Int) else digitsValue ds)
    else none

/-- An unsigned decimal text. -/
def readUnsigned? (cs : List Char) : Option Float :=
  let (whole, rest) := takeDigits cs
  let (frac, rest) := match rest with
    | '.' :: r => takeDigits r
    | r => ([], r)
  if whole.isEmpty && frac.isEmpty then none
  else (readExponent? rest).map fun e =>
    let shift : Int := e - (frac.length : Int)
    Float.ofScientific (digitsValue (whole ++ frac)) (shift < 0) shift.natAbs

/-- The double nearest to a decimal text. -/
def read? (s : String) : Option Float :=
  let (negative, cs) := takeSign s.toList
  let x := if cs == ['n', 'a', 'n'] then some (0.0 / 0.0)
    else if cs == ['i', 'n', 'f'] then some (1.0 / 0.0)
    else readUnsigned? cs
  x.map fun v => if negative then -v else v

end DialectBench.Decimal
