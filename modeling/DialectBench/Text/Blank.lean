/-!
# White space

The characters that count as blank when a line is trimmed or tested for being empty: the ASCII
controls that separate text, the space, and the separators of Unicode.
-/

namespace DialectBench.Text

/-- White space: tab to carriage return, the four information separators, the space, next line,
    no-break space, and the Unicode space, line and paragraph separators. -/
def isBlank (c : Char) : Bool :=
  let n := c.toNat
  (9 ≤ n && n ≤ 13) || (28 ≤ n && n ≤ 32) || n == 0x85 || n == 0xa0 || n == 0x1680 ||
    (0x2000 ≤ n && n ≤ 0x200a) || n == 0x2028 || n == 0x2029 || n == 0x202f || n == 0x205f ||
    n == 0x3000

/-- Drops the white space at the end. -/
def trimEnd (cs : List Char) : List Char :=
  (cs.reverse.dropWhile isBlank).reverse

end DialectBench.Text
