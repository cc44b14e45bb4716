import DialectBench.Text.Blank

/-!
# Lines of a text

A text is cut at every character that ends a line, not at the line feed alone; a carriage return
followed by a line feed is one ending.  A final ending starts no further line, so the empty text
has no lines at all.
-/

namespace DialectBench.Text

/-- The characters that end a line. -/
def isBreak (c : Char) : Bool :=
  let n := c.toNat
  (10 ≤ n && n ≤ 13) || (28 ≤ n && n ≤ 30) || n == 0x85 || n == 0x2028 || n == 0x2029

/-- One line: what it holds and the characters that end it (none for an unended last line). -/
structure Line where
  body : List Char
  ending : List Char
  deriving DecidableEq, Repr

/-- Puts a character in front of the first line. -/
def Line.push (c : Char) : List Line → List Line
  | [] => [⟨[c], []⟩]
  | l :: rest => ⟨c :: l.body, l.ending⟩ :: rest

/-- The lines of a text, each with its ending. -/
def linesOf : List Char → List Line
  | [] => []
  | '\r' :: '\n' :: rest => ⟨[], ['\r', '\n']⟩ :: linesOf rest
  | c :: rest => if isBreak c then ⟨[], [c]⟩ :: linesOf rest else Line.push c (linesOf rest)

/-- The lines of a text without their endings. -/
def lines (s : String) : List String :=
  (linesOf s.toList).map fun l => String.ofList l.body

/-- Puts `margin` in front of every line that holds more than white space; endings stay. -/
def indent (margin s : String) : String :=
  String.join <| (linesOf s.toList).map fun l =>
    let text := String.ofList (l.body ++ l.ending)
    if l.body.all isBlank && l.ending.all isBlank then text else margin ++ text

/-- Joins pieces with a separator between neighbours. -/
def joinWith (sep : String) : List String → String
  | [] => ""
  | [s] => s
  | s :: t :: rest => s ++ sep ++ joinWith sep (t :: rest)

/-- Cuts a list at every occurrence of a character; `n` occurrences give `n + 1` pieces. -/
def splitChars (sep : Char) : List Char → List (List Char)
  | [] => [[]]
  | c :: rest =>
    if c == sep then [] :: splitChars sep rest
    else match splitChars sep rest with
      | [] => [[c]]
      | piece :: pieces => (c :: piece) :: pieces

/-- Cuts a text at every occurrence of a character. -/
def split (sep : Char) (s : String) : List String :=
  (splitChars sep s.toList).map String.ofList

/-- A text written `n` times over. -/
def times (n : Nat) (s : String) : String :=
  String.join (List.replicate n s)

end DialectBench.Text
