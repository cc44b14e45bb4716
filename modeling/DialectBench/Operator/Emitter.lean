import DialectBench.Fault
import DialectBench.Text.Lines

/-!
# Indented text

Writing lines at a level of indentation, and the two literal forms of the generated files: a quoted
string and a block of documentation between `[{` and `}]`.
-/

namespace DialectBench.Operator

/-- The margin of a level; a level below zero has none. -/
def margin (level : Int) : String := Text.times level.toNat "  "

/-- Every line of a text at a level, each ended by a line feed. -/
def printed (level : Int) (s : String) : String :=
  String.join ((Text.lines s).map fun l => margin level ++ l ++ "\n")

/-- Puts two backslashes in front of every double quote. -/
def escapeQuotes : List Char → List Char
  | [] => []
  | '"' :: cs => '\\' :: '\\' :: '"' :: escapeQuotes cs
  | c :: cs => c :: escapeQuotes cs

/-- A text as a quoted string. -/
def quote (s : String) : String := "\"" ++ String.ofList (escapeQuotes s.toList) ++ "\""

/-- Drops the closing delimiters of documentation blocks, reading once from the left. -/
def dropClosers : List Char → List Char
  | [] => []
  | '\x7d' :: ']' :: cs => dropClosers cs
  | c :: cs => c :: dropClosers cs

/-- A text as a block of documentation at a level: lines are trimmed at their ends and indented. -/
def docBlock (s : String) (level : Int) : String :=
  let body := Text.joinWith "\n" <| (Text.linesOf (dropClosers s.toList)).map fun l =>
    String.ofList (Text.trimEnd l.body)
  "[\x7b\n" ++ Text.indent (margin level ++ "  ") body ++ "\n" ++ margin level ++ "\x7d]"

/-- The state of a writer: the current level and the steps of the scopes that are open, innermost
    first. -/
structure Emitter where
  level : Int
  opened : List Int
  deriving DecidableEq, Repr

namespace Emitter

/-- A writer at level zero. -/
def start : Emitter := ⟨0, []⟩

/-- Opens a scope that is `step` levels deeper. -/
def enter (e : Emitter) (step : Int) : Emitter := ⟨e.level + step, step :: e.opened⟩

/-- Closes the innermost scope.  The level is taken back even if it comes out below zero, which is
    a fault. -/
def exit (e : Emitter) : Emitter × Option Fault :=
  match e.opened with
  | [] => (e, some .badIndex)
  | step :: rest =>
    let level := e.level - step
    (⟨level, rest⟩, if level < 0 then some (.assertion "Unbalanced indentation") else none)

end Emitter

end DialectBench.Operator
