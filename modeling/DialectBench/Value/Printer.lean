import DialectBench.Value.Basic
import DialectBench.Text.Quoted

/-!
# Texts of values

`Value.show` writes a value so that its kind can be seen: strings are quoted, lists stand in
brackets, tuples in parentheses (with a comma after a lone element) and dictionaries in braces.
`Value.plain` is the same but for a bare string, which it writes as it is.
-/

namespace DialectBench

/-- Text of a truth value. -/
def boolText (b : Bool) : String := if b then "True" else "False"

/-- Text of a part of a slice. -/
def sliceText (n : Option Int) : String :=
  match n with
  | none => "None"
  | some i => toString i

/-- Text of a symbol. -/
def Symbol.show : Symbol → String
  | .recorded _ path => Text.joinWith "." path
  | .name n => n
  | .ellipsis => "Ellipsis"
  | .slice a b c => "slice(" ++ sliceText a ++ ", " ++ sliceText b ++ ", " ++ sliceText c ++ ")"
  | .program c => c
  | .parser => "ArgumentParser"
  | .task => "DummyTask"
  | .settings fs =>
    "Namespace(" ++ Text.joinWith ", " (fs.map fun f => f.1 ++ "=" ++ toString f.2) ++ ")"

mutual

/-- Text of a value, strings quoted. -/
def Value.show : Value → String
  | .none => "None"
  | .bool b => boolText b
  | .int n => toString n
  | .float x => Decimal.Layout.plain.write x
  | .str s => Text.quoted s
  | .list xs => "[" ++ Text.joinWith ", " (Value.showList xs) ++ "]"
  | .tuple xs =>
    match Value.showList xs with
    | [x] => "(" ++ x ++ ",)"
    | ts => "(" ++ Text.joinWith ", " ts ++ ")"
  | .dict es => "\x7b" ++ Text.joinWith ", " (Value.showEntries es) ++ "\x7d"
  | .dtype n => "torch." ++ n
  | .odd .bytes => "b''"
  | .odd .set => "set()"
  | .odd .complex => "0j"
  | .tensor _ => "Tensor"
  | .array _ => "ndarray"
  | .symbol s => s.show

/-- Texts of values, strings quoted. -/
def Value.showList : List Value → List String
  | [] => []
  | x :: xs => x.show :: Value.showList xs

/-- Texts of dictionary entries. -/
def Value.showEntries : List (Value × Value) → List String
  | [] => []
  | (k, v) :: es => (k.show ++ ": " ++ v.show) :: Value.showEntries es

end

/-- Text of a value, a bare string as it is. -/
def Value.plain : Value → String
  | .str s => s
  | v => v.show

end DialectBench
