import DialectBench.Text.Lines

/-!
# Paths

Paths of files as texts, their parts divided by slashes.
-/

namespace DialectBench.Text

/-- A name within a directory. -/
def pathIn (directory name : String) : String :=
  if directory.isEmpty || directory.endsWith "/" then directory ++ name
  else directory ++ "/" ++ name

/-- The parts of a path. -/
def pathParts (path : String) : List String := split '/' path

/-- The directory that a path lies in, without slashes at its end. -/
def parentOf (path : String) : String :=
  joinWith "/" ((pathParts path).dropLast.reverse.dropWhile String.isEmpty).reverse

end DialectBench.Text
