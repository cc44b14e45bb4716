import DialectBench.Text.Lines

/-!
# Error contexts

The chain of places, outermost first, in which an error is reported.
-/

namespace DialectBench

/-- A chain of places, outermost first. -/
structure Context where
  places : List String
  deriving DecidableEq, Repr

namespace Context

/-- No place at all. -/
def empty : Context := ⟨[]⟩

/-- A place inside the last one. -/
def chain (c : Context) (place : String) : Context := ⟨c.places ++ [place]⟩

/-- Several places, each inside the one before. -/
def chainAll (c : Context) (places : List String) : Context := ⟨c.places ++ places⟩

/-- The report of an error: the places, one a line, and then the error. -/
def format (c : Context) (error : String) : String :=
  "@ " ++ Text.joinWith "\n@ " c.places ++ "\n" ++ "ERROR: " ++ error

end Context

end DialectBench
