import DialectBench.Bench.Program
import DialectBench.Options
import DialectBench.Printed
import DialectBench.Text.Path

/-!
# The command that saves tests

The command runs every registered test, scripts a new program of it and saves both, with the notes
on the scripted program beside it, in a file of the test's name.  All tests are run before the
first file is written.
-/

namespace DialectBench.Assets

/-- A test as it is saved. -/
structure SavedTest (V : Type) where
  name : String
  trace : Trace V
  /-- The class of the scripted program. -/
  className : String
  notes : ModuleNotes

/-- The name of the file, beside the scripted program, that holds its notes. -/
def notesFile : String := "annotations.pkl"

/-- Runs a test and makes what is saved of it. -/
def save (t : Test World Program Datum) : Run World (SavedTest Datum) := do
  let trace ← t.golden
  let scripted := (← t.factory).script
  return ⟨t.name, trace, scripted.className, Notes.extract scripted⟩

/-- Runs tests and makes what is saved of them. -/
def saveAll : List (Test World Program Datum) → Run World (List (SavedTest Datum))
  | [] => return []
  | t :: ts => do
    let s ← save t
    return s :: (← saveAll ts)

/-- Reads the values of a saved test. -/
def SavedTest.map {V W : Type} (f : V → W) (s : SavedTest V) : SavedTest W :=
  { s with trace := s.trace.map (TraceItem.map f) }

/-- Writes saved tests into a directory, one after the other. -/
def write (directory : Option String) (isDirectory : String → Bool) :
    List (SavedTest Value) → Files (SavedTest Value)
  | [] => ⟨[], .ok ()⟩
  | s :: rest =>
    match directory with
    | none => ⟨[], .error .wrongType⟩
    | some d =>
      let path := Text.pathIn d (s.name ++ ".pkl")
      if !isDirectory (Text.parentOf path) then ⟨[], .error .noFile⟩
      else
        let more := write directory isDirectory rest
        ⟨(path, s) :: more.files, more.outcome⟩

/-- The switches of the command. -/
def switches : List Options.Switch := [Options.valued "output" ["--output_dir"]]

/-- Runs the command with its arguments.  It ends with an exit status only if it stops before it
    starts. -/
def command (registry : List (Test World Program Datum)) (isDirectory : String → Bool)
    (args : List String) : Except Options.Stop (Files (SavedTest Value)) := do
  let values ← Options.read switches args
  let (out, w) := saveAll registry World.fresh
  match out with
  | .error e => return ⟨[], .error e⟩
  | .ok saved =>
    return write (values.lookup "output") isDirectory (saved.map (SavedTest.map w.store.freeze))

end DialectBench.Assets
