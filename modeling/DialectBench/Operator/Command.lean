import DialectBench.Operator.Files
import DialectBench.Options
import DialectBench.Text.Path

/-!
# The command that generates the definitions

The command writes the definitions of the operators of a registry into a directory, after a
description of the registry if one is asked for.
-/

namespace DialectBench.Operator

/-- The switches of the command. -/
def switches : List Options.Switch := [
  ⟨"directory", ["--torch_ir_dir"], true, none, true⟩,
  Options.valued "dump" ["--debug_registry_dump"]]

/-- Writes files up to the first whose directory does not exist. -/
def writeWithin (isDirectory : String → Bool) (files : List (String × List Piece)) : Files String :=
  let canOpen := fun (f : String × List Piece) => isDirectory (Text.parentOf f.1)
  let written := Files.ofPieces (files.takeWhile canOpen)
  match written.outcome with
  | .error _ => written
  | .ok () => if files.all canOpen then written else { written with outcome := .error .noFile }

/-- Writes the definitions for a registry. -/
def writeDefinitions (isDirectory : String → Bool) (directory : String) (dump : Option String)
    (r : Registry) : Files String :=
  writeWithin isDirectory <|
    (dump.map fun path => (path, [.ok r.dump])).toList ++
    (outputFiles r none).map fun f => (Text.pathIn directory f.1, f.2)

/-- Runs the command with its arguments on the records of a registry. -/
def command (records : List Record) (isDirectory : String → Bool) (args : List String) :
    Except Options.Stop (Files String) := do
  let values ← Options.read switches args
  match Registry.ofRecords records with
  | .error e => return ⟨[], .error e⟩
  | .ok r =>
    return writeDefinitions isDirectory ((values.lookup "directory").getD "")
      ((values.lookup "dump").filter fun d => !d.isEmpty) r

end DialectBench.Operator
