import DialectBench.Assets.Command
import DialectBench.Assets.Programs
import DialectBench.Operator.Command
import DialectBench.Operator.Signature
import DialectBench.Suite.Command

/-!
# The command line

The first argument names a command: `suite` runs the tests of the suite, `operators` generates
operator definitions for the signatures on standard input, and `assets` lists what saving the
larger tests would write.
-/

namespace DialectBench

/-- The lines of a stream. -/
partial def readLines (input : IO.FS.Stream) (lines : List String) : IO (List String) := do
  let line ← input.getLine
  if line.isEmpty then return lines.reverse
  readLines input (line.trimAsciiEnd.toString :: lines)

/-- Reports how a command ended and gives its exit status. -/
def conclude (outcome : Except Fault Nat) : IO UInt32 := do
  match outcome with
  | .ok status => return status.toUInt32
  | .error f =>
    IO.eprintln f.line
    return 1

/-- The surroundings without a compiler: compiled programs cannot be loaded. -/
def bareSurroundings : Suite.Surroundings Unit where
  toolchain := .planned "" "" ⟨none, .ok ""⟩ none none
  loaded := .error (.runtime "no compiler")
  scripts := []
  saved := []

/-- Runs the tests of the suite. -/
def runSuite (args : List String) : IO UInt32 := do
  let (out, _) := Suite.command Fault.line Suite.registry bareSurroundings args World.fresh
  IO.print out.text
  conclude out.outcome

/-- Generates operator definitions for the signatures on standard input. -/
def runOperators (args : List String) : IO UInt32 := do
  let lines ← readLines (← IO.getStdin) []
  let records := (lines.filter fun l => !l.isEmpty).map Operator.ofSignature
  match Operator.command records (fun _ => true) args with
  | .error stop => conclude (.ok stop.status)
  | .ok written =>
    for (path, text) in written.files do
      IO.FS.writeFile path text
    conclude (written.outcome.map fun () => 0)

/-- Lists the files that saving the larger tests would write. -/
def runAssets (args : List String) : IO UInt32 := do
  match Assets.loaded.1 with
  | .error f => conclude (.error f)
  | .ok known =>
    let tests := Assets.tests.map fun t => t.test.test .numbering known
    match Assets.command tests (fun _ => true) args with
    | .error stop => conclude (.ok stop.status)
    | .ok written =>
      for (path, _) in written.files do
        IO.println path
      conclude (written.outcome.map fun () => 0)

end DialectBench

/-- Runs the command that the first argument names. -/
def main (args : List String) : IO UInt32 :=
  match args with
  | "suite" :: rest => DialectBench.runSuite rest
  | "operators" :: rest => DialectBench.runOperators rest
  | "assets" :: rest => DialectBench.runAssets rest
  | _ => do
    IO.eprintln "usage: (suite | operators | assets) ARGUMENTS"
    return 2
