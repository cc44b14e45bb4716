import DialectBench.Bench.Test
import DialectBench.Table

/-!
# Pass pipelines

Running a pipeline of passes over a module of the compiler, with a report if it fails: what the
passes wrote to the error stream, and a file that reproduces the failure.  Passes change the module
in place, also where they fail, so that the text for that file is taken before they run.  The error
stream is redirected while a pipeline runs and put back afterwards, however the run ends.
-/

namespace DialectBench.Pipeline

/-- A module inside the compiler. -/
structure Ir where
  debugName : Option String
  /-- The printed form, or the fault of printing it. -/
  asm : Except Fault String

/-- The module that a compiler starts from. -/
def Ir.empty : Ir := ⟨none, .ok ""⟩

/-- What reading the text of a pipeline does. -/
structure Reading where
  /-- What is written to the error stream. -/
  diagnostics : String
  outcome : Except Fault Unit

/-- What running passes over a module does. -/
structure Effect where
  /-- What is written to the error stream. -/
  diagnostics : String
  /-- The module that the passes leave behind, however they end. -/
  ir : Ir
  outcome : Except Fault Unit

/-- Where the error stream goes. -/
inductive Stderr where
  | console
  | buffer (text : String)
  deriving DecidableEq, Repr

/-- What is written to an error stream is kept only by a buffer. -/
def Stderr.write (s : Stderr) (text : String) : Stderr :=
  match s with
  | .console => .console
  | .buffer old => .buffer (old ++ text)

/-- The text in a buffer. -/
def Stderr.contents : Stderr → String
  | .console => ""
  | .buffer text => text

/-- The surroundings of the compiler. -/
structure Shop where
  /-- The pipelines run so far. -/
  attempted : List String
  /-- The files in the directory for temporary files. -/
  files : Table String String
  stderr : Stderr

/-- Surroundings in which nothing has happened. -/
def Shop.fresh : Shop := ⟨[], [], .console⟩

/-- The compiler at work on a module. -/
structure Desk where
  shop : Shop
  /-- The module as it is now. -/
  ir : Ir
  /-- The text that a stage has taken of its module for a report. -/
  kept : Option String

/-- The compiler before it works on a module. -/
def Desk.start (s : Shop) (ir : Ir) : Desk := ⟨s, ir, none⟩

/-- The compiler, as far as it can be seen from outside. -/
structure Toolchain where
  /-- The directory for temporary files. -/
  tempDir : String
  /-- What importing a program writes to the error stream. -/
  importDiagnostics : String
  /-- The imported program; a failed import says why. -/
  imported : Except String Ir
  /-- What reading the text of a pipeline does. -/
  reads : String → Reading
  /-- What a pipeline does to a module, given how many pipelines were run before. -/
  passes : Nat → String → Ir → Effect

/-- A compiler that reads every pipeline, leaves modules alone and writes the same diagnostics every
    time.  It fails at the import, if a reason for that is given, or at the pipeline with a given
    number. -/
def Toolchain.planned (tempDir diagnostics : String) (ir : Ir) (importError : Option String)
    (failing : Option Nat) : Toolchain where
  tempDir := tempDir
  importDiagnostics := diagnostics
  imported := match importError with
    | some reason => .error reason
    | none => .ok ir
  reads := fun _ => ⟨"", .ok ()⟩
  passes := fun before _ ir =>
    ⟨diagnostics, ir, if failing == some before then .error (.runtime "") else .ok ()⟩

/-- Changes the surroundings. -/
def onSurroundings (f : Shop → Shop) : Run Desk Unit :=
  modify fun d => { d with shop := f d.shop }

/-- Work with the error stream redirected to a buffer.  A fault is handled while the buffer can
    still be read, and then the stream is put back. -/
def redirected (body : Run Desk Unit) (handle : Fault → Run Desk Unit) : Run Desk Unit := fun d =>
  let (first, d₁) := body { d with shop := { d.shop with stderr := .buffer "" } }
  let (out, d₂) : Except Fault Unit × Desk := match first with
    | .ok () => (.ok (), d₁)
    | .error e => handle e d₁
  (out, { d₂ with shop := { d₂.shop with stderr := d.shop.stderr } })

/-- Writes to the error stream. -/
def writeDiagnostics (text : String) : Run Desk Unit :=
  onSurroundings fun s => { s with stderr := s.stderr.write text }

/-- Opens a file for temporary use by its full name below the directory for such files, dropping
    what it held; there are no directories below. -/
def openFile (file : String) : Run Desk Unit :=
  if file.toList.contains '/' then throw .noFile
  else onSurroundings fun s => { s with files := Table.set file "" s.files }

/-- Writes a text to an opened file. -/
def writeFile (file text : String) : Run Desk Unit :=
  onSurroundings fun s => { s with files := Table.set file text s.files }

/-- The name of a module in reports. -/
def Ir.name (ir : Ir) : String := ir.debugName.getD "UnnammedModule"

/-- A pipeline and what it is for. -/
structure Stage where
  pipeline : String
  description : String
  deriving DecidableEq, Repr

/-- The full name of a file in a directory; a name from the root stands for itself. -/
def fullName (dir file : String) : String :=
  if file.toList.head? == some '/' then file else dir ++ "/" ++ file

/-- The report of a failed stage. -/
def Stage.report (st : Stage) (diagnostics file : String) : String :=
  "\n" ++ st.description ++ " failed with the following diagnostics:\n" ++ diagnostics ++
    "\n\nError can be reproduced with:\n$ torch-mlir-opt -pass-pipeline='" ++ st.pipeline ++ "' " ++
    file ++ "\n"

/-- Takes the text of the module for a report. -/
def keepText : Run Desk Unit := do
  let text ← ((← get).ir.asm : Except Fault String)
  modify fun d => { d with kept := some text }

/-- Reads the text of a pipeline. -/
def readPipeline (t : Toolchain) (pipeline : String) : Run Desk Unit := do
  let reading := t.reads pipeline
  writeDiagnostics reading.diagnostics
  reading.outcome

/-- Runs the passes of a pipeline over the module, as the pipeline with a number. -/
def runPasses (t : Toolchain) (before : Nat) (pipeline : String) : Run Desk Unit := do
  let effect := t.passes before pipeline (← get).ir
  writeDiagnostics effect.diagnostics
  modify fun d => { d with ir := effect.ir }
  effect.outcome

/-- Reads a pipeline and runs it over the module. -/
def runPipeline (t : Toolchain) (pipeline : String) : Run Desk Unit := do
  let before := (← get).shop.attempted.length
  onSurroundings fun s => { s with attempted := s.attempted ++ [pipeline] }
  readPipeline t pipeline
  runPasses t before pipeline

/-- What becomes of a fault during a stage: a file with the text that was taken of the module, and a
    report.  If no text could be taken there is nothing to write, which is a fault of its own after
    the file was opened. -/
def reportFailure (t : Toolchain) (st : Stage) (name : String) : Run Desk Unit := do
  let file := name ++ ".mlir"
  openFile file
  match (← get).kept with
  | none => throw .unbound
  | some text =>
    writeFile file text
    throw (.general (st.report (← get).shop.stderr.contents (fullName t.tempDir file)))

/-- Runs a stage on the module. -/
def runStage (t : Toolchain) (st : Stage) : Run Desk Unit := do
  let name := (← get).ir.name
  modify fun d => { d with kept := none }
  redirected
    (do
      keepText
      runPipeline t st.pipeline)
    fun _ => reportFailure t st name

/-- Runs stages one after the other. -/
def runStages (t : Toolchain) : List Stage → Run Desk Unit
  | [] => return ()
  | st :: rest => do
    runStage t st
    runStages t rest

/-- The report of a failed import. -/
def importReport (reason diagnostics : String) : String :=
  "\nPyTorch TorchScript module -> torch-mlir Object Graph IR import failed with:\nException:\n" ++
    reason ++ "\nDiagnostics:\n" ++ diagnostics ++ "\n"

/-- Imports a program, which becomes the module. -/
def importProgram (t : Toolchain) : Run Desk Unit :=
  redirected
    (do
      writeDiagnostics t.importDiagnostics
      match t.imported with
      | .ok ir => modify fun d => { d with ir }
      | .error reason => throw (.general reason))
    fun e => do throw (.general (importReport (e.message?.getD "") (← get).shop.stderr.contents))

/-- Work on a new module, which gives the module as it is in the end. -/
def onNewModule (work : Run Desk Unit) : Run Shop Ir := fun s =>
  let (out, d) := work (.start s .empty)
  (out.map fun () => d.ir, d.shop)

end DialectBench.Pipeline
