import DialectBench.Pipeline.Basic

/-!
# Lowering paths

The stages through which a program goes on its way to the machine.
-/

namespace DialectBench.Pipeline

/-- The forms in which a backend takes programs. -/
inductive Dialect where
  | linalg
  | tosa
  deriving DecidableEq, Repr

/-- From the imported program to the form that all backends start from. -/
def frontStage : Stage :=
  ⟨"torchscript-module-to-torch-backend-pipeline",
   "Lowering TorchScript Object Graph IR -> Torch Backend IR"⟩

/-- From there to the form that a backend takes. -/
def Dialect.stage : Dialect → Stage
  | .linalg =>
    ⟨"torch-backend-to-linalg-on-tensors-backend-pipeline",
     "Lower Torch Backend IR -> Linalg-on-Tensors Backend IR"⟩
  | .tosa =>
    ⟨"torch-backend-to-tosa-backend-pipeline", "Lower Torch Backend IR -> TOSA Backend IR"⟩

/-- The passes of the reference backend. -/
def referencePasses : List String := [
  "tensor-constant-bufferize",
  "builtin.func(scf-bufferize)",
  "builtin.func(linalg-bufferize)",
  "builtin.func(std-bufferize)",
  "builtin.func(tensor-bufferize)",
  "func-bufferize",
  "builtin.func(finalizing-bufferize)",
  "refback-munge-calling-conventions",
  "builtin.func(convert-linalg-to-loops)",
  "builtin.func(lower-affine)",
  "builtin.func(convert-scf-to-std)",
  "builtin.func(refback-expand-ops-for-llvm)",
  "builtin.func(arith-expand)",
  "builtin.func(convert-math-to-llvm)",
  "convert-memref-to-llvm",
  "convert-std-to-llvm",
  "reconcile-unrealized-casts"]

/-- The stage of the reference backend. -/
def referenceStage : Stage :=
  ⟨Text.joinWith "," referencePasses, "Lowering Linalg-on-Tensors IR to LLVM with RefBackend"⟩

/-- The stages of the backend that takes a form. -/
def Dialect.backendStages : Dialect → List Stage
  | .linalg => [referenceStage]
  | .tosa =>
    [⟨"builtin.func(tosa-to-linalg)", "Lowering TOSA to Linalg-on-Tensors"⟩, referenceStage]

/-- Imports a program and brings it into the form that a backend takes. -/
def lower (t : Toolchain) (d : Dialect) : Run Desk Unit := do
  importProgram t
  runStages t [frontStage, d.stage]

end DialectBench.Pipeline
