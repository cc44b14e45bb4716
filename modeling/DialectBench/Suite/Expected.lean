/-!
# Expected failures

The tests that are expected to fail, by what they are lowered for.
-/

namespace DialectBench.Suite

/-- Tests whose programs cannot be lowered at all. -/
def unloweredTests : List String := ["QuantizedMLP_basic", "IouOfModule_basic"]

/-- Tests that pass when they are lowered to the tensor operator set. -/
def tosaPassing : List String := [
  "ElementwiseUnaryModule_basic",
  "ElementwiseBinaryModule_basic",
  "ElementwiseSigmoidModule_basic",
  "ElementwiseReluModule_basic",
  "ElementwiseFloorModule_basic",
  "ElementwiseLogModule_basic",
  "TanhBackward_basic",
  "ElementwiseAddModule_basic",
  "ReturnThreeTensorFloat32_basic",
  "AddCMulModule_basic",
  "AddCDivModule_basic",
  "SqueezeModule_broadcast",
  "BoolTensorReturnFalseModule_basic",
  "BoolTensorReturnTrueModule_basic",
  "BoolTensorReturnMixedModule_basic",
  "ElementwiseRsqrtModule_basic",
  "SqueezeModule_static",
  "SqueezeModule_noUnitDim",
  "SqueezeModule_allUnitDim"]

/-- Those of the names of tests that are expected to fail there. -/
def tosaFailing (names : List String) : List String :=
  names.filter fun n => !tosaPassing.contains n

end DialectBench.Suite
