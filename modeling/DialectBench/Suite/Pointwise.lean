import DialectBench.Suite.Basic

/-!
# Tests of operators on elements

Operators that act on each element alone, with and without broadcasting.
-/

namespace DialectBench.Suite

/-- Operators of one, two and three tensors, with broadcasting. -/
def arityTests : List SuiteTest := [
  { name := "ElementwiseUnaryModule_basic"
    program := {
      className := "ElementwiseUnaryModule"
      params := [("a", f32 [-1, -1])]
      result := torch "tanh" [.var "a"] }
    steps := [forward [rand [3, 4]]] },
  { name := "ElementwiseBinaryModule_basic"
    program := {
      className := "ElementwiseBinaryModule"
      params := [("a", f32 [-1, -1]), ("b", f32 [-1])]
      result := .var "a" * .var "b" }
    steps := [forward [rand [3, 4], rand [4]]] },
  { name := "ElementwiseTernaryModule_basic"
    program := {
      className := "ElementwiseTernaryModule"
      params := [("a", f32 [-1, -1, -1]), ("b", f32 [-1, -1]), ("c", f32 [-1])]
      result := torch "lerp" [.var "a", .var "b", .var "c"] }
    steps := [forward [rand [3, 4, 5], rand [4, 5], rand [5]]] },
  { name := "ElementwiseWhereSelfModule_basic"
    program := {
      className := "ElementwiseWhereSelfModule"
      params := [("a", f32 [-1, -1, -1]), ("b", f32 [-1, -1]), ("c", f32 [-1])]
      result := torch "where" [operator ">" (.var "a") (float 0.5), .var "b", .var "c"] }
    steps := [forward [rand [3, 4, 5], rand [4, 5], rand [5]]] },
  { name := "ElementwiseAddModule_basic"
    program := {
      className := "ElementwiseAddModule"
      params := [("a", f32 [-1]), ("b", f32 [])]
      result := .var "a" + .var "b" }
    steps := [forward [rand [4], rand []]] },
  { name := "ElementwiseUnsqueezeBroadcastModule_basic"
    program := {
      className := "ElementwiseUnsqueezeBroadcastModule"
      params := [("a", f32 [-1]), ("b", f32 [])]
      result := .var "a" * method "unsqueeze" (.var "b") [int 0] }
    steps := [forward [rand [4], rand []]] },
  { name := "ElementwiseUnsqueezeNegDimsModule_basic"
    program := {
      className := "ElementwiseUnsqueezeNegDimsModule"
      params := [("a", f32 [-1, -1])]
      result := torch "unsqueeze" [.var "a", int (-3)] }
    steps := [forward [rand [4, 3]]] },
  { name := "ElementwiseFlattenBroadcastModule_basic"
    program := {
      className := "ElementwiseFlattenBroadcastModule"
      params := [("a", f32 [-1]), ("b", f32 [])]
      result := .var "a" * method "flatten" (.var "b") [int (-1), int (-1)] }
    steps := [forward [rand [6], rand []]] }
]

/-- Activation functions, and the smaller and the greater of two tensors. -/
def activationTests : List SuiteTest := [
  { name := "ElementwiseReluModule_basic"
    program := {
      className := "ElementwiseReluModule"
      params := [("x", f32 [-1, -1])]
      result := torch "relu" [.var "x"] }
    steps := [forward [rand [4, 2] - float 0.5]] },
  { name := "ElementwiseLeakyReluModule_basic"
    program := {
      className := "ElementwiseLeakyReluModule"
      params := [("x", f32 [-1, -1])]
      result := torchWith "ops.aten.leaky_relu" [.var "x"] [("negative_slope", float 0.1)] }
    steps := [forward [rand [4, 2] - float 0.5]] },
  { name := "ElementwiseGeluModule_basic"
    program := {
      className := "ElementwiseGeluModule"
      init := [.setField "gelu" (torch "nn.GELU" [])]
      params := [("x", f32 [-1, -1])]
      result := layer "gelu" (.var "x") }
    steps := [forward [int 2 * rand [5, 3] - float 0.5]] },
  { name := "ElementwiseSigmoidModule_basic"
    program := {
      className := "ElementwiseSigmoidModule"
      params := [("x", f32 [-1, -1])]
      result := torch "sigmoid" [.var "x"] }
    steps := [forward [rand [3, 5]]] },
  { name := "ElementwiseMinimumModule_basic"
    program := {
      className := "ElementwiseMinimumModule"
      params := [("x", f32 [-1, -1]), ("y", f32 [-1, -1])]
      result := torch "minimum" [.var "x", .var "y"] }
    steps := [forward [rand [3, 5], rand [3, 5]], .set "blank" (torch "empty" [shape [3, 5]]),
              .set "_"
                (.call "[]=" [.var "blank", .value (.symbol .ellipsis), float (0.0 / 0.0)] []),
              forward [.var "blank", rand [3, 5]]] },
  { name := "ElementwiseMaximumModule_basic"
    program := {
      className := "ElementwiseMaximumModule"
      params := [("x", f32 [-1, -1]), ("y", f32 [-1, -1])]
      result := torch "maximum" [.var "x", .var "y"] }
    steps := [forward [rand [3, 5], rand [3, 5]], .set "blank" (torch "empty" [shape [3, 5]]),
              .set "_"
                (.call "[]=" [.var "blank", .value (.symbol .ellipsis), float (0.0 / 0.0)] []),
              forward [.var "blank", rand [3, 5]]] }
]

/-- Comparisons with scalars and with tensors. -/
def comparisonTests : List SuiteTest := [
  { name := "ElementwiseGtFloatScalarModule_basic"
    program := {
      className := "ElementwiseGtFloatScalarModule"
      params := [("x", f32 [-1, -1])]
      result := torch "gt" [.var "x", float 0.6] }
    steps := [forward [rand [3, 5]]] },
  { name := "ElementwiseGtIntScalarModule_basic"
    program := {
      className := "ElementwiseGtIntScalarModule"
      params := [("x", i64 [-1, -1])]
      result := torch "gt" [.var "x", int 10] }
    steps := [forward [torch "randint" [int (-10), int 15, shape [3, 4]]]] },
  { name := "ElementwiseGtMixed2ScalarModule_basic"
    program := {
      className := "ElementwiseGtMixed2ScalarModule"
      params := [("x", i32 [-1, -1])]
      result := torch "gt" [.var "x", int 7] }
    steps := [forward [method "to" (torch "randint" [int (-10), int 15, shape [3, 4]])
                         [dtype "int32"]]] },
  { name := "ElementwiseGtFloatTensorModule_basic"
    program := {
      className := "ElementwiseGtFloatTensorModule"
      params := [("x", f32 [-1, -1]), ("y", f32 [-1])]
      result := torch "gt" [.var "x", .var "y"] }
    steps := [forward [rand [3, 5], rand [5]]] },
  { name := "ElementwiseGtIntTensorModule_basic"
    program := {
      className := "ElementwiseGtIntTensorModule"
      params := [("x", i64 [-1, -1]), ("y", i64 [-1])]
      result := torch "gt" [.var "x", .var "y"] }
    steps := [forward [torch "randint" [int 10, shape [3, 5]],
                       torch "randint" [int 10, shape [5]]]] },
  { name := "ElementwiseLtFloatScalarModule_basic"
    program := {
      className := "ElementwiseLtFloatScalarModule"
      params := [("x", f32 [-1, -1])]
      result := torch "lt" [.var "x", float 0.6] }
    steps := [forward [rand [3, 5]]] },
  { name := "ElementwiseLtIntScalarModule_basic"
    program := {
      className := "ElementwiseLtIntScalarModule"
      params := [("x", i64 [-1, -1])]
      result := torch "lt" [.var "x", int 0] }
    steps := [forward [torch "randint" [int (-10), int 15, shape [3, 4]]]] },
  { name := "ElementwiseLtDiffWidthScalarModule_basic"
    program := {
      className := "ElementwiseLtDiffWidthScalarModule"
      params := [("x", i32 [-1, -1])]
      result := torch "lt" [.var "x", int 2] }
    steps := [forward [method "to" (torch "randint" [int (-10), int 15, shape [3, 4]])
                         [dtype "int32"]]] },
  { name := "ElementwiseLtFloatTensorModule_basic"
    program := {
      className := "ElementwiseLtFloatTensorModule"
      params := [("x", f32 [-1, -1]), ("y", f32 [-1])]
      result := torch "lt" [.var "x", .var "y"] }
    steps := [forward [rand [3, 5], rand [5]]] },
  { name := "ElementwiseLtIntTensorModule_basic"
    program := {
      className := "ElementwiseLtIntTensorModule"
      params := [("x", i64 [-1, -1]), ("y", i64 [-1])]
      result := torch "lt" [.var "x", .var "y"] }
    steps := [forward [torch "randint" [int 10, shape [3, 5]],
                       torch "randint" [int 10, shape [5]]]] },
  { name := "ElementwiseEqFloatScalarModule_basic"
    program := {
      className := "ElementwiseEqFloatScalarModule"
      params := [("x", f32 [-1, -1])]
      result := torch "eq" [.var "x", float 6.0] }
    steps := [forward [method "to"
                         (torch "tensor" [.list [floats [1.0, 2.2, 6.0], floats [6.0, 2.0, 3.1]]])
                         [dtype "float32"]]] },
  { name := "ElementwiseEqIntScalarModule_basic"
    program := {
      className := "ElementwiseEqIntScalarModule"
      params := [("x", i64 [-1, -1])]
      result := torch "eq" [.var "x", int 2] }
    steps := [forward [torch "randint" [int 2, int 4, shape [5, 8]]]] },
  { name := "ElementwiseEqDiffWidthScalarModule_basic"
    program := {
      className := "ElementwiseEqDiffWidthScalarModule"
      params := [("x", i32 [-1, -1])]
      result := torch "eq" [.var "x", int 2] }
    steps := [forward [method "to" (torch "randint" [int 2, int 4, shape [5, 8]])
                         [dtype "int32"]]] },
  { name := "ElementwiseEqFloatTensorModule_basic"
    program := {
      className := "ElementwiseEqFloatTensorModule"
      params := [("x", f32 [-1, -1]), ("y", f32 [-1])]
      result := torch "eq" [.var "x", .var "y"] }
    steps := [forward [method "to"
                         (torch "tensor" [.list [floats [1.0, 2.2, 6.0], floats [6.0, 2.0, 3.1]]])
                         [dtype "float32"],
                       method "to" (torch "tensor" [floats [1.0, 2.4, 6.0]]) [dtype "float32"]]] },
  { name := "ElementwiseEqIntTensorModule_basic"
    program := {
      className := "ElementwiseEqIntTensorModule"
      params := [("x", i64 [-1, -1]), ("y", i64 [-1])]
      result := torch "eq" [.var "x", .var "y"] }
    steps := [forward [torch "randint" [int 2, int 4, shape [8, 5]],
                       torch "randint" [int 2, int 4, shape [5]]]] }
]

/-- Bounds, differences and products. -/
def arithmeticTests : List SuiteTest := [
  { name := "ElementwiseClampModule_basic"
    program := {
      className := "ElementwiseClampModule"
      params := [("x", f32 [-1, -1])]
      body :=
        [.set "float_min" (torchWith "clamp" [.var "x"] [("min", float (-2.0))]),
         .set "int_min" (torchWith "clamp" [.var "x"] [("min", int (-3))]),
         .set "float_max" (torchWith "clamp" [.var "x"] [("max", float 2.0)]),
         .set "int_max" (torchWith "clamp" [.var "x"] [("max", int 3)]),
         .set "both" (torchWith "clamp" [.var "x"] [("min", int (-5)), ("max", int 5)])]
      result :=
        .var "float_min" * .var "int_min" * .var "float_max" * .var "int_max" * .var "both" }
    steps := [forward [method "uniform_" (torch "empty" [shape [3, 5]]) [int (-10), int 10]]] },
  { name := "RsubModule_basic"
    program := {
      className := "RsubModule"
      params := [("x", f32 [-1, -1])]
      result := torchWith "rsub" [.var "x", float 3.0] [("alpha", float 1.0)] }
    steps := [forward [rand [3, 4]]] },
  { name := "RsubModule_noalpha_basic"
    program := {
      className := "RsubModule_noalpha"
      params := [("x", f32 [-1, -1])]
      result := torch "rsub" [.var "x", float 2.0] }
    steps := [forward [rand [3, 4]]] },
  { name := "ElementwiseMulScalarModule_int"
    program := {
      className := "ElementwiseMulScalarIntModule"
      params := [("x", i64 [-1, -1])]
      result := torch "mul" [.var "x", int 4] }
    steps := [forward [torch "randint" [int 10, shape [3, 4]]]] },
  { name := "ElementwiseMulScalarModule_float"
    program := {
      className := "ElementwiseMulScalarFloatModule"
      params := [("x", f32 [-1, -1])]
      result := torch "mul" [.var "x", float 100.0] }
    steps := [forward [rand [3, 4]]] },
  { name := "ElementwiseMulScalarModule_basic"
    program := {
      className := "ElementwiseMulScalarModule"
      params := [("x", i64 [-1, -1])]
      result := torch "mul" [.var "x", float 8.0] }
    steps := [forward [torch "randint" [int 10, shape [3, 4]]]] },
  { name := "ElementwiseMulTensorFloatModule_basic"
    program := {
      className := "ElementwiseMulTensorFloatModule"
      params := [("a", f32 [-1]), ("b", f64 [-1])]
      result := torch "mul" [.var "a", .var "b"] }
    steps := [forward [rand [4], method "type" (rand [4]) [dtype "float64"]]] },
  { name := "ElementwiseMulTensorIntModule_basic"
    program := {
      className := "ElementwiseMulTensorIntModule"
      params := [("a", i32 [-1]), ("b", i64 [-1])]
      result := torch "mul" [.var "a", .var "b"] }
    steps := [forward [method "type" (torch "randint" [int 10, ints [4]]) [dtype "int32"],
                       torch "randint" [int 10, ints [4]]]] }
]

/-- Functions of one element, quotients and bits. -/
def functionTests : List SuiteTest := [
  { name := "ElementwiseLogModule_basic"
    program := {
      className := "ElementwiseLogModule"
      params := [("a", f32 [-1, -1])]
      result := torch "log" [.var "a"] }
    steps := [forward [rand [3, 4]]] },
  { name := "ElementwiseSqrtModule_basic"
    program := {
      className := "ElementwiseSqrtModule"
      params := [("a", f32 [-1, -1])]
      result := torch "sqrt" [.var "a"] }
    steps := [forward [rand [3, 4]]] },
  { name := "ElementwiseFloorModule_basic"
    program := {
      className := "ElementwiseFloorModule"
      params := [("a", f32 [-1, -1])]
      result := torch "floor" [.var "a"] }
    steps := [forward [rand [3, 4]]] },
  { name := "ElementwiseCeilModule_basic"
    program := {
      className := "ElementwiseCeilModule"
      params := [("a", f32 [-1, -1])]
      result := torch "ceil" [.var "a"] }
    steps := [forward [rand [3, 4]]] },
  { name := "ElementwisePowModule_basic"
    program := {
      className := "ElementwisePowModule"
      params := [("a", f32 [-1, -1])]
      result := torch "pow" [.var "a", float 2.0] }
    steps := [forward [rand [3, 4]]] },
  { name := "ElementwiseToDtypeF32ToI64Module_basic"
    program := {
      className := "ElementwiseToDtypeF32ToI64Module"
      params := [("x", f32 [-1, -1])]
      result := method "to" (.var "x") [dtype "int64"] }
    steps := [forward [rand [3, 5]]] },
  { name := "ElementwiseLog2Module_basic"
    program := {
      className := "ElementwiseLog2Module"
      params := [("a", f32 [-1, -1])]
      result := torch "log2" [.var "a"] }
    steps := [forward [rand [3, 4]]] },
  { name := "ElementwiseRsqrtModule_basic"
    program := {
      className := "ElementwiseRsqrtModule"
      params := [("a", f32 [-1, -1])]
      result := torch "rsqrt" [.var "a"] }
    steps := [forward [rand [3, 4]]] },
  { name := "ElementwiseAbsModule_basic"
    program := {
      className := "ElementwiseAbsModule"
      params := [("a", f32 [-1, -1, -1])]
      result := torch "abs" [.var "a"] }
    steps := [forward [randIn [3, 4, 5] (-1.0) 1.0]] },
  { name := "ElementwiseReciprocalModule_basic"
    program := {
      className := "ElementwiseReciprocalModule"
      params := [("a", f32 [-1])]
      result := torch "reciprocal" [.var "a"] }
    steps := [forward [rand [4]]] },
  { name := "ElementwiseDivScalarModule_basic"
    program := {
      className := "ElementwiseDivScalarModule"
      params := [("x", f32 [-1, -1])]
      result := torch "div" [.var "x", float 10.0] }
    steps := [forward [rand [3, 4]]] },
  { name := "ElementwiseDivTensorFloatModule_basic"
    program := {
      className := "ElementwiseDivTensorFloatModule"
      params := [("a", f32 [-1]), ("b", f64 [-1])]
      result := torch "div" [.var "a", .var "b"] }
    steps := [forward [rand [4], method "type" (rand [4]) [dtype "float64"]]] },
  { name := "ElementwiseAndIntegerModule_basic"
    program := {
      className := "ElementwiseAndIntegerModule"
      params := [("x", i32 [-1, -1]), ("y", i64 [-1, -1])]
      result := torch "bitwise_and" [.var "x", .var "y"] }
    steps := [forward [method "to" (torch "randint" [int (-10), int 10, shape [3, 4]])
                         [dtype "int32"], torch "randint" [int (-10), int 10, shape [3, 4]]]] }
]

end DialectBench.Suite
