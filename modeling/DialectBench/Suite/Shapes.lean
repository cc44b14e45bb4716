import DialectBench.Suite.Basic

/-!
# Tests of shapes

Views, sizes as numbers, squeezing and slices.
-/

namespace DialectBench.Suite

/-- Views of another shape. -/
def viewTests : List SuiteTest := [
  { name := "ViewExpandModule_basic"
    program := {
      className := "ViewExpandModule"
      params := [("a", f32 [6, 4])]
      result := method "view" (.var "a") [int 2, int 3, int 4] }
    steps := [forward [rand [6, 4]]] },
  { name := "ViewDynamicExpandModule_basic"
    program := {
      className := "ViewDynamicExpandModule"
      params := [("a", f32 [-1, -1, 30, 384])]
      result := method "view" (.var "a") [int 2, int 4, int 5, int 6, int 12, int 32] }
    steps := [forward [rand [2, 4, 30, 384]]] },
  { name := "ViewDynamicExpandWithAtenSizeIntModule_basic"
    program := {
      className := "ViewDynamicExpandWithAtenSizeIntModule"
      params := [("a", f32 [-1, -1, -1])]
      result :=
        method "view" (.var "a") [method "size" (.var "a") [int 0],
                                  method "size" (.var "a") [int 1], int 12, int 32] }
    steps := [forward [rand [2, 4, 384]]] },
  { name := "ViewCollapseModule_basic"
    program := {
      className := "ViewCollapseModule"
      params := [("a", f32 [-1, -1])]
      result := method "view" (.var "a") [int 8] }
    steps := [forward [rand [2, 4]]] },
  { name := "ViewCollapseDynamicWithAtenSizeIntModule_basic"
    program := {
      className := "ViewCollapseDynamicWithAtenSizeIntModule"
      params := [("a", f32 [-1, -1, -1, -1, -1, -1]), ("b", i64 []), ("c", i64 [])]
      result :=
        method "view" (.var "a") [method "size" (.var "a") [int 0], .call "int" [.var "b"] [],
                                  .call "int" [.var "c"] [], method "size" (.var "a") [int 3],
                                  int 384] }
    steps := [forward [rand [2, 3, 5, 4, 12, 32], torch "tensor" [int 3],
                       torch "tensor" [int 5]]] }
]

/-- Arithmetic on integers read off tensors. -/
def integerTests : List SuiteTest := [
  { name := "AddIntModule_basic"
    program := {
      className := "AddIntModule"
      params := [("lhs", i64 []), ("rhs", i64 [])]
      result := .call "int" [.var "lhs"] [] + .call "int" [.var "rhs"] [] }
    steps := [forward [torch "randint" [int (-100), int 100, shape []],
                       torch "randint" [int (-100), int 100, shape []]]] }
]

/-- Dimensions of size one that are dropped. -/
def squeezeTests : List SuiteTest := [
  { name := "SqueezeModule_static"
    program := {
      className := "SqueezeStaticModule"
      params := [("a", f32 [1, 7, 1, 3, 1])]
      result := torch "squeeze" [.var "a"] }
    steps := [forward [rand [1, 7, 1, 3, 1]]] },
  { name := "SqueezeModule_dynamic"
    program := {
      className := "SqueezeDynamicModule"
      params := [("a", f32 [1, -1, 1, 384, -1, 1, 1])]
      result := torch "squeeze" [.var "a"] }
    steps := [forward [rand [1, 8, 1, 384, 12, 1, 1]]] },
  { name := "SqueezeModule_noUnitDim"
    program := {
      className := "SqueezeNoUnitDimModule"
      params := [("a", f32 [4, -1, -1])]
      result := torch "squeeze" [.var "a"] }
    steps := [forward [rand [4, 2, 3]]] },
  { name := "SqueezeModule_allUnitDim"
    program := {
      className := "SqueezeAllUnitDimModule"
      params := [("a", f32 [1, 1])]
      result := torch "squeeze" [.var "a"] }
    steps := [forward [rand [1, 1]]] },
  { name := "SqueezeModule_broadcast"
    program := {
      className := "SqueezeBroadcastModule"
      params := [("a", f32 [-1, -1]), ("b", f32 [])]
      result := .var "a" * method "squeeze" (.var "b") [] }
    steps := [forward [rand [4, 3], rand []]] },
  { name := "SqueezeDimModule_static"
    program := {
      className := "SqueezeDimStaticModule"
      params := [("a", f32 [1, 7])]
      result := torch "squeeze" [.var "a", int 0] }
    steps := [forward [rand [1, 7]]] },
  { name := "SqueezeDimModule_dynamic"
    program := {
      className := "SqueezeDimDynamicModule"
      params := [("a", f32 [-1, 1, 384, -1, 1])]
      result := torch "squeeze" [.var "a", int 4] }
    steps := [forward [rand [8, 1, 384, 12, 1]]] },
  { name := "SqueezeDimModule_negDim"
    program := {
      className := "SqueezeDimNegDimModule"
      params := [("a", f32 [1, -1, 1, 384, -1, 1])]
      result := torch "squeeze" [.var "a", int (-6)] }
    steps := [forward [rand [1, 8, 1, 384, 12, 1]]] },
  { name := "SqueezeDimModule_identity"
    program := {
      className := "SqueezeDimIdentityModule"
      params := [("a", f32 [4, 1, -1])]
      result := torch "squeeze" [.var "a", int 0] }
    steps := [forward [rand [4, 1, 3]]] },
  { name := "SqueezeDimModule_unitDim"
    program := {
      className := "SqueezeDimUnitDimModule"
      params := [("a", f32 [1])]
      result := torch "squeeze" [.var "a", int 0] }
    steps := [forward [rand [1]]] }
]

/-- Slices and single positions. -/
def sliceTests : List SuiteTest := [
  { name := "SliceModule_basic"
    program := {
      className := "SliceModule"
      params := [("x", f32 [-1, -1, -1])]
      result :=
        item (.var "x")
          (.tuple [.value (.symbol (.slice (some 0) (some 5) (some 1))),
                   .value (.symbol (.slice (some 1) (some 3) (some 1))),
                   .value (.symbol (.slice (some 2) (some 4) (some 1)))]) }
    steps := [forward [rand [6, 4, 7]]] },
  { name := "SliceOutOfUpperBoundIndexModule_basic"
    program := {
      className := "SliceOutOfUpperBoundIndexModule"
      params := [("x", f32 [-1, -1, -1])]
      body :=
        [.set "result"
           (item (.var "x") (.tuple [span none (some 8), span none (some 5), span (some 8) none])),
         .set "cat_tensor" (torchWith "ones" [shape [6, 4, 1]] [("dtype", dtype "float32")])]
      result := torchWith "cat" [.tuple [.var "result", .var "cat_tensor"]] [("dim", int 2)] }
    steps := [forward [rand [6, 4, 7]]] },
  { name := "SliceOutOfLowerBoundEndIndexModule_basic"
    program := {
      className := "SliceOutOfLowerBoundEndIndexModule"
      params := [("x", f32 [-1, -1, -1])]
      result :=
        item (.var "x") (.tuple [span none (some (-8)), span (some (-7)) none, everything]) }
    steps := [forward [rand [6, 4, 7]]] },
  { name := "SliceOutOfLowerBoundStartIndexModule_basic"
    program := {
      className := "SliceOutOfLowerBoundStartIndexModule"
      params := [("x", f32 [-1, -1, -1])]
      result :=
        item (.var "x")
          (.tuple [.value (.symbol (.slice (some (-8)) (some 3) (some 1))),
                   .value (.symbol (.slice (some 1) (some 3) (some 1))),
                   .value (.symbol (.slice (some 2) (some 4) (some 1)))]) }
    steps := [forward [rand [6, 4, 7]]] },
  { name := "SliceEndSleStartModule_basic"
    program := {
      className := "SliceEndSleStartModule"
      params := [("x", f32 [-1, -1, -1])]
      body :=
        [.set "result" (item (.var "x") (.tuple [everything, span (some 4) (some 3), everything])),
         .set "cat_tensor" (torchWith "ones" [shape [6, 1, 7]] [("dtype", dtype "float32")])]
      result := torchWith "cat" [.tuple [.var "result", .var "cat_tensor"]] [("dim", int 1)] }
    steps := [forward [rand [6, 4, 7]]] },
  { name := "SliceStartEqEndModule_basic"
    program := {
      className := "SliceStartEqEndModule"
      params := [("x", f32 [-1, -1, -1])]
      body :=
        [.set "result" (item (.var "x") (.tuple [span (some 5) (some 5), everything, everything])),
         .set "cat_tensor" (torchWith "ones" [shape [1, 4, 7]] [("dtype", dtype "float32")])]
      result := torchWith "cat" [.tuple [.var "result", .var "cat_tensor"]] [("dim", int 0)] }
    steps := [forward [rand [6, 4, 7]]] },
  { name := "SliceSizeTwoStepModule_basic"
    program := {
      className := "SliceSizeTwoStepModule"
      params := [("x", f32 [-1, -1, -1])]
      result :=
        item (.var "x")
          (.tuple [.value (.symbol (.slice (some 0) (some 5) (some 2))),
                   .value (.symbol (.slice (some 0) (some 3) (some 2))),
                   .value (.symbol (.slice (some 0) (some 4) (some 2)))]) }
    steps := [forward [rand [10, 5, 17]]] },
  { name := "SliceNegIdxModule_basic"
    program := {
      className := "SliceNegIdxModule"
      params := [("x", f32 [-1, -1])]
      result := item (.var "x") (.tuple [span none (some (-1)), span (some (-2)) (some (-1))]) }
    steps := [forward [rand [3, 9]]] },
  { name := "SliceSingleIdxModule_basic"
    program := {
      className := "SliceSingleIdxModule"
      params := [("x", f32 [-1, -1])]
      result := item (.var "x") (int 0) }
    steps := [forward [rand [6, 8]]] },
  { name := "SliceWholeTensorModule_basic"
    program := {
      className := "SliceWholeTensorModule"
      params := [("x", f32 [-1, -1])]
      result := item (.var "x") (.tuple [everything, everything]) }
    steps := [forward [rand [6, 8]]] },
  { name := "SelectIntModule_basic"
    program := {
      className := "SelectIntModule"
      params := [("x", i64 [-1, -1])]
      result := method "select" (.var "x") [int 0, int 0] }
    steps := [forward [torch "randint" [int 10, shape [5, 5]]]] }
]

end DialectBench.Suite
