import DialectBench.Suite.Basic

/-!
# Tests of picking elements

Operators that pick elements by given positions.
-/

namespace DialectBench.Suite

/-- Losses at the positions of the targets. -/
def lossTests : List SuiteTest := [
  { name := "NllLossModule_basic"
    program := {
      className := "NllLossModule"
      params := [("x", f32 [-1, -1]), ("y", i64 [-1])]
      result :=
        item
          (torchWith "ops.aten.nll_loss_forward" [] [("self", .var "x"), ("target", .var "y"),
                                                     ("weight", nothing), ("reduction", int 0),
                                                     ("ignore_index", int 2)]) (int 0) }
    steps := [forward [rand [2, 3], torch "tensor" [ints [0, 1]]]] },
  { name := "NllLossModule_ignore_index"
    program := {
      className := "NllLossModule_ignore_index_out_of_bounds"
      params := [("x", f32 [-1, -1]), ("y", i64 [-1])]
      result :=
        item
          (torchWith "ops.aten.nll_loss_forward" [] [("self", .var "x"), ("target", .var "y"),
                                                     ("weight", nothing), ("reduction", int 0),
                                                     ("ignore_index", int 10)]) (int 0) }
    steps := [forward [rand [2, 3], torch "tensor" [ints [0, 1]]]] }
]

/-- Elements at given positions. -/
def indexTests : List SuiteTest := [
  { name := "IndexSelectSingleIdxModule_basic"
    program := {
      className := "IndexSelectSingleIdxModule"
      params := [("input", f32 [4, 5, 6]), ("indices", i64 [1])]
      result := torch "index_select" [.var "input", int 1, .var "indices"] }
    steps := [forward [torch "randn" [int 4, int 5, int 6], torch "tensor" [ints [2]]]] },
  { name := "IndexSelectTwoIdxModule_basic"
    program := {
      className := "IndexSelectTwoIdxModule"
      params := [("input", f32 [4, 5, 6]), ("indices", i64 [2])]
      result := torch "index_select" [.var "input", int 2, .var "indices"] }
    steps := [forward [torch "randn" [int 4, int 5, int 6], torch "tensor" [ints [2, 4]]]] },
  { name := "IndexSelectWholeDimensionModule_basic"
    program := {
      className := "IndexSelectWholeDimensionModule"
      params := [("input", f32 [4, 5, 6]), ("indices", i64 [4])]
      result := torch "index_select" [.var "input", int 0, .var "indices"] }
    steps := [forward [torch "randn" [int 4, int 5, int 6], torch "tensor" [ints [0, 1, 2, 3]]]] },
  { name := "IndexSelectWholeTensorModule_basic"
    program := {
      className := "IndexSelectWholeTensorModule"
      params := [("input", f32 [3]), ("indices", i64 [3])]
      result := torch "index_select" [.var "input", int 0, .var "indices"] }
    steps := [forward [torch "randn" [int 3], torch "tensor" [ints [0, 1, 2]]]] },
  { name := "IndexSelectDynamicModulebasic"
    program := {
      className := "IndexSelectDynamicModule"
      params := [("input", f32 [-1, -1, -1]), ("indices", i64 [-1])]
      result := torch "index_select" [.var "input", int 2, .var "indices"] }
    steps := [forward [torch "randn" [int 4, int 5, int 6], torch "tensor" [ints [0, 4]]]] },
  { name := "IndexSelectDynamicInputSizeModule_basic"
    program := {
      className := "IndexSelectDynamicInputSizeModule"
      params := [("input", f32 [-1, -1, -1]), ("indices", i64 [2])]
      result := torch "index_select" [.var "input", int 2, .var "indices"] }
    steps := [forward [torch "randn" [int 4, int 5, int 6], torch "tensor" [ints [0, 2]]]] },
  { name := "IndexSelectDynamicIndexSizeModule_basic"
    program := {
      className := "IndexSelectDynamicIndexSizeModule"
      params := [("input", f32 [4, 5, 6]), ("indices", i64 [-1])]
      result := torch "index_select" [.var "input", int 1, .var "indices"] }
    steps := [forward [torch "randn" [int 4, int 5, int 6], torch "tensor" [ints [1, 2]]]] }
]

end DialectBench.Suite
