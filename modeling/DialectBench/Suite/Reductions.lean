import DialectBench.Suite.Basic

/-!
# Tests of reductions

Sums, means and positions of the greatest element.
-/

namespace DialectBench.Suite

/-- Sums and means over all or some dimensions, and positions of the greatest element. -/
def reductionTests : List SuiteTest := [
  { name := "ReduceSumModule_basic"
    program := {
      className := "ReduceSumModule"
      params := [("a", f32 [-1, -1, -1])]
      result := torch "sum" [.var "a"] }
    steps := [forward [rand [3, 4, 5]]] },
  { name := "ReduceSumDtypeModule_basic"
    program := {
      className := "ReduceSumDtypeModule"
      params := [("a", f64 [-1, -1, -1])]
      result := torchWith "sum" [.var "a"] [("dtype", dtype "float32")] }
    steps := [forward [method "to" (rand [3, 4, 5]) [dtype "float64"]]] },
  { name := "ReduceSumDimIntListModule_basic"
    program := {
      className := "ReduceSumDimIntListModule"
      params := [("a", f32 [-1, -1, -1])]
      result := torch "sum" [.var "a", shape [0, 1]] }
    steps := [forward [rand [3, 4, 5]]] },
  { name := "ReduceSumDimIntListDtypeModule_basic"
    program := {
      className := "ReduceSumDimIntListDtypeModule"
      params := [("a", f64 [-1, -1, -1])]
      result := torchWith "sum" [.var "a", shape [0, 1]] [("dtype", dtype "float32")] }
    steps := [forward [method "to" (rand [3, 4, 5]) [dtype "float64"]]] },
  { name := "ReduceSumDimIntListKeepDimModule_basic"
    program := {
      className := "ReduceSumDimIntListKeepDimModule"
      params := [("a", f32 [-1, -1, -1])]
      result := torchWith "sum" [.var "a", shape [1, 2]] [("keepdim", flag true)] }
    steps := [forward [rand [3, 4, 5]]] },
  { name := "ReduceMeanDtypeModule_basic"
    program := {
      className := "ReduceMeanDtypeModule"
      params := [("a", f64 [-1, -1, -1])]
      result := torchWith "mean" [.var "a"] [("dtype", dtype "float32")] }
    steps := [forward [method "to" (rand [3, 4, 5]) [dtype "float64"]]] },
  { name := "ArgmaxModule_basic"
    program := {
      className := "ArgmaxModule"
      params := [("a", f32 [-1, -1])]
      result := torch "argmax" [.var "a"] }
    steps := [forward [rand [3, 4]]] },
  { name := "ArgmaxModule_with_dim"
    program := {
      className := "ArgmaxWithDimModule"
      params := [("a", f32 [-1, -1, -1])]
      result := torchWith "argmax" [.var "a"] [("dim", int 1)] }
    steps := [forward [rand [3, 4, 5]]] },
  { name := "ArgmaxModule_keepDim"
    program := {
      className := "ArgmaxKeepDimsModule"
      params := [("a", f32 [-1, -1])]
      result := torch "argmax" [.var "a", int 0, flag true] }
    steps := [forward [rand [4, 6]]] }
]

end DialectBench.Suite
