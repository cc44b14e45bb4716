import DialectBench.Suite.Basic

/-!
# Tests of gradients

Operators that compute gradients of others.
-/

namespace DialectBench.Suite

/-- Gradients of activation functions and of softmax. -/
def gradientTests : List SuiteTest := [
  { name := "SoftmaxBackwardModule_basic"
    program := {
      className := "SoftmaxBackwardModule"
      params := [("grad_output", f32 [-1, -1, -1]), ("output", f32 [-1, -1, -1])]
      result :=
        torchWith "ops.aten._softmax_backward_data" [.var "grad_output", .var "output"]
          [("dim", int 1), ("input_dtype", int 6)] }
    steps := [forward [torch "randn" [int 3, int 2, int 4],
                       torch "randn" [int 3, int 2, int 4]]] },
  { name := "TanhBackward_basic"
    program := {
      className := "TanhBackwardModule"
      params := [("grad_out", f32 [-1, -1]), ("output", f32 [-1, -1])]
      result := torch "ops.aten.tanh_backward" [.var "grad_out", .var "output"] }
    steps := [forward [torch "randn" [int 3, int 3], torch "randn" [int 3, int 3]]] },
  { name := "GeluBackwardModule_basic"
    program := {
      className := "GeluBackwardModule"
      params := [("grad", f32 [-1, -1]), ("input", f32 [-1, -1])]
      result := torch "ops.aten.gelu_backward" [.var "grad", .var "input"] }
    steps := [forward [rand [5, 3], rand [5, 3]]] },
  { name := "LogSoftmaxBackwardModule_basic"
    program := {
      className := "LogSoftmaxBackwardModule"
      params := [("grad_output", f32 [-1, -1, -1]), ("output", f32 [-1, -1, -1])]
      result :=
        torchWith "ops.aten._log_softmax_backward_data" [.var "grad_output", .var "output"]
          [("dim", int 1), ("input_dtype", int 6)] }
    steps := [forward [torch "randn" [int 3, int 2, int 4],
                       torch "randn" [int 3, int 2, int 4]]] }
]

end DialectBench.Suite
