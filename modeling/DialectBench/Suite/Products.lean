import DialectBench.Suite.Basic

/-!
# Tests of products

Products of vectors, matrices and batches of them.
-/

namespace DialectBench.Suite

/-- Products of vectors, matrices and batches. -/
def productTests : List SuiteTest := [
  { name := "Matmul_dot"
    program := {
      className := "MatmulDot"
      params := [("lhs", f32 [-1]), ("rhs", f32 [-1])]
      result := torch "matmul" [.var "lhs", .var "rhs"] }
    steps := [forward [rand [3], rand [3]]] },
  { name := "Matmul_2d"
    program := {
      className := "Matmul2D"
      params := [("lhs", f32 [-1, -1]), ("rhs", f32 [-1, -1])]
      result := torch "matmul" [.var "lhs", .var "rhs"] }
    steps := [forward [rand [3, 4], rand [4, 5]]] },
  { name := "Matmul_vecmat"
    program := {
      className := "MatmulVecMat"
      params := [("lhs", f32 [-1]), ("rhs", f32 [-1, -1])]
      result := torch "matmul" [.var "lhs", .var "rhs"] }
    steps := [forward [rand [4], rand [4, 5]]] },
  { name := "Matmul_matvec"
    program := {
      className := "MatmulMatVec"
      params := [("lhs", f32 [-1, -1]), ("rhs", f32 [-1])]
      result := torch "matmul" [.var "lhs", .var "rhs"] }
    steps := [forward [rand [4, 5], rand [5]]] },
  { name := "Matmul_3d"
    program := {
      className := "Matmul3D"
      params := [("lhs", f32 [-1, -1, -1]), ("rhs", f32 [-1, -1, -1])]
      result := torch "matmul" [.var "lhs", .var "rhs"] }
    steps := [forward [rand [3, 4, 5], rand [3, 5, 4]]] },
  { name := "Matmul_4d"
    program := {
      className := "Matmul4d"
      params := [("lhs", f32 [-1, -1, -1, -1]), ("rhs", f32 [-1, -1, -1, -1])]
      result := torch "matmul" [.var "lhs", .var "rhs"] }
    steps := [forward [rand [4, 5, 6, 7], rand [4, 5, 7, 6]]] }
]

end DialectBench.Suite
