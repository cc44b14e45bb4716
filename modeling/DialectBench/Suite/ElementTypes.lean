import DialectBench.Suite.Basic

/-!
# Tests of element types

Which element type an operator gives for mixed arguments, and explicit conversions.
-/

namespace DialectBench.Suite

/-- Element types of mixed arguments. -/
def promotionTests : List SuiteTest := [
  { name := "TypePromotionSameCategoryDifferentWidthModule_basic"
    program := {
      className := "TypePromotionSameCategoryDifferentWidthModule"
      params := [("a", i32 [-1]), ("b", i64 [-1])]
      result := torchWith "add" [.var "a", .var "b"] [("alpha", int 3)] }
    steps := [forward [method "type" (torch "randint" [int 10, ints [4]]) [dtype "int32"],
                       torch "randint" [int 10, ints [4]]]] },
  { name := "TypePromotionDifferentCategoryModule_basic"
    program := {
      className := "TypePromotionDifferentCategoryModule"
      params := [("a", i64 [-1]), ("b", f32 [-1])]
      result := torchWith "add" [.var "a", .var "b"] [("alpha", int 3)] }
    steps := [forward [torch "randint" [int 10, ints [4]], torch "randn" [int 4]]] },
  { name := "TypePromotionSameCategoryZeroRankWider_basic"
    program := {
      className := "TypePromotionSameCategoryZeroRankWiderModule"
      params := [("a", f32 [-1]), ("b", f64 [])]
      result := torchWith "add" [.var "a", .var "b"] [("alpha", float 2.3)] }
    steps := [forward [rand [4], method "type" (rand []) [dtype "float64"]]] },
  { name := "TypePromotionZeroRankHigherCategoryModule_basic"
    program := {
      className := "TypePromotionZeroRankHigherCategoryModule"
      params := [("a", i64 [-1]), ("b", f32 [])]
      result := torchWith "add" [.var "a", .var "b"] [("alpha", int 2)] }
    steps := [forward [torch "randint" [int 10, ints [4]], rand []]] },
  { name := "TypePromotionAlphaWiderModule_basic"
    program := {
      className := "TypePromotionAlphaWiderModule"
      params := [("a", f32 [-1]), ("b", f32 [])]
      result := torchWith "add" [.var "a", .var "b"] [("alpha", float 2.3)] }
    steps := [forward [rand [4], rand []]] }
]

/-- Conversions of element types. -/
def conversionTests : List SuiteTest := [
  { name := "TypeConversionF32ToF64Module_basic"
    program := {
      className := "TypeConversionF32ToF64Module"
      params := [("x", f32 [-1, -1])]
      result := method "to" (.var "x") [dtype "float64"] }
    steps := [forward [rand [3, 5]]] },
  { name := "TypeConversionF64ToF32Module_basic"
    program := {
      className := "TypeConversionF64ToF32Module"
      params := [("x", f64 [-1, -1])]
      result := method "to" (.var "x") [dtype "float32"] }
    steps := [forward [method "type" (rand [3, 5]) [dtype "float64"]]] },
  { name := "TypeConversionI32ToI64Module_basic"
    program := {
      className := "TypeConversionI32ToI64Module"
      params := [("x", i32 [-1, -1])]
      result := method "to" (.var "x") [dtype "int64"] }
    steps := [forward [method "type" (torch "randint" [int 5, ints [2, 3]]) [dtype "int32"]]] },
  { name := "TypeConversionI64ToI32Module_basic"
    program := {
      className := "TypeConversionI64ToI32Module"
      params := [("x", i64 [-1, -1])]
      result := method "to" (.var "x") [dtype "int32"] }
    steps := [forward [torch "randint" [int 5, ints [2, 3]]]] }
]

end DialectBench.Suite
