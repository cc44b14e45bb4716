import DialectBench.Suite.Basic

/-!
# General tests

Products, pooling, softmax, embedding, numbers and other operators.
-/

namespace DialectBench.Suite

/-- The product of two matrices, which two tests share. -/
def mmModule : Blueprint where
  className := "MmModule"
  params := [("lhs", f32 [-1, -1]), ("rhs", f32 [-1, -1])]
  result := torch "mm" [.var "lhs", .var "rhs"]

/-- Matrix products, alone and in combination. -/
def matrixTests : List SuiteTest := [
  { name := "MmModule_basic"
    program := mmModule
    steps := [forward [rand [4, 4], rand [4, 4]]] },
  { name := "MmModule_chained"
    program := mmModule
    steps := [.call "res" [rand [4, 4], rand [4, 4]], forward [.var "res", .var "res"]] },
  { name := "BmmModule_basic"
    program := {
      className := "BmmModule"
      params := [("lhs", f32 [-1, -1, -1]), ("rhs", f32 [-1, -1, -1])]
      result := torch "bmm" [.var "lhs", .var "rhs"] }
    steps := [forward [rand [3, 4, 5], rand [3, 5, 4]]] },
  { name := "MmDagModule_basic"
    program := {
      className := "MmDagModule"
      params := [("lhs", f32 [4, 4]), ("rhs", f32 [4, 4])]
      result := torch "mm" [.var "lhs", torch "mm" [.var "lhs", .var "rhs"]] }
    steps := [forward [rand [4, 4], rand [4, 4]]] },
  { name := "MmTanhModule_basic"
    program := {
      className := "MmTanhModule"
      params := [("lhs", f32 [-1, -1]), ("rhs", f32 [-1, -1])]
      result := torch "tanh" [torch "mm" [.var "lhs", .var "rhs"]] }
    steps := [forward [rand [4, 2], rand [2, 4]]] },
  { name := "AddmmModuleFloat_basic"
    program := {
      className := "AddmmModuleFloat"
      params := [("M", f32 [-1, -1]), ("mat1", f32 [-1, -1]), ("mat2", f32 [-1, -1])]
      result :=
        torchWith "addmm" [.var "M", .var "mat1", .var "mat2"]
          [("beta", float 3.0), ("alpha", float 7.0)] }
    steps := [forward [rand [4, 4], rand [4, 2], rand [2, 4]]] },
  { name := "AddmmModule_broadcastable"
    program := {
      className := "AddmmModuleBroadcastable"
      params := [("M", f32 [1, -1]), ("mat1", f32 [-1, -1]), ("mat2", f32 [-1, -1])]
      result :=
        torchWith "addmm" [.var "M", .var "mat1", .var "mat2"]
          [("beta", float 2.0), ("alpha", float 7.0)] }
    steps := [forward [rand [1, 2], rand [3, 2], rand [2, 2]]] },
  { name := "AddmmModule_differentRankBroadcastable"
    program := {
      className := "AddmmModuleDifferentRankBroadcastable"
      params := [("M", f32 [-1]), ("mat1", f32 [-1, -1]), ("mat2", f32 [-1, -1])]
      result :=
        torchWith "addmm" [.var "M", .var "mat1", .var "mat2"]
          [("beta", float 11.0), ("alpha", float 7.0)] }
    steps := [forward [rand [3], rand [3, 2], rand [2, 3]]] }
]

/-- Pooling, and dimensions that are flattened, reordered, joined, gathered and measured. -/
def layoutTests : List SuiteTest := [
  { name := "AdaptiveAvgPool2dModule_basic"
    program := {
      className := "AdaptiveAvgPool2dModule"
      init := [.setField "aap2d" (torch "nn.AdaptiveAvgPool2d" [shape [1, 1]])]
      params := [("x", f32 [-1, -1, -1, -1])]
      result := layer "aap2d" (.var "x") }
    steps := [forward [rand [10, 3, 8, 9]]] },
  { name := "FlattenStaticModule_basic"
    program := {
      className := "FlattenStaticModule"
      init := [.setField "flat" (torch "nn.Flatten" [int 2, int 4])]
      params := [("x", f32 [10, 3, 8, 9, 3, 4])]
      result := layer "flat" (.var "x") }
    steps := [forward [rand [10, 3, 8, 9, 3, 4]]] },
  { name := "FlattenRank0Module_basic"
    program := {
      className := "FlattenRank0Module"
      init := [.setField "flat" (torch "nn.Flatten" [int (-1), int (-1)])]
      params := [("x", f32 [])]
      result := layer "flat" (.var "x") }
    steps := [forward [torch "tensor" [float 4.0]]] },
  { name := "FlattenDynamicModule_basic"
    program := {
      className := "FlattenDynamicModule"
      init := [.setField "flat" (torch "nn.Flatten" [int 2, int 4])]
      params := [("x", f32 [-1, -1, -1, 9, 3, -1])]
      result := layer "flat" (.var "x") }
    steps := [forward [rand [10, 3, 8, 9, 3, 4]]] },
  { name := "MaxPool2dModule_basic"
    program := {
      className := "MaxPool2dModule"
      init :=
        [.setField "mp2d"
           (torchWith "nn.MaxPool2d" [] [("kernel_size", ints [6, 8]), ("stride", ints [2, 2]),
                                         ("padding", ints [3, 4]), ("dilation", int 2)])]
      params := [("x", f32 [-1, -1, -1, -1])]
      result := layer "mp2d" (.var "x") }
    steps := [forward [rand [1, 1, 20, 20] - float 0.5]] },
  { name := "TransposeIntModule_basic"
    program := {
      className := "TransposeIntModule"
      params := [("x", f32 [3, 4, 2])]
      result := torch "transpose" [.var "x", int 0, int 1] }
    steps := [forward [rand [3, 4, 2]]] },
  { name := "PermuteModule_basic"
    program := {
      className := "PermuteModule"
      params := [("x", f32 [3, 4, 2])]
      result := method "permute" (.var "x") [int 0, int 2, int 1] }
    steps := [forward [rand [3, 4, 2]]] },
  { name := "TransposeIntNegDimsModule_basic"
    program := {
      className := "TransposeIntNegDimsModule"
      params := [("x", f32 [3, 4, 2])]
      result := torch "transpose" [.var "x", int (-1), int (-2)] }
    steps := [forward [rand [3, 4, 2]]] },
  { name := "PermuteNegativeIndexModule_basic"
    program := {
      className := "PermuteNegativeIndexModule"
      params := [("x", f32 [3, 4, 2])]
      result := method "permute" (.var "x") [int 0, int (-1), int 1] }
    steps := [forward [rand [3, 4, 2]]] },
  { name := "TensorsConcatModule_basic"
    program := {
      className := "TensorsConcatModule"
      params := [("x", f32 [-1, -1, -1]), ("y", f32 [-1, -1, -1]), ("z", f32 [-1, -1, -1])]
      result := torch "cat" [.list [.var "x", .var "y", .var "z"], int 1] }
    steps := [forward [rand [2, 2, 4], rand [2, 1, 4], rand [2, 3, 4]]] },
  { name := "GatherModule_basic"
    program := {
      className := "GatherModule"
      params := [("tensor", f32 [-1, -1, -1]), ("indices", i64 [-1, -1, -1])]
      result := torch "gather" [.var "tensor", int 2, .var "indices"] }
    steps := [forward [rand [2, 3, 4],
                       torch "tensor" [.list [.list [ints [1, 2, 3], ints [1, 2, 3]]]]]] },
  { name := "AddSizeIntModule_basic"
    program := {
      className := "AddSizeIntModule"
      params := [("tensor", f32 [-1, -1])]
      result :=
        methodWith "add" (.var "tensor") [.var "tensor"] [("alpha",
                                                            method "size" (.var "tensor")
                                                              [int 1])] }
    steps := [forward [torch "randn" [int 3, int 3]]] },
  { name := "AddSizeIntNegDimModule_basic"
    program := {
      className := "AddSizeIntNegDimModule"
      params := [("tensor", f32 [-1, -1])]
      result :=
        methodWith "add" (.var "tensor") [.var "tensor"] [("alpha",
                                                            method "size" (.var "tensor")
                                                              [int (-2)])] }
    steps := [forward [torch "randn" [int 3, int 3]]] }
]

/-- Embedding, softmax and broadcasting. -/
def layerTests : List SuiteTest := [
  { name := "EmbeddingModule_basic"
    program := {
      className := "EmbeddingModule"
      init :=
        [seed,
         .setField "embed"
           (torchWith "nn.Embedding" [] [("num_embeddings", int 100), ("embedding_dim", int 50),
                                         ("padding_idx", int 4)])]
      params := [("indices", i64 [-1, -1])]
      result := method "forward" (.field "embed") [.var "indices"] }
    steps := [forward [torch "randint" [int 100, shape [3, 3]]]] },
  { name := "SoftmaxIntModule_basic"
    program := {
      className := "SoftmaxIntModule"
      init := [.setField "softmax" (torch "nn.Softmax" [int 2])]
      params := [("tensor", f32 [-1, -1, -1])]
      result := method "forward" (.field "softmax") [.var "tensor"] }
    steps := [forward [torch "randn" [int 3, int 2, int 4]]] },
  { name := "_SoftmaxModule_basic"
    program := {
      className := "_SoftmaxModule"
      params := [("tensor", f32 [-1, -1, -1])]
      result := torch "ops.aten._softmax" [.var "tensor", int 0, flag false] }
    steps := [forward [torch "randn" [int 3, int 2, int 4]]] },
  { name := "SoftmaxIntNegDimModule_basic"
    program := {
      className := "SoftmaxIntNegDimModule"
      init := [seed, .setField "softmax" (torch "nn.Softmax" [int (-2)])]
      params := [("tensor", f32 [-1, -1, -1])]
      result := method "forward" (.field "softmax") [.var "tensor"] }
    steps := [forward [torch "randn" [int 3, int 2, int 4]]] },
  { name := "SoftmaxIntArgTypeF64Module_basic"
    program := {
      className := "SoftmaxIntArgTypeF64Module"
      init := [seed, .setField "softmax" (torch "nn.Softmax" [int 2])]
      params := [("tensor", f64 [-1, -1, -1])]
      result := method "forward" (.field "softmax") [.var "tensor"] }
    steps := [forward [method "double" (torch "randn" [int 3, int 2, int 4]) []]] },
  { name := "BroadcastToModule_basic"
    program := {
      className := "BroadcastToModule"
      params := [("x", f32 [-1, -1, 1])]
      result := torch "broadcast_to" [.var "x", ints [1, -1, -1, 4]] }
    steps := [forward [rand [3, 1, 1]]] },
  { name := "ExpandModule_basic"
    program := {
      className := "ExpandModule"
      params := [("x", f32 [-1, -1, 1])]
      result := method "expand" (.var "x") [ints [1, -1, -1, 4]] }
    steps := [forward [rand [3, 1, 1]]] }
]

/-- Tensors made of ones, and tensors that are not filled. -/
def freshTests : List SuiteTest := [
  { name := "OnesModuleInt_basic"
    program := {
      className := "OnesModuleInt"
      params := []
      result := torchWith "ones" [int 3, int 4] [("dtype", dtype "int64")] }
    steps := [forward []] },
  { name := "OnesModuleFloat_basic"
    program := {
      className := "OnesModuleFloat"
      params := []
      result := torchWith "ones" [int 3, int 4] [("dtype", dtype "float32")] }
    steps := [forward []] },
  { name := "OnesModuleFalsePinMemory_basic"
    program := {
      className := "OnesModuleFalsePinMemory"
      params := []
      result :=
        torchWith "ones" [int 3, int 4] [("dtype", dtype "float32"), ("pin_memory", flag false)] }
    steps := [forward []] },
  { name := "EmptyModule_int"
    program := {
      className := "EmptyIntModule"
      params := []
      result := int 0 * torchWith "empty" [shape [3, 4]] [("dtype", dtype "int64")] }
    steps := [forward []] },
  { name := "EmptyModule_float"
    program := {
      className := "EmptyFloatModule"
      params := []
      result := torch "pow" [torchWith "empty" [shape [3, 4]] [("dtype", dtype "float32")], int 0] }
    steps := [forward []] },
  { name := "EmptyModule_falsePinMemory"
    program := {
      className := "EmptyFalsePinMemoryModule"
      params := []
      result :=
        torch "pow" [torchWith "empty" [shape [3, 4]] [("dtype", dtype "float32"),
                                                       ("pin_memory", flag false)], int 0] }
    steps := [forward []] },
  { name := "EmptyLikeModule_int"
    program := {
      className := "EmptyLikeIntModule"
      params := [("a", i64 [-1, -1])]
      result := int 0 * torchWith "empty_like" [.var "a"] [("dtype", dtype "int64")] }
    steps := [forward [torch "randint" [int 10, shape [3, 5]]]] },
  { name := "EmptyLikeModule_float"
    program := {
      className := "EmptyLikeFloatModule"
      params := [("a", f32 [-1, -1])]
      result :=
        torch "pow" [torchWith "empty_like" [.var "a"] [("dtype", dtype "float32")], int 0] }
    steps := [forward [rand [4, 5]]] }
]

/-- Numbers and tensors made from each other, and products that are added. -/
def numberTests : List SuiteTest := [
  { name := "ContiguousModule_basic"
    program := {
      className := "ContiguousModule"
      params := [("x", f32 [-1, -1])]
      result := method "contiguous" (.var "x") [] }
    steps := [forward [rand [3, 1]]] },
  { name := "TensorToInt_basic"
    program := {
      className := "TensorToInt"
      params := [("x", i64 [])]
      result := .call "int" [.var "x"] [] }
    steps := [forward [torch "randint" [int 10, ints []]]] },
  { name := "LogSoftmaxIntModule_basic"
    program := {
      className := "LogSoftmaxIntModule"
      init := [.setField "log_softmax" (torch "nn.LogSoftmax" [int 2])]
      params := [("tensor", f64 [-1, -1, -1])]
      result := method "forward" (.field "log_softmax") [.var "tensor"] }
    steps := [forward [method "double" (torch "randn" [int 3, int 2, int 4]) []]] },
  { name := "NumToTensorIntModule_basic"
    program := {
      className := "NumToTensorIntModule"
      params := []
      result := torch "ops.prim.NumToTensor" [int 1] }
    steps := [forward []] },
  { name := "NumToTensorFloatModule_basic"
    program := {
      className := "NumToTensorFloatModule"
      params := []
      result := torch "ops.prim.NumToTensor" [float 1.0] }
    steps := [forward []] },
  { name := "ReturnThreeTensorFloat32_basic"
    program := {
      className := "ReturnThreeTensorFloat32"
      params := [("a", f32 [-1, -1]), ("b", f32 [-1, -1]), ("c", f32 [-1, -1])]
      result := .tuple [.var "a", .var "b", .var "c"] }
    steps := [forward [rand [2, 3], rand [2, 3], rand [2, 3]]] },
  { name := "AddCMulModule_basic"
    program := {
      className := "AddCMulModule"
      params := [("input", f32 [-1, -1]), ("tensor1", f32 [-1, -1]), ("tensor2", f32 [-1, -1])]
      result :=
        torchWith "addcmul" [.var "input", .var "tensor1", .var "tensor2"] [("value", float 1.0)] }
    steps := [forward [rand [1, 3], rand [1, 3], rand [1, 3]]] },
  { name := "AddCDivModule_basic"
    program := {
      className := "AddCDivModule"
      params := [("input", f32 [-1, -1]), ("tensor1", f32 [-1, -1]), ("tensor2", f32 [-1, -1])]
      result :=
        torchWith "addcdiv" [.var "input", .var "tensor1", .var "tensor2"] [("value", float 1.0)] }
    steps := [forward [rand [1, 3], rand [1, 3], rand [1, 3]]] },
  { name := "TensorIntModule_basic"
    program := {
      className := "tensorIntModule"
      params := []
      body := [.set "a" (int 1)]
      result := torch "tensor" [.var "a"] }
    steps := [forward []] },
  { name := "TensorFloatModule_basic"
    program := {
      className := "tensorFloatModule"
      params := []
      body := [.set "a" (float 1.0)]
      result := torch "tensor" [.var "a"] }
    steps := [forward []] }
]

/-- Dropout, filling, means and numbers of elements. -/
def fillTests : List SuiteTest := [
  { name := "DropoutModule_basic"
    program := {
      className := "DropoutModule"
      params := [("x", f32 [-1, -1])]
      result := torch "dropout" [.var "x", float 0.0, flag false] }
    steps := [forward [rand [3, 4]]] },
  { name := "Fill_TensorFloat64WithFloat32_basic"
    program := {
      className := "Fill_TensorFloat64WithFloat32"
      params := [("tensor", f32 [-1, -1, -1])]
      result := torch "ops.aten.fill_" [.var "tensor", float 3.0] }
    steps := [forward [torch "randn" [int 3, int 2, int 4]]] },
  { name := "Fill_TensorFloat64WithFloat64_basic"
    program := {
      className := "Fill_TensorFloat64WithFloat64"
      params := [("tensor", f64 [-1, -1, -1])]
      result := torch "ops.aten.fill_" [.var "tensor", float 3.0] }
    steps := [forward [method "to" (torch "randn" [int 3, int 2, int 4]) [dtype "float64"]]] },
  { name := "Fill_TensorFloat64WithInt64_basic"
    program := {
      className := "Fill_TensorFloat64WithInt64"
      params := [("tensor", f64 [-1, -1, -1])]
      result := torch "ops.aten.fill_" [.var "tensor", int 3] }
    steps := [forward [method "to" (torch "randn" [int 3, int 2, int 4]) [dtype "float64"]]] },
  { name := "MeanModule_basic"
    program := {
      className := "MeanModule"
      params := [("x", f32 [3, 4])]
      result := torch "mean" [.var "x"] }
    steps := [forward [torch "randn" [int 3, int 4]]] },
  { name := "MeanDynamicSizesModule_basic"
    program := {
      className := "MeanDynamicSizesModule"
      params := [("x", f32 [-1, -1])]
      result := torch "mean" [.var "x"] }
    steps := [forward [torch "randn" [int 3, int 4]]] },
  { name := "NumelModule_basic"
    program := {
      className := "NumelModule"
      params := [("input", f32 [-1, -1, -1])]
      result := torch "numel" [.var "input"] }
    steps := [forward [rand [4, 3, 5]]] },
  { name := "NumelZeroRankModule_basic"
    program := {
      className := "NumelZeroRankModule"
      params := [("input", i64 [])]
      result := torch "numel" [.var "input"] }
    steps := [forward [torch "randint" [int 10, ints []]]] }
]

/-- Tensors of zeros and of given truth values. -/
def constantTests : List SuiteTest := [
  { name := "ZerosModuleInt2D_basic"
    program := {
      className := "ZerosModuleInt2D"
      params := []
      result := torchWith "zeros" [int 3, int 4] [("dtype", dtype "int64")] }
    steps := [forward []] },
  { name := "ZerosModuleInt3D_basic"
    program := {
      className := "ZerosModuleInt3D"
      params := []
      result := torchWith "zeros" [int 3, int 4, int 5] [("dtype", dtype "int64")] }
    steps := [forward []] },
  { name := "ZerosModuleFloat2D_basic"
    program := {
      className := "ZerosModuleFloat2D"
      params := []
      result := torchWith "zeros" [int 3, int 4] [("dtype", dtype "float32")] }
    steps := [forward []] },
  { name := "ZerosModuleFloat3D_basic"
    program := {
      className := "ZerosModuleFloat3D"
      params := []
      result := torchWith "zeros" [int 3, int 4, int 5] [("dtype", dtype "float32")] }
    steps := [forward []] },
  { name := "ZerosModuleFalsePinMemory_basic"
    program := {
      className := "ZerosModuleFalsePinMemory"
      params := []
      result :=
        torchWith "zeros" [int 3, int 4] [("dtype", dtype "float32"), ("pin_memory", flag false)] }
    steps := [forward []] },
  { name := "BoolTensorReturnFalseModule_basic"
    program := {
      className := "BoolTensorReturnFalseModule"
      params := [("a", tensorOf "bool" [-1])]
      result := .var "a" }
    steps := [forward [torchWith "tensor" [ints [0, 0]] [("dtype", dtype "bool")]]] },
  { name := "BoolTensorReturnTrueModule_basic"
    program := {
      className := "BoolTensorReturnTrueModule"
      params := [("a", tensorOf "bool" [-1])]
      result := .var "a" }
    steps := [forward [torchWith "tensor" [ints [1, 1, 1, 1, 1]] [("dtype", dtype "bool")]]] },
  { name := "BoolTensorReturnMixedModule_basic"
    program := {
      className := "BoolTensorReturnMixedModule"
      params := [("a", tensorOf "bool" [-1, -1])]
      result := .var "a" }
    steps := [forward [torchWith "tensor" [.list [ints [1, 0], ints [0, 1]]]
                         [("dtype", dtype "bool")]]] }
]

end DialectBench.Suite
