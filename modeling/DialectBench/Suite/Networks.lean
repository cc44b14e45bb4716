import DialectBench.Suite.Basic

/-!
# Tests of networks

Image models, perceptrons, convolutions, normalisation and a quantised perceptron.
-/

namespace DialectBench.Suite

/-- Random input of the quantised perceptron, between minus one and one. -/
def perceptronInput : Expr := int 2 * torch "rand" [shape [1, 16]] - int 1

/-- What the quantised perceptron does with `x`. -/
def perceptronBody : List Stmt := [
  .set "x" (layer "quantize" (.var "x")),
  .set "x" (layer "layers" (.var "x")),
  .set "x" (layer "dequantize" (.var "x"))]

/-- The quantised perceptron.  It runs on random inputs to learn the ranges of its layers before
    they are converted. -/
def quantizedPerceptron : Blueprint where
  className := "QuantizedMLP"
  init := [
    .run (torch "random.manual_seed" [int 0]),
    .setField "layers" (torch "nn.Sequential" [torch "nn.Linear" [int 16, int 8],
      torch "nn.Tanh" [], torch "nn.Linear" [int 8, int 4]]),
    .setField "quantize" (torch "quantization.QuantStub" []),
    .setField "dequantize" (torch "quantization.DeQuantStub" []),
    .run (method "eval" (Blueprint.self "QuantizedMLP") []),
    .run (torchWith "quantization.prepare" [Blueprint.self "QuantizedMLP"]
      [("inplace", flag true)]),
    seed] ++
    (List.replicate 32 (.set "x" perceptronInput :: perceptronBody)).flatten ++
    [.run (torchWith "quantization.convert" [Blueprint.self "QuantizedMLP"]
      [("inplace", flag true)])]
  params := [("x", f32 [1, 16])]
  body := perceptronBody
  result := .var "x"

/-- Image models. -/
def imageTests : List SuiteTest := [
  { name := "ResNet18Module_basic"
    program := {
      className := "ResNet18Module"
      init :=
        [seed, .setField "resnet" (.call "torchvision.models.resnet18" [] []),
         .run (method "train" (Blueprint.self "ResNet18Module") [flag false])]
      params := [("img", f32 [-1, 3, -1, -1])]
      result := method "forward" (.field "resnet") [.var "img"] }
    steps := [forward [rand [1, 3, 224, 224]]] },
  { name := "IouOfModule_basic"
    program := {
      className := "IouOfModule"
      params := [("bbox1", f32 [-1, -1]), ("bbox2", f32 [-1, -1])]
      body :=
        [.set "area1"
           ((item (.var "bbox1") (.tuple [everything, int 2]) -
              item (.var "bbox1") (.tuple [everything, int 0])) *
             (item (.var "bbox1") (.tuple [everything, int 3]) -
               item (.var "bbox1") (.tuple [everything, int 1]))),
         .set "area2"
           ((item (.var "bbox2") (.tuple [everything, int 2]) -
              item (.var "bbox2") (.tuple [everything, int 0])) *
             (item (.var "bbox2") (.tuple [everything, int 3]) -
               item (.var "bbox2") (.tuple [everything, int 1]))),
         .set "lt"
           (torch "maximum" [item (.var "bbox1") (.tuple [everything, span none (some 2)]),
                             item (.var "bbox2") (.tuple [everything, span none (some 2)])]),
         .set "rb"
           (torch "minimum" [item (.var "bbox1") (.tuple [everything, span (some 2) none]),
                             item (.var "bbox2") (.tuple [everything, span (some 2) none])]),
         .set "overlap_coord" (method "clip" (.var "rb" - .var "lt") [int 0]),
         .set "overlap"
           (item (.var "overlap_coord") (.tuple [everything, int 0]) *
             item (.var "overlap_coord") (.tuple [everything, int 1])),
         .set "union" (.var "area1" + .var "area2" - .var "overlap")]
      result := .var "overlap" / .var "union" }
    steps := [forward [rand [1024, 4], rand [1024, 4]]] }
]

/-- Perceptrons. -/
def perceptronTests : List SuiteTest := [
  { name := "Mlp1LayerModule_basic"
    program := {
      className := "Mlp1LayerModule"
      init :=
        [seed, .setField "fc0" (torch "nn.Linear" [int 3, int 5]),
         .setField "tanh0" (torch "nn.Tanh" [])]
      params := [("x", f32 [-1, -1])]
      result := layer "tanh0" (layer "fc0" (.var "x")) }
    steps := [forward [rand [5, 3]]] },
  { name := "Mlp2LayerModule_basic"
    program := {
      className := "Mlp2LayerModule"
      init :=
        [seed, .set "N_HIDDEN" (int 5),
         .setField "fc0" (torch "nn.Linear" [int 3, .var "N_HIDDEN"]),
         .setField "tanh0" (torch "nn.Tanh" []),
         .setField "fc1" (torch "nn.Linear" [.var "N_HIDDEN", int 2]),
         .setField "tanh1" (torch "nn.Tanh" [])]
      params := [("x", f32 [-1, -1])]
      body :=
        [.set "x" (layer "tanh0" (layer "fc0" (.var "x"))),
         .set "x" (layer "tanh1" (layer "fc1" (.var "x")))]
      result := .var "x" }
    steps := [forward [rand [5, 3]]] },
  { name := "BatchMlpLayerModule_basic"
    program := {
      className := "BatchMlpLayerModule"
      init :=
        [seed, .setField "fc0" (torch "nn.Linear" [int 3, int 5]),
         .setField "tanh0" (torch "nn.Tanh" [])]
      params := [("x", f32 [-1, -1, -1])]
      result := layer "tanh0" (layer "fc0" (.var "x")) }
    steps := [forward [rand [7, 5, 3]]] }
]

/-- Convolutions. -/
def convolutionTests : List SuiteTest := [
  { name := "Conv2dNoPaddingModule_basic"
    program := {
      className := "Conv2dNoPaddingModule"
      init :=
        [seed,
         .setField "conv" (torchWith "nn.Conv2d" [int 2, int 10, int 3] [("bias", flag false)]),
         .run (method "train" (Blueprint.self "Conv2dNoPaddingModule") [flag false])]
      params := [("x", f32 [-1, -1, -1, -1])]
      result := layer "conv" (.var "x") }
    steps := [.set "t" (rand [5, 2, 10, 20]), forward [.var "t"]] },
  { name := "Conv2dBiasNoPaddingModule_basic"
    program := {
      className := "Conv2dBiasNoPaddingModule"
      init :=
        [seed,
         .setField "conv" (torchWith "nn.Conv2d" [int 2, int 10, int 3] [("bias", flag true)]),
         .run (method "train" (Blueprint.self "Conv2dBiasNoPaddingModule") [flag false])]
      params := [("x", f32 [-1, -1, -1, -1])]
      result := layer "conv" (.var "x") }
    steps := [.set "t" (rand [5, 2, 10, 20]), forward [.var "t"]] },
  { name := "Conv2dWithPaddingModule_basic"
    program := {
      className := "Conv2dWithPaddingModule"
      init :=
        [seed,
         .setField "conv"
           (torchWith "nn.Conv2d" [int 2, int 10, int 3] [("bias", flag false),
                                                          ("padding", int 3)]),
         .run (method "train" (Blueprint.self "Conv2dWithPaddingModule") [flag false])]
      params := [("x", f32 [-1, -1, -1, -1])]
      result := layer "conv" (.var "x") }
    steps := [.set "t" (rand [5, 2, 10, 20]), forward [.var "t"]] },
  { name := "Conv2dWithPaddingDilationStrideModule_basic"
    program := {
      className := "Conv2dWithPaddingDilationStrideModule"
      init :=
        [seed,
         .setField "conv"
           (torchWith "nn.Conv2d" [] [("in_channels", int 2), ("out_channels", int 10),
                                      ("kernel_size", int 3), ("padding", int 3), ("stride", int 2),
                                      ("dilation", int 3), ("bias", flag false)]),
         .run
           (method "train" (Blueprint.self "Conv2dWithPaddingDilationStrideModule") [flag false])]
      params := [("x", f32 [-1, -1, -1, -1])]
      result := layer "conv" (.var "x") }
    steps := [.set "t" (rand [5, 2, 10, 20]), forward [.var "t"]] }
]

/-- Normalisation over batches and over layers. -/
def normalisationTests : List SuiteTest := [
  { name := "BatchNorm1DModule_basic"
    program := {
      className := "BatchNorm1DModule"
      init :=
        [.setField "bn1d" (torch "nn.BatchNorm1d" [int 4]), .run (method "eval" (.field "bn1d") []),
         setAttr "bn1d" "running_mean" (torch "tensor" [floats [0.5, 0.4, 0.3, 0.6]]),
         setAttr "bn1d" "running_var" (torch "tensor" [floats [3.0, 2.0, 4.0, 5.0]]),
         setAttr "bn1d" "weight"
           (torch "nn.Parameter" [torch "tensor" [floats [3.0, 2.0, 4.0, 5.0]]]),
         setAttr "bn1d" "bias"
           (torch "nn.Parameter" [torch "tensor" [floats [0.5, 0.4, 0.3, 0.6]]])]
      params := [("x", f32 [10, 4, 3])]
      result := layer "bn1d" (.var "x") }
    steps := [forward [rand [10, 4, 3]]] },
  { name := "BatchNorm2DModule_basic"
    program := {
      className := "BatchNorm2DModule"
      init :=
        [.setField "bn2d" (torch "nn.BatchNorm2d" [int 2]), .run (method "eval" (.field "bn2d") []),
         setAttr "bn2d" "running_mean" (torch "tensor" [floats [0.5, 0.4]]),
         setAttr "bn2d" "running_var" (torch "tensor" [floats [3.0, 2.0]]),
         setAttr "bn2d" "weight" (torch "nn.Parameter" [torch "tensor" [floats [3.0, 2.0]]]),
         setAttr "bn2d" "bias" (torch "nn.Parameter" [torch "tensor" [floats [0.5, 0.4]]])]
      params := [("x", f32 [10, 2, 3, 3])]
      result := layer "bn2d" (.var "x") }
    steps := [forward [rand [10, 2, 3, 3]]] },
  { name := "BatchNorm3DModule_basic"
    program := {
      className := "BatchNorm3DModule"
      init :=
        [.setField "bn3d" (torch "nn.BatchNorm3d" [int 5]), .run (method "eval" (.field "bn3d") []),
         setAttr "bn3d" "running_mean" (torch "tensor" [floats [0.5, 0.4, 0.3, 0.2, 0.4]]),
         setAttr "bn3d" "running_var" (torch "tensor" [floats [3.0, 2.0, 4.0, 2.0, 3.0]]),
         setAttr "bn3d" "weight"
           (torch "nn.Parameter" [torch "tensor" [floats [3.0, 2.0, 4.0, 2.0, 3.0]]]),
         setAttr "bn3d" "bias"
           (torch "nn.Parameter" [torch "tensor" [floats [0.5, 0.4, 0.3, 0.2, 0.4]]])]
      params := [("x", f32 [2, 5, 3, 6, 4])]
      result := layer "bn3d" (.var "x") }
    steps := [forward [rand [2, 5, 3, 6, 4]]] },
  { name := "NativeLayerNormModule_basic"
    program := {
      className := "NativeLayerNormModule"
      params := [("x", f32 [2, 5, 2, 2, 3]), ("weight", f32 [2, 2, 3]), ("bias", f32 [2, 2, 3])]
      body := [.set "list" (ints [2, 2, 3])]
      result :=
        item
          (torchWith "ops.aten.native_layer_norm" [.var "x", .var "list", .var "weight",
                                                   .var "bias"] [("eps", float 0.5)]) (int 0) }
    steps := [forward [rand [2, 5, 2, 2, 3], rand [2, 2, 3], rand [2, 2, 3]]] },
  { name := "LayerNormModule_basic"
    program := {
      className := "LayerNormModule"
      init :=
        [.setField "ly" (torch "nn.LayerNorm" [ints [2, 2, 3]]),
         .run (method "eval" (.field "ly") []),
         setAttr "ly" "weight"
           (torch "nn.Parameter" [torch "tensor" [.list [.list
                                                           [floats [3.0, 2.0, 4.0],
                                                            floats [2.0, 3.0, 3.0]],
                                                         .list
                                                           [floats [3.0, 2.0, 4.0],
                                                            floats [2.0, 3.0, 3.0]]]]]),
         setAttr "ly" "bias"
           (torch "nn.Parameter" [torch "tensor" [.list [.list
                                                           [floats [0.5, 0.4, 0.3],
                                                            floats [0.2, 0.4, 0.3]],
                                                         .list
                                                           [floats [0.5, 0.4, 0.3],
                                                            floats [0.2, 0.4, 0.3]]]]])]
      params := [("x", f32 [2, 5, 2, 2, 3])]
      result := layer "ly" (.var "x") }
    steps := [forward [rand [2, 5, 2, 2, 3]]] },
  { name := "LayerNormLastDimModule_basic"
    program := {
      className := "LayerNormLastDimModule"
      init :=
        [.setField "ly" (torch "nn.LayerNorm" [ints [3]]), .run (method "eval" (.field "ly") []),
         setAttr "ly" "weight" (torch "nn.Parameter" [torch "tensor" [floats [2.0, 3.0, 2.0]]]),
         setAttr "ly" "bias" (torch "nn.Parameter" [torch "tensor" [floats [0.2, 0.4, 0.3]]])]
      params := [("x", f32 [2, 5, 2, 2, 3])]
      result := layer "ly" (.var "x") }
    steps := [forward [rand [2, 5, 2, 2, 3]]] },
  { name := "LayerNormNormalizeOverAllDimsModule_basic"
    program := {
      className := "LayerNormNormalizeOverAllDimsModule"
      init :=
        [.setField "ly" (torch "nn.LayerNorm" [ints [2, 2, 3]]),
         .run (method "eval" (.field "ly") []),
         setAttr "ly" "weight"
           (torch "nn.Parameter" [torch "tensor" [.list [.list
                                                           [floats [3.0, 2.0, 4.0],
                                                            floats [2.0, 3.0, 3.0]],
                                                         .list
                                                           [floats [3.0, 2.0, 4.0],
                                                            floats [2.0, 3.0, 3.0]]]]]),
         setAttr "ly" "bias"
           (torch "nn.Parameter" [torch "tensor" [.list [.list
                                                           [floats [0.5, 0.4, 0.3],
                                                            floats [0.2, 0.4, 0.3]],
                                                         .list
                                                           [floats [0.5, 0.4, 0.3],
                                                            floats [0.2, 0.4, 0.3]]]]])]
      params := [("x", f32 [2, 2, 3])]
      result := layer "ly" (.var "x") }
    steps := [forward [rand [2, 2, 3]]] }
]

/-- A quantised perceptron. -/
def quantizedTests : List SuiteTest := [
  { name := "QuantizedMLP_basic"
    program := quantizedPerceptron
    steps := [forward [perceptronInput]] }
]

end DialectBench.Suite
