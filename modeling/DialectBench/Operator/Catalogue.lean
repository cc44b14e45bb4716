import DialectBench.Operator.Definition
import DialectBench.Operator.Registry

/-!
# The catalogue of generated operators

Which operators are defined in which file, in which order, and what each definition adds.
-/

namespace DialectBench.Operator

/-- A request for the definition of an operator. -/
structure Request where
  key : String
  traits : List String := []
  hasFolder : Bool := false
  hasCanonicalizer : Bool := false
  /-- Whether the variant that works in place, named with a trailing underscore, is defined too. -/
  inPlace : Bool := false
  deriving DecidableEq, Repr

/-- Requests for operators and their variants that work in place. -/
def withVariants (keys : List String) : List Request :=
  keys.map fun k => { key := k, inPlace := true }

/-- Operators of the language itself. -/
def primitives : List Request := [
  { key := "prim::layout : (Tensor) -> (int)" },
  { key := "prim::TupleIndex : (Any, int) -> (Any)", hasCanonicalizer := true },
  { key := "prim::device : (Tensor) -> (Device)" },
  { key := "prim::dtype : (Tensor) -> (int)", hasFolder := true },
  { key := "prim::TupleUnpack : (Any) -> (...)", hasCanonicalizer := true },
  { key := "prim::NumToTensor.Scalar : (Scalar) -> (Tensor)" },
  { key := "prim::min.self_int : (int[]) -> (int)" },
  { key := "prim::min.int : (int, int) -> (int)" },
  { key := "prim::max.self_int : (int[]) -> (int)" },
  { key := "prim::max.int : (int, int) -> (int)" },
  { key := "prim::RaiseException : (str) -> ()" },
  { key := "prim::Uninitialized : () -> (Any)" },
  { key := "prim::unchecked_cast : (t) -> (t)",
    traits := ["DeclareOpInterfaceMethods<CastOpInterface>"] },
  { key := "prim::Print : (...) -> ()" },
  { key := "prim::tolist : (...) -> (...)" }]

/-- Operators that work element by element. -/
def elementwise : List Request := withVariants [
  "aten::tanh : (Tensor) -> (Tensor)",
  "aten::relu : (Tensor) -> (Tensor)",
  "aten::leaky_relu : (Tensor, Scalar) -> (Tensor)",
  "aten::log : (Tensor) -> (Tensor)",
  "aten::sigmoid : (Tensor) -> (Tensor)",
  "aten::sin : (Tensor) -> (Tensor)",
  "aten::exp : (Tensor) -> (Tensor)",
  "aten::cos : (Tensor) -> (Tensor)",
  "aten::neg : (Tensor) -> (Tensor)",
  "aten::floor : (Tensor) -> (Tensor)",
  "aten::ceil : (Tensor) -> (Tensor)",
  "aten::bitwise_not : (Tensor) -> (Tensor)",
  "aten::add.Tensor : (Tensor, Tensor, Scalar) -> (Tensor)",
  "aten::sub.Tensor : (Tensor, Tensor, Scalar) -> (Tensor)",
  "aten::mul.Tensor : (Tensor, Tensor) -> (Tensor)",
  "aten::div.Tensor : (Tensor, Tensor) -> (Tensor)",
  "aten::lerp.Tensor : (Tensor, Tensor, Tensor) -> (Tensor)",
  "aten::eq.Tensor : (Tensor, Tensor) -> (Tensor)",
  "aten::gt.Tensor : (Tensor, Tensor) -> (Tensor)",
  "aten::lt.Tensor : (Tensor, Tensor) -> (Tensor)",
  "aten::ne.Tensor : (Tensor, Tensor) -> (Tensor)",
  "aten::add.Scalar : (Tensor, Scalar, Scalar) -> (Tensor)",
  "aten::sub.Scalar : (Tensor, Scalar, Scalar) -> (Tensor)",
  "aten::mul.Scalar : (Tensor, Scalar) -> (Tensor)",
  "aten::div.Scalar : (Tensor, Scalar) -> (Tensor)",
  "aten::ne.Scalar : (Tensor, Scalar) -> (Tensor)",
  "aten::eq.Scalar : (Tensor, Scalar) -> (Tensor)",
  "aten::gt.Scalar : (Tensor, Scalar) -> (Tensor)",
  "aten::ge.Scalar : (Tensor, Scalar) -> (Tensor)",
  "aten::lt.Scalar : (Tensor, Scalar) -> (Tensor)",
  "aten::fmod.Scalar : (Tensor, Scalar) -> (Tensor)",
  "aten::masked_fill.Scalar : (Tensor, Tensor, Scalar) -> (Tensor)",
  "aten::clamp : (Tensor, Scalar?, Scalar?) -> (Tensor)",
  "aten::log2 : (Tensor) -> (Tensor)",
  "aten::rsqrt : (Tensor) -> (Tensor)",
  "aten::abs : (Tensor) -> (Tensor)",
  "aten::reciprocal : (Tensor) -> (Tensor)",
  "aten::bitwise_and.Tensor : (Tensor, Tensor) -> (Tensor)"]

/-- Operators that work element by element, most of them without a variant that works in place. -/
def elementwiseOnly : List Request := [
  { key := "aten::addcmul : (Tensor, Tensor, Tensor, Scalar) -> (Tensor)" },
  { key := "aten::addcdiv : (Tensor, Tensor, Tensor, Scalar) -> (Tensor)" },
  { key := "aten::maximum : (Tensor, Tensor) -> (Tensor)" },
  { key := "aten::minimum : (Tensor, Tensor) -> (Tensor)" },
  { key := "aten::rsub.Scalar : (Tensor, Scalar, Scalar) -> (Tensor)" },
  { key := "aten::gelu : (Tensor) -> (Tensor)" },
  { key := "aten::pow.Tensor_Scalar : (Tensor, Scalar) -> (Tensor)" },
  { key := "aten::triu : (Tensor, int) -> (Tensor)", inPlace := true },
  { key := "aten::index_put : (Tensor, Tensor?[], Tensor, bool) -> (Tensor)", inPlace := true }]

/-- Other operators that compute tensors. -/
def reductions : List Request := [
  { key := "aten::linear : (Tensor, Tensor, Tensor?) -> (Tensor)" },
  { key := "aten::mm : (Tensor, Tensor) -> (Tensor)" },
  { key := "aten::addmm : (Tensor, Tensor, Tensor, Scalar, Scalar) -> (Tensor)" },
  { key := "aten::matmul : (Tensor, Tensor) -> (Tensor)" },
  { key := "aten::conv2d : (Tensor, Tensor, Tensor?, int[], int[], int[], int) -> (Tensor)" },
  { key := "aten::batch_norm : (Tensor, Tensor?, Tensor?, Tensor?, Tensor?, bool, float, " ++
      "float, bool) -> (Tensor)" },
  { key := "aten::layer_norm : (Tensor, int[], Tensor?, Tensor?, float, bool) -> (Tensor)" },
  { key := "aten::native_layer_norm : (Tensor, int[], Tensor?, Tensor?, float) -> " ++
      "(Tensor, Tensor, Tensor)" },
  { key := "aten::max_pool2d : (Tensor, int[], int[], int[], int[], bool) -> (Tensor)" },
  { key := "aten::softmax.int : (Tensor, int, int?) -> (Tensor)" },
  { key := "aten::log_softmax.int : (Tensor, int, int?) -> (Tensor)" },
  { key := "aten::adaptive_avg_pool2d : (Tensor, int[]) -> (Tensor)" },
  { key := "aten::topk : (Tensor, int, int, bool, bool) -> (Tensor, Tensor)" },
  { key := "aten::transpose.int : (Tensor, int, int) -> (Tensor)" },
  { key := "aten::permute : (Tensor, int[]) -> (Tensor)" },
  { key := "aten::bmm : (Tensor, Tensor) -> (Tensor)" },
  { key := "aten::cumsum : (Tensor, int, int?) -> (Tensor)" },
  { key := "aten::floor_divide.Scalar : (Tensor, Scalar) -> (Tensor)" },
  { key := "aten::logsumexp : (Tensor, int[], bool) -> (Tensor)" },
  { key := "aten::mean.dim : (Tensor, int[], bool, int?) -> (Tensor)" },
  { key := "aten::__and__.Tensor : (Tensor, Tensor) -> (Tensor)" },
  { key := "aten::sqrt : (Tensor) -> (Tensor)" },
  { key := "aten::_softmax : (Tensor, int, bool) -> (Tensor)" },
  { key := "aten::mean : (Tensor, int?) -> (Tensor)" },
  { key := "aten::nll_loss_forward : (Tensor, Tensor, Tensor?, int, int) -> (Tensor, Tensor)" }]

/-- Operators on shapes, types and storage of tensors. -/
def tensors : List Request := [
  { key := "aten::squeeze.dim : (Tensor, int) -> (Tensor)", hasFolder := true },
  { key := "aten::unsqueeze : (Tensor, int) -> (Tensor)" },
  { key := "aten::squeeze : (Tensor) -> (Tensor)", hasFolder := true },
  { key := "aten::flatten.using_ints : (Tensor, int, int) -> (Tensor)" },
  { key := "aten::dim : (Tensor) -> (int)", hasFolder := true },
  { key := "aten::size : (Tensor) -> (int[])", hasCanonicalizer := true },
  { key := "aten::fill_.Scalar : (Tensor, Scalar) -> (Tensor)" },
  { key := "aten::Bool.Tensor : (Tensor) -> (bool)" },
  { key := "aten::ones : (int[], int?, int?, Device?, bool?) -> (Tensor)" },
  { key := "aten::zeros : (int[], int?, int?, Device?, bool?) -> (Tensor)" },
  { key := "aten::tensor : (t[], int?, Device?, bool) -> (Tensor)" },
  { key := "aten::tensor.bool : (bool, int?, Device?, bool) -> (Tensor)" },
  { key := "aten::tensor.int : (int, int?, Device?, bool) -> (Tensor)" },
  { key := "aten::_shape_as_tensor : (Tensor) -> (Tensor)" },
  { key := "aten::all : (Tensor) -> (Tensor)" },
  { key := "aten::any : (Tensor) -> (Tensor)" },
  { key := "aten::any.dim : (Tensor, int, bool) -> (Tensor)" },
  { key := "aten::arange : (Scalar, int?, int?, Device?, bool?) -> (Tensor)" },
  { key := "aten::arange.start : (Scalar, Scalar, int?, int?, Device?, bool?) -> (Tensor)" },
  { key := "aten::argmax : (Tensor, int?, bool) -> (Tensor)" },
  { key := "aten::bucketize.Tensor : (Tensor, Tensor, bool, bool) -> (Tensor)" },
  { key := "aten::contiguous : (Tensor, int) -> (Tensor)" },
  { key := "aten::copy_ : (Tensor, Tensor, bool) -> (Tensor)" },
  { key := "aten::detach : (Tensor) -> (Tensor)" },
  { key := "aten::embedding : (Tensor, Tensor, int, bool, bool) -> (Tensor)" },
  { key := "aten::empty_like : (Tensor, int?, int?, Device?, bool?, int?) -> (Tensor)" },
  { key := "aten::empty.memory_format : (int[], int?, int?, Device?, bool?, int?) -> (Tensor)" },
  { key := "aten::expand : (Tensor, int[], bool) -> (Tensor)" },
  { key := "aten::broadcast_to : (Tensor, int[]) -> (Tensor)" },
  { key := "aten::index.Tensor : (Tensor, Tensor?[]) -> (Tensor)" },
  { key := "aten::index_select : (Tensor, int, Tensor) -> (Tensor)" },
  { key := "aten::item : (Tensor) -> (Scalar)" },
  { key := "aten::masked_select : (Tensor, Tensor) -> (Tensor)" },
  { key := "aten::numel : (Tensor) -> (int)" },
  { key := "aten::repeat : (Tensor, int[]) -> (Tensor)" },
  { key := "aten::reshape : (Tensor, int[]) -> (Tensor)" },
  { key := "aten::resize_ : (Tensor, int[], int?) -> (Tensor)" },
  { key := "aten::select.int : (Tensor, int, int) -> (Tensor)" },
  { key := "aten::size.int : (Tensor, int) -> (int)", hasFolder := true },
  { key := "aten::stack : (Tensor[], int) -> (Tensor)" },
  { key := "aten::sum : (Tensor, int?) -> (Tensor)" },
  { key := "aten::sum.dim_IntList : (Tensor, int[], bool, int?) -> (Tensor)" },
  { key := "aten::to.dtype : (Tensor, int, bool, bool, int?) -> (Tensor)" },
  { key := "aten::to.other : (Tensor, Tensor, bool, bool, int?) -> (Tensor)" },
  { key := "aten::to.prim_Device : (Tensor, Device?, int?, bool, bool) -> (Tensor)" },
  { key := "aten::type_as : (Tensor, Tensor) -> (Tensor)" },
  { key := "aten::view : (Tensor, int[]) -> (Tensor)" },
  { key := "aten::where.self : (Tensor, Tensor, Tensor) -> (Tensor)" },
  { key := "aten::slice.Tensor : (Tensor, int, int?, int?, int) -> (Tensor)" },
  { key := "aten::len.Tensor : (Tensor) -> (int)" },
  { key := "aten::cpu : (Tensor) -> (Tensor)" },
  { key := "aten::gather : (Tensor, int, Tensor, bool) -> (Tensor)" },
  { key := "aten::IntImplicit : (Tensor) -> (int)" },
  { key := "aten::tensor.float : (float, int?, Device?, bool) -> (Tensor)" },
  { key := "aten::Int.Tensor : (Tensor) -> (int)", hasFolder := true },
  { key := "aten::dropout : (Tensor, float, bool) -> (Tensor)" }]

/-- Operators on dictionaries. -/
def dictionaries : List Request := [
  { key := "aten::__contains__.str : (Dict(str, t), str) -> (bool)", hasFolder := true },
  { key := "aten::__getitem__.Dict_str : (Dict(str, t), str) -> (t)", hasFolder := true },
  { key := "aten::_set_item.str : (Dict(str, t), str, t) -> ()" },
  { key := "aten::keys.str : (Dict(str, t)) -> (str[])" },
  { key := "aten::get.default_str : (Dict(str, t), str, t) -> (t)" },
  { key := "aten::Delete.Dict_str : (Dict(str, t), str) -> ()" }]

/-- Operators on lists. -/
def lists : List Request := [
  { key := "aten::cat : (Tensor[], int) -> (Tensor)" },
  { key := "aten::append.t : (t[], t) -> (t[])" },
  { key := "aten::add.t : (t[], t[]) -> (t[])" },
  { key := "aten::eq.int_list : (int[], int[]) -> (bool)" },
  { key := "aten::list.t : (t[]) -> (t[])" },
  { key := "aten::slice.t : (t[], int?, int?, int) -> (t[])" }]

/-- Operators on strings. -/
def strings : List Request := [
  { key := "aten::add.str : (str, str) -> (str)" },
  { key := "aten::str : (t) -> (str)" },
  { key := "aten::format : (...) -> (str)" },
  { key := "aten::join : (str, str[]) -> (str)" }]

/-- Conversions between numbers and strings. -/
def conversions : List Request := [
  { key := "aten::Float.Scalar : (Scalar) -> (float)" },
  { key := "aten::Float.str : (str) -> (float)" },
  { key := "aten::Int.float : (float) -> (int)" }]

/-- Operators on scalars. -/
def scalars : List Request := [
  { key := "aten::gt.int : (int, int) -> (bool)", hasFolder := true },
  { key := "aten::ge.int : (int, int) -> (bool)", hasFolder := true },
  { key := "aten::lt.int : (int, int) -> (bool)", hasFolder := true },
  { key := "aten::le.int : (int, int) -> (bool)", hasFolder := true },
  { key := "aten::ne.int : (int, int) -> (bool)", hasFolder := true },
  { key := "aten::eq.int : (int, int) -> (bool)", hasFolder := true },
  { key := "aten::floordiv.int : (int, int) -> (int)", hasFolder := true },
  { key := "aten::remainder.int : (int, int) -> (int)", hasFolder := true },
  { key := "aten::add.int : (int, int) -> (int)", hasFolder := true },
  { key := "aten::sub.int : (int, int) -> (int)", hasFolder := true },
  { key := "aten::mul.int : (int, int) -> (int)", hasFolder := true },
  { key := "aten::log.int : (int) -> (float)" },
  { key := "aten::add.float_int : (float, int) -> (float)" },
  { key := "aten::mul.float : (float, float) -> (float)" },
  { key := "aten::neg.float : (float) -> (float)" },
  { key := "aten::lt.float_int : (float, int) -> (bool)" },
  { key := "aten::__and__.bool : (bool, bool) -> (bool)" },
  { key := "aten::ne.bool : (bool, bool) -> (bool)", hasFolder := true },
  { key := "aten::__is__ : (t1, t2) -> (bool)", hasFolder := true },
  { key := "aten::__isnot__ : (t1, t2) -> (bool)", hasFolder := true },
  { key := "aten::__not__ : (bool) -> (bool)", hasFolder := true },
  { key := "aten::len.t : (t[]) -> (int)", hasFolder := true, hasCanonicalizer := true },
  { key := "aten::__getitem__.t : (t[], int) -> (t)", hasCanonicalizer := true },
  { key := "aten::_set_item.t : (t[], int, t) -> (t[])" },
  { key := "aten::div : (Scalar, Scalar) -> (float)" },
  { key := "aten::eq.device : (Device, Device) -> (bool)" }]

/-- Operators of gradients. -/
def gradients : List Request := [
  { key := "aten::_softmax_backward_data : (Tensor, Tensor, int, int) -> (Tensor)" },
  { key := "aten::tanh_backward : (Tensor, Tensor) -> (Tensor)" },
  { key := "aten::gelu_backward : (Tensor, Tensor) -> (Tensor)" },
  { key := "aten::_log_softmax_backward_data : (Tensor, Tensor, int, int) -> (Tensor)" }]

/-- Operators on quantized tensors. -/
def quantized : List Request := [
  { key := "quantized::linear : (Tensor, " ++
      "__torch__.torch.classes.quantized.LinearPackedParamsBase, float, int) -> (Tensor)",
    traits := ["HasValueSemantics"] }]

/-- The generated files, in the order in which they are written. -/
def catalogue : List (String × List Request) := [
  ("GeneratedPrimOps.td", primitives),
  ("GeneratedAtenOps.td", elementwise ++ elementwiseOnly ++ reductions ++ tensors ++ dictionaries ++
    lists ++ strings ++ conversions ++ scalars ++ gradients),
  ("GeneratedQuantizedOps.td", quantized)]

end DialectBench.Operator
