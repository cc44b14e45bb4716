import DialectBench.Suite.ElementTypes
import DialectBench.Suite.General
import DialectBench.Suite.Gradients
import DialectBench.Suite.Networks
import DialectBench.Suite.Picking
import DialectBench.Suite.Pointwise
import DialectBench.Suite.Products
import DialectBench.Suite.Reductions
import DialectBench.Suite.Shapes

/-!
# The suite

All tests of the suite in the order in which they are registered.
-/

namespace DialectBench.Suite

/-- The tests of the suite, in order of registration. -/
def tests : List SuiteTest :=
  matrixTests ++ layoutTests ++ layerTests ++ freshTests ++ numberTests ++ fillTests ++
  constantTests ++
  imageTests ++ perceptronTests ++ convolutionTests ++ normalisationTests ++ quantizedTests ++
  arityTests ++ activationTests ++ comparisonTests ++ arithmeticTests ++ functionTests ++
  promotionTests ++ conversionTests ++ gradientTests ++ reductionTests ++ productTests ++
  viewTests ++ integerTests ++ squeezeTests ++ sliceTests ++ lossTests ++ indexTests

/-- The registry of the suite, whose programs compute with expressions. -/
def registry : List (Test World Program Datum) :=
  (tests.map fun t => t.test .symbolic []).foldl register []

/-- The test of a name. -/
def find? (name : String) : Option SuiteTest := tests.find? (·.name == name)

end DialectBench.Suite
