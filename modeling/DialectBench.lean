import DialectBench.Assets.Command
import DialectBench.Assets.Programs
import DialectBench.Bench.Code
import DialectBench.Bench.Program
import DialectBench.Decimal.Read
import DialectBench.Graph.Build
import DialectBench.Main
import DialectBench.Notes.Export
import DialectBench.Operator.Command
import DialectBench.Operator.Files
import DialectBench.Operator.Signature
import DialectBench.Options
import DialectBench.Packaging
import DialectBench.Pipeline.Invoker
import DialectBench.Pipeline.Lowering
import DialectBench.Promotion
import DialectBench.Report.Summary
import DialectBench.Suite.Basic
import DialectBench.Suite.Command
import DialectBench.Suite.ElementTypes
import DialectBench.Suite.General
import DialectBench.Suite.Gradients
import DialectBench.Suite.Networks
import DialectBench.Suite.Picking
import DialectBench.Suite.Pointwise
import DialectBench.Suite.Products
import DialectBench.Suite.Reductions
import DialectBench.Suite.Registry
import DialectBench.Text.Capital
import DialectBench.Text.Quoted
import DialectBench.Value.Arrays
import DialectBench.Proofs.KeyOrder
import DialectBench.Proofs.Positions
import DialectBench.Proofs.Verdict
import DialectBench.Proofs.Findings
import DialectBench.Proofs.Calls
import DialectBench.Proofs.DottedPath
import DialectBench.Proofs.GraphMeaning
import DialectBench.Proofs.Replay
import DialectBench.Proofs.Translation
import DialectBench.Proofs.Accounting
import DialectBench.Proofs.NativeReplay
import DialectBench.Proofs.GoldenRun
import DialectBench.Proofs.InPlace
import DialectBench.Proofs.Onward
import DialectBench.Proofs.GoldenRecord
import DialectBench.Proofs.Relocation
import DialectBench.Proofs.Apart
import DialectBench.Proofs.Isolation
import DialectBench.Proofs.Marking
import DialectBench.Proofs.Annotations
import DialectBench.Proofs.RegistryIndex
import DialectBench.Proofs.GenerationOrder
import DialectBench.Proofs.PrintedLines
import DialectBench.Proofs.OperatorNames
import DialectBench.Proofs.DefinitionReader
import DialectBench.Proofs.DefinitionText
import DialectBench.Proofs.PromotionOrder
import DialectBench.Proofs.Conversion
import DialectBench.Proofs.ArrayBackend
import DialectBench.Proofs.CleanStop
import DialectBench.Proofs.ExitStatus
import DialectBench.Proofs.Explanations
import DialectBench.Proofs.DeclaredNames
import DialectBench.Proofs.ExportWalk
import DialectBench.Proofs.Doubles
import DialectBench.Proofs.NearestEven
import DialectBench.Proofs.RelativeError
import DialectBench.Proofs.FailureReports
import DialectBench.Proofs.RecordedCalls
import DialectBench.Proofs.EntryOrder
import DialectBench.Proofs.ReturnTypes
import DialectBench.Proofs.ModuleLayout
import DialectBench.Proofs.PendingResult
import DialectBench.Proofs.DocBlocks
import DialectBench.Proofs.OperatorKeys
import DialectBench.Proofs.StringLiterals
import DialectBench.Proofs.Underscores
import DialectBench.Graph.Bounds
import DialectBench.Operator.Emission
import DialectBench.Proofs.Emissions
import DialectBench.Proofs.ArgumentBounds
import DialectBench.Proofs.TypeTexts
