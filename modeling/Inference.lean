import Inference.Foundation.PrefixCode
import Inference.Foundation.Decimal
import Inference.Foundation.Collecting
import Inference.Foundation.Discipline
import Inference.Foundation.KeyedTable
import Inference.Ast.Nodes
import Inference.Ast.Traversal
import Inference.Ast.NonDeterminism
import Inference.Ast.NodeIds
import Inference.TypeChecker.ProgramChecker
import Inference.TypeChecker.ExpressionRuns
import Inference.TypeChecker.ScopeTree
import Inference.TypeChecker.ScopeInvariant
import Inference.TypeChecker.LexicalScope
import Inference.TypeChecker.StatementRuns
import Inference.TypeChecker.ProgramRuns
import Inference.TypeChecker.ScopeHistory
import Inference.TypeChecker.ErrorReports
import Inference.TypeChecker.Annotations
import Inference.TypeChecker.Visibility
import Inference.TypeChecker.ImportResolution
import Inference.TypeChecker.Typing
import Inference.TypeChecker.Sites
import Inference.TypeChecker.ExpressionInference
import Inference.Codegen.Llvm
import Inference.Codegen.Compiler
import Inference.Codegen.Emission
import Inference.Codegen.OptimizationBarriers
import Inference.Codegen.BlockStructure
import Inference.Codegen.LexicalLowering
import Inference.Codegen.VariableResolution
import Inference.WasmToV.Wasm
import Inference.WasmToV.Operator
import Inference.WasmToV.OperatorTranslation
import Inference.WasmToV.Support
import Inference.WasmToV.ExpressionTranslation
import Inference.WasmToV.ModuleTranslation
import Inference.WasmToV.Parser
import Inference.WasmToV.Reconstruction
import Inference.WasmToV.Nesting
import Inference.WasmToV.Rendering
import Inference.WasmToV.Appearance
import Inference.WasmToV.EntrySupport
import Inference.WasmToV.ErrorRecovery
import Inference.WasmToV.OperatorTerm
import Inference.WasmToV.CanonicalOperator
import Inference.WasmToV.Faithfulness
import Inference.WasmToV.ModuleContents
import Inference.WasmToV.FunctionNaming
import Inference.WasmToV.LocalNaming
import Inference.Foundation.Identifier
import Inference.WasmToV.DefinitionNames
import Inference.Foundation.Delimiter
import Inference.WasmToV.SectionLists
import Inference.WasmToV.TypeIndexSpace
import Inference.WasmToV.ExpressionPanics
import Inference.WasmToV.Totality
import Inference.Foundation.RocqText
import Inference.WasmToV.NameEscaping
import Inference.WasmToV.EntryTexts
import Inference.WasmToV.SegmentTexts
import Inference.WasmToV.ModuleFaithfulness
import Inference.Foundation.Spelling
import Inference.WatFmt.Formatter
import Inference.WatFmt.Printing
import Inference.WatFmt.Indentation
import Inference.WatFmt.TokenRoundTrip
import Inference.Infs.ManifestCache
import Inference.Foundation.Brackets
import Inference.Wat.LabelResolution
import Inference.Wasmparser.ControlStack
import Inference.WasmToV.NestingDepth
import Inference.Wat.LabelAgreement
import Inference.Infs.SharedDownloads
import Inference.Foundation.Effects
import Inference.Foundation.FileSystem
import Inference.Foundation.FileRequests
import Inference.Foundation.FileFrames
import Inference.Foundation.FileRules
import Inference.Infs.ToolchainPaths
import Inference.Infs.ToolchainRuns
import Inference.Infs.UninstallConfinement
import Inference.Infs.Archive
import Inference.Infs.ExtractionConfinement
import Inference.Wat.ExpressionParser
import Inference.Wat.FoldedForms
import Inference.Wat.FoldedAgreement
import Inference.TypeChecker.OperatorTyping
import Inference.TypeChecker.TypeMeanings
import Inference.TypeChecker.TypeNames
import Inference.TypeChecker.StableRuns
import Inference.TypeChecker.Revisits
import Inference.TypeChecker.SilentFailures
import Inference.TypeChecker.InferenceAgreement
import Inference.TypeChecker.StatementAgreement
import Inference.TypeChecker.ProgramAgreement
import Inference.Infs.CommandLine
import Inference.Infs.Screens
import Inference.Infs.TerminalApp
import Inference.Infs.ScreenNavigation
import Inference.Infs.BackgroundInstallation
import Inference.Infs.Cancellation
import Inference.Foundation.Panics
import Inference.TypeChecker.ExpressionPanics
import Inference.TypeChecker.Panics
import Inference.TypeChecker.GenericCalls
import Inference.Foundation.Ledger
import Inference.TypeChecker.DeclaredNames
import Inference.TypeChecker.DuplicateDefinitions
import Inference.Foundation.Worklist
import Inference.Ast.VoidBlocks
import Inference.Ast.Arena
import Inference.WatFmt.Totality
import Inference.Foundation.Blocks
import Inference.Foundation.Gregorian
import Inference.Foundation.UnsignedText
import Inference.Infs.InstallDates
import Inference.Infs.CompilerResolution
import Inference.Infs.LinkRepair
import Inference.Infs.LineEditor
import Inference.Infs.VersionSelection
import Inference.Infs.FallbackDefault
import Inference.Infs.SearchPath
import Inference.Foundation.Triples
import Inference.Foundation.FileKeeping
import Inference.Infs.Scaffold
import Inference.Infs.ScaffoldRecovery
import Inference.Foundation.FilePlacing
import Inference.Infs.RootStripping
import Inference.Foundation.RocqTerms
import Inference.WasmToV.TermReading
import Inference.WasmToV.ConstantNumerals
import Inference.WasmToV.ConstantValues
import Inference.WasmToV.FunctionHeaders
import Inference.Foundation.ByteNumbers
import Inference.Foundation.Reading
import Inference.Wat.BinaryEncoding
import Inference.Wasmparser.BinaryReader
import Inference.Wasmparser.NumberReading
import Inference.Wat.TypeReading
import Inference.Wat.BinaryRoundTrip
import Inference.Foundation.Results
import Inference.Foundation.ByteText
import Inference.Ast.SyntaxTree
import Inference.Ast.Building
import Inference.Ast.Builder
import Inference.Ast.ArgumentLists
import Inference.Ast.Growth
import Inference.Ast.BuilderGrowth
import Inference.Ast.SourceSlices
import Inference.Infc.LlvmToolchain
import Inference.Infc.Driver
import Inference.Infc.DriverRuns
import Inference.Infc.OutputConfinement
import Inference.Infs.CompilerCommands
import Inference.Infs.CommandRuns
import Inference.Foundation.Agreement
import Inference.Codegen.Meaning
import Inference.Codegen.MeaningPreservation
import Inference.Foundation.ExactReading
import Inference.Wasmparser.ExactNumbers
