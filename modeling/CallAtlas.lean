import CallAtlas.Atlas.Basic
import CallAtlas.Atlas.Resolution
import CallAtlas.Atlas.Result
import CallAtlas.Block.Basic
import CallAtlas.Block.Braces
import CallAtlas.Block.Keywords
import CallAtlas.Command.Arguments
import CallAtlas.Command.Run
import CallAtlas.Command.Switch
import CallAtlas.Config.Basic
import CallAtlas.Config.Read
import CallAtlas.Config.Value
import CallAtlas.Document.Json
import CallAtlas.Document.Records
import CallAtlas.Entry.Rules
import CallAtlas.Extraction
import CallAtlas.Files.Disk
import CallAtlas.Files.Entry
import CallAtlas.Files.Links
import CallAtlas.Glob.Basic
import CallAtlas.Glob.Parse
import CallAtlas.Grammar.Abap
import CallAtlas.Grammar.BraceFamily
import CallAtlas.Grammar.CSharp
import CallAtlas.Grammar.Go
import CallAtlas.Grammar.Java
import CallAtlas.Grammar.Script
import CallAtlas.Graph.Basic
import CallAtlas.Graph.Cycle
import CallAtlas.Graph.Depth
import CallAtlas.Language
import CallAtlas.Main
import CallAtlas.Mask
import CallAtlas.Pattern.Basic
import CallAtlas.Pattern.Search
import CallAtlas.Pattern.Vocabulary
import CallAtlas.Project.Analysis
import CallAtlas.Project.Discovery
import CallAtlas.Project.ModuleName
import CallAtlas.Proofs.CallGraph
import CallAtlas.Python.Docstring
import CallAtlas.Python.Expression
import CallAtlas.Python.Outline
import CallAtlas.Python.Shape
import CallAtlas.Python.Token
import CallAtlas.Python.Tree
import CallAtlas.Python.Walk
import CallAtlas.Record.Call
import CallAtlas.Record.ControlFlow
import CallAtlas.Record.EntryPoint
import CallAtlas.Record.FileRecords
import CallAtlas.Record.Function
import CallAtlas.Report.Style
import CallAtlas.Report.Summary
import CallAtlas.Scan.CallSite
import CallAtlas.Scan.Construct
import CallAtlas.Scan.Container
import CallAtlas.Scan.Declaration
import CallAtlas.Scan.DocComment
import CallAtlas.Scan.File
import CallAtlas.Scan.Grammar
import CallAtlas.Scan.Parameter
import CallAtlas.Text.Basic
import CallAtlas.Text.Cut
import CallAtlas.Text.HiddenTable
import CallAtlas.Text.Letter
import CallAtlas.Text.LetterTable
import CallAtlas.Text.Quoted
import CallAtlas.Text.Utf8
import CallAtlas.Text.Words
import CallAtlas.Yaml.Node
import CallAtlas.Yaml.Place
import CallAtlas.Yaml.Scalar
import CallAtlas.Yaml.Token
import CallAtlas.Proofs.CycleExploration
import CallAtlas.Proofs.CycleSearch
import CallAtlas.Proofs.CycleCoverage
import CallAtlas.Proofs.CallDepth
import CallAtlas.Proofs.AtlasReferences
import CallAtlas.Proofs.Encoding
import CallAtlas.Proofs.PatternMatches
import CallAtlas.Proofs.PatternReaders
import CallAtlas.Proofs.ViewAlignment
import CallAtlas.Proofs.AtlasIds
import CallAtlas.Proofs.PatternShape
import CallAtlas.Proofs.BlockPlaces
import CallAtlas.Proofs.BodyPlaces
import CallAtlas.Proofs.DeclarationPlaces
import CallAtlas.Proofs.Ownership
import CallAtlas.Proofs.LineContainment
import CallAtlas.Proofs.ByteOrder
import CallAtlas.Proofs.FileTree
import CallAtlas.Proofs.DiscoveredFiles
import CallAtlas.Proofs.VisibleText
import CallAtlas.Proofs.RecordPositions
import CallAtlas.Proofs.FileIds
import CallAtlas.Proofs.StableReaders
import CallAtlas.Proofs.StrippedViews
import CallAtlas.Proofs.NameResolution
import CallAtlas.Proofs.BraceMatching
import CallAtlas.Proofs.AbapBlocks
import CallAtlas.Proofs.ModuleNames
import CallAtlas.Proofs.PrunedTrees
import CallAtlas.Proofs.DroppedFiles
import CallAtlas.Proofs.CallAdjacency
import CallAtlas.Proofs.CycleLimit
import CallAtlas.Proofs.AddedRecords
import CallAtlas.Proofs.PythonSites
import CallAtlas.Proofs.PythonCallOwners
import CallAtlas.Proofs.EntryIds
import CallAtlas.Proofs.HiddenDeclarations
import CallAtlas.Proofs.NameChains
import CallAtlas.Proofs.CalledNames
import CallAtlas.Proofs.ParameterParts
import CallAtlas.Proofs.DocComments
import CallAtlas.Proofs.ConstructForms
import CallAtlas.Proofs.StringLiterals
import CallAtlas.Proofs.SwitchLabels
import CallAtlas.Proofs.BodyEnds
import CallAtlas.Proofs.ElseOwners
import CallAtlas.Proofs.BlockNesting
import CallAtlas.Proofs.RawStrings
import CallAtlas.Proofs.DocstringContent
import CallAtlas.Proofs.ContainerNesting
import CallAtlas.Proofs.ClassPaths
import CallAtlas.Proofs.DecoratorPlaces
import CallAtlas.Proofs.CheckedCuts
import CallAtlas.Proofs.CheckedHeaders
import CallAtlas.Proofs.CheckedDeclarations
import CallAtlas.Proofs.CheckedBodies
import CallAtlas.Proofs.CheckedExtraction
import CallAtlas.Proofs.DeclarationSpans
