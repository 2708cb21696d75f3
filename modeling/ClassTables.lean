import ClassTables.Binding.Data
import ClassTables.Binding.Error
import ClassTables.Binding.Header
import ClassTables.Binding.Ivars
import ClassTables.Binding.Method
import ClassTables.Binding.Spec
import ClassTables.Bootstrap.Basic
import ClassTables.Bootstrap.Error
import ClassTables.Bootstrap.Parcel
import ClassTables.CType
import ClassTables.Class.Basic
import ClassTables.Class.Head
import ClassTables.Class.Method
import ClassTables.Declaration
import ClassTables.Files.Access
import ClassTables.Files.Error
import ClassTables.Files.Memory
import ClassTables.Files.Path
import ClassTables.Files.Tree
import ClassTables.Fragment.Basic
import ClassTables.Fragment.Printer
import ClassTables.Hierarchy.Basic
import ClassTables.Hierarchy.Build
import ClassTables.Hierarchy.Error
import ClassTables.Hierarchy.Order
import ClassTables.Json.Basic
import ClassTables.Json.Lexer
import ClassTables.Json.Parser
import ClassTables.Json.Record
import ClassTables.Json.Token
import ClassTables.Main
import ClassTables.Manifest.Basic
import ClassTables.Manifest.Reader
import ClassTables.Output.Basic
import ClassTables.Output.Bootstrap
import ClassTables.Output.ClassFiles
import ClassTables.Output.CoreText
import ClassTables.Output.Dirs
import ClassTables.Output.Frame
import ClassTables.Output.Names
import ClassTables.Output.ParcelFiles
import ClassTables.Output.PlatformFile
import ClassTables.Output.Writing
import ClassTables.Parcel
import ClassTables.Platform
import ClassTables.Proofs.Agreement
import ClassTables.Proofs.BootProgram
import ClassTables.Proofs.BootRules
import ClassTables.Proofs.Build
import ClassTables.Proofs.DirectCalls
import ClassTables.Proofs.FlattenedMethods
import ClassTables.Proofs.Initializers
import ClassTables.Proofs.Layout
import ClassTables.Proofs.Lineage
import ClassTables.Proofs.Lists
import ClassTables.Proofs.LoadedParcels
import ClassTables.Proofs.Loading
import ClassTables.Proofs.MemberPlaces
import ClassTables.Proofs.Methods
import ClassTables.Proofs.ParcelOrder
import ClassTables.Proofs.Preorder
import ClassTables.Proofs.Resuming
import ClassTables.Proofs.Runtime
import ClassTables.Proofs.Specs
import ClassTables.Proofs.Starting
import ClassTables.Proofs.WellFormed
import ClassTables.Registry.Basic
import ClassTables.Registry.Error
import ClassTables.Registry.Spec
import ClassTables.Run.Basic
import ClassTables.Run.CommandLine
import ClassTables.Run.Error
import ClassTables.Run.Options
import ClassTables.Target
import ClassTables.Text.Blank
import ClassTables.Text.Buffer
import ClassTables.Text.Case
import ClassTables.Text.Case.Context
import ClassTables.Text.Case.Mapping
import ClassTables.Text.Concealed
import ClassTables.Text.Cut
import ClassTables.Text.Lines
import ClassTables.Text.Name
import ClassTables.Text.Quoted
import ClassTables.Text.Ranges
import ClassTables.Variable
import ClassTables.Zoo
import ClassTables.Proofs.FieldPlaces
import ClassTables.Registry.Store
import ClassTables.Proofs.Store
import ClassTables.Proofs.StoredRegistry
import ClassTables.Proofs.Cycles
import ClassTables.Proofs.StableSlots
import ClassTables.Proofs.ParcelCycles
import ClassTables.Proofs.LoadingOrder
import ClassTables.Proofs.Contents
import ClassTables.Proofs.ClassContents
import ClassTables.Proofs.ClassRows
import ClassTables.Proofs.OffsetVariables
import ClassTables.Proofs.Callbacks
import ClassTables.Proofs.ClassVariables
import ClassTables.Proofs.PrerequisitesFirst
import ClassTables.Proofs.Locality
import ClassTables.Proofs.CallForests
import ClassTables.Proofs.MemoryFiles
import ClassTables.Proofs.OutputPlaces
import ClassTables.Output.Drafts
import ClassTables.Proofs.Drafts
import ClassTables.Proofs.Writing
import ClassTables.Proofs.IncludeGuards
import ClassTables.Proofs.OutputDirectories
import ClassTables.Proofs.Inclusions
import ClassTables.Proofs.FittingSpecs
import ClassTables.Proofs.DeclarationOrder
import ClassTables.Proofs.Comments
import ClassTables.Proofs.FramedTexts
import ClassTables.Proofs.WrittenTokens
import ClassTables.Proofs.WrittenDocuments
import ClassTables.Proofs.WrittenManifests
import ClassTables.Proofs.ForestOrder
import ClassTables.Proofs.MemberSplit
import ClassTables.Proofs.NaturalLayout
import ClassTables.Proofs.ExtendedBlocks
import ClassTables.Proofs.ParcelRosters
import ClassTables.Proofs.BlockRanges
import ClassTables.Proofs.QualifiedTypes
import ClassTables.Proofs.WrappedSums
import ClassTables.Proofs.StructDefinitions
import ClassTables.Proofs.StoredFiles
import ClassTables.Proofs.OptionGrammar
import ClassTables.Proofs.InertClasses
import ClassTables.Proofs.LetterCase
import ClassTables.Proofs.DefinedNames
import ClassTables.Proofs.PrintedLines
import ClassTables.Proofs.Indentation
import ClassTables.Proofs.Conditionals
