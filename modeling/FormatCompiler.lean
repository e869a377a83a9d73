import FormatCompiler.Compilation.Basic
import FormatCompiler.Proofs.Outcome
import FormatCompiler.Proofs.Numeral
import FormatCompiler.Proofs.ExprGrammar
import FormatCompiler.Proofs.RowText
import FormatCompiler.Proofs.Base64
import FormatCompiler.Proofs.Utf8
import FormatCompiler.Proofs.ExprText
import FormatCompiler.Proofs.NormalForm
import FormatCompiler.Proofs.RowForms
import FormatCompiler.Proofs.RowReading
import FormatCompiler.Proofs.StoredStrings
import FormatCompiler.Proofs.ListingReading
import FormatCompiler.Proofs.ListingRoundTrip
import FormatCompiler.Proofs.ListingStability
import FormatCompiler.Proofs.ExprOrigin
import FormatCompiler.Proofs.RowOrigin
import FormatCompiler.Proofs.ListingFixedPoint
import FormatCompiler.Proofs.AliasGraph
import FormatCompiler.Proofs.AliasWalk
import FormatCompiler.Proofs.AliasResolution
import FormatCompiler.Proofs.WellFormed
import FormatCompiler.Proofs.ImportVisit
import FormatCompiler.Proofs.ImportMerge
import FormatCompiler.Proofs.ExprGrouping
import FormatCompiler.Proofs.TargetGrouping
import FormatCompiler.Proofs.ExprLexing
import FormatCompiler.Proofs.EmbeddedFormat
import FormatCompiler.Proofs.ScopePath
import FormatCompiler.Proofs.ScopeTable
import FormatCompiler.Proofs.ScopeTree
import FormatCompiler.Proofs.ScopeEmission
import FormatCompiler.Proofs.SupportedScope
import FormatCompiler.Proofs.TargetLookup
import FormatCompiler.Proofs.FieldCoherence
import FormatCompiler.Proofs.TypeReference
import FormatCompiler.Proofs.EnumReference
import FormatCompiler.Proofs.CompilationFailure
import FormatCompiler.Proofs.PathPlace
import FormatCompiler.Proofs.DiskChange
import FormatCompiler.Proofs.PathDescent
import FormatCompiler.Proofs.OutputDirectory
import FormatCompiler.Proofs.FormatExtension
import FormatCompiler.Proofs.ImportRows
import FormatCompiler.Proofs.ImportOrder
import FormatCompiler.Proofs.ImportValidity
import FormatCompiler.Proofs.Retyping
import FormatCompiler.Proofs.TypeOrder
import FormatCompiler.Proofs.TargetRetyping
import FormatCompiler.Proofs.TypeResolution
import FormatCompiler.Proofs.EnumLookup
import FormatCompiler.Proofs.ScopeAlias
import FormatCompiler.Proofs.RowLocation
import FormatCompiler.Proofs.InstanceDependency
import FormatCompiler.Proofs.MinusSigns
import FormatCompiler.Proofs.ReadTemplate
import FormatCompiler.Proofs.KeptReads
import FormatCompiler.Proofs.EnumTagging
import FormatCompiler.Proofs.SizelessText
import FormatCompiler.Proofs.SizedText
import FormatCompiler.Proofs.LuaLibraries
import FormatCompiler.Proofs.Literal
import FormatCompiler.Proofs.EncodingLiteral
import FormatCompiler.Proofs.AtomicEmission
import FormatCompiler.Proofs.DeclaringRow
import FormatCompiler.Proofs.WrittenRow
import FormatCompiler.Proofs.WarningSpan
import FormatCompiler.Proofs.AliasMarking
import FormatCompiler.Proofs.SpanLocation
import FormatCompiler.Proofs.SwitchStorage
import FormatCompiler.Proofs.CodeBlocks
import FormatCompiler.Proofs.CodeLevels
import FormatCompiler.Proofs.ClassNesting
import FormatCompiler.Proofs.TargetBlocks
import FormatCompiler.Proofs.Indentation
