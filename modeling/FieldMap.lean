import FieldMap.Artifact.Decode
import FieldMap.Artifact.Encode
import FieldMap.Artifact.Format
import FieldMap.CommandLine
import FieldMap.Compile
import FieldMap.CompileError
import FieldMap.Disk
import FieldMap.Event
import FieldMap.Failure
import FieldMap.FileSystem
import FieldMap.FileTree
import FieldMap.Loading
import FieldMap.Lookup
import FieldMap.Main
import FieldMap.Mapping
import FieldMap.Mapping.Listing
import FieldMap.Path
import FieldMap.Proofs.ArtifactCanonical
import FieldMap.Proofs.ArtifactExcess
import FieldMap.Proofs.ArtifactRefusal
import FieldMap.Proofs.ArtifactRoundTrip
import FieldMap.Proofs.BrokenRules
import FieldMap.Proofs.DeclarationForms
import FieldMap.Proofs.Declarations
import FieldMap.Proofs.Flattening
import FieldMap.Proofs.ForestNodes
import FieldMap.Proofs.LayoutSteps
import FieldMap.Proofs.LeafIntervals
import FieldMap.Proofs.ListedLines
import FieldMap.Proofs.ListedRun
import FieldMap.Proofs.ListingRoundTrip
import FieldMap.Proofs.NewNames
import FieldMap.Proofs.Numerals
import FieldMap.Proofs.Outcome
import FieldMap.Proofs.ParsedStructs
import FieldMap.Proofs.PipelineRoundTrip
import FieldMap.Proofs.ReferenceChain
import FieldMap.Proofs.RegistryGrammar
import FieldMap.Proofs.Renaming
import FieldMap.Proofs.ScannedDeclarations
import FieldMap.Proofs.StructUses
import FieldMap.Proofs.Unfolding
import FieldMap.Proofs.UnfoldingLayout
import FieldMap.Proofs.WithinReach
import FieldMap.Registry
import FieldMap.Registry.Parser
import FieldMap.Registry.Slot
import FieldMap.Reporting
import FieldMap.Run
import FieldMap.Saving
import FieldMap.Schema
import FieldMap.Schema.Declaration
import FieldMap.Schema.Parser
import FieldMap.Scope
import FieldMap.Selection
import FieldMap.Text.Blank
import FieldMap.Text.Digit
import FieldMap.Text.EditDistance
import FieldMap.Text.Lines
import FieldMap.Text.Quoted
import FieldMap.Text.Ranges
import FieldMap.Text.Utf8
import FieldMap.Text.Word
import FieldMap.Traced
import FieldMap.World
import FieldMap.Proofs.PathsAbove
import FieldMap.Proofs.LinkWalks
import FieldMap.Proofs.DiskChanges
import FieldMap.Proofs.Places
import FieldMap.Proofs.StatefulEnds
import FieldMap.Proofs.FileMachines
import FieldMap.Proofs.SavedFiles
import FieldMap.Proofs.ReplacedFiles
import FieldMap.Proofs.UnsavedRuns
import FieldMap.Proofs.EmittedRuns
import FieldMap.Proofs.EmittedMapping
import FieldMap.Proofs.RunInputs
import FieldMap.Proofs.EditScripts
import FieldMap.Proofs.DistanceTable
import FieldMap.Proofs.ChosenTargets
import FieldMap.Proofs.DiagnosticNames
import FieldMap.Proofs.TemporaryPlace
import FieldMap.Proofs.WholeSaves
import FieldMap.Proofs.DelimitedFiles
import FieldMap.Proofs.EndedLines
import FieldMap.Proofs.JoinedSchemas
import FieldMap.Proofs.RegistryRefusal
import FieldMap.Proofs.RegistryGrowth
import FieldMap.Proofs.SeenFiles
import FieldMap.Proofs.MergedSchemas
import FieldMap.Proofs.AddedStructs
import FieldMap.Proofs.FirstExcess
import FieldMap.Proofs.RegistrySequence
import FieldMap.Proofs.BodyEnds
import FieldMap.Proofs.TrailingText
import FieldMap.Proofs.MappingLines
import FieldMap.Proofs.Suggestions
import FieldMap.Proofs.RepeatCounts
import FieldMap.Proofs.IndexOverflow
import FieldMap.Proofs.MemberCounts
import FieldMap.Proofs.InPlaceLayout
import FieldMap.Proofs.ExpansionBounds
import FieldMap.Proofs.PositionalReader
import FieldMap.Proofs.ReadingBounds
import FieldMap.Proofs.AcceptedOptions
import FieldMap.Proofs.FailureWording
import FieldMap.Proofs.InternalErrors
