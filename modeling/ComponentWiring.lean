import ComponentWiring.Build
import ComponentWiring.CommandLine.Logging
import ComponentWiring.CommandLine.Request
import ComponentWiring.CommandLine.Run
import ComponentWiring.Data.Mismatch
import ComponentWiring.Data.Reader
import ComponentWiring.Data.Value
import ComponentWiring.Decimal.Binary64
import ComponentWiring.Declaration
import ComponentWiring.Diagnostics
import ComponentWiring.Document
import ComponentWiring.Emission
import ComponentWiring.Error
import ComponentWiring.Event
import ComponentWiring.File.Disk
import ComponentWiring.File.Listing
import ComponentWiring.File.Path
import ComponentWiring.File.Tree
import ComponentWiring.FileBuild
import ComponentWiring.Graph.Basic
import ComponentWiring.Graph.Builder
import ComponentWiring.Graph.Ordering
import ComponentWiring.Identity
import ComponentWiring.Json.Reader
import ComponentWiring.Json.Writer
import ComponentWiring.Outcome
import ComponentWiring.Pipeline
import ComponentWiring.Report.Basic
import ComponentWiring.Report.Text
import ComponentWiring.Report.Timestamp
import ComponentWiring.Scan
import ComponentWiring.Seen
import ComponentWiring.Settings.Basic
import ComponentWiring.Settings.File
import ComponentWiring.Settings.Layers
import ComponentWiring.Settings.Literal
import ComponentWiring.Text.Blank
import ComponentWiring.Text.CaseTable
import ComponentWiring.Text.CodePoints
import ComponentWiring.Text.HiddenTable
import ComponentWiring.Text.Lowercase
import ComponentWiring.Text.Parser
import ComponentWiring.Text.Quoted
import ComponentWiring.Text.Split
import ComponentWiring.Text.Utf8
import ComponentWiring.Toml.Edition
import ComponentWiring.Toml.Quoted
import ComponentWiring.Toml.Scalar
import ComponentWiring.Toml.Statement
import ComponentWiring.Toml.Table
import ComponentWiring.Toml.Writer
import ComponentWiring.Validation
import ComponentWiring.Violation
import ComponentWiring.Main
import ComponentWiring.Proofs.GraphChanges
import ComponentWiring.Proofs.SearchInvariant
import ComponentWiring.Proofs.OrderOrCycle
import ComponentWiring.Proofs.RecursiveSearch
import ComponentWiring.Proofs.SearchStates
import ComponentWiring.Proofs.BuiltGraph
import ComponentWiring.Proofs.Passes
import ComponentWiring.Proofs.Happenings
import ComponentWiring.Proofs.Acceptance
import ComponentWiring.Proofs.Verdicts
import ComponentWiring.Proofs.BatchCuts
import ComponentWiring.Proofs.StaleDeliveries
import ComponentWiring.Proofs.GraphGrowth
import ComponentWiring.Proofs.LaterPasses
import ComponentWiring.Proofs.Chronicle
import ComponentWiring.Proofs.BuildReports
import ComponentWiring.Proofs.TreeGrowth
import ComponentWiring.Proofs.Emissions
import ComponentWiring.Proofs.RegistrationPlaces
import ComponentWiring.Proofs.FailedEmissions
import ComponentWiring.Proofs.EmissionFaults
import ComponentWiring.Proofs.PathParts
import ComponentWiring.Proofs.MadeDirectories
import ComponentWiring.Proofs.FileBuilds
import ComponentWiring.Proofs.BuildPasses
import ComponentWiring.Proofs.ExitStatus
import ComponentWiring.Proofs.GraphHistory
import ComponentWiring.Proofs.Rejections
import ComponentWiring.Proofs.CounterLaws
import ComponentWiring.Proofs.DryRuns
import ComponentWiring.Proofs.FirstDeclarations
import ComponentWiring.Proofs.DeclarationOrder
import ComponentWiring.Proofs.RegistrationNames
import ComponentWiring.Proofs.Manifests
import ComponentWiring.Proofs.QuotedStrings
import ComponentWiring.Proofs.Registrations
import ComponentWiring.Proofs.PathOrder
import ComponentWiring.Proofs.SoundTrees
import ComponentWiring.Proofs.DocumentScans
import ComponentWiring.Proofs.ParserRests
import ComponentWiring.Proofs.StatementLines
import ComponentWiring.Proofs.HeaderLines
import ComponentWiring.Proofs.KeyedFields
import ComponentWiring.Proofs.ReadFields
import ComponentWiring.Proofs.ComponentRows
import ComponentWiring.Proofs.DeclarationLines
import ComponentWiring.Proofs.Extensions
import ComponentWiring.Proofs.ManifestPaths
import ComponentWiring.Proofs.StatementTexts
import ComponentWiring.Proofs.JsonTexts
import ComponentWiring.Proofs.ReportTexts
import ComponentWiring.Proofs.SavedSettings
import ComponentWiring.Proofs.ReadStructures
import ComponentWiring.Proofs.CanonicalValues
import ComponentWiring.Proofs.WholeValues
import ComponentWiring.Proofs.SettingsLeaves
import ComponentWiring.Proofs.SettingsLayers
import ComponentWiring.Proofs.ResolvedSettings
