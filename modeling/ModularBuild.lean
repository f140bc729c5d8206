import ModularBuild.Artifact
import ModularBuild.Build.Execute
import ModularBuild.Build.Node
import ModularBuild.Build.Site
import ModularBuild.Build.Target
import ModularBuild.Checksum
import ModularBuild.CommandLine
import ModularBuild.CommandLine.Arguments
import ModularBuild.CommandLine.Subcommand
import ModularBuild.Date
import ModularBuild.Failure
import ModularBuild.Files.Error
import ModularBuild.Files.Mode
import ModularBuild.Files.Operations
import ModularBuild.Files.Resolve
import ModularBuild.Files.System
import ModularBuild.Files.Task
import ModularBuild.Graph.Basic
import ModularBuild.Graph.Derive
import ModularBuild.Graph.Levels
import ModularBuild.Graph.Toposort
import ModularBuild.Host
import ModularBuild.Install
import ModularBuild.Log
import ModularBuild.Manifest.Module
import ModularBuild.Manifest.Project
import ModularBuild.Module.Contribution
import ModularBuild.Module.Path
import ModularBuild.Moment
import ModularBuild.Moment.Reader
import ModularBuild.Naming
import ModularBuild.Number.Fraction
import ModularBuild.Number.Layout
import ModularBuild.Package
import ModularBuild.Package.Tar
import ModularBuild.Path
import ModularBuild.Path.Relative
import ModularBuild.Plan.Basic
import ModularBuild.Plan.Error
import ModularBuild.Plan.Registry
import ModularBuild.Plan.Report
import ModularBuild.Process.Command
import ModularBuild.Process.FileTest
import ModularBuild.Process.Launch
import ModularBuild.Process.Machine
import ModularBuild.Process.Output
import ModularBuild.Process.Standard
import ModularBuild.Proofs.Build.Cleaning
import ModularBuild.Proofs.Build.CommandLines
import ModularBuild.Proofs.Build.Commands
import ModularBuild.Proofs.Build.Confinement
import ModularBuild.Proofs.Build.ExactCleaning
import ModularBuild.Proofs.Build.Execution
import ModularBuild.Proofs.Build.Failures
import ModularBuild.Proofs.Build.Freshness
import ModularBuild.Proofs.Build.Incremental
import ModularBuild.Proofs.Build.Node
import ModularBuild.Proofs.Build.Outcomes
import ModularBuild.Proofs.Build.Preflight
import ModularBuild.Proofs.Build.Presence
import ModularBuild.Proofs.Build.Propagation
import ModularBuild.Proofs.Build.Reads
import ModularBuild.Proofs.Build.Rebuilding
import ModularBuild.Proofs.Build.Schedules
import ModularBuild.Proofs.Build.Workshop
import ModularBuild.Proofs.Files.Contents
import ModularBuild.Proofs.Files.Copies
import ModularBuild.Proofs.Files.Entries
import ModularBuild.Proofs.Files.Outside
import ModularBuild.Proofs.Files.Removal
import ModularBuild.Proofs.Files.Walking
import ModularBuild.Proofs.Graph.Aggregates
import ModularBuild.Proofs.Graph.Consistency
import ModularBuild.Proofs.Graph.Cycles
import ModularBuild.Proofs.Graph.Edges
import ModularBuild.Proofs.Graph.GeneratedSources
import ModularBuild.Proofs.Graph.Growth
import ModularBuild.Proofs.Graph.Insertions
import ModularBuild.Proofs.Graph.Levels
import ModularBuild.Proofs.Graph.LongestChain
import ModularBuild.Proofs.Graph.Lookup
import ModularBuild.Proofs.Graph.Producers
import ModularBuild.Proofs.Graph.Reach
import ModularBuild.Proofs.Graph.RuleInputs
import ModularBuild.Proofs.Graph.Shorthands
import ModularBuild.Proofs.Graph.TestPrograms
import ModularBuild.Proofs.Graph.TopologicalOrder
import ModularBuild.Proofs.Graph.Wiring
import ModularBuild.Proofs.InstalledFiles
import ModularBuild.Proofs.Installing
import ModularBuild.Proofs.Loading
import ModularBuild.Proofs.ModuleIdentity
import ModularBuild.Proofs.ModuleSelection
import ModularBuild.Proofs.Package.Archive
import ModularBuild.Proofs.Package.Contents
import ModularBuild.Proofs.Package.Reading
import ModularBuild.Proofs.Path.Ancestors
import ModularBuild.Proofs.Path.Join
import ModularBuild.Proofs.Path.Normalize
import ModularBuild.Proofs.Path.Resolution
import ModularBuild.Proofs.Plan.Artifacts
import ModularBuild.Proofs.Plan.Declarations
import ModularBuild.Proofs.Plan.FailedCalls
import ModularBuild.Proofs.Plan.Interleaving
import ModularBuild.Proofs.Plan.Manifests
import ModularBuild.Proofs.Plan.ModuleState
import ModularBuild.Proofs.Plan.ObjectClashes
import ModularBuild.Proofs.Plan.Union
import ModularBuild.Proofs.Preservation
import ModularBuild.Proofs.ProjectLoading
import ModularBuild.Proofs.SortedMap
import ModularBuild.Proofs.Toolchain.Precedence
import ModularBuild.Regex.Basic
import ModularBuild.Regex.Reader
import ModularBuild.Shell.Arithmetic
import ModularBuild.Shell.Builtin.Basic
import ModularBuild.Shell.Builtin.Condition
import ModularBuild.Shell.Builtin.Directory
import ModularBuild.Shell.Builtin.Jobs
import ModularBuild.Shell.Builtin.Names
import ModularBuild.Shell.Builtin.Variables
import ModularBuild.Shell.Expansion
import ModularBuild.Shell.Field
import ModularBuild.Shell.Grammar
import ModularBuild.Shell.Pattern
import ModularBuild.Shell.Program
import ModularBuild.Shell.Run
import ModularBuild.Shell.Simple
import ModularBuild.Shell.State
import ModularBuild.Shell.Syntax
import ModularBuild.Shell.Token
import ModularBuild.Shell.WordReader
import ModularBuild.SortedMap
import ModularBuild.Text.CharClass
import ModularBuild.Text.Difference
import ModularBuild.Text.Escape
import ModularBuild.Text.Format
import ModularBuild.Text.Json
import ModularBuild.Text.Reader
import ModularBuild.Text.Utf8
import ModularBuild.Text.VersionOrder
import ModularBuild.Toml.Document
import ModularBuild.Toml.Number
import ModularBuild.Toml.Quoted
import ModularBuild.Toml.Statement
import ModularBuild.Toml.Value
import ModularBuild.Toolchain.Config
import ModularBuild.Utility.ArgumentLists
import ModularBuild.Utility.Basic
import ModularBuild.Utility.Blocks
import ModularBuild.Utility.Characters
import ModularBuild.Utility.Checksums
import ModularBuild.Utility.Columns
import ModularBuild.Utility.Comparison
import ModularBuild.Utility.Condition
import ModularBuild.Utility.Copying
import ModularBuild.Utility.Count
import ModularBuild.Utility.Difference
import ModularBuild.Utility.Difference.Mode
import ModularBuild.Utility.Difference.Written
import ModularBuild.Utility.Directories
import ModularBuild.Utility.Dump
import ModularBuild.Utility.Edit
import ModularBuild.Utility.Edit.Reader
import ModularBuild.Utility.Edit.Run
import ModularBuild.Utility.Edit.Script
import ModularBuild.Utility.Encoding
import ModularBuild.Utility.Expression
import ModularBuild.Utility.Find
import ModularBuild.Utility.Find.Query
import ModularBuild.Utility.Find.Reader
import ModularBuild.Utility.Identity
import ModularBuild.Utility.Input
import ModularBuild.Utility.Lines
import ModularBuild.Utility.Links
import ModularBuild.Utility.Listing
import ModularBuild.Utility.Options
import ModularBuild.Utility.Ordered
import ModularBuild.Utility.PathNames
import ModularBuild.Utility.Permissions
import ModularBuild.Utility.Printing
import ModularBuild.Utility.Removal
import ModularBuild.Utility.Rules
import ModularBuild.Utility.Rules.Association
import ModularBuild.Utility.Rules.Builtin
import ModularBuild.Utility.Rules.Grammar
import ModularBuild.Utility.Rules.Pattern
import ModularBuild.Utility.Rules.State
import ModularBuild.Utility.Rules.Syntax
import ModularBuild.Utility.Rules.Token
import ModularBuild.Utility.Rules.Value
import ModularBuild.Utility.Search
import ModularBuild.Utility.Sequence
import ModularBuild.Utility.Sort
import ModularBuild.Utility.Starting
import ModularBuild.Utility.Status
import ModularBuild.Utility.Table
import ModularBuild.Utility.Times
import ModularBuild.Workspace
