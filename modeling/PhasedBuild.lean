import PhasedBuild.Build.Coordinator
import PhasedBuild.Build.Ending
import PhasedBuild.Build.Event
import PhasedBuild.Build.Lane
import PhasedBuild.Build.Log
import PhasedBuild.Build.Policy
import PhasedBuild.Build.Record
import PhasedBuild.Build.Run
import PhasedBuild.Build.Schedule
import PhasedBuild.Build.Session
import PhasedBuild.Build.Stage
import PhasedBuild.Build.Status
import PhasedBuild.Build.Summary
import PhasedBuild.Closure
import PhasedBuild.CommandLine.Invocation
import PhasedBuild.CommandLine.Listing
import PhasedBuild.CommandLine.Outcome
import PhasedBuild.CommandLine.Words
import PhasedBuild.Configuration
import PhasedBuild.Coordinate
import PhasedBuild.Datum
import PhasedBuild.Datum.Reading
import PhasedBuild.Decimal.Reading
import PhasedBuild.Decimal.Shortest
import PhasedBuild.Error
import PhasedBuild.Error.Record
import PhasedBuild.Json.Printer
import PhasedBuild.Json.Reader
import PhasedBuild.Keyed
import PhasedBuild.Lifecycle
import PhasedBuild.Lifecycle.Record
import PhasedBuild.Lifecycle.Registry
import PhasedBuild.Lifecycle.Standard
import PhasedBuild.Lock.Aggregator
import PhasedBuild.Lock.Record
import PhasedBuild.Lock.Table
import PhasedBuild.Lock.Unit
import PhasedBuild.Main
import PhasedBuild.Manifest
import PhasedBuild.Pattern.Escape
import PhasedBuild.Pattern.Mode
import PhasedBuild.Pattern.Set
import PhasedBuild.Pattern.Validity
import PhasedBuild.Phase
import PhasedBuild.Phase.Graph
import PhasedBuild.Phase.Order
import PhasedBuild.Phase.Point
import PhasedBuild.Plan.Execution
import PhasedBuild.Plan.Forks
import PhasedBuild.Plan.Mappings
import PhasedBuild.Plan.Record
import PhasedBuild.Plan.Tasks
import PhasedBuild.Proofs.Build.Accounting
import PhasedBuild.Proofs.Build.Completion
import PhasedBuild.Proofs.Build.Confluence
import PhasedBuild.Proofs.Build.Consistency
import PhasedBuild.Proofs.Build.Determinism
import PhasedBuild.Proofs.Build.Halting
import PhasedBuild.Proofs.Build.Handover
import PhasedBuild.Proofs.Build.Invariant
import PhasedBuild.Proofs.Build.KnownUnits
import PhasedBuild.Proofs.Build.Lineup
import PhasedBuild.Proofs.Build.Ordering
import PhasedBuild.Proofs.Build.Ownership
import PhasedBuild.Proofs.Build.Passes
import PhasedBuild.Proofs.Build.Plans
import PhasedBuild.Proofs.Build.Progress
import PhasedBuild.Proofs.Build.Reference
import PhasedBuild.Proofs.Build.Schedule
import PhasedBuild.Proofs.Build.Sequence
import PhasedBuild.Proofs.Build.Starts
import PhasedBuild.Proofs.Build.States
import PhasedBuild.Proofs.Build.Step
import PhasedBuild.Proofs.Build.Traces
import PhasedBuild.Proofs.Build.Unplannable
import PhasedBuild.Proofs.Build.Waves
import PhasedBuild.Proofs.Closure
import PhasedBuild.Proofs.CommandLine.Threads
import PhasedBuild.Proofs.Configuration
import PhasedBuild.Proofs.Configuration.Grouping
import PhasedBuild.Proofs.Configuration.Lists
import PhasedBuild.Proofs.Configuration.Places
import PhasedBuild.Proofs.Keyed
import PhasedBuild.Proofs.Lifecycle.Refusal
import PhasedBuild.Proofs.Lifecycle.Registry
import PhasedBuild.Proofs.Lifecycle.Standard
import PhasedBuild.Proofs.Lifecycle.Standing
import PhasedBuild.Proofs.Lock.Contenders
import PhasedBuild.Proofs.Lock.Crew
import PhasedBuild.Proofs.Lock.Exclusion
import PhasedBuild.Proofs.Lock.Holds
import PhasedBuild.Proofs.Lock.Pursuit
import PhasedBuild.Proofs.Lock.Slots
import PhasedBuild.Proofs.Lock.Wakeups
import PhasedBuild.Proofs.Phase.Cycles
import PhasedBuild.Proofs.Phase.Graph
import PhasedBuild.Proofs.Phase.Order
import PhasedBuild.Proofs.Phase.OtherUnits
import PhasedBuild.Proofs.Phase.Reading
import PhasedBuild.Proofs.Phase.Search
import PhasedBuild.Proofs.Phase.Walk
import PhasedBuild.Proofs.Plan.Calls
import PhasedBuild.Proofs.Plan.DeclaredBindings
import PhasedBuild.Proofs.Plan.ErrorPlaces
import PhasedBuild.Proofs.Plan.Errors
import PhasedBuild.Proofs.Plan.Expansion
import PhasedBuild.Proofs.Plan.FailedForks
import PhasedBuild.Proofs.Plan.Faults
import PhasedBuild.Proofs.Plan.Forks
import PhasedBuild.Proofs.Plan.Layers
import PhasedBuild.Proofs.Plan.Mappings
import PhasedBuild.Proofs.Plan.Nesting
import PhasedBuild.Proofs.Plan.Offers
import PhasedBuild.Proofs.Plan.Overlays
import PhasedBuild.Proofs.Plan.Planning
import PhasedBuild.Proofs.Plan.Points
import PhasedBuild.Proofs.Plan.Shape
import PhasedBuild.Proofs.Plan.Steps
import PhasedBuild.Proofs.Plan.Suppression
import PhasedBuild.Proofs.Results
import PhasedBuild.Proofs.Run.Agenda
import PhasedBuild.Proofs.Run.Aggregates
import PhasedBuild.Proofs.Run.Brackets
import PhasedBuild.Proofs.Run.Contributions
import PhasedBuild.Proofs.Run.Copies
import PhasedBuild.Proofs.Run.Forks
import PhasedBuild.Proofs.Run.KnownUnits
import PhasedBuild.Proofs.Run.Locality
import PhasedBuild.Proofs.Run.Noninterference
import PhasedBuild.Proofs.Run.OwnArtifacts
import PhasedBuild.Proofs.Run.Resolution
import PhasedBuild.Proofs.Search
import PhasedBuild.Proofs.Settings.Threads
import PhasedBuild.Proofs.Sorting
import PhasedBuild.Proofs.Step.Catalog
import PhasedBuild.Proofs.Task.Reading
import PhasedBuild.Proofs.Task.Segments
import PhasedBuild.Proofs.Text
import PhasedBuild.Proofs.Traversal
import PhasedBuild.Proofs.Units.BuildOrder
import PhasedBuild.Proofs.Units.Dependence
import PhasedBuild.Proofs.Units.Paths
import PhasedBuild.Proofs.Units.Scopes
import PhasedBuild.Run.Action
import PhasedBuild.Run.Dependencies
import PhasedBuild.Run.Executor
import PhasedBuild.Run.Inner
import PhasedBuild.Run.Record
import PhasedBuild.Run.Rules
import PhasedBuild.Run.Simulation
import PhasedBuild.Run.State
import PhasedBuild.Scope
import PhasedBuild.Settings
import PhasedBuild.Settings.Filter
import PhasedBuild.Settings.Words
import PhasedBuild.Step.Binding
import PhasedBuild.Step.Catalog
import PhasedBuild.Step.Descriptor
import PhasedBuild.Step.Packaging
import PhasedBuild.Step.Record
import PhasedBuild.Step.Standard
import PhasedBuild.Task
import PhasedBuild.Text.Alphanumeric
import PhasedBuild.Text.Bytes
import PhasedBuild.Text.Characters
import PhasedBuild.Text.Invisible
import PhasedBuild.Text.Quoted
import PhasedBuild.Text.Split
import PhasedBuild.Toml.Moment
import PhasedBuild.Toml.Printer
import PhasedBuild.Toml.Reader
import PhasedBuild.Toml.Scalar
import PhasedBuild.Toml.Strings
import PhasedBuild.Toml.Tree
import PhasedBuild.Units
import PhasedBuild.Units.Edges
import PhasedBuild.Units.Graph
import PhasedBuild.Units.Order
import PhasedBuild.Units.Record
import PhasedBuild.Units.Workspace
