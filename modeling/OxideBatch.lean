import OxideBatch.Core.Component
import OxideBatch.Item.Source
import OxideBatch.Item.JsonLines
import OxideBatch.Item.JsonLinesSpec
import OxideBatch.Item.JsonLinesRestart
import OxideBatch.Item.CsvCore
import OxideBatch.Item.Delimited
import OxideBatch.Item.DelimitedRaw
import OxideBatch.Item.DelimitedRows
import OxideBatch.Item.DelimitedRestart
import OxideBatch.Item.CsvMachine
import OxideBatch.Core.Counts
import OxideBatch.Core.Fault
import OxideBatch.Lib.Program
import OxideBatch.Chunk.Events
import OxideBatch.Chunk.Loop
import OxideBatch.Chunk.Account
import OxideBatch.Chunk.Quiet
import OxideBatch.Chunk.Conservation
import OxideBatch.Core.Text
import OxideBatch.Plan.Pattern
import OxideBatch.Lib.DepthFirst
import OxideBatch.Lib.Walk
import OxideBatch.Plan.Compile
import OxideBatch.Plan.Interpret
import OxideBatch.Plan.CompileFrame
import OxideBatch.Plan.CompileScope
import OxideBatch.Plan.Flatten
import OxideBatch.Repository.Identity
import OxideBatch.Repository.Execution
import OxideBatch.Repository.Records
import OxideBatch.Repository.State
import OxideBatch.Repository.Launch
import OxideBatch.Repository.Steps
import OxideBatch.Repository.Partition
import OxideBatch.Repository.Control
import OxideBatch.Repository.Retention
import OxideBatch.Repository.World
import OxideBatch.Lib.Ledger
import OxideBatch.Repository.LaunchChecks
import OxideBatch.Item.FixedWidth
import OxideBatch.Item.FixedWidthFaults
import OxideBatch.Item.DelimitedFaults
import OxideBatch.Core.Json
import OxideBatch.Plan.Declaration
import OxideBatch.Plan.Manifest
import OxideBatch.Plan.Base
import OxideBatch.Plan.Routes
import OxideBatch.Plan.Scopes
import OxideBatch.Plan.WellRouted
import OxideBatch.Lib.Agreement
import OxideBatch.Plan.Similar
import OxideBatch.Plan.SimilarEdges
import OxideBatch.Plan.SimilarCompile
import OxideBatch.Plan.SimilarPlan
import OxideBatch.Plan.Tally
import OxideBatch.Plan.TallyScope
import OxideBatch.Plan.TallyCompile
import OxideBatch.Core.JsonWalk
import OxideBatch.Plan.ManifestShape
import OxideBatch.Plan.Emitted
import OxideBatch.Plan.ChunkChange
import OxideBatch.Plan.ChunkIdentity
import OxideBatch.Plan.Readable
import OxideBatch.Plan.ReadBack
import OxideBatch.Item.OutputFile
import OxideBatch.Item.FileWriterSpec
import OxideBatch.Item.FileWriterRuns
import OxideBatch.Core.ComponentState
import OxideBatch.Core.ComponentChecksum
import OxideBatch.Core.ComponentMigration
import OxideBatch.Lib.History
import OxideBatch.Chunk.PhaseRule
import OxideBatch.Chunk.FaultLedger
import OxideBatch.Chunk.ReadAccount
import OxideBatch.Chunk.Candidates
import OxideBatch.Chunk.StreamStep
import OxideBatch.Chunk.StreamLife
import OxideBatch.Chunk.FaultState
import OxideBatch.Chunk.Reinvocation
import OxideBatch.Chunk.ReinvocationLoop
import OxideBatch.Chunk.RetryBudget
import OxideBatch.Plan.Upgrade
import OxideBatch.Plan.UpgradeNodes
import OxideBatch.Plan.FlatCompile
import OxideBatch.Plan.UpgradeWalk
import OxideBatch.Plan.UpgradeFind
import OxideBatch.Plan.UpgradeStanding
import OxideBatch.Plan.UpgradeContracts
import OxideBatch.Plan.UpgradeEndpoints
import OxideBatch.Plan.UpgradeCover
import OxideBatch.Lib.Journal
import OxideBatch.Service.Retention
import OxideBatch.Service.RetentionRuns
import OxideBatch.Chunk.StoreAgreement
import OxideBatch.Chunk.FaultFormat
import OxideBatch.Chunk.FaultRoundTrip
import OxideBatch.Lib.Chains
import OxideBatch.Scope.Live
import OxideBatch.Scope.Validate
import OxideBatch.Scope.Build
import OxideBatch.Completion.Adaptive
import OxideBatch.Chunk.Protocol
import OxideBatch.Chunk.Orderly
import OxideBatch.Chunk.OrderlyLoop
import OxideBatch.Chunk.Settlement
import OxideBatch.Flow.Base
import OxideBatch.Flow.Split
import OxideBatch.Repository.Effects
import OxideBatch.Repository.Changes
import OxideBatch.Repository.Journal
import OxideBatch.Repository.Instances
import OxideBatch.Flow.Launch
import OxideBatch.Repository.Links
import OxideBatch.Lib.Iterations
import OxideBatch.Repository.ManifestReader
import OxideBatch.Repository.Repeats
import OxideBatch.Repository.RepeatHistory
import OxideBatch.Core.Backoff
import OxideBatch.Plan.Wildcards
import OxideBatch.Lib.InPlace
import OxideBatch.Plan.FaultManifest
import OxideBatch.Repository.Aggregation
import OxideBatch.Repository.Lifecycle
import OxideBatch.Repository.PartitionMutation
import OxideBatch.Lib.Legible
import OxideBatch.Repository.KeyDigests
import OxideBatch.Lib.Hex
import OxideBatch.Service.ExplorerCursor
import OxideBatch.Service.CursorCodec
import OxideBatch.Service.Requests
import OxideBatch.Service.RequestDigests
import OxideBatch.Service.RequestBinding
import OxideBatch.Lib.Guards
import OxideBatch.Plan.Lenient
import OxideBatch.Plan.Selection
import OxideBatch.Plan.Ambiguity
import OxideBatch.Item.DelimitedBounds
import OxideBatch.Core.UpgradeOrder
import OxideBatch.Completion.Fingerprints
import OxideBatch.Completion.Composite
import OxideBatch.Item.FixedWidthLines
import OxideBatch.Item.FixedWidthRoundTrip
import OxideBatch.Core.DurableRoundTrip
import OxideBatch.Repository.Attempts
import OxideBatch.Repository.AttemptRuns
import OxideBatch.Lib.Removals
import OxideBatch.Lib.Failures
import OxideBatch.Repository.Listings
import OxideBatch.Repository.PurgeCounts
import OxideBatch.Repository.PurgeVerdicts
import OxideBatch.Item.MultiResource
import OxideBatch.Item.MultiResourceReader
import OxideBatch.Item.MultiResourceWriter
import OxideBatch.Item.MultiResourceTraversal
import OxideBatch.Item.MultiResourceRollover
