import LiteHarness.Foundation.SelfDelimiting
import LiteHarness.Foundation.Effect
import LiteHarness.Foundation.Table
import LiteHarness.Foundation.FencedLock
import LiteHarness.Foundation.Forest
import LiteHarness.Foundation.KeyedQueue
import LiteHarness.Foundation.Paging
import LiteHarness.Foundation.Noninterference
import LiteHarness.Foundation.Suspension
import LiteHarness.Foundation.Ownership
import LiteHarness.Foundation.BoundedMemo
import LiteHarness.Foundation.Alternatives
import LiteHarness.Platform.JsString
import LiteHarness.Platform.JsValue
import LiteHarness.Platform.Paths
import LiteHarness.ControlPlane.CanonicalJson
import LiteHarness.ControlPlane.ApprovalDigest
import LiteHarness.Domain.Records
import LiteHarness.Domain.Budgets
import LiteHarness.Storage.Rows
import LiteHarness.Storage.RunStore
import LiteHarness.Storage.Operations
import LiteHarness.Storage.Changes
import LiteHarness.Storage.Fencing
import LiteHarness.Storage.Logged
import LiteHarness.Storage.Issued
import LiteHarness.Storage.Tree
import LiteHarness.Storage.EventText
import LiteHarness.Storage.Registry
import LiteHarness.Storage.Linked
import LiteHarness.Storage.Idempotency
import LiteHarness.Storage.Migration
import LiteHarness.Storage.MigratedKeys
import LiteHarness.Storage.MigratedIdentities
import LiteHarness.Storage.OwnerView
import LiteHarness.Storage.Separated
import LiteHarness.Storage.OwnOperations
import LiteHarness.Storage.Noninterference
import LiteHarness.ControlPlane.Service
import LiteHarness.ControlPlane.ChildBudget
import LiteHarness.ControlPlane.Approvals
import LiteHarness.ControlPlane.Runs
import LiteHarness.ControlPlane.Agent
import LiteHarness.ControlPlane.Execute
import LiteHarness.ControlPlane.Machine
import LiteHarness.ControlPlane.Effects
import LiteHarness.ControlPlane.Stretches
import LiteHarness.ControlPlane.Steps
import LiteHarness.ControlPlane.EventSourcing
import LiteHarness.ControlPlane.StatusPath
import LiteHarness.ControlPlane.BudgetTree
import LiteHarness.ControlPlane.BudgetSchema
import LiteHarness.ControlPlane.Consistency
import LiteHarness.ControlPlane.Terminal
import LiteHarness.ControlPlane.ToolApproval
import LiteHarness.ControlPlane.Settlement
import LiteHarness.ControlPlane.Cancellation
import LiteHarness.ControlPlane.Queue
import LiteHarness.ControlPlane.EventPages
import LiteHarness.Manager.ArtifactRoute
import LiteHarness.Gateway.RunRoute
import LiteHarness.Auth.AccessTokens
import LiteHarness.Auth.TokenHistories
import LiteHarness.Provider.Models
import LiteHarness.Provider.Registry
import LiteHarness.Provider.RoutedTurn
import LiteHarness.Provider.Fallback
import LiteHarness.Provider.Gateways
import LiteHarness.Provider.FrozenRoutes
import LiteHarness.Provider.Evictions
import LiteHarness.Provider.CredentialBroker
import LiteHarness.Provider.FreshCredentials
import LiteHarness.ProcessRpc.Settling
import LiteHarness.ProcessRpc.Instances
import LiteHarness.Foundation.Faults
import LiteHarness.Foundation.Checks
import LiteHarness.Foundation.FileTree
import LiteHarness.Foundation.Files
import LiteHarness.Platform.Crypto
import LiteHarness.Platform.NodePaths
import LiteHarness.Sdk.StreamFrames
import LiteHarness.Workspace.ArchiveReading
import LiteHarness.Workspace.SnapshotFormat
import LiteHarness.Workspace.Snapshots
import LiteHarness.Workspace.Lifecycle
import LiteHarness.Workspace.LifecycleSafety
import LiteHarness.Workspace.RecoveryBundle
import LiteHarness.Workspace.SnapshotRecovery
import LiteHarness.Workspace.Compactor
import LiteHarness.Workspace.Coalescing
import LiteHarness.Workspace.BundleRecovery
import LiteHarness.Storage.JsonReading
import LiteHarness.Workspace.CacheDescriptor
import LiteHarness.Workspace.CacheKeys
import LiteHarness.Automation.Calendar
import LiteHarness.Automation.Triggers
import LiteHarness.Storage.RunKeys
import LiteHarness.Automation.Scheduler
import LiteHarness.Automation.Occurrences
import LiteHarness.Foundation.Grids
import LiteHarness.Automation.Courses
import LiteHarness.Automation.CourseRuns
import LiteHarness.Integrations.ReplyLeases
import LiteHarness.Integrations.Deliveries
import LiteHarness.Operations.LockRecovery
import LiteHarness.Plugins.LockRuns
import LiteHarness.Plugins.Supervision
import LiteHarness.Mcp.Leases
import LiteHarness.Provider.Encodings
import LiteHarness.Foundation.OrderedMap
import LiteHarness.Foundation.Generators
import LiteHarness.Provider.Answers
import LiteHarness.Provider.ChatCompletions
import LiteHarness.Provider.ChatDecoders
import LiteHarness.Provider.AnthropicMessages
import LiteHarness.Provider.AnthropicDecoders
import LiteHarness.Provider.Responses
import LiteHarness.Provider.ResponsesDecoders
import LiteHarness.Provider.ResponsesOnce
import LiteHarness.Platform.TextDecoder
import LiteHarness.Provider.EventStream
import LiteHarness.Provider.EventStreamCuts
import LiteHarness.ProcessRpc.Framing
import LiteHarness.ProcessRpc.FramingRuns
import LiteHarness.Manager.ProviderConnections
import LiteHarness.Manager.ConnectionRuns
import LiteHarness.Platform.NumberText
import LiteHarness.Provider.Pricing
import LiteHarness.Operations.LogStream
import LiteHarness.Gateway.AuthFailures
import LiteHarness.Context.Blocks
import LiteHarness.Context.Compiler
import LiteHarness.Context.CompilerRuns
import LiteHarness.Browser.Profiles
import LiteHarness.Browser.ProfileRecovery
import LiteHarness.Workspace.Confinement
import LiteHarness.Operations.ServiceDocuments
import LiteHarness.Foundation.Selection
import LiteHarness.Skills.Frontmatter
import LiteHarness.Skills.Manifests
import LiteHarness.Skills.Discovery
import LiteHarness.Skills.Catalog
import LiteHarness.Skills.CatalogProperties
import LiteHarness.Skills.RunSnapshots
import LiteHarness.Skills.CatalogRuns
import LiteHarness.Sdk.FollowedRuns
import LiteHarness.Foundation.Jumps
import LiteHarness.Automation.CivilDays
import LiteHarness.Automation.Zones
import LiteHarness.Automation.DailyTimes
import LiteHarness.Automation.Recurrence
import LiteHarness.ControlPlane.Transcripts
import LiteHarness.ControlPlane.Restart
