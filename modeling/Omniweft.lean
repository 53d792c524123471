import Omniweft.Library.Outcome
import Omniweft.Library.Arena
import Omniweft.Library.Forest
import Omniweft.Library.Timeline
import Omniweft.Library.Delimited
import Omniweft.Library.Numbering
import Omniweft.Library.Keyed
import Omniweft.Library.Grammar
import Omniweft.Library.Logs
import Omniweft.Library.Blocks
import Omniweft.Library.Frames
import Omniweft.Library.IteratedHash
import Omniweft.Library.Zonotope
import Omniweft.Scalar
import Omniweft.Text
import Omniweft.World
import Omniweft.Json
import Omniweft.JsonText
import Omniweft.Commands
import Omniweft.CommandsValid
import Omniweft.CommandsRoundTrip
import Omniweft.CommandsAccepts
import Omniweft.Schema
import Omniweft.ProtocolSchema
import Omniweft.Transactions
import Omniweft.TransactionsSteps
import Omniweft.TransactionsRuns
import Omniweft.TransactionsReplay
import Omniweft.Handles
import Omniweft.Hierarchy
import Omniweft.HierarchyForest
import Omniweft.HierarchyTransforms
import Omniweft.Stamping
import Omniweft.Placement
import Omniweft.HierarchyCache
import Omniweft.Content
import Omniweft.History
import Omniweft.HistoryEdits
import Omniweft.HistoryRuns
import Omniweft.CanonicalWorlds
import Omniweft.BatchSplit
import Omniweft.HistoryUndo
import Omniweft.Replay
import Omniweft.ReplayRuns
import Omniweft.ReplayRecorder
import Omniweft.Persistence
import Omniweft.PersistenceCodec
import Omniweft.PersistenceOpen
import Omniweft.PersistenceSteps
import Omniweft.PersistenceDisk
import Omniweft.PersistenceSubmissions
import Omniweft.PersistenceRuns
import Omniweft.PersistenceTampering
import Omniweft.PersistenceMemory
import Omniweft.PersistenceRecovery
import Omniweft.Retry
import Omniweft.RetryRuns
import Omniweft.Policy
import Omniweft.PolicyRegions
import Omniweft.PolicySteps
import Omniweft.PolicyAccounts
import Omniweft.PolicyRuns
import Omniweft.PolicyRejections
import Omniweft.PolicyLeases
import Omniweft.Assets
import Omniweft.Sha256
import Omniweft.AssetsFormat
import Omniweft.AssetsBundle
import Omniweft.AssetsRuns
import Omniweft.AssetsExport
import Omniweft.AssetsRetention
import Omniweft.AssetsImports
import Omniweft.GltfJson
import Omniweft.Gltf
import Omniweft.GltfNodes
import Omniweft.GltfBuffers
import Omniweft.GltfForest
import Omniweft.GltfWalk
import Omniweft.GltfScene
import Omniweft.GltfBounds
import Omniweft.GltfImport
import Omniweft.Observe
import Omniweft.ObserveRuns
import Omniweft.ObservePages
import Omniweft.ObserveCursors
import Omniweft.Presentation
import Omniweft.PresentationBounds
import Omniweft.PresentationRuns
import Omniweft.Owner
import Omniweft.OwnerSteps
import Omniweft.OwnerRuns
import Omniweft.Stepper
import Omniweft.OwnerExpiry
import Omniweft.OwnerStream
import Omniweft.PolicyHost
import Omniweft.PolicyHostSteps
import Omniweft.PolicyHostRuns
import Omniweft.Framing
import Omniweft.FramingRuns
import Omniweft.Launcher
import Omniweft.Python
import Omniweft.SdkModels
import Omniweft.Codecs
import Omniweft.SdkRequests
import Omniweft.Lifecycle
import Omniweft.LifecycleSteps
import Omniweft.LifecycleCalls
import Omniweft.LifecycleRuns
import Omniweft.HostJson
import Omniweft.SdkAnswers
import Omniweft.Runtime
import Omniweft.RuntimeRuns
import Omniweft.HostedWorlds
import Omniweft.HostedReceipts
import Omniweft.PolicyStatus
import Omniweft.PolicyHostUsage
import Omniweft.HostCodecs
import Omniweft.SdkExchanges
import Omniweft.SdkRetries
import Omniweft.RetryWire
import Omniweft.RetryWireRuns
