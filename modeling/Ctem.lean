import Ctem.Foundation.Runs
import Ctem.Foundation.Table
import Ctem.Foundation.JsCollections
import Ctem.Foundation.ReadCommitted
import Ctem.Foundation.Redelivery
import Ctem.Foundation.Latch
import Ctem.Foundation.Transactions
import Ctem.Foundation.BoundedRetry
import Ctem.Foundation.TimedStores
import Ctem.Foundation.RecursiveQuery
import Ctem.Foundation.FirstMatch
import Ctem.Foundation.TiedPaging
import Ctem.Foundation.WriteBack
import Ctem.Contracts
import Ctem.Intel.MirrorCoverage
import Ctem.Intel.EnrichmentDelivery
import Ctem.Intel.ValidationRace
import Ctem.Findings.Ingest
import Ctem.Findings.TriageRace
import Ctem.Findings.IngestOrder
import Ctem.Findings.Writers
import Ctem.Findings.FindingsList
import Ctem.Policy.Engine
import Ctem.Policy.Operations
import Ctem.Policy.SlaWindow
import Ctem.Policy.SlaAlerts
import Ctem.Policy.LostAlerts
import Ctem.Policy.ClosedFindings
import Ctem.Orchestrator.ScanGates
import Ctem.Orchestrator.GateOrder
import Ctem.Orchestrator.GatePending
import Ctem.Orchestrator.ScanStore
import Ctem.Orchestrator.TenantObjects
import Ctem.Orchestrator.CloneIdentity
import Ctem.Orchestrator.ScanAccept
import Ctem.Orchestrator.ScanSchedule
import Ctem.Scanner.BlindScan
import Ctem.Scanner.SbomCoverage
import Ctem.Scanner.FailClosed
import Ctem.Orchestrator.CiGate
import Ctem.Orchestrator.ScanLifecycle
import Ctem.Resilience.HttpPolicy
import Ctem.Resilience.RetryBudget
import Ctem.Coordination.LeaderLease
import Ctem.Coordination.RateLimit
import Ctem.Coordination.GatewayLimit
import Ctem.Identity.Ownership
import Ctem.Identity.OwnerRace
import Ctem.Notifications.DeliveryClaim
import Ctem.Foundation.UnionFs
import Ctem.Foundation.PathText
import Ctem.Scanner.ImageLayers
import Ctem.Scanner.LayerMembers
import Ctem.Scanner.LayerUnion
import Ctem.Foundation.JsonText
import Ctem.Foundation.HeldSince
import Ctem.Scanner.ImageInventory
import Ctem.Scanner.LayeredInventory
import Ctem.Intel.MirrorIndex
import Ctem.Foundation.Base64Url
import Ctem.Foundation.CivilTime
import Ctem.Foundation.IsoText
import Ctem.Foundation.Keyset
import Ctem.Orchestrator.ScanKickMeter
import Ctem.Orchestrator.MeterPaging
import Ctem.Identity.InviteOnce
import Ctem.Identity.CreateOrg
import Ctem.Identity.SignupRace
import Ctem.Identity.ApiTokens
import Ctem.Identity.Delegation
import Ctem.Identity.GatewayTrust
import Ctem.Orchestrator.ScanForward
import Ctem.Orchestrator.PlannedJobs
import Ctem.Orchestrator.CheckedCommit
import Ctem.Orchestrator.RetriedWork
import Ctem.Intel.VersionOrder
import Ctem.Foundation.InetText
import Ctem.Scanner.PublicAddress
import Ctem.Assets.RegistryPaging
import Ctem.Findings.IngestFrame
import Ctem.Assets.DiscoverySync
import Ctem.Assets.UpsertRace
import Ctem.Assets.ExternalKeys
import Ctem.Assets.AssetGraph
import Ctem.Foundation.IntervalMarks
import Ctem.Intel.RangeFold
import Ctem.Intel.SuggestedFix
import Ctem.Intel.GhsaRanges
import Ctem.Foundation.JoinedFields
import Ctem.Findings.FingerprintIdentity
import Ctem.Foundation.Utf16Order
import Ctem.Findings.CollapseUnion
import Ctem.Policy.RiskScoring
import Ctem.Foundation.BfsPaths
import Ctem.Scanner.LockfileGraph
import Ctem.Scanner.NpmLockfile
import Ctem.Scanner.NpmComponents
import Ctem.Scanner.HclText
import Ctem.Scanner.HclParser
import Ctem.Scanner.HclSpelling
import Ctem.Foundation.Brackets
import Ctem.Scanner.HclBlocks
import Ctem.Scanner.HclSyntax
import Ctem.Scanner.HclRoundTrip
import Ctem.Foundation.Utf8Text
import Ctem.Scanner.TarBytes
import Ctem.Scanner.UstarHeader
import Ctem.Scanner.PaxRecords
import Ctem.Scanner.TarTruncation
import Ctem.Scanner.TarRoundTrip
import Ctem.Scanner.LayerCache
import Ctem.Foundation.JsCoercion
import Ctem.Scanner.OpenSsh
import Ctem.Scanner.TaintTracker
import Ctem.Scanner.TaintLines
import Ctem.Scanner.TaintComplete
import Ctem.Foundation.Contest
import Ctem.Scanner.WalkOrder
import Ctem.Scanner.NugetProjects
import Ctem.Scanner.SourceParsers
import Ctem.Scanner.LockfileOrder
import Ctem.Scanner.ResolveOrder
import Ctem.Scanner.CanonicalRows
import Ctem.Scanner.AzureNsg
import Ctem.Orchestrator.CheckUpsert
import Ctem.Orchestrator.CheckAtRest
import Ctem.Foundation.TimeValues
import Ctem.Foundation.JsData
import Ctem.Foundation.ZodSchema
import Ctem.Foundation.ZodRoundTrip
import Ctem.Events.EventSchemas
import Ctem.Events.EventBus
import Ctem.Scanner.SecurityGroupXml
import Ctem.Assets.Scrub
import Ctem.Scanner.PnpmKeys
import Ctem.Scanner.SourceMask
import Ctem.Scanner.YarnRoundTrip
import Ctem.Web.SignInRuns
