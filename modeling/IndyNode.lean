import IndyNode.CompatSet
import IndyNode.Foundation.AffineCycle
import IndyNode.CompatSetInvariant
import IndyNode.CompatSetOperations
import IndyNode.CompatSetMethods
import IndyNode.CompatSetRun
import IndyNode.Semantics.Python35Set
import IndyNode.CompatSetOrder
import IndyNode.CompatSetOrderRun
import IndyNode.Revocation.Strategy
import IndyNode.Revocation.LegacyOrder
import IndyNode.Revocation.Handler
import IndyNode.Revocation.Run
import IndyNode.Revocation.Delta
import IndyNode.Revocation.DeltaReply
import IndyNode.Revocation.Flag
import IndyNode.Revocation.FlagRun
import IndyNode.Authorize.Constraints
import IndyNode.Authorize.Actions
import IndyNode.Authorize.Authorizer
import IndyNode.Authorize.Decisions
import IndyNode.Authorize.Signatures
import IndyNode.Authorize.Endorsement
import IndyNode.Nym.Authn
import IndyNode.Authorize.AuthMap
import IndyNode.Authorize.RequestValidator
import IndyNode.Nym.Handler
import IndyNode.Nym.Privilege
import IndyNode.Authorize.ActionTexts
import IndyNode.Authorize.OwnerRules
import IndyNode.Nym.Ownership
import IndyNode.Nym.History
import IndyNode.Foundation.OptimisticStore
import IndyNode.Nym.CacheBatches
import IndyNode.Authorize.ConstraintDicts
import IndyNode.Config.AuthRuleRuns
import IndyNode.Domain.Attribute
import IndyNode.Domain.ActionTexts
import IndyNode.Domain.Objects
import IndyNode.Domain.Run
import IndyNode.Domain.Namespace
import IndyNode.Domain.ObjectPaths
import IndyNode.Domain.Registry
import IndyNode.Domain.IssuanceType
import IndyNode.Domain.References
import IndyNode.Domain.Versions
import IndyNode.Domain.AttributeHistory
import IndyNode.Domain.AttributeReads
import IndyNode.Domain.AttributeReplay
import IndyNode.Config.Separation
import IndyNode.Authorize.ActionLists
import IndyNode.Foundation.ActionQueue
import IndyNode.Upgrade.Upgrader
import IndyNode.Upgrade.Replay
import IndyNode.Upgrade.Run
import IndyNode.Upgrade.Pending
import IndyNode.Upgrade.Once
import IndyNode.Upgrade.Handler
import IndyNode.Upgrade.Package
import IndyNode.CompatSetIntersection
import IndyNode.CompatSetEquality
import IndyNode.Revocation.Canonical
import IndyNode.Foundation.Guarded
import IndyNode.CompatSetSettled
import IndyNode.Revocation.LegacyTermination
import IndyNode.Nym.Diddoc
import IndyNode.Nym.Exceptions
import IndyNode.Foundation.StableSort
import IndyNode.Upgrade.Migrations
import IndyNode.Upgrade.PoolVersion
import IndyNode.Upgrade.Rollback
import IndyNode.Foundation.TwoWayIndex
import IndyNode.RichSchema.Objects
import IndyNode.RichSchema.Index
import IndyNode.Domain.EntryExceptions
import IndyNode.Domain.LookupPaths
import IndyNode.Domain.Timestamps
import IndyNode.Foundation.JsonTree
import IndyNode.RichSchema.Mapping
import IndyNode.Upgrade.Failures
import IndyNode.Upgrade.InFlight
import IndyNode.RichSchema.MappingExceptions
import IndyNode.Foundation.ReferenceStore
import IndyNode.RichSchema.Contents
import IndyNode.RichSchema.SharedState
import IndyNode.RichSchema.References
import IndyNode.Authorize.ConstraintObjects
import IndyNode.Authorize.ConstraintMeaning
import IndyNode.Authorize.ConstraintRebuild
import IndyNode.Authorize.ConstraintPrint
import IndyNode.Authorize.ConstraintSerializer
import IndyNode.Authorize.ConstraintField
import IndyNode.Config.AuthRule191
import IndyNode.Upgrade.ActionIds
import IndyNode.Upgrade.PoolVersionHistory
import IndyNode.Upgrade.Restarter
import IndyNode.Control.DebianVersions
import IndyNode.Config.PoolConfig
import IndyNode.Foundation.CsvRows
import IndyNode.Upgrade.ActionLog
import IndyNode.Upgrade.Schedule
import IndyNode.Control.Dependencies
import IndyNode.Domain.OrderedBatches
import IndyNode.Domain.ObjectReads
import IndyNode.Domain.StateProofs
import IndyNode.Foundation.Traces
import IndyNode.Upgrade.Notifications
import IndyNode.Upgrade.PoolAdoption
import IndyNode.Domain.Verdicts
import IndyNode.Config.RuleTransfer
import IndyNode.Authorize.Cosigning
import IndyNode.Pool.NodeHandler
import IndyNode.Pool.NodeRuns
import IndyNode.Config.Governance
import IndyNode.Upgrade.MigrationHops
import IndyNode.Control.PackageDescriptions
