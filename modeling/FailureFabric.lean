import FailureFabric.Library.Machine
import FailureFabric.Library.UnorderedMap
import FailureFabric.Library.Bytes
import FailureFabric.Library.Decoder
import FailureFabric.Library.Checksum
import FailureFabric.Library.Channel
import FailureFabric.Library.Blocks
import FailureFabric.Library.Defaulted
import FailureFabric.Library.Checked
import FailureFabric.Library.Json
import FailureFabric.Id
import FailureFabric.Hex
import FailureFabric.Enum
import FailureFabric.Authority
import FailureFabric.Incarnations
import FailureFabric.FailureRecord
import FailureFabric.Builder
import FailureFabric.Explain
import FailureFabric.Recovery
import FailureFabric.OwnershipRuns
import FailureFabric.Rollback
import FailureFabric.Retry
import FailureFabric.Planner
import FailureFabric.PlanSafety
import FailureFabric.Agreement
import FailureFabric.Persistence
import FailureFabric.Operation
import FailureFabric.Idempotency
import FailureFabric.IdempotencyRuns
import FailureFabric.Registry
import FailureFabric.RegistryRuns
import FailureFabric.Binding
import FailureFabric.Outcomes
import FailureFabric.Completions
import FailureFabric.Executions
import FailureFabric.Store
import FailureFabric.Snapshot
import FailureFabric.Bounds
import FailureFabric.Reload
import FailureFabric.Readback
import FailureFabric.Accepted
import FailureFabric.Canonical
import FailureFabric.Corruption
import FailureFabric.Truncation
import FailureFabric.Admission
import FailureFabric.Texts
import FailureFabric.Grammar
import FailureFabric.Installed
import FailureFabric.Determinism
import FailureFabric.Saving
import FailureFabric.Protocol
import FailureFabric.Wire
import FailureFabric.Coordinator
import FailureFabric.CoordinatorMoves
import FailureFabric.Acknowledge
import FailureFabric.Dispatching
import FailureFabric.Ownership
import FailureFabric.Pending
import FailureFabric.Boots
import FailureFabric.InFlight
import FailureFabric.Losses
import FailureFabric.Targets
import FailureFabric.LostBoots
import FailureFabric.LossLog
import FailureFabric.Storable
import FailureFabric.Durability
import FailureFabric.Worker
import FailureFabric.Cluster
import FailureFabric.Effects
import FailureFabric.Completed
import FailureFabric.Library.Ledger
import FailureFabric.EffectBounds
import FailureFabric.Library.Termination
import FailureFabric.Settling
import FailureFabric.Restarts
import FailureFabric.Handshake
import FailureFabric.Quiescence
import FailureFabric.InTransit
import FailureFabric.Delivery
import FailureFabric.Answers
import FailureFabric.Membership
import FailureFabric.Aside
import FailureFabric.Relay
import FailureFabric.AtWork
import FailureFabric.Recovered
