import TmVault.Admission.Slots
import TmVault.Admission.Turn
import TmVault.Archive.EnumerationRuns
import TmVault.Authz.Containment
import TmVault.Authz.TenantScope
import TmVault.Catalogue.Changed
import TmVault.Catalogue.CollectionLaws
import TmVault.Chats.Overlay
import TmVault.Chats.Writes
import TmVault.Cleanup.Sweep
import TmVault.Copy.Completion
import TmVault.Copy.Guards
import TmVault.Copy.Sealing
import TmVault.Copy.Turns
import TmVault.Crypto.Agreement
import TmVault.Crypto.Rewrap
import TmVault.Export.Chats
import TmVault.Finalize.Batches
import TmVault.Graph.Backoff
import TmVault.Graph.Batch
import TmVault.Provider.Capacity
import TmVault.Reconciler.Snapshots
import TmVault.Replication.Chats
import TmVault.Retention.KeepSet
import TmVault.Retention.Repointing
import TmVault.Scheduler.Cycle
import TmVault.Shards.Retry
import TmVault.Storage.Toggle
