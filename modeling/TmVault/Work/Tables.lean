import Mathlib.Algebra.Order.Ring.Rat
import TmVault.Relational.Update
import TmVault.Store.Effective

namespace TmVault.Work

open Relational Store

inductive JobStatus
  | queued | pending | running | completed | partialRun | failed | cancelled | cancelling | retrying
  deriving DecidableEq

structure JobResult where
  (snapshotsTotal snapshotsCompleted snapshotsFailed snapshotsPartial : Option Nat := none)
  (itemsProcessed bytesProcessed : Option Int := none)
  (partitionsPending snapshotsMissing : Option Nat := none)
  missingResourceIds : Option (List Uuid) := none
  deriving DecidableEq

structure Job where
  (id tenantId : Uuid)
  status : JobStatus := .queued
  priority : Option Int := some 5
  leaseToken : Nat := 0
  leaseOwnerId : Option Uuid := none
  leaseExpiresAt : Option Time := none
  batchResourceIds : Option (List Uuid) := some []
  (createdAt completedAt : Option Time := none)
  progressPct : Option Nat := some 0
  (itemsProcessed bytesProcessed : Option Int := some 0)
  result : JobResult := {}
  deriving DecidableEq

/-- `carry_forward` in the payload of a shard: what its enumeration knows of the folders it read. -/
structure CarryForwardPlan where
  (allFoldersFallback tombstonesTruncated : Bool := false)
  excludedPaths : Option (List String) := none
  deriving DecidableEq

structure PartitionPayload where
  (chatIds folderIds : List String := [])
  carryForward : Option CarryForwardPlan := none
  deriving DecidableEq

/-- The keys of `snapshot_partitions.failure_state` that are read; a `files_failed` that is no number
counts 0. -/
structure FailureState where
  filesFailed : Option Int := none
  enumerationIncomplete : Bool := false
  (reason message : Option String := none)
  (unclaimedRepublishCount dlqReplayCount : Nat := 0)
  unclaimedExpired : Bool := false
  deriving DecidableEq

/-- A row of `snapshot_partitions` with its lease; `mailFolders` says that it is a `MAIL_FOLDERS`
shard. -/
structure Partition where
  (id snapshotId tenantId : Uuid)
  (resourceId jobId : Uuid := 0)
  status : PartitionStatus := .queued
  leaseToken : Nat := 0
  leaseOwnerId : Option Uuid := none
  leaseExpiresAt : Option Time := none
  mailFolders : Bool := false
  payload : PartitionPayload := {}
  workerId : Option String := none
  (retryCount requeueCount : Nat := 0)
  enqueuedAt : Time := 0
  (startedAt completedAt : Option Time := none)
  failureState : FailureState := {}
  (filesUploaded bytesUploaded : Nat := 0)
  deriving DecidableEq

structure SlaPolicy where
  (id tenantId : Uuid)
  deriving DecidableEq

inductive WorkState
  | draining | waiting | resuming | completed | partialRun | failed | cancelled
  deriving DecidableEq

def WorkState.isActive (s : WorkState) : Bool := s ∈ [.draining, .waiting, .resuming]

def seconds (n : Nat) : Time := n * 1000000

structure Leaf where
  snapshotId : Uuid
  partitionId : Option Uuid
  deriving DecidableEq

inductive QueueKey
  | tenant (tenantId : Uuid)
  | policy (tenantId : Uuid) (policyId : Option Uuid) (weight : Nat)
  | resource (tenantId : Uuid) (policyId : Option Uuid) (weight : Nat) (resourceId jobId : Uuid)
  deriving DecidableEq

def QueueKey.parent : QueueKey → Option QueueKey
  | .tenant _ => none
  | .policy tenantId _ _ => some (.tenant tenantId)
  | .resource tenantId policyId weight _ _ => some (.policy tenantId policyId weight)

structure ProviderWorkQueue where
  key : QueueKey
  weight : Nat := 1
  virtualFinish : ℚ := 0
  deriving DecidableEq

structure ProviderWorkControl where
  enabled : Bool := false
  epoch : Nat := 1
  (totalCapacity tenantCapacity : Nat := 40)
  deriving DecidableEq

/-- The keys of a continuation the modelled code reads: `bytes` is the size of its encoding and
`policyId` the SLA policy named in its message. -/
structure Continuation where
  queueWasCooling : Bool := false
  policyId : Option Uuid := none
  bytes : Nat := 2
  deriving DecidableEq

structure ProviderWork where
  id : Uuid
  leaf : Leaf
  (tenantId resourceId jobId : Uuid)
  slaPolicyId : Option Uuid := none
  weight : Nat
  state : WorkState := .waiting
  protocolVersion : Nat := 1
  generation : Nat := 0
  (parentLeaseToken snapshotLeaseToken jobLeaseToken : Nat)
  leaseOwnerId : Option Uuid := none
  leaseExpiresAt : Option Time := none
  (nextEligibleAt createdAt queueEnteredAt : Time)
  completedAt : Option Time := none
  continuation : Continuation := {}
  parentSettlePending : Bool := false
  suspensionGeneration : Option Nat := none
  lastReason : Option String := none
  deriving DecidableEq

namespace ProviderWork

def tenantQueueKey (r : ProviderWork) : QueueKey := .tenant r.tenantId

def policyQueueKey (r : ProviderWork) : QueueKey := .policy r.tenantId r.slaPolicyId r.weight

def resourceQueueKey (r : ProviderWork) : QueueKey :=
  .resource r.tenantId r.slaPolicyId r.weight r.resourceId r.jobId

def queueKeys (r : ProviderWork) : List QueueKey :=
  [r.tenantQueueKey, r.policyQueueKey, r.resourceQueueKey]

end ProviderWork

inductive UnitState
  | pending | running | completed | failed | cancelled
  deriving DecidableEq

def UnitState.isOpen (s : UnitState) : Bool := s ∈ [.pending, .running]

structure ProviderWorkUnit where
  workId : Uuid
  (unitKey kind : String)
  sourceVersion : Option String := none
  state : UnitState := .pending
  checkpoint : Continuation := {}
  receiptId : Option String := none
  attempts : Nat := 0
  waitedS : ℚ := 0
  reconciliations : Nat := 0
  (deadlineAt nextEligibleAt : Time)
  deriving DecidableEq

inductive CaptureState
  | created | enumerating | contentPending | verifying | ready | published | partialRun | failed
  | superseded
  deriving DecidableEq

structure CaptureAttempt where
  id : Uuid
  leaf : Leaf
  chatId : String
  (snapshotLeaseToken partitionLeaseToken : Option Nat := none)
  state : CaptureState := .created
  stagedInventoryId : Uuid
  failureReason : Option String := none
  deriving DecidableEq

structure ChatInventoryItem where
  inventoryId : Uuid
  logicalKey : String
  versionId : Uuid
  deriving DecidableEq

structure CopyWorkflow where
  id : Uuid
  leaf : Leaf
  (tenantId resourceId jobId : Uuid)
  state : WorkState := .draining
  (captureAttempt generation parentLeaseToken snapshotLeaseToken jobLeaseToken : Nat := 0)
  leaseOwnerId : Option Uuid := none
  (leaseExpiresAt completedAt : Option Time := none)
  parentSettlePending : Bool := false
  continuation : String := "\x7b\x7d"
  deriving DecidableEq

inductive CopyKind
  | chatCarry | mailCarry | fileVersions | legacyChatAttachments | chatRename | chatLabels
  | chatPresentation | archiveCarry
  deriving DecidableEq

inductive Lane
  | micro | giant
  deriving DecidableEq

inductive TaskState
  | ready | running | completed | failed | cancelled
  deriving DecidableEq

def TaskState.isTerminal (s : TaskState) : Bool := s ∈ [.completed, .failed, .cancelled]

def TaskState.isBacklog (s : TaskState) : Bool := s ∈ [.ready, .running]

structure ChatLabel where
  (chatId folderPath : String)
  quality : Int
  provenance : String
  conflicted : Bool := false
  deriving DecidableEq

inductive Selector
  | fileIds | externalIds | excludedPaths | tombstonedIds | keepFolderIds | chatIds | names | labels
  deriving DecidableEq

/-- `copy_work_tasks.params`; a key that is missing is `none`, and `prior_snapshot_id` may be present
and null. -/
structure CopyParams where
  (targetSnapshotId tenantId resourceId : Option Uuid := none)
  priorSnapshotId : Option (Option Uuid) := none
  priorSnapId : Option Uuid := none
  fileIds : Option (List String) := none
  externalIds : Option (List String) := none
  (excludedPaths tombstonedIds keepFolderIds chatIds names : Option (List String) := none)
  labels : Option (List ChatLabel) := none
  chatId : Option String := none
  legacyPatternsOnly : Bool := false
  (excludePathless executionBudgetV1 sourceFixed sourceImplicit p8SourcesFixed : Bool := false)
  p8SourceCount : Nat := 0
  inputKeys : List Selector := []
  deriving DecidableEq

inductive CopyQueueKey
  | tenant (tenantId : Uuid) (lane : Lane)
  | policy (tenantId : Uuid) (policyId : Option Uuid) (lane : Lane)
  | resource (tenantId : Uuid) (policyId : Option Uuid) (resourceId : Uuid) (lane : Lane)
  deriving DecidableEq

inductive QueueScope
  | tenant | policy | resource
  deriving DecidableEq

namespace CopyQueueKey

def scope : CopyQueueKey → QueueScope
  | tenant _ _ => .tenant
  | policy _ _ _ => .policy
  | resource _ _ _ _ => .resource

def parent : CopyQueueKey → Option CopyQueueKey
  | tenant _ _ => none
  | policy tenantId _ lane => some (tenant tenantId lane)
  | resource tenantId policyId _ lane => some (policy tenantId policyId lane)

def lane : CopyQueueKey → Lane
  | tenant _ lane | policy _ _ lane | resource _ _ _ lane => lane

end CopyQueueKey

abbrev Weight := { n : Nat // 1 ≤ n ∧ n ≤ 8 }

theorem Weight.one : 1 ≤ 1 ∧ 1 ≤ 8 := by decide

structure CopyWorkQueue where
  key : CopyQueueKey
  weight : Weight := ⟨1, Weight.one⟩
  virtualFinish : ℚ := 0
  deriving DecidableEq

structure CopyWorkControl where
  enabled : Bool := false
  (microCapacity giantCapacity : Nat := 3)
  (totalCapacity tenantCapacity : Nat := 6)
  deriving DecidableEq

structure IdempotencyKey where
  workflowId : Uuid
  captureAttempt : Nat
  kind : CopyKind
  params : CopyParams
  deriving DecidableEq

structure TaskError where
  code : String
  (reason sqlstate phase : Option String := none)
  attempts : Option Nat := none
  executionFailures : Option Int := none
  deriving DecidableEq

structure CopyWorkTask where
  (id workflowId tenantId resourceId : Uuid)
  slaPolicyId : Option Uuid := none
  idempotencyKey : IdempotencyKey
  kind : CopyKind
  lane : Lane
  params : CopyParams := {}
  state : TaskState := .ready
  (captureAttempt generation : Nat := 0)
  prepared : Bool := false
  checkpoint : Int := 0
  rowCount : Nat := 0
  bytesCount : Int := 0
  leaseOwnerId : Option Uuid := none
  leaseExpiresAt : Option Time := none
  (createdAt readyAt queueEnteredAt : Time := 0)
  (cumulativeWaitS waitMaxS : ℚ := 0)
  attempts : Nat := 0
  error : Option TaskError := none
  deriving DecidableEq

namespace CopyWorkTask

def tenantQueueKey (t : CopyWorkTask) : CopyQueueKey := .tenant t.tenantId t.lane

def queueKey (t : CopyWorkTask) : CopyQueueKey := .policy t.tenantId t.slaPolicyId t.lane

def resourceQueueKey (t : CopyWorkTask) : CopyQueueKey :=
  .resource t.tenantId t.slaPolicyId t.resourceId t.lane

def queueKeyAt (t : CopyWorkTask) : QueueScope → CopyQueueKey
  | .tenant => t.tenantQueueKey
  | .policy => t.queueKey
  | .resource => t.resourceQueueKey

end CopyWorkTask

/-- `copy_work_items.payload`: a source pin, a frozen row, a rename of a target row, or a label. -/
inductive ManifestPayload
  | pin
  | row (item : SnapshotItem)
  | rename (id : Uuid) (chatId name : String)
  | label (label : ChatLabel)
  deriving DecidableEq

structure CopyWorkItem where
  taskId : Uuid
  ordinal : Int
  payload : ManifestPayload
  sourceSnapshotId : Option Uuid := none
  phase : Int := 0
  deriving DecidableEq

inductive InputValue
  | text (value : String)
  | label (label : ChatLabel)
  deriving DecidableEq

structure CopyWorkInput where
  taskId : Uuid
  inputKey : Selector
  ordinal : Nat
  value : InputValue
  deriving DecidableEq

inductive PlanState
  | pending | publishing | published | aborted
  deriving DecidableEq

structure ChatPresentationPlan where
  snapshotId : Uuid
  state : PlanState := .pending
  taskId : Option Uuid := none
  (expectedCount publishedCount : Nat := 0)
  deriving DecidableEq

structure ChatPresentationDraft extends ChatLabel where
  (snapshotId workflowId : Uuid)
  captureAttempt : Nat
  acceptedAt : Time := 0
  deriving DecidableEq

structure SnapshotChatPresentation extends ChatLabel where
  snapshotId : Uuid
  deriving DecidableEq

structure ChatThreadMessage where
  tenantId : Uuid
  (chatId messageExternalId : String)
  deriving DecidableEq

structure World where
  db : Db := {}
  jobs : List Job := []
  partitions : List Partition := []
  slaPolicies : List SlaPolicy := []
  works : List ProviderWork := []
  units : List ProviderWorkUnit := []
  queues : List ProviderWorkQueue := []
  control : Option ProviderWorkControl := none
  workflows : List CopyWorkflow := []
  attempts : List CaptureAttempt := []
  inventoryItems : List ChatInventoryItem := []
  copyTasks : List CopyWorkTask := []
  copyItems : List CopyWorkItem := []
  copyInputs : List CopyWorkInput := []
  copyQueues : List CopyWorkQueue := []
  copyControl : Option CopyWorkControl := none
  presentationPlans : List ChatPresentationPlan := []
  presentationDrafts : List ChatPresentationDraft := []
  presentations : List SnapshotChatPresentation := []
  chatThreadMessages : List ChatThreadMessage := []
  deriving DecidableEq

def Leaf.key (leaf : Leaf) : Uuid ⊕ Uuid :=
  match leaf.partitionId with
  | some pid => .inl pid
  | none => .inr leaf.snapshotId

structure Parents where
  job : Job
  snapshot : Snapshot
  partition : Option Partition

namespace Parents

variable (p : Parents)

def leaf : Leaf := ⟨p.snapshot.id, p.partition.map (·.id)⟩

def leaseToken : Nat := p.partition.elim p.snapshot.leaseToken (·.leaseToken)

def leaseOwnerId : Option Uuid := p.partition.elim p.snapshot.leaseOwnerId (·.leaseOwnerId)

def outcome : Option WorkState :=
  match p.partition with
  | some partition =>
    match partition.status with
    | .completed => some .completed
    | .failed => some .failed
    | _ => none
  | none =>
    match p.snapshot.status with
    | some .completed => some .completed
    | some .partialRun => some .partialRun
    | some .failed => some .failed
    | _ => none

def active : Bool :=
  p.job.status ∈ [.running, .queued, .pending, .retrying] && p.snapshot.status = some .inProgress &&
    p.partition.all fun partition => partition.status ∈ [.inProgress, .queued]

end Parents

namespace World

variable (w : World)

def job? (id : Uuid) : Option Job := w.jobs.find? (·.id = id)

def partition? (id : Uuid) : Option Partition := w.partitions.find? (·.id = id)

def work? (id : Uuid) : Option ProviderWork := w.works.find? (·.id = id)

def parents (leaf : Leaf) : Option Parents := do
  let snapshot ← w.db.snapshot? leaf.snapshotId
  let job ← snapshot.jobId.bind w.job?
  match leaf.partitionId with
  | none => some ⟨job, snapshot, none⟩
  | some pid => (w.partition? pid).map fun partition => ⟨job, snapshot, some partition⟩

def updateSnapshot (id : Uuid) (f : Snapshot → Snapshot) : World :=
  { w with db := { w.db with snapshots := updateKey (·.id) id f w.db.snapshots } }

def updatePartition (id : Uuid) (f : Partition → Partition) : World :=
  { w with partitions := updateKey (·.id) id f w.partitions }

def updateWork (id : Uuid) (f : ProviderWork → ProviderWork) : World :=
  { w with works := updateKey (·.id) id f w.works }

def writeLease (leaf : Leaf) (token : Nat) (owner : Option Uuid) (expiresAt : Option Time) : World :=
  match leaf.partitionId with
  | some pid => w.updatePartition pid fun partition =>
      { partition with leaseToken := token, leaseOwnerId := owner, leaseExpiresAt := expiresAt }
  | none => w.updateSnapshot leaf.snapshotId fun s =>
      { s with leaseToken := token, leaseOwnerId := owner, leaseExpiresAt := expiresAt }

def leaseToken? (leaf : Leaf) : Option Nat :=
  match leaf.partitionId with
  | some pid => (w.partition? pid).map (·.leaseToken)
  | none => (w.db.snapshot? leaf.snapshotId).map (·.leaseToken)

variable {w} {id : Uuid}

theorem snapshot?_updateSnapshot (h : w.db.snapshot? id = some s) (keeps : ∀ s, (f s).id = s.id) :
    (w.updateSnapshot id f).db.snapshot? id = some (f s) :=
  find?_updateKey_self (fun s _ => keeps s) h

theorem partition?_updatePartition (h : w.partition? id = some q) (keeps : ∀ q, (f q).id = q.id) :
    (w.updatePartition id f).partition? id = some (f q) :=
  find?_updateKey_self (fun q _ => keeps q) h

end World

inductive Parent
  | snapshot (id : Uuid)
  | partition (id : Uuid)
  | job (id : Uuid)

def Parent.isHeldBy (leaf : Leaf) (jobId : Uuid) : Parent → Bool
  | .snapshot id => leaf.snapshotId = id
  | .partition id => leaf.partitionId = some id
  | .job id => jobId = id

structure GuardSettings where
  (copyGuards providerGuards : Bool := true)

variable (on : GuardSettings) (w : World) (parent : Parent)

def pendingProviderSql : Bool :=
  !on.providerGuards ||
    !w.works.any fun r => (r.state.isActive || r.parentSettlePending) && parent.isHeldBy r.leaf r.jobId

def pendingCopySql : Bool :=
  !on.copyGuards ||
    (!w.workflows.any fun f =>
        (f.state.isActive || f.parentSettlePending) && parent.isHeldBy f.leaf f.jobId) &&
      pendingProviderSql on w parent

end TmVault.Work
