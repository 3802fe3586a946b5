import TmVault.Work.Tables

namespace TmVault.Work.World

open Relational Store

variable (w : World)

def workflow? (id : Uuid) : Option CopyWorkflow := w.workflows.find? (·.id = id)

def copyTask? (id : Uuid) : Option CopyWorkTask := w.copyTasks.find? (·.id = id)

def resource? (id : Uuid) : Option Resource := w.db.resources.find? (·.id = id)

def plan? (snapshotId : Uuid) : Option ChatPresentationPlan :=
  w.presentationPlans.find? (·.snapshotId = snapshotId)

def itemsOf (taskId : Uuid) : List CopyWorkItem := w.copyItems.filter (·.taskId = taskId)

def tasksOf (f : CopyWorkflow) : List CopyWorkTask :=
  w.copyTasks.filter fun t => t.workflowId = f.id && t.captureAttempt = f.captureAttempt

def updateWorkflow (id : Uuid) (f : CopyWorkflow → CopyWorkflow) : World :=
  { w with workflows := updateKey (·.id) id f w.workflows }

def updateTask (id : Uuid) (f : CopyWorkTask → CopyWorkTask) : World :=
  { w with copyTasks := updateKey (·.id) id f w.copyTasks }

def putPlan (plan : ChatPresentationPlan) : World :=
  { w with presentationPlans :=
      w.presentationPlans.filter (·.snapshotId ≠ plan.snapshotId) ++ [plan] }

end TmVault.Work.World

namespace TmVault.Work

open Store

def CopyWorkflow.revive (token snapshotToken jobToken : Nat) (f : CopyWorkflow) : CopyWorkflow :=
  { f with
    captureAttempt := f.captureAttempt + 1, generation := f.generation + 1, state := .draining
    parentLeaseToken := token, snapshotLeaseToken := snapshotToken, jobLeaseToken := jobToken
    continuation := "\x7b\x7d", completedAt := none }

def CopyWorkInput.uniqueKey (r : CopyWorkInput) : Uuid × Selector × Nat :=
  (r.taskId, r.inputKey, r.ordinal)

def CopyWorkItem.uniqueKey (i : CopyWorkItem) : Uuid × Int := (i.taskId, i.ordinal)

def ManifestPayload.label? : ManifestPayload → Option ChatLabel
  | .label l => some l
  | _ => none

def ManifestPayload.row? : ManifestPayload → Option SnapshotItem
  | .row i => some i
  | _ => none

def ChatPresentationDraft.uniqueKey (d : ChatPresentationDraft) : Uuid × Uuid × Nat × String :=
  (d.snapshotId, d.workflowId, d.captureAttempt, d.chatId)

end TmVault.Work

namespace TmVault.Work.CopyParams

open Store

def text (p : CopyParams) : Selector → Option (List String)
  | .fileIds => p.fileIds
  | .externalIds => p.externalIds
  | .excludedPaths => p.excludedPaths
  | .tombstonedIds => p.tombstonedIds
  | .keepFolderIds => p.keepFolderIds
  | .chatIds => p.chatIds
  | .names => p.names
  | .labels => none

def explicitPrior (p : CopyParams) : Option Uuid := p.priorSnapshotId.join.or p.priorSnapId

end TmVault.Work.CopyParams

namespace TmVault.Copy

open Relational Store Work

inductive Failure
  | conflict (message : String)
  | valueError (message : String)
  | runtimeError (message : String)
  | provenanceGap (message : String)
  | chatSelection (message : String)
  | provider (message : String)
  | integrity

structure Env where
  batchMaxBytes : Int := 33554432
  waitMaxS : ℚ := 0
  intentSourcePinMax : Int := 4096
  columnSize : ManifestPayload → Nat := fun _ => 1
  keyRank : CopyQueueKey → Nat := fun _ => 0

def jobActive (status : JobStatus) : Bool := status ∈ [.running, .queued, .pending, .retrying]

def parent (w : World) (snapshotId : Uuid) : Except Failure (Snapshot × Resource × Job) := do
  let missing := Failure.conflict "copy target has no owned parent"
  let snapshot ← orFail missing (w.db.snapshot? snapshotId)
  let resource ← orFail missing (w.resource? snapshot.resourceId)
  let job ← orFail missing (snapshot.jobId.bind w.job?)
  failIf (!jobActive job.status || snapshot.status ≠ some .inProgress)
    (.conflict "copy parent is no longer active")
  failIf (job.tenantId ≠ resource.tenantId) (.conflict "copy parent tenant mismatch")
  .ok (snapshot, resource, job)

structure Locked where
  job : Option Job
  snapshot : Option Snapshot
  partition : Option Partition

def lockParents (w : World) (f : CopyWorkflow) : Locked where
  job := w.job? f.jobId
  snapshot := w.db.snapshot? f.leaf.snapshotId
  partition := f.leaf.partitionId.bind w.partition?

def Locked.leaf (l : Locked) (snapshot : Snapshot) : Leaf := ⟨snapshot.id, l.partition.map (·.id)⟩

def Locked.leaseToken (l : Locked) (snapshot : Snapshot) : Nat :=
  l.partition.elim snapshot.leaseToken (·.leaseToken)

def Locked.terminal (l : Locked) (snapshot : Snapshot) : Bool :=
  match l.partition with
  | some partition => partition.status ∈ [.completed, .failed]
  | none => snapshot.status.any (· ∈ [SnapshotStatus.completed, .partialRun, .failed, .skipped])

def Locked.succeeded (l : Locked) (snapshot : Snapshot) : Bool :=
  match l.partition with
  | some partition => partition.status = .completed
  | none => snapshot.status.any (· ∈ [SnapshotStatus.completed, .skipped])

section

def messageTypes : List ItemType :=
  [.teamsChatMessage, .other "TEAMS_MESSAGE", .other "TEAMS_MESSAGE_REPLY"]

def childTypes : List ItemType := [.chatAttachment, .chatHostedContent]

def nonEmpty (value : Option String) : Option String := value.filter (· ≠ "")

structure Candidate where
  item : SnapshotItem
  messageId : String

section

variable (w : World) (tid tsid : Uuid) (cid : String) (pins : Option (List Uuid))

def inTenant (snapshotId : Uuid) : Bool :=
  (w.db.snapshot? snapshotId).any fun s => (w.resource? s.resourceId).any (·.tenantId = tid)

def messageIds : List String :=
  ((w.chatThreadMessages.filter fun m => m.tenantId = tid && m.chatId = cid).map
    (·.messageExternalId)).dedup

/-- The conditions both branches of `candidates` share; `pins` are the snapshots an intent was narrowed
to. -/
def mayAttach (i : SnapshotItem) : Bool :=
  inTenant w tid i.snapshotId && (i.tenantId = some tid || i.tenantId = none) &&
    i.snapshotId ≠ tsid && pins.all (i.snapshotId ∈ ·) && i.itemType ∈ childTypes &&
    inTenant w tid tsid && !w.db.owns tsid i.key

def candidates : List Candidate :=
  let children (hangsOn : String → SnapshotItem → Bool) : List Candidate :=
    (messageIds w tid cid).flatMap fun m =>
      (w.db.items.filter fun i => hangsOn m i && mayAttach w tid tsid pins i).map (⟨·, m⟩)
  children (fun m i => i.parentExternalId = some m) ++
    children fun m i => i.parentExternalId = none && Text.splitPartFirst "::" i.externalId = m

end

def ranksBefore (a b : SnapshotItem) : Bool :=
  match a.createdAt, b.createdAt with
  | some x, some y => y < x || x = y && b.id ≤ a.id
  | some _, none => true
  | none, some _ => false
  | none, none => b.id ≤ a.id

def ranked (rows : List Candidate) (key : ItemKey) : List Candidate :=
  (rows.filter (·.item.key = key)).insertionSort fun a b => ranksBefore a.item b.item

variable (w : World) (cid : String)

def messageChat (snapshotId : Uuid) (messageId : String) : Option String :=
  let parents := (w.db.items.filter fun i => i.snapshotId = snapshotId &&
    i.externalId = messageId && i.itemType ∈ messageTypes).filterMap (·.parentExternalId)
  match parents with
  | [] => none
  | p :: ps => if ps.all (· = p) then some p else none

def sourceChat (c : Candidate) : Option String :=
  (nonEmpty c.item.metadata.chatIdSnake).or
    ((nonEmpty c.item.metadata.chatId).or (messageChat w c.item.snapshotId c.messageId))

def inspect : List Candidate → List (Candidate × Option String)
  | [] => []
  | c :: older =>
    (c, sourceChat w c) :: if (sourceChat w c).any (· ≠ cid) then inspect older else []

def inspected (rows : List Candidate) : List (Candidate × Option String) :=
  (rows.map (·.item.key)).dedup.flatMap fun key => inspect w cid (ranked rows key)

def chosen (rows : List Candidate) : List Candidate :=
  ((inspected w cid rows).filter (·.2 = some cid)).map (·.1)

def provenanceKnown (rows : List Candidate) : Bool := (inspected w cid rows).all (·.2.isSome)

end

def chatTypes : List ItemType :=
  [.teamsChatMessage, .other "TEAMS_MESSAGE", .other "TEAMS_MESSAGE_REPLY", .other "CHAT_MESSAGE",
    .chatAttachment, .chatHostedContent]

def legacyFolder (path : String) : Bool :=
  ["chats/Untitled chat #%", "chats/Untitled group #%", "chats/1-on-1 Chat (19:%",
    "chats/Group Chat (19:%", "chats/Chat %"].any fun pattern =>
      Text.like '\\' pattern.toList path.toList

def inputTexts (w : World) (taskId : Uuid) (key : Selector) : List String :=
  ((w.copyInputs.filter fun r => r.taskId = taskId && r.inputKey = key).insertionSort
    fun a b => a.ordinal ≤ b.ordinal).filterMap fun r =>
      match r.value with
      | .text value => some value
      | .label _ => none

def binding (w : World) (t : CopyWorkTask) (key : Selector) : List String :=
  if key ∈ t.params.inputKeys then inputTexts w t.id key
  else (t.params.text key).getD []

def scope (w : World) (t : CopyWorkTask) : Except Failure CopyWorkflow := do
  let unavailable := Failure.valueError "copy target/workflow ownership is unavailable"
  let f ← orFail unavailable (w.workflow? t.workflowId)
  let s ← orFail unavailable (w.db.snapshot? f.leaf.snapshotId)
  let r ← orFail unavailable (w.resource? s.resourceId)
  failIf (r.id ≠ f.resourceId || r.tenantId ≠ f.tenantId || s.jobId ≠ some f.jobId ||
    s.status ≠ some .inProgress) unavailable
  failIf (t.params.targetSnapshotId.any (· ≠ f.leaf.snapshotId))
    (.valueError "copy target_snapshot_id does not match workflow target ownership")
  failIf (t.params.tenantId.any (· ≠ f.tenantId))
    (.valueError "copy tenant_id does not match workflow target ownership")
  failIf (t.params.resourceId.any (· ≠ f.resourceId))
    (.valueError "copy resource_id does not match workflow target ownership")
  .ok f

section

variable (w : World) (t : CopyWorkTask) (f : CopyWorkflow)

def frozenSource : Option (Option Uuid) :=
  let priors := (w.copyTasks.filter fun u => u.workflowId = t.workflowId && u.kind = t.kind &&
    u.id ≠ t.id && u.captureAttempt = t.captureAttempt &&
    (u.prepared || u.params.sourceFixed)).filterMap (·.params.priorSnapshotId)
  match (priors.filterMap id).min?, priors with
  | some id, _ => some (some id)
  | none, [] => none
  | none, _ => some none

def copyIncomplete (sid : Uuid) : Bool :=
  w.workflows.any fun c => c.leaf.snapshotId = sid &&
    (c.state ≠ .completed || c.parentSettlePending || (w.tasksOf c).any (·.state ≠ .completed))

def mailSource (s : Snapshot) : Bool :=
  s.jobId ≠ some f.jobId && s.reuseOfSnapshotId = none && s.reuseChainRootId = none &&
    !s.extraData.mailCarryForwardFailed && !s.extraData.mailDeltaOnly &&
    !s.extraData.mailCarryForwardPending &&
    (s.extraData.mailUnionCarryClaimed || !w.partitions.any fun p =>
      p.snapshotId = s.id && p.mailFolders && p.payload.carryForward.isSome) &&
    (s.overlayBaseId.isSome || w.db.items.any fun i =>
      i.snapshotId = s.id && i.itemType ∈ [.email, .emailAttachment])

def isSource (s : Snapshot) : Bool :=
  s.resourceId = f.resourceId && s.id ≠ f.leaf.snapshotId &&
    s.status.any (· ∈ [SnapshotStatus.completed, .partialRun]) &&
    sqlLt s.createdAt ((w.db.snapshot? f.leaf.snapshotId).bind (·.createdAt)) &&
    s.extraData.cancelledAt = none && !s.extraData.chatCarryForwardFailed &&
    !s.extraData.copyRequiredFailed &&
    (frozenSource w t).all (some s.id = ·) && !copyIncomplete w s.id &&
    (match t.params.explicitPrior with
      | some prior => s.id = prior
      | none => !t.params.sourceFixed) &&
    (t.kind ≠ .chatCarry || w.db.items.any fun i => i.snapshotId = s.id && i.itemType ∈ chatTypes) &&
    (t.kind ≠ .mailCarry || mailSource w f s)

def sourceChoice : Option Uuid :=
  (orderByFirst (fun a b : Snapshot => b.createdAt.getD 0 < a.createdAt.getD 0 ||
    b.createdAt.getD 0 = a.createdAt.getD 0 && b.id < a.id)
    (w.db.snapshots.filter (isSource w t f))).map (·.id)

end

structure Selected where
  sourceSnapshotId : Option Uuid
  phase : Int := 0
  payload : ManifestPayload

def Selected.ofRow (phase : Int) (i : SnapshotItem) : Selected := ⟨some i.snapshotId, phase, .row i⟩

section

variable (w : World) (t : CopyWorkTask) (f : CopyWorkflow)

def carriedEmails (source : Uuid) : List SnapshotItem :=
  (w.db.snapshotItemsEffective source).filter fun i => i.itemType = .email &&
    i.metadata.sourceMailbox.getD "primary" = "primary" &&
    i.folderPath.getD "" ∉ binding w t .excludedPaths &&
    i.externalId ∉ binding w t .tombstonedIds &&
    (t.params.keepFolderIds.isNone ||
      i.metadata.rawParentFolderId.any (· ∈ binding w t .keepFolderIds)) &&
    (!t.params.excludePathless || i.folderPath.getD "" ≠ "")

def selectMail (source : Uuid) : List Selected :=
  let emails := carriedEmails w t source
  let attachments := (w.db.snapshotItemsEffective source).filter fun i =>
    i.itemType = .emailAttachment &&
      (t.params.keepFolderIds.isNone || binding w t .keepFolderIds ≠ []) &&
      (emails.any (·.externalId = i.parentExternalIdOrHead) ||
        w.db.owns f.leaf.snapshotId (.email, i.parentExternalIdOrHead))
  emails.map (.ofRow 0) ++ attachments.map (.ofRow 1)

def selectRenames : List Selected :=
  w.db.items.flatMap fun i =>
    if i.snapshotId = f.leaf.snapshotId then
      ((binding w t .chatIds).zip (binding w t .names)).filterMap fun (cid, name) =>
        if i.metadata.chatId = some cid && i.folderPath.any (fun path => path ≠ "chats/" ++ name &&
            (!t.params.legacyPatternsOnly || legacyFolder path)) then
          some ⟨none, 0, .rename i.id cid name⟩
        else none
    else []

def pinnedSources : Option (List Uuid) :=
  if t.params.p8SourcesFixed then
    some (((w.itemsOf t.id).filter (·.ordinal < 0)).filterMap (·.sourceSnapshotId))
  else none

def attachmentCandidates : List Candidate :=
  candidates w f.tenantId f.leaf.snapshotId (t.params.chatId.getD "") (pinnedSources w t)

def selectAttachments : List Selected :=
  (chosen w (t.params.chatId.getD "") (attachmentCandidates w t f)).map fun c =>
    .ofRow 0 { c.item with parentExternalId := some c.messageId }

def selected (choice : Option Uuid) : List Selected :=
  match t.kind, choice with
  | .legacyChatAttachments, _ => selectAttachments w t f
  | .chatRename, _ => selectRenames w t f
  | .mailCarry, some source => selectMail w t f source
  | .chatCarry, some source => (w.db.items.filter fun i =>
      i.snapshotId = source && i.itemType ∈ chatTypes).map (.ofRow 0)
  | .fileVersions, some source => (w.db.items.filter fun i => i.snapshotId = source &&
      i.itemType = .fileVersion && i.parentExternalId.any (· ∈ binding w t .fileIds)).map (.ofRow 0)
  | .archiveCarry, some source => ((w.db.snapshotItemsEffective source).filter fun i =>
      i.itemType = .archiveItem && i.externalId ∈ binding w t .externalIds ||
      i.itemType = .archiveAttachment &&
        i.parentExternalId.any (· ∈ binding w t .externalIds)).map (.ofRow 0)
  | _, _ => []

end

structure CopyRequest where
  kind : CopyKind
  lane : Lane
  targetSnapshotId : Uuid
  params : CopyParams := {}
  (partitionId slaPolicyId : Option Uuid := none)
  weight : Option Int := none

def labelKind (kind : CopyKind) : Bool := kind ∈ [.chatLabels, .chatPresentation]

def validateLabels (labels : Option (List ChatLabel)) : Except Failure Unit :=
  match labels with
  | none => .error (.valueError "chat labels must be a list")
  | some labels =>
    failIf (!decide (labels.map (·.chatId)).Nodup || labels.any fun l =>
        l.chatId = "" || l.folderPath = "" || l.quality < 0 || 3 < l.quality ||
          l.provenance = "" || 64 < l.provenance.length)
      (.valueError "chat labels require distinct identities, nonempty paths and typed evidence")

def checkLabels (snapshot : Snapshot) (resource : Resource) (req : CopyRequest) :
    Except Failure Unit := do
  failIf (snapshot.extraData.chatInventoryFormat = some "1")
    (.conflict "catalogue snapshots already own their captured chat labels")
  if req.kind = .chatLabels then validateLabels req.params.labels
  else
    failIf req.partitionId.isSome
      (.conflict "chat presentation publication belongs to the snapshot")
  failIf (resource.type ≠ .userChats) (.conflict "chat labels require a chat resource")

def schedulingWeight (job : Job) (weight : Option Int) : Weight :=
  let n := max 1 (min 8 (weight.getD (6 - (job.priority.filter (· ≠ 0)).getD 5)))
  ⟨n.toNat, by omega, by omega⟩

def checkPolicy (w : World) (resource : Resource) (policyId : Option Uuid) : Except Failure Unit :=
  failIf (policyId.any fun pid => !w.slaPolicies.any fun policy =>
    policy.id = pid && policy.tenantId = resource.tenantId)
    (.conflict "copy SLA policy tenant mismatch")

def activePartition (w : World) (snapshot : Snapshot) :
    Option Uuid → Except Failure (Option Partition)
  | none => .ok none
  | some pid => do
    let inactive := Failure.conflict "copy partition is no longer active"
    let partition ← orFail inactive (w.partition? pid)
    failIf (partition.snapshotId ≠ snapshot.id || partition.status ≠ .inProgress) inactive
    .ok (some partition)

def checkRename (params : CopyParams) : Bool :=
  let ids := params.chatIds.getD []
  let names := params.names.getD []
  ids.length = names.length && decide ids.Nodup && (ids ++ names).all (· ≠ "")

/-- The workflow of the leaf, still draining under the leaf's present owner. `id` is the `uuid4()` of a
new one. -/
def openWorkflow (w : World) (id : Uuid) (snapshot : Snapshot) (resource : Resource) (job : Job)
    (partition : Option Partition) : Except Failure (World × CopyWorkflow) :=
  let leaf : Leaf := ⟨snapshot.id, partition.map (·.id)⟩
  let token := partition.elim snapshot.leaseToken (·.leaseToken)
  match w.workflows.find? (·.leaf.key = leaf.key) with
  | none =>
    if w.workflows.any (·.id = id) then .error .integrity
    else
      let f : CopyWorkflow := {
        id, leaf, tenantId := resource.tenantId, resourceId := resource.id, jobId := job.id
        parentLeaseToken := token, snapshotLeaseToken := snapshot.leaseToken
        jobLeaseToken := job.leaseToken }
      .ok ({ w with workflows := w.workflows ++ [f] }, f)
  | some f =>
    if f.state ∈ [.failed, .cancelled] && f.parentLeaseToken < token then
      let revive := Work.CopyWorkflow.revive token snapshot.leaseToken job.leaseToken
      .ok (w.updateWorkflow f.id revive, revive f)
    else if f.state = .draining && token = f.parentLeaseToken then .ok (w, f)
    else .error (.conflict "copy workflow already sealed")

def openPlan (w : World) (snapshot : Snapshot) (partition : Option Partition) (req : CopyRequest) :
    Except Failure World := do
  let outside (p : Partition) : Bool :=
    (req.params.labels.getD []).any (·.chatId ∉ p.payload.chatIds)
  failIf (partition.any outside) (.conflict "chat label is outside the source partition")
  let plan := (w.plan? snapshot.id).getD { snapshotId := snapshot.id }
  failIf (plan.state = .published) (.conflict "captured chat presentation is already sealed")
  .ok (w.putPlan (if req.kind = .chatLabels && plan.state = .aborted then
    { plan with state := .pending, taskId := none, expectedCount := 0, publishedCount := 0 }
    else plan))

def intentParams (snapshot : Snapshot) (p : CopyParams) : CopyParams :=
  { p with
    targetSnapshotId := some snapshot.id, executionBudgetV1 := false, sourceFixed := false
    sourceImplicit := false
    priorSnapshotId :=
      if p.sourceFixed && (p.sourceImplicit || p.priorSnapId.isSome) then none else p.priorSnapshotId
    p8SourcesFixed := false, p8SourceCount := 0 }

def selectors : List Selector :=
  [.chatIds, .excludedPaths, .externalIds, .fileIds, .keepFolderIds, .labels, .names, .tombstonedIds]

def inputValues (p : CopyParams) : Selector → List InputValue
  | .labels => (p.labels.getD []).map .label
  | key => ((p.text key).getD []).map .text

def largeInputs (p : CopyParams) : List Selector :=
  selectors.filter fun key => 256 < (inputValues p key).length

def storedParams (p : CopyParams) : CopyParams :=
  let large := largeInputs p
  let cut (key : Selector) (list : Option (List String)) : Option (List String) :=
    if key ∈ large then some [] else list
  if large = [] then p
  else { p with
    fileIds := cut .fileIds p.fileIds, externalIds := cut .externalIds p.externalIds
    excludedPaths := cut .excludedPaths p.excludedPaths
    tombstonedIds := cut .tombstonedIds p.tombstonedIds
    keepFolderIds := cut .keepFolderIds p.keepFolderIds, chatIds := cut .chatIds p.chatIds
    names := cut .names p.names, labels := if .labels ∈ large then some [] else p.labels
    inputKeys := large }

def inputRows (taskId : Uuid) (p : CopyParams) : List CopyWorkInput :=
  (largeInputs p).flatMap fun key =>
    (inputValues p key).zipIdx.map fun (value, ordinal) => ⟨taskId, key, ordinal, value⟩

def insertQueues (w : World) (t : CopyWorkTask) (weight : Weight) : World :=
  let rows : List CopyWorkQueue :=
    [{ key := t.tenantQueueKey }, { key := t.queueKey, weight }, { key := t.resourceQueueKey }]
  { w with copyQueues := insertAllIgnore (·.key) w.copyQueues rows }

def insertTask (w : World) (t : CopyWorkTask) : Except Failure (World × CopyWorkTask) :=
  match w.copyTasks.find? (·.idempotencyKey = t.idempotencyKey) with
  | some known => .ok (w, known)
  | none =>
    if w.copyTasks.any (·.id = t.id) then .error .integrity
    else .ok ({ w with copyTasks := w.copyTasks ++ [t] }, t)

def storeInputs (w : World) (taskId : Uuid) (p : CopyParams) : World :=
  { w with copyInputs := insertAllIgnore CopyWorkInput.uniqueKey w.copyInputs (inputRows taskId p) }

section

def lockable (w : World) (tid : Uuid) (allowActive checkCancelled : Bool) (sid : Uuid) : Bool :=
  inTenant w tid sid && (w.db.snapshot? sid).any fun s => s.status.any (· ≠ .pendingDeletion) &&
    (allowActive || s.status.any (· ∈ [SnapshotStatus.completed, .partialRun]) &&
      (!checkCancelled || s.extraData.cancelledAt = none) && !s.extraData.copyRequiredFailed)

def pinRows (taskId : Uuid) (ids : List Uuid) : List CopyWorkItem :=
  ids.zipIdx.map fun (id, i) => ⟨taskId, -(i + 1 : Int), .pin, some id, -1⟩

def insertPins (w : World) (taskId : Uuid) (ids : List Uuid) : World :=
  { w with copyItems := insertAllIgnore CopyWorkItem.uniqueKey w.copyItems (pinRows taskId ids) }

variable (env : Env) (w : World) (t : CopyWorkTask)

def intentSources (f : CopyWorkflow) : List Uuid :=
  if t.kind = .legacyChatAttachments then
    (((attachmentCandidates w t f).map (·.item.snapshotId)).dedup.insertionSort (· ≤ ·)).take
      (env.intentSourcePinMax + 1).toNat
  else (sourceChoice w t f).toList

def fixedValid (choice : Option Uuid) : Bool :=
  (t.params.explicitPrior.isNone || choice.isSome) &&
    ((frozenSource w t).all (·.isNone) || choice.isSome)

def fixSources (f : CopyWorkflow) : CopyParams :=
  if t.kind = .legacyChatAttachments then
    { t.params with
      p8SourcesFixed := true, p8SourceCount := (intentSources env w t f).length }
  else
    { t.params with
      sourceFixed := true, sourceImplicit := t.params.explicitPrior.isNone
      priorSnapshotId := some (sourceChoice w t f) }

def sourcesFixed : Bool :=
  if t.kind = .legacyChatAttachments then t.params.p8SourcesFixed else t.params.sourceFixed

def pinIntentSources : Except Failure World := do
  if t.kind ∈ [.chatRename, .chatLabels, .chatPresentation] then .ok w
  else
    let p8 : Bool := t.kind = .legacyChatAttachments
    let f ← scope w t
    if sourcesFixed t then .ok w
    else
      failIf (p8 && t.params.chatId.all (· = ""))
        (.valueError "legacy chat source intent requires chat_id")
      failIf (t.kind ∈ [.fileVersions, .archiveCarry] && t.params.explicitPrior.isNone)
        (.valueError "copy source snapshot must be fixed explicitly")
      failIf (env.intentSourcePinMax < 1)
        (.valueError "copy source pin limits and timeouts must be positive")
      let ids := intentSources env w t f
      failIf (!((p8 || fixedValid w t (sourceChoice w t f)) &&
          (ids.length : Int) ≤ env.intentSourcePinMax && ids.all (lockable w f.tenantId p8 true)))
        (.valueError "copy source intent is unavailable, being deleted, or exceeds its pin limit")
      .ok ((insertPins w t.id ids).updateTask t.id fun u => { u with params := fixSources env w t f })

end

def coveredShard (snapshot : Snapshot) (tenantId : Uuid) (p : Partition) : Bool :=
  p.status = .completed && some p.jobId = snapshot.jobId && p.resourceId = snapshot.resourceId &&
    p.tenantId = tenantId && p.payload.carryForward.any fun cf =>
      !cf.allFoldersFallback && !cf.tombstonesTruncated && cf.excludedPaths.isSome

def plannedFolders (w : World) (snapshot : Snapshot) (tenantId : Uuid) : Option (List String) :=
  let shards := w.partitions.filter fun p => p.snapshotId = snapshot.id && p.mailFolders
  if shards ≠ [] ∧ shards.all (coveredShard snapshot tenantId) then
    some ((shards.flatMap (·.payload.folderIds)).filter (· ≠ ""))
  else none

def bootstrapCovered (w : World) (snapshot : Snapshot) (tenantId : Uuid) : Bool :=
  snapshot.extraData.mailBootstrapOrigin.any fun origin =>
    origin.cursorFree && origin.folderIds ≠ [] &&
      (plannedFolders w snapshot tenantId).any fun planned =>
        origin.folderIds.all (· ∈ planned) &&
          planned.all fun fid => snapshot.extraData.copyMailCheckpointTokens.any fun token =>
            token.1 = fid && token.2 ≠ ""

def completeBootstrapMailNoop (w : World) (snapshot : Snapshot) (t : CopyWorkTask) : CopyWorkTask :=
  if snapshot.extraData.cancelledAt.isSome then
    { t with state := .cancelled, error := some { code := "copy_parent_cancelled" } }
  else if bootstrapCovered w snapshot t.tenantId then
    { t with state := .completed, prepared := true, error := none }
  else { t with state := .failed, error := some { code := "mail_bootstrap_coverage_unproven" } }

def bootstrapNoop (w : World) (snapshot : Snapshot) (resource : Resource) (taskId : Uuid) : World :=
  let applies (t : CopyWorkTask) : Bool :=
    t.kind = .mailCarry && t.state = .ready && resource.type = .userMail &&
      snapshot.extraData.mailUnionCarryClaimed && t.params.sourceFixed &&
      t.params.priorSnapshotId.join = none
  w.updateTask taskId fun t => if applies t then completeBootstrapMailNoop w snapshot t else t

def newTask (env : Env) (now : Time) (id : Uuid) (f : CopyWorkflow) (resource : Resource)
    (policyId : Option Uuid) (req : CopyRequest) (params : CopyParams) : CopyWorkTask where
  id
  workflowId := f.id
  tenantId := resource.tenantId
  resourceId := resource.id
  slaPolicyId := policyId
  idempotencyKey := ⟨f.id, f.captureAttempt, req.kind, params⟩
  kind := req.kind
  lane := req.lane
  params := storedParams params
  captureAttempt := f.captureAttempt
  createdAt := now
  readyAt := now
  queueEnteredAt := now
  waitMaxS := max 0 env.waitMaxS

def admitLabels (snapshot : Snapshot) (resource : Resource) (req : CopyRequest) : Except Failure Unit :=
  if labelKind req.kind then checkLabels snapshot resource req else .ok ()

def planLabels (w : World) (snapshot : Snapshot) (partition : Option Partition) (req : CopyRequest) :
    Except Failure World :=
  if labelKind req.kind then openPlan w snapshot partition req else .ok w

def register (env : Env) (w : World) (now : Time) (taskId : Uuid) (f : CopyWorkflow)
    (snapshot : Snapshot) (resource : Resource) (job : Job) (policyId : Option Uuid)
    (req : CopyRequest) : Except Failure (World × Uuid) := do
  let params := intentParams snapshot req.params
  failIf (req.kind = .chatRename && !checkRename params)
    (.valueError "rename requires distinct ids and matching nonempty names")
  let t := newTask env now taskId f resource policyId req params
  let (w, t) ← insertTask (insertQueues w t (schedulingWeight job req.weight)) t
  let w ← pinIntentSources env (storeInputs w t.id params) t
  .ok (bootstrapNoop w snapshot resource t.id, t.id)

/-- `enqueue`; `workflowId` and `taskId` are the `uuid4()`s of new rows. The task's id is returned. -/
def enqueue (env : Env) (w : World) (now : Time) (workflowId taskId : Uuid) (req : CopyRequest) :
    Except Failure (World × Uuid) := do
  failIf (req.weight.any fun n => n < 1 || 8 < n)
    (.valueError "copy scheduling weight must be between 1 and 8")
  let (snapshot, resource, job) ← parent w req.targetSnapshotId
  admitLabels snapshot resource req
  let policyId := req.slaPolicyId.or resource.slaPolicyId
  checkPolicy w resource policyId
  let partition ← activePartition w snapshot req.partitionId
  let (w, f) ← openWorkflow w workflowId snapshot resource job partition
  let w ← planLabels w snapshot partition req
  register env w now taskId f snapshot resource job policyId req

end TmVault.Copy
