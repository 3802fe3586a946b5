import TmVault.Copy.Presentation
import TmVault.Provider.Work

namespace TmVault.Copy

open Relational Store Work

section

def backlog (w : World) : List CopyWorkTask :=
  w.copyTasks.filter fun t => t.state.isBacklog && (w.workflow? t.workflowId).any fun f =>
    f.state = .waiting && t.captureAttempt = f.captureAttempt

def busyWithout (w : World) (workflowId : Uuid) (key : CopyQueueKey) : Bool :=
  (backlog w).any fun t => t.workflowId ≠ workflowId && t.queueKeyAt key.scope = key

def siblingMin (w : World) (workflowId : Uuid) (key : CopyQueueKey) : Option ℚ :=
  ((w.copyQueues.filter fun q => q.key.scope = key.scope && q.key.lane = key.lane &&
    q.key.parent = key.parent && q.key ≠ key && busyWithout w workflowId q.key).map
      (·.virtualFinish)).min?

def quantum (q : CopyWorkQueue) : ℚ := 1 / (q.weight.1 : ℚ)

def alignQueue (w : World) (workflowId : Uuid) (q : CopyWorkQueue) : CopyWorkQueue :=
  if busyWithout w workflowId q.key then q
  else match siblingMin w workflowId q.key with
    | none => q
    | some least => { q with virtualFinish := max q.virtualFinish (least + quantum q) }

def alignScope (f : CopyWorkflow) (w : World) (scope : QueueScope) : World :=
  let keys := ((w.tasksOf f).filter (·.state.isBacklog)).map (·.queueKeyAt scope)
  { w with copyQueues := w.copyQueues.map fun q =>
      if q.key.scope = scope && q.key ∈ keys then alignQueue w f.id q else q }

def withControl (w : World) : World := { w with copyControl := w.copyControl.or (some {}) }

def alignReadyWorkflow (w : World) (f : CopyWorkflow) : World :=
  if f.state ≠ .draining then w
  else [QueueScope.tenant, .policy, .resource].foldl (alignScope f) (withControl w)

variable (env : Env) (w : World) (now : Time)

def blockedBy (t : CopyWorkTask) (kind : CopyKind) : Bool :=
  t.kind = kind && w.copyTasks.any fun u => u.workflowId = t.workflowId && u.kind ≠ kind &&
    u.captureAttempt = t.captureAttempt && !u.state.isTerminal

def eligible (t : CopyWorkTask) : Bool :=
  (w.workflow? t.workflowId).any (fun f =>
    f.state = .waiting && t.captureAttempt = f.captureAttempt) &&
    (t.state = .ready && t.readyAt ≤ now || t.state = .running && t.leaseExpiresAt.any (· < now)) &&
    !blockedBy w t .chatRename && !blockedBy w t .chatPresentation

def claimable : List CopyWorkTask := w.copyTasks.filter (eligible w now)

def contenders (scope : QueueScope) (above : Option CopyQueueKey) : List CopyWorkQueue :=
  w.copyQueues.filter fun q => q.key.scope = scope &&
    (claimable w now).any (·.queueKeyAt scope = q.key) && above.all fun key => q.key.parent = some key

def nextQueue (scope : QueueScope) (above : Option CopyQueueKey) : Option CopyWorkQueue :=
  orderByFirst (fun a b => a.virtualFinish < b.virtualFinish ||
    a.virtualFinish = b.virtualFinish && env.keyRank a.key < env.keyRank b.key)
    (contenders w now scope above)

def servedChain : Option (List CopyWorkQueue) := do
  let tenant ← nextQueue env w now .tenant none
  let policy ← nextQueue env w now .policy (some tenant.key)
  let resource ← nextQueue env w now .resource (some policy.key)
  some [tenant, policy, resource]

def chargeTurn (chain : List CopyWorkQueue) : World :=
  { w with copyQueues := w.copyQueues.map fun q =>
      if q.key ∈ chain.map (·.key) then { q with virtualFinish := q.virtualFinish + quantum q } else q }

def nextTask (locked : List Uuid) (key : CopyQueueKey) : Option CopyWorkTask :=
  orderByFirst (fun a b => a.createdAt < b.createdAt || a.createdAt = b.createdAt && a.id < b.id)
    ((claimable w now).filter fun t => t.resourceQueueKey = key && t.id ∉ locked)

def countWait (t : CopyWorkTask) : CopyWorkTask :=
  if t.state = .ready then
    { t with cumulativeWaitS := t.cumulativeWaitS + ((now - t.queueEnteredAt : Nat) : ℚ) / 1000000 }
  else t

def withBudget (t : CopyWorkTask) : CopyWorkTask :=
  if t.params.executionBudgetV1 then t
  else { t with attempts := knownFailures t, params := { t.params with executionBudgetV1 := true } }

def claimedTask (owner : Uuid) (leaseSeconds : Nat) (t : CopyWorkTask) : CopyWorkTask :=
  let t := countWait now t
  if waitedOut t then { t with state := .failed, error := some { code := "copy_admission_timeout" } }
  else
    let t := withBudget t
    { t with
      state := .running, generation := t.generation + 1, leaseOwnerId := some owner
      leaseExpiresAt := some (now + seconds leaseSeconds), attempts := t.attempts + 1 }

/-- `claim`. `busy` says that another scheduler holds the control row, `locked` are the task rows other
transactions hold. -/
def claim (busy : Bool) (locked : List Uuid) (owner : Uuid) (leaseSeconds : Nat) :
    Except Failure (World × Option CopyClaim) :=
  let w := withControl w
  if busy then .ok (w, none)
  else match servedChain env w now with
    | none => .ok (w, none)
    | some chain =>
      let charged := chargeTurn w chain
      match chain.getLast?.bind fun q => nextTask w now locked q.key with
      | none => .ok (charged, none)
      | some t => do
        let f ← orFail .integrity (w.workflow? t.workflowId)
        let _ ← parent w f.leaf.snapshotId
        let taken := claimedTask now owner leaseSeconds t
        .ok (charged.updateTask t.id (claimedTask now owner leaseSeconds),
          if taken.state = .running then some ⟨t.id, owner, taken.generation⟩ else none)

end

structure ResumeClaim where
  (workflowId ownerId : Uuid)
  (generation parentLeaseToken : Nat)
  deriving DecidableEq

def resumeHolds (w : World) (c : ResumeClaim) : Bool :=
  (w.workflow? c.workflowId).any fun f =>
    let l := lockParents w f
    f.state = .resuming && f.generation = c.generation && f.leaseOwnerId = some c.ownerId &&
      f.parentLeaseToken = c.parentLeaseToken &&
      l.job.any (fun job => job.status ∉ [.cancelled, .cancelling]) &&
      l.snapshot.any fun s => !truthy s.extraData.cancelledAt && l.leaseToken s = c.parentLeaseToken

def verifyCopyResume (w : World) (now : Time) (c : ResumeClaim) : World × Bool :=
  if resumeHolds w c then
    (w.updateWorkflow c.workflowId fun f => { f with leaseExpiresAt := some (now + seconds 90) }, true)
  else (w, false)

abbrev RowIdentity := Uuid × Nat × Option Uuid

structure ParentIdentity where
  (job snapshot partition : Option RowIdentity)
  deriving DecidableEq

def parentIdentity (l : Locked) : ParentIdentity where
  job := l.job.map fun r => (r.id, r.leaseToken, r.leaseOwnerId)
  snapshot := l.snapshot.map fun r => (r.id, r.leaseToken, r.leaseOwnerId)
  partition := l.partition.map fun r => (r.id, r.leaseToken, r.leaseOwnerId)

structure SealReceipt where
  workflowId : Uuid
  (generation captureAttempt : Nat)
  parents : ParentIdentity
  continuation : String

structure CopyCollection where
  snapshotId : Uuid
  partitionId : Option Uuid := none
  error : Bool := false
  (expectedSnapshotToken expectedPartitionToken expectedJobToken : Option Nat := none)
  sealedResult : Option Uuid := none
  sealReceipt : Option SealReceipt := none

def sealedParents (p : ParentIdentity) : ParentIdentity :=
  let next : RowIdentity → RowIdentity := fun (id, token, _) => (id, token + 1, none)
  if p.partition.isSome then { p with partition := p.partition.map next }
  else { p with snapshot := p.snapshot.map next }

def matchesSealReceipt (r : SealReceipt) (f : CopyWorkflow) (l : Locked) : Bool :=
  let parents := sealedParents r.parents
  let token (row : Option RowIdentity) : Option Nat := row.map (·.2.1)
  f.id = r.workflowId && f.state = .waiting && f.generation = r.generation + 1 &&
    f.captureAttempt = r.captureAttempt && f.continuation = r.continuation &&
    f.leaseOwnerId = none && f.leaseExpiresAt = none && parentIdentity l = parents &&
    some f.parentLeaseToken = token (parents.partition.or parents.snapshot) &&
    some f.snapshotLeaseToken = token parents.snapshot && some f.jobLeaseToken = token parents.job

inductive SealDecision
  | nothing
  | already (r : SealReceipt)
  | suspend (r : SealReceipt) (f : CopyWorkflow) (snapshot : Snapshot)

def observationMoved (capture : CopyCollection) (job : Job) (snapshot : Snapshot) (l : Locked) : Bool :=
  capture.expectedJobToken.any (· ≠ job.leaseToken) ||
    capture.expectedSnapshotToken.any (· ≠ snapshot.leaseToken) ||
    capture.expectedPartitionToken.any fun token => l.partition.map (·.leaseToken) ≠ some token

def sealDecision (w : World) (capture : CopyCollection) (own : Option ResumeClaim)
    (continuation : String) (receiptOnly : Bool) : Except Failure SealDecision :=
  let leaf : Leaf := ⟨capture.snapshotId, capture.partitionId⟩
  match w.workflows.find? (·.leaf.key = leaf.key) with
  | none =>
    if capture.sealReceipt.isSome then .error (.conflict "copy seal workflow disappeared")
    else .ok .nothing
  | some f => do
    let l := lockParents w f
    let gone := Failure.conflict "copy seal parent disappeared"
    let job ← orFail gone l.job
    let snapshot ← orFail gone l.snapshot
    failIf (capture.partitionId.isSome && l.partition.isNone) gone
    if capture.sealReceipt.isNone && f.state = .resuming && own.any (·.workflowId = f.id) then
      failIf (!own.any (resumeHolds w)) (.conflict "copy publication resume ownership moved")
      .ok .nothing
    else
      failIf (!jobActive job.status || snapshot.status ≠ some .inProgress ||
        truthy snapshot.extraData.cancelledAt)
        (.conflict "copy parent no longer permits suspension")
      failIf (l.partition.any (·.status ≠ .inProgress)) (.conflict "copy partition is terminal")
      match capture.sealReceipt.filter (matchesSealReceipt · f l) with
      | some r => .ok (.already r)
      | none =>
        failIf (capture.sealReceipt.any fun r => f.id ≠ r.workflowId || f.generation ≠ r.generation ||
          f.captureAttempt ≠ r.captureAttempt || parentIdentity l ≠ r.parents)
          (.conflict "copy seal ownership or continuation moved")
        failIf (f.state ≠ .draining) (.conflict "copy parent no longer permits suspension")
        failIf (observationMoved capture job snapshot l)
          (.conflict "copy source capture generation has moved")
        failIf (l.leaseToken snapshot ≠ f.parentLeaseToken)
          (.conflict "copy leaf ownership moved during capture")
        if receiptOnly then .ok .nothing
        else .ok (.suspend (capture.sealReceipt.getD
          ⟨f.id, f.generation, f.captureAttempt, parentIdentity l, continuation⟩) f snapshot)

def handOff (w : World) (now : Time) (c : Provider.ProviderClaim) : Except Provider.Failure World := do
  let w ← Provider.recordUnitCheckpoint w now c
    { unitKey := "planning", kind := "planning", state := .completed, deadlineAt := now + seconds 604800 }
  let w ← Provider.finishWork w now c .completed
  .ok (w.updateWork c.workId fun r =>
    { r with parentSettlePending := false, lastReason := some "copy_handoff" })

def Provider.Failure.text : Provider.Failure → String
  | .conflict message | .valueError message => message

def handOffFrom (w : World) (now : Time) : Option Provider.ProviderClaim → Except Failure World
  | none => .ok w
  | some c => (handOff w now c).mapError fun e => .provider (Provider.Failure.text e)

def readyTasks (now : Time) (f : CopyWorkflow) (w : World) : World :=
  { w with copyTasks := w.copyTasks.map fun t =>
      if t.workflowId = f.id && t.captureAttempt = f.captureAttempt && t.state = .ready then
        { t with readyAt := now, queueEnteredAt := now, cumulativeWaitS := 0 }
      else t }

def sealWorkflow (token snapshotToken jobToken : Nat) (continuation : String) (f : CopyWorkflow) :
    CopyWorkflow :=
  { f with
    parentLeaseToken := token, snapshotLeaseToken := snapshotToken, jobLeaseToken := jobToken
    continuation
    state := .waiting, generation := f.generation + 1, leaseOwnerId := none
    leaseExpiresAt := none }

def suspend (w : World) (now : Time) (provider : Option Provider.ProviderClaim)
    (continuation : String) (f : CopyWorkflow) (snapshot : Snapshot) : Except Failure World := do
  let l := lockParents w f
  let w ← handOffFrom w now provider
  let token := l.leaseToken snapshot + 1
  let snapshotToken := if l.partition.isSome then snapshot.leaseToken else token
  let w := w.writeLease (l.leaf snapshot) token none none
  let w := alignReadyWorkflow w f
  let w := w.updateWorkflow f.id
    (sealWorkflow token snapshotToken (l.job.elim 0 (·.leaseToken)) continuation)
  let w := readyTasks now f w
  .ok (w.updateSnapshot snapshot.id fun s =>
    { s with extraData := { s.extraData with copyWorkflowId := some f.id, copyPhase := some "QUEUED" } })

def sealCurrentCopy (w : World) (now : Time) (capture : CopyCollection) (own : Option ResumeClaim)
    (provider : Option Provider.ProviderClaim) (continuation : String) (receiptOnly : Bool) :
    Except Failure (World × CopyCollection) := do
  failIf capture.error (.conflict "required copy intent persistence failed")
  failIf (65536 < continuation.utf8ByteSize)
    (.valueError "copy continuation must contain bounded scalars and durable references")
  failIf (capture.sealReceipt.any (·.continuation ≠ continuation))
    (.conflict "copy continuation differs from original seal")
  if capture.sealedResult.isSome then .ok (w, capture)
  else match ← sealDecision w capture own continuation receiptOnly with
    | .nothing => .ok (w, capture)
    | .already r => .ok (w, { capture with sealedResult := some r.workflowId })
    | .suspend r f snapshot => do
      let w ← suspend w now provider continuation f snapshot
      .ok (w, { capture with sealReceipt := some r, sealedResult := some r.workflowId })

def adoptOutcome (now : Time) (succeeded : Bool) (f : CopyWorkflow) : CopyWorkflow :=
  { f with
    state := if succeeded then .completed else .partialRun
    completedAt := some now, parentSettlePending := true }

def dropManifests (w : World) (workflowId : Uuid) : World :=
  let own (taskId : Uuid) : Bool := w.copyTasks.any fun t => t.id = taskId && t.workflowId = workflowId
  { w with
    copyItems := w.copyItems.filter fun i => !own i.taskId
    copyInputs := w.copyInputs.filter fun i => !own i.taskId }

def degraded : String := "required database copy did not complete"

def markCopied (failed : Bool) (e : SnapshotExtra) : SnapshotExtra :=
  if failed then
    { e with copyRequiredFailed := true, copyPhase := some "FAILED", degradedReason := some degraded }
  else
    { e with
      copyPhase := some "COMPLETE", copyRequiredFailed := false
      degradedReason := if e.degradedReason = some degraded then none else e.degradedReason }

def abortPublication (w : World) (snapshotId : Uuid) : World :=
  match (w.plan? snapshotId).filter (·.state ≠ .published) with
  | none => w
  | some plan =>
    let w := w.putPlan { plan with state := .aborted }
    { w with presentationDrafts := w.presentationDrafts.filter (·.snapshotId ≠ snapshotId) }

def settlePublication (w : World) (tasks : List CopyWorkTask) (snapshotId : Uuid) : World :=
  if tasks.any fun t => t.kind = .chatPresentation && t.state ≠ .completed then
    abortPublication w snapshotId
  else w

def resumeWorkflow (now : Time) (owner : Uuid) (token snapshotToken : Nat) (f : CopyWorkflow) :
    CopyWorkflow :=
  { f with
    parentLeaseToken := token, snapshotLeaseToken := snapshotToken, state := .resuming
    generation := f.generation + 1, leaseOwnerId := some owner
    leaseExpiresAt := some (now + seconds 90) }

def takeOver (w : World) (now : Time) (owner : Uuid) (f : CopyWorkflow) (snapshot : Snapshot) :
    World × ResumeClaim :=
  let l := lockParents w f
  let token := l.leaseToken snapshot + 1
  let snapshotToken := if l.partition.isSome then snapshot.leaseToken else token
  let tasks := w.tasksOf f
  let failed := tasks.any (·.state ≠ .completed)
  let w := w.writeLease (l.leaf snapshot) token (some owner) (some (now + seconds 90))
  let w := w.updateWorkflow f.id (resumeWorkflow now owner token snapshotToken)
  let w := w.updateSnapshot snapshot.id fun s => { s with extraData := markCopied failed s.extraData }
  let w := settlePublication w tasks snapshot.id
  (w, ⟨f.id, owner, f.generation + 1, token⟩)

def tasksPending (w : World) (f : CopyWorkflow) : Bool := (w.tasksOf f).any (!·.state.isTerminal)

def resumable (now : Time) (f : CopyWorkflow) : Bool :=
  f.state = .waiting || f.state = .resuming && !f.leaseExpiresAt.any (now < ·)

def beginResume (w : World) (now : Time) (workflowId owner : Uuid) :
    Except Failure (World × Option ResumeClaim) :=
  match w.workflow? workflowId with
  | none => .ok (w, none)
  | some f =>
    if !resumable now f || tasksPending w f then .ok (w, none)
    else do
      let l := lockParents w f
      let job ← orFail (.conflict "copy resume parent missing") l.job
      let snapshot ← orFail (.conflict "copy resume parent missing") l.snapshot
      if l.terminal snapshot then
        .ok (w.updateWorkflow f.id (adoptOutcome now (l.succeeded snapshot)), none)
      else if !jobActive job.status then
        .ok ((dropManifests w f.id).updateWorkflow f.id fun f =>
          { f with state := .cancelled, completedAt := some now }, none)
      else
        failIf (l.leaseToken snapshot ≠ f.parentLeaseToken)
          (.conflict "copy resume leaf generation moved")
        let (w, c) := takeOver w now owner f snapshot
        .ok (w, some c)

def finishWorkflow (now : Time) (gaps : Bool) (f : CopyWorkflow) : CopyWorkflow :=
  { f with
    state := if gaps then .partialRun else .completed
    completedAt := some now, parentSettlePending := true, leaseOwnerId := none
    leaseExpiresAt := none }

/-- `finish_resume` after its first read. `seen` is the workflow as that read found it: the second read,
under the lock, does not refresh the row. -/
def finishResume (w : World) (now : Time) (seen : CopyWorkflow) (owner : Uuid) (failed : Bool) :
    Except Failure World :=
  if seen.state ≠ .resuming || seen.leaseOwnerId ≠ some owner then .ok w
  else do
    let l := lockParents w seen
    let snapshot ← orFail .integrity l.snapshot
    failIf (!l.terminal snapshot) (.conflict "copy continuation did not settle its leaf")
    let gaps := (w.tasksOf seen).any (·.state ≠ .completed)
    .ok (w.updateWorkflow seen.id (finishWorkflow now (failed || gaps)))

def finishParentSettlement (w : World) (workflowId : Uuid) : World :=
  match w.workflow? workflowId with
  | none => w
  | some f =>
    let l := lockParents w f
    if f.parentSettlePending && !f.state.isActive &&
        l.snapshot.any (fun s =>
          s.status.any (· ∈ [SnapshotStatus.completed, .partialRun, .failed, .skipped])) &&
        l.job.any (fun job => job.status ∈ [.completed, .partialRun, .failed, .cancelled]) then
      (dropManifests w f.id).updateWorkflow f.id fun f => { f with parentSettlePending := false }
    else w

structure CancelScope where
  (snapshotId jobId workflowId : Option Uuid := none)

def CancelScope.covers (scope : CancelScope) (f : CopyWorkflow) : Bool :=
  scope.snapshotId.all (· = f.leaf.snapshotId) && scope.jobId.all (· = f.jobId) &&
    scope.workflowId.all (· = f.id)

inductive AbortState
  | cancelled | failed
  deriving DecidableEq

def AbortState.state : AbortState → WorkState
  | cancelled => .cancelled
  | failed => .failed

def cancelTask (reason : String) (t : CopyWorkTask) : CopyWorkTask :=
  if t.state.isTerminal then t
  else { t with
    state := .cancelled
    error := some { code := "copy_cancelled", reason := some (String.ofList (reason.toList.take 80)) }
    generation := t.generation + 1, leaseOwnerId := none, leaseExpiresAt := none }

def cancelTasks (w : World) (workflowId : Uuid) (reason : String) : World :=
  { w with copyTasks := w.copyTasks.map fun t =>
      if t.workflowId = workflowId then cancelTask reason t else t }

def abortWorkflow (now : Time) (terminal : AbortState) (f : CopyWorkflow) : CopyWorkflow :=
  { f with
    state := terminal.state, parentSettlePending := false, generation := f.generation + 1
    completedAt := some now }

def cancelWorkflow (now : Time) (reason : String) (terminal : AbortState) (w : World)
    (f : CopyWorkflow) : World :=
  let l := lockParents w f
  let w := cancelTasks (dropManifests w f.id) f.id reason
  let w := w.updateWorkflow f.id (abortWorkflow now terminal)
  match l.snapshot with
  | some s =>
    if terminal = .failed && l.leaseToken s = f.parentLeaseToken && s.status = some .inProgress then
      w.updateSnapshot s.id fun s => { s with extraData := { s.extraData with
        copyRequiredFailed := true, degradedReason := some degraded, copyPhase := some "FAILED" } }
    else w
  | none => w

def cancelCopyWork (w : World) (now : Time) (scope : CancelScope) (reason : String)
    (terminal : AbortState) : Except Failure World := do
  failIf (scope.snapshotId.isNone && scope.jobId.isNone && scope.workflowId.isNone)
    (.valueError "copy cancellation needs parent scope")
  .ok ((w.workflows.filter fun f => (f.state.isActive || f.parentSettlePending) &&
    scope.covers f).foldl (cancelWorkflow now reason terminal) w)

end TmVault.Copy
