import TmVault.Work.Tables

namespace TmVault.Provider

open Relational Store Work

inductive Failure
  | conflict (message : String)
  | valueError (message : String)

structure ProviderClaim where
  workId : Uuid
  leaf : Leaf
  jobId : Uuid
  ownerId : Option Uuid
  (generation parentToken snapshotToken jobToken : Nat)
  weight : Nat := 1
  deriving DecidableEq

def receipt (r : ProviderWork) : ProviderClaim where
  workId := r.id
  leaf := r.leaf
  jobId := r.jobId
  ownerId := r.leaseOwnerId
  generation := r.generation
  parentToken := r.parentLeaseToken
  snapshotToken := r.snapshotLeaseToken
  jobToken := r.jobLeaseToken
  weight := r.weight

def bounded (continuation : Continuation) : Except Failure Continuation :=
  if continuation.bytes > 8192 then
    .error (.valueError "provider continuation must be bounded; use unit rows")
  else .ok continuation

def held (s : WorkState) : Bool := s ∈ [.draining, .resuming]

def owned (w : World) (now : Time) (allowTerminal : Bool) (claim : ProviderClaim) :
    Except Failure (ProviderWork × Parents) :=
  match w.parents claim.leaf, w.work? claim.workId with
  | none, _ => .error (.conflict "provider parent locked or removed")
  | some _, none => .error (.conflict "provider work ownership changed")
  | some parents, some row =>
    if held row.state && row.generation = claim.generation && row.leaseOwnerId = claim.ownerId &&
        row.leaseExpiresAt.any (now < ·) &&
        (parents.active || allowTerminal && parents.job.status ≠ .cancelled &&
          parents.outcome.isSome) &&
        parents.leaseToken = claim.parentToken && parents.leaseOwnerId = claim.ownerId &&
        (parents.partition.isSome ||
          parents.snapshot.leaseToken = claim.snapshotToken && parents.job.leaseToken = claim.jobToken)
    then .ok (row, parents)
    else .error (.conflict "provider work ownership changed")

def passes (w : World) (now : Time) (claim : ProviderClaim) : Bool :=
  (owned w now true claim).toOption.isSome

def floorUnder (w : World) (parent : Option QueueKey) : ℚ :=
  ((w.queues.filter (·.key.parent = parent)).map (·.virtualFinish)).max?.getD 0

def keepsBusy (now : Time) (r : ProviderWork) : Bool :=
  held r.state || r.state = .waiting && r.nextEligibleAt ≤ now && !r.continuation.queueWasCooling

def enterQueue (now : Time) (w : World) (entry : QueueKey × Nat) : World :=
  let floor := floorUnder w entry.1.parent
  let idle := !w.works.any fun r => entry.1 ∈ r.queueKeys && keepsBusy now r
  if w.queues.any (·.key = entry.1) then
    if idle then
      { w with queues := w.queues.map fun q =>
          if q.key = entry.1 then { q with virtualFinish := max q.virtualFinish floor } else q }
    else w
  else { w with queues := w.queues ++ [⟨entry.1, entry.2, floor⟩] }

def charge (w : World) (r : ProviderWork) (amount : ℚ) : World :=
  { w with queues := w.queues.map fun q =>
      if q.key ∈ r.queueKeys then { q with virtualFinish := q.virtualFinish + amount / q.weight }
      else q }

structure EnsureRequest where
  leaf : Leaf
  (snapshotToken jobToken : Nat)
  partitionToken : Option Nat := none
  weight : Option Int := none
  policyId : Option Uuid := none
  continuation : Continuation := {}

def holdsLeaf (p : Parents) (req : EnsureRequest) : Bool :=
  match p.partition with
  | some partition => req.partitionToken = some partition.leaseToken
  | none => req.snapshotToken = p.snapshot.leaseToken && req.jobToken = p.job.leaseToken

def effectiveWeight (job : Job) (weight : Option Int) : Int :=
  weight.getD (max 1 (min 8 (6 - ((job.priority.filter (· ≠ 0)).getD 5))))

def insertWork (w : World) (now : Time) (row : ProviderWork) : World :=
  let w := [(row.tenantQueueKey, 1), (row.policyQueueKey, row.weight),
    (row.resourceQueueKey, 1)].foldl (enterQueue now) w
  { w with control := w.control.or (some { enabled := true }), works := w.works ++ [row] }

def ensureWork (w : World) (now : Time) (id : Uuid) (req : EnsureRequest) :
    Except Failure (World × ProviderClaim) :=
  match w.parents req.leaf with
  | none => .error (.conflict "provider parent locked or removed")
  | some p =>
    match w.db.resources.find? (·.id = p.snapshot.resourceId) with
    | none => .error (.conflict "provider parent ownership changed")
    | some resource =>
      if !p.active || resource.tenantId ≠ p.job.tenantId ||
          !(p.partition.all fun partition =>
            partition.snapshotId = p.snapshot.id && partition.tenantId = p.job.tenantId) ||
          !holdsLeaf p req then
        .error (.conflict "provider parent ownership changed")
      else match w.works.find? (·.leaf.key = p.leaf.key) with
      | some existing => .ok (w, receipt existing)
      | none =>
        let weight := effectiveWeight p.job req.weight
        let policyId := req.policyId.or (req.continuation.policyId.or resource.slaPolicyId)
        if weight ≤ 0 then .error (.valueError "provider policy needs a positive weight")
        else if !(policyId.all fun pid => w.slaPolicies.any fun policy =>
            policy.id = pid && policy.tenantId = resource.tenantId) then
          .error (.conflict "provider SLA tenant mismatch")
        else if w.works.any (·.id = id) then .error (.conflict "duplicate key")
        else match bounded req.continuation with
        | .error e => .error e
        | .ok continuation =>
          let row : ProviderWork := {
            id, leaf := p.leaf, tenantId := resource.tenantId, resourceId := resource.id
            jobId := p.job.id, slaPolicyId := policyId, weight := weight.toNat
            parentLeaseToken := p.leaseToken, snapshotLeaseToken := p.snapshot.leaseToken
            jobLeaseToken := p.job.leaseToken, nextEligibleAt := now, createdAt := now
            queueEnteredAt := now, continuation }
          .ok ((insertWork w now row).writeLease p.leaf p.leaseToken none none, receipt row)

structure Reservation where
  workId : Uuid
  leaf : Leaf
  generation : Nat
  prior : WorkState × Option Uuid × Option Time
  deriving DecidableEq

def running (now : Time) (r : ProviderWork) : Bool := held r.state && r.leaseExpiresAt.any (now < ·)

def due (now : Time) (r : ProviderWork) : Bool :=
  r.state = .waiting && r.nextEligibleAt ≤ now || held r.state && r.leaseExpiresAt.any (· ≤ now)

def clock? (w : World) (key : QueueKey) : Option ℚ :=
  (w.queues.find? (·.key = key)).map (·.virtualFinish)

def fairKey (w : World) (r : ProviderWork) : ℚ ×ₗ ℚ ×ₗ ℚ ×ₗ Time ×ₗ Uuid :=
  let clock (key : QueueKey) : ℚ := (clock? w key).getD 0
  toLex (clock r.tenantQueueKey, toLex (clock r.policyQueueKey, toLex (clock r.resourceQueueKey,
    toLex (r.queueEnteredAt, r.id))))

def nextDue (w : World) (control : ProviderWorkControl) (now : Time) (locked skipped : List Uuid) :
    Option ProviderWork :=
  let full (tenantId : Uuid) : Bool :=
    control.tenantCapacity ≤ w.works.countP fun r => r.tenantId = tenantId && running now r
  orderByFirst (fun a b => fairKey w a ≤ fairKey w b) (w.works.filter fun r =>
    r.queueKeys.all (fun key => (clock? w key).isSome) && due now r &&
      r.protocolVersion = control.epoch && r.id ∉ skipped && !full r.tenantId && r.id ∉ locked)

def warmUp (now : Time) (w : World) (r : ProviderWork) : World :=
  let readyPeer (w : World) (key : QueueKey) : Bool :=
    w.works.any fun peer => peer.id ≠ r.id && key ∈ peer.queueKeys && keepsBusy now peer
  let lift (w : World) (key : QueueKey) : World :=
    if readyPeer w key then w
    else
      let floor := floorUnder w key.parent
      { w with queues := w.queues.map fun q =>
          if q.key = key then { q with virtualFinish := max q.virtualFinish floor } else q }
  (r.queueKeys.foldl lift w).updateWork r.id fun r =>
    { r with continuation := { r.continuation with queueWasCooling := false } }

def reserveLoop (control : ProviderWorkControl) (now : Time) (locked busy : List Uuid)
    (owner : Uuid) (expiresAt : Time) : Nat → List Uuid → World → World × Option Reservation
  | 0, _, w => (w, none)
  | fuel + 1, skipped, w =>
    match nextDue w control now locked skipped with
    | none => (w, none)
    | some row =>
      if row.id ∈ busy || (w.parents row.leaf).isNone then
        reserveLoop control now locked busy owner expiresAt fuel (row.id :: skipped) w
      else if row.continuation.queueWasCooling then
        reserveLoop control now locked busy owner expiresAt fuel skipped (warmUp now w row)
      else
        let w := w.updateWork row.id fun r =>
          { r with
            state := .resuming, leaseOwnerId := some owner, leaseExpiresAt := some expiresAt
            generation := r.generation + 1 }
        (charge w row 1, some ⟨row.id, row.leaf, row.generation + 1,
          (row.state, row.leaseOwnerId, row.leaseExpiresAt)⟩)

/-- `_reserve_due_work`, the first transaction of `claim_due_work`; `enabled` is what the environment
says when the control row is missing. -/
def reserveDueWork (w : World) (now : Time) (enabled : Bool) (locked busy : List Uuid)
    (owner : Uuid) (leaseSeconds : Nat) : World × Option Reservation :=
  let control := w.control.getD { enabled }
  let w := { w with control := some control }
  if !control.enabled || control.totalCapacity ≤ w.works.countP (running now) then (w, none)
  else reserveLoop control now locked busy owner (now + seconds leaseSeconds) 64 [] w

def reservation? (w : World) (reserved : Reservation) (owner : Uuid) : Option ProviderWork :=
  (w.work? reserved.workId).filter fun row =>
    row.state = .resuming && row.generation = reserved.generation && row.leaseOwnerId = some owner

def release (w : World) (row : ProviderWork) (reserved : Reservation) : World :=
  charge (w.updateWork row.id fun r =>
    { r with
      state := reserved.prior.1, leaseOwnerId := reserved.prior.2.1
      leaseExpiresAt := reserved.prior.2.2 }) row (-1)

def failUnits (w : World) (workId : Uuid) (state : UnitState) : World :=
  { w with units := w.units.map fun u =>
      if u.workId = workId && u.state.isOpen then { u with state } else u }

def endedState (w : World) (p : Parents) (row : ProviderWork) : WorkState :=
  match p.outcome with
  | none => .cancelled
  | some outcome =>
    if p.job.status = .cancelled then .cancelled
    else if outcome = .completed && w.units.any fun u => u.workId = row.id && u.state ≠ .completed
    then .partialRun
    else outcome

def copyOf (w : World) (p : Parents) (row : ProviderWork) : Option CopyWorkflow :=
  w.workflows.find? fun c => c.leaf.snapshotId = p.snapshot.id &&
    c.leaf.partitionId = row.leaf.partitionId && c.state.isActive

def staleAttempt (w : World) (p : Parents) (row : ProviderWork) (a : CaptureAttempt) : Bool :=
  a.leaf.snapshotId = p.snapshot.id && a.leaf.partitionId = row.leaf.partitionId &&
    (if p.partition.isSome then a.partitionLeaseToken else a.snapshotLeaseToken) = some p.leaseToken &&
    a.state ∈ [.created, .enumerating, .contentPending, .verifying, .ready] &&
    !w.db.chatInventories.any fun inv => inv.snapshotId = p.snapshot.id && inv.chatId = a.chatId

def supersedeCaptures (w : World) (p : Parents) (row : ProviderWork) : World :=
  let stale := w.attempts.filter (staleAttempt w p row)
  let linked (i : SnapshotItem) : Bool := w.inventoryItems.any fun item =>
    stale.any (·.stagedInventoryId = item.inventoryId) && item.logicalKey = i.externalId &&
      some item.versionId = i.chatVersionId
  { w with
    db := { w.db with items := w.db.items.filter fun i =>
      !(i.snapshotId = p.snapshot.id && linked i) }
    attempts := w.attempts.map fun a => if staleAttempt w p row a then
      { a with state := .superseded, failureReason := some "provider_owner_expired" } else a }

def startPartition (w : World) (leaf : Leaf) : World :=
  match leaf.partitionId with
  | some pid => w.updatePartition pid fun partition => { partition with status := .inProgress }
  | none => w

def takeLeaf (w : World) (p : Parents) (row : ProviderWork) (owner : Uuid) : World :=
  let token := p.leaseToken + 1
  let snapshotToken := if p.partition.isSome then p.snapshot.leaseToken else token
  let w := startPartition w row.leaf
  let w := w.writeLease row.leaf token (some owner) row.leaseExpiresAt
  let w := w.updateWork row.id fun r =>
    { r with
      parentLeaseToken := token, snapshotLeaseToken := snapshotToken
      jobLeaseToken := p.job.leaseToken }
  match copyOf w p row with
  | some copy => { w with workflows := updateKey (·.id) copy.id (fun c =>
      { c with
        parentLeaseToken := token, snapshotLeaseToken := snapshotToken
        jobLeaseToken := p.job.leaseToken }) w.workflows }
  | none => w

/-- `_admit_reserved`, the second transaction of `claim_due_work`; `busy` says that a parent is
locked. -/
def admitReserved (w : World) (busy : Bool) (reserved : Reservation) (owner : Uuid) :
    World × Option ProviderClaim :=
  match reservation? w reserved owner with
  | none => (w, none)
  | some row =>
    match if busy then none else w.parents reserved.leaf with
    | none => (release w row reserved, none)
    | some p =>
      if !p.active then
        let state := endedState w p row
        let w := (failUnits (release w row reserved) row.id .failed).updateWork row.id fun r =>
          { r with
            state, parentSettlePending := p.outcome.isSome && state ≠ .cancelled
            generation := r.generation + 1 }
        (w, none)
      else if p.leaseToken ≠ row.parentLeaseToken || p.partition.isNone &&
          (p.snapshot.leaseToken ≠ row.snapshotLeaseToken ||
            p.job.leaseToken ≠ row.jobLeaseToken) then
        let w := (release w row reserved).updateWork row.id fun r =>
          { r with
            state := .failed, lastReason := some "parent_generation_changed"
            parentSettlePending := false, generation := r.generation + 1
            leaseOwnerId := none, leaseExpiresAt := none }
        (w, none)
      else if (copyOf w p row).any (·.state ≠ .draining) then (release w row reserved, none)
      else
        let w := takeLeaf (supersedeCaptures w p row) p row owner
        (w, (w.work? row.id).map receipt)

def renewWork (w : World) (now : Time) (leafBusy : Bool) (claim : ProviderClaim)
    (leaseSeconds : Nat) : Except Failure World := do
  let (row, p) ← owned w now true claim
  let expiresAt := some (now + seconds leaseSeconds)
  let w := w.updateWork row.id fun r => { r with leaseExpiresAt := expiresAt }
  .ok (if leafBusy then w else w.writeLease claim.leaf p.leaseToken p.leaseOwnerId expiresAt)

structure UnitCheckpoint where
  (unitKey kind : String)
  state : UnitState := .pending
  checkpoint : Option Continuation := none
  (receiptId sourceVersion : Option String := none)
  attempts : Int := 0
  waitedS : ℚ := 0
  reconciliations : Int := 0
  deadlineAt : Time

def UnitCheckpoint.apply (c : UnitCheckpoint) (checkpoint : Option Continuation)
    (u : ProviderWorkUnit) : ProviderWorkUnit :=
  { u with
    state := c.state, attempts := u.attempts + c.attempts.toNat, waitedS := u.waitedS + c.waitedS
    reconciliations := u.reconciliations + c.reconciliations.toNat
    checkpoint := checkpoint.getD u.checkpoint, receiptId := c.receiptId.or u.receiptId }

def recordUnitCheckpoint (w : World) (now : Time) (claim : ProviderClaim) (c : UnitCheckpoint) :
    Except Failure World := do
  let _ ← owned w now (c.state ∈ [.completed, .failed]) claim
  if c.unitKey = "" || c.unitKey.length > 128 || c.attempts < 0 || c.waitedS < 0 ||
      c.reconciliations < 0 then
    .error (.valueError "invalid provider unit checkpoint")
  else
    let known := w.units.find? fun u => u.workId = claim.workId && u.unitKey = c.unitKey
    let unit := known.getD {
      workId := claim.workId, unitKey := c.unitKey, kind := c.kind
      sourceVersion := c.sourceVersion, deadlineAt := c.deadlineAt, nextEligibleAt := now }
    if unit.kind ≠ c.kind || unit.sourceVersion ≠ c.sourceVersion then
      .error (.conflict "provider unit identity changed")
    else if unit.state = .completed then
      if c.state = .completed && c.receiptId.any (some · ≠ unit.receiptId) then
        .error (.conflict "provider receipt changed")
      else .ok w
    else
      let checkpoint ← c.checkpoint.mapM bounded
      let units := if known.isSome then w.units else w.units ++ [unit]
      .ok { w with units := units.map fun u =>
        if u.workId = claim.workId && u.unitKey = c.unitKey then c.apply checkpoint u else u }

def postponeUnits (w : World) (now : Time) (workId : Uuid) (nextEligibleAt : Time) : World :=
  { w with units := w.units.map fun u =>
      if u.workId = workId && u.state.isOpen then
        { u with
          state := .pending, nextEligibleAt
          waitedS := u.waitedS + ((nextEligibleAt - now : Nat) : ℚ) / 1000000 }
      else u }

def suspendRow (p : Parents) (claim : ProviderClaim) (nextEligibleAt : Time) (reason : String)
    (continuation : Continuation) (r : ProviderWork) : ProviderWork :=
  let token := p.leaseToken + 1
  { r with
    state := .waiting, nextEligibleAt, suspensionGeneration := some claim.generation
    lastReason := some (String.ofList (reason.toList.take 80)), generation := r.generation + 1
    continuation, parentLeaseToken := token
    snapshotLeaseToken := if p.partition.isSome then p.snapshot.leaseToken else token
    leaseOwnerId := none, leaseExpiresAt := none }

/-- A suspension already made answers with its receipt. -/
def suspendCurrentWork (w : World) (now : Time) (claim : ProviderClaim) (nextEligibleAt : Time)
    (reason : String) (continuation : Option Continuation) :
    Except Failure (World × ProviderClaim) :=
  match (w.work? claim.workId).filter fun hint =>
      hint.state = .waiting && hint.suspensionGeneration = some claim.generation with
  | some hint => .ok (w, receipt hint)
  | none => do
    let (row, p) ← owned w now false claim
    let next ← continuation.elim (.ok row.continuation) bounded
    let next := if nextEligibleAt > now + 10000 then { next with queueWasCooling := true } else next
    let w := postponeUnits w now row.id nextEligibleAt
    let suspend := suspendRow p claim nextEligibleAt reason next
    .ok ((w.writeLease claim.leaf (p.leaseToken + 1) none none).updateWork row.id suspend,
      receipt (suspend row))

def finishWork (w : World) (now : Time) (claim : ProviderClaim) (state : WorkState) :
    Except Failure World := do
  let (row, p) ← owned w now true claim
  if state ∉ [.completed, .partialRun, .failed] then
    .error (.valueError "invalid provider completion")
  else if w.units.any fun u => u.workId = row.id && u.state.isOpen then
    .error (.conflict "provider work still has pending units")
  else
    let gaps := w.units.any fun u => u.workId = row.id && u.state ∈ [.failed, .cancelled]
    let state := if state ≠ .completed then state
      else if p.outcome = some .failed then .failed
      else if gaps || p.outcome = some .partialRun then .partialRun
      else state
    .ok (w.updateWork row.id fun r =>
      { r with
        state, parentSettlePending := true, completedAt := some now
        leaseOwnerId := none, leaseExpiresAt := none })

def failCopies (w : World) (p : Parents) (row : ProviderWork) : World :=
  { w with workflows := w.workflows.map fun c =>
      if c.leaf.snapshotId = p.snapshot.id && c.leaf.partitionId = row.leaf.partitionId &&
          c.state.isActive then
        { c with
          state := .failed, parentSettlePending := false, generation := c.generation + 1 }
      else c }

def endLeaf (w : World) (p : Parents) : World :=
  match p.partition with
  | some partition => w.updatePartition partition.id fun q => { q with status := .failed }
  | none =>
    if p.snapshot.status = some .inProgress then
      let rows := w.db.snapshotItemsEffective p.snapshot.id
      w.updateSnapshot p.snapshot.id fun s =>
        { s with
          itemCount := some rows.length
          bytesTotal := some ((rows.map fun i => i.contentSize.getD 0).sum)
          status := if rows = [] then some .failed else some .partialRun }
    else w

def failExhaustedWork (w : World) (now : Time) (claim : ProviderClaim) : Except Failure World := do
  let (row, p) ← owned w now true claim
  let w := endLeaf (failCopies (failUnits w row.id .failed) p row) p
  let w ← finishWork w now claim .failed
  .ok (w.updateWork row.id fun r => { r with lastReason := some "provider_budget_exhausted" })

def claimParentSettlement (w : World) (now : Time) (locked : List Uuid) (owner : Uuid)
    (workId : Option Uuid) (leaseSeconds : Nat) : World × Option ProviderClaim :=
  let candidate (r : ProviderWork) : Bool :=
    r.parentSettlePending && r.state ∈ [.completed, .partialRun, .failed] &&
      r.nextEligibleAt ≤ now && r.leaseExpiresAt.all (· ≤ now) && workId.all (r.id = ·) &&
      r.id ∉ locked
  match orderByFirst (fun a b => toLex (a.createdAt, a.id) ≤ toLex (b.createdAt, b.id))
      (w.works.filter candidate) with
  | none => (w, none)
  | some row =>
    let w := w.updateWork row.id fun r =>
      { r with
        generation := r.generation + 1, leaseOwnerId := some owner
        leaseExpiresAt := some (now + seconds leaseSeconds) }
    (w, (w.work? row.id).map receipt)

def releaseParentSettlement (w : World) (now : Time) (claim : ProviderClaim) (retrySeconds : Nat) :
    World :=
  w.updateWork claim.workId fun r =>
    if r.generation = claim.generation && r.leaseOwnerId = claim.ownerId &&
        r.state ∈ [.completed, .partialRun, .failed] && r.leaseExpiresAt.any (now < ·) then
      { r with
        leaseOwnerId := none, leaseExpiresAt := none, nextEligibleAt := now + seconds retrySeconds }
    else r

def finishParentSettlement (w : World) (now : Time) (settlement : Option ProviderClaim)
    (workId : Uuid) : Except Failure World :=
  match w.work? workId with
  | none => .ok w
  | some row =>
    match w.parents row.leaf with
    | none => .error (.conflict "provider parent locked or removed")
    | some p =>
      if !(settlement.all fun claim => row.id = claim.workId &&
          row.generation = claim.generation && row.leaseOwnerId = claim.ownerId &&
          row.leaseExpiresAt.any (now < ·) && row.parentSettlePending && row.state ≠ .cancelled) then
        .error (.conflict "provider settlement ownership changed")
      else if row.state.isActive then .error (.conflict "provider work has not finished")
      else if p.snapshot.status ∉ [some .completed, some .partialRun, some .failed, some .skipped] ||
          p.job.status ∉ [.completed, .partialRun, .failed, .cancelled] then .ok w
      else .ok (w.updateWork row.id fun r =>
        { r with parentSettlePending := false, leaseOwnerId := none, leaseExpiresAt := none })

structure CancelScope where
  (snapshotId partitionId jobId : Option Uuid := none)
  deriving DecidableEq

def CancelScope.covers (scope : CancelScope) (r : ProviderWork) : Bool :=
  scope.snapshotId.all (r.leaf.snapshotId = ·) &&
    scope.partitionId.all (r.leaf.partitionId = some ·) && scope.jobId.all (r.jobId = ·)

/-- An attribute of a row that was read earlier: the session writes it if it differs from what was
read. -/
def assigned {α : Type} [DecidableEq α] (read value stored : α) : α :=
  if read = value then stored else value

/-- The second select locks the row and hands back the one read before, so that what is written comes
from `read`. -/
def cancelRow (reason : String) (w : World) (read : ProviderWork) : Except Failure World :=
  match w.work? read.id with
  | none => .ok w
  | some _ =>
    match w.parents read.leaf with
    | none => .error (.conflict "provider parent locked or removed")
    | some p =>
      let w := if p.leaseToken = read.parentLeaseToken then
          w.writeLease read.leaf (p.leaseToken + 1) none none
        else w
      let reason := String.ofList (reason.toList.take 80)
      let w := w.updateWork read.id fun r =>
        { r with
          state := .cancelled
          parentSettlePending := assigned read.parentSettlePending false r.parentSettlePending
          lastReason := assigned read.lastReason (some reason) r.lastReason
          generation := read.generation + 1
          leaseOwnerId := assigned read.leaseOwnerId none r.leaseOwnerId
          leaseExpiresAt := assigned read.leaseExpiresAt none r.leaseExpiresAt }
      .ok (failUnits w read.id .cancelled)

def cancelSelection (w : World) (scope : CancelScope) : List ProviderWork :=
  w.works.filter fun r => (r.state.isActive || r.parentSettlePending) && scope.covers r

/-- `read` is what the first select found, without a lock. -/
def cancelProviderWork (w : World) (read : List ProviderWork) (scope : CancelScope) (reason : String) :
    Except Failure World :=
  if scope = {} then .error (.valueError "provider cancellation needs parent scope")
  else read.foldlM (cancelRow reason) w

end TmVault.Provider
