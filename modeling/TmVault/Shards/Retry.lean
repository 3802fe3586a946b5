import TmVault.Reconciler.Partitions

namespace TmVault.Shards

open Concurrency Store Work List

/-- The lease that `_claim_partition` binds to its handler; a worker without a heartbeat has no
`ownerId`. -/
structure Lease where
  ownerId : Option Uuid
  token : Nat

/-- The row, with the number of times a worker handed it back at the price of a retry, and for
free. -/
structure Shard where
  row : Partition
  (paid free : Nat := 0)

def Shard.handBacks (s : Shard) : Nat := s.paid + s.free

def isTerminal (p : Partition) : Bool := p.status ∈ [.completed, .failed]

def fence (lease : Option Lease) (p : Partition) : Bool :=
  lease.all fun l => l.ownerId.all (p.leaseOwnerId = some ·) && p.leaseToken = l.token

def leaseMoved (l : Lease) (p : Partition) : Bool :=
  p.leaseToken ≠ l.token || l.ownerId.any (p.leaseOwnerId ≠ some ·)

section

inductive Fault
  | lost | unacknowledged
  deriving DecidableEq

/-- How the attempts of `run_with_db_retry` at one statement go: those that raise, and whether
another one then returns. -/
structure Fate where
  faults : List Fault := []
  givesUp : Bool := false

variable {Result : Type} (statement : Shard → Shard × Result)

def afterFault (s : Shard) : Fault → Shard
  | .lost => s
  | .unacknowledged => (statement s).1

def runWithDbRetry (fate : Fate) (s : Shard) : Shard × Option Result :=
  let s := fate.faults.foldl (afterFault statement) s
  if fate.givesUp then (s, none) else (statement s).map id some

end

section

variable (now : Time) (lease : Option Lease) (s : Shard)

structure ClaimSettings where
  staleMin : Nat := 30
  leaseTtlS : Nat := 600

def isClaimable (c : ClaimSettings) (unguarded : Bool) (p : Partition) : Bool :=
  unguarded && (p.status = .queued ||
    (p.status = .inProgress && p.startedAt.any (· + seconds (60 * c.staleMin) < now) &&
      p.leaseExpiresAt.all (· < now)))

def claimPartition (c : ClaimSettings) (unguarded : Bool) (workerId : String) (owner : Option Uuid) :
    Shard × Option Lease :=
  if isClaimable now c unguarded s.row then
    let holder := owner.or s.row.leaseOwnerId
    ({ s with row := { s.row with
        status := .inProgress, workerId := some workerId, startedAt := some now
        leaseOwnerId := holder
        leaseExpiresAt := if owner.isNone then s.row.leaseExpiresAt else some (now + seconds c.leaseTtlS)
        leaseToken := s.row.leaseToken + 1 } },
      some ⟨holder, s.row.leaseToken + 1⟩)
  else (s, none)

structure Outcome where
  status : PartitionStatus
  terminal : status ∈ [PartitionStatus.completed, .failed]
  (filesUploaded bytesUploaded : Nat := 0)
  failureState : Option FailureState := none

def writeTerminal (unguarded : Bool) (o : Outcome) : Shard × Bool :=
  if !isTerminal s.row && unguarded && fence lease s.row then
    ({ s with row := { s.row with
        status := o.status, completedAt := some now, filesUploaded := o.filesUploaded
        bytesUploaded := o.bytesUploaded
        failureState := o.failureState.getD s.row.failureState } }, false)
  else (s, lease.any (leaseMoved · s.row))

def releaseTerminal : Shard × Unit :=
  if !isTerminal s.row && fence lease s.row then
    ({ s with
        row := { s.row with
          status := .queued, leaseOwnerId := none, leaseExpiresAt := none, enqueuedAt := now }
        free := s.free + 1 }, ())
  else (s, ())

def requeue (cap : Nat) : Shard × Option Nat :=
  if s.row.status = .inProgress && s.row.retryCount < cap && fence lease s.row then
    ({ s with
        row := { s.row with
          status := .queued, leaseOwnerId := none, leaseExpiresAt := none
          leaseToken := s.row.leaseToken + 1, retryCount := s.row.retryCount + 1
          enqueuedAt := now }
        paid := s.paid + 1 }, some (s.row.retryCount + 1))
  else (s, none)

def releaseRetry (cap : Nat) : Shard × Option Nat :=
  if !isTerminal s.row && s.row.retryCount < cap && fence lease s.row then
    ({ s with
        row := { s.row with
          status := .queued, leaseOwnerId := none, leaseExpiresAt := none
          retryCount := s.row.retryCount + 1, enqueuedAt := now }
        paid := s.paid + 1 }, some (s.row.retryCount + 1))
  else (s, none)

end

section

structure Fates where
  (requeue releaseRetry writeTerminal releaseTerminal : Fate := {})

variable (now : Time) (lease : Option Lease) (fates : Fates) (s : Shard)

def markPartitionTerminal (unguarded : Bool) (o : Outcome) : Shard × Option Bool :=
  match runWithDbRetry (writeTerminal now lease · unguarded o) fates.writeTerminal s with
  | (s, some stolen) => (s, some !stolen)
  | (s, none) => ((runWithDbRetry (releaseTerminal now lease) fates.releaseTerminal s).1, none)

def requeuePartitionForRetry (cap : Nat) : Shard × Option (Option Nat) :=
  match runWithDbRetry (requeue now lease · cap) fates.requeue s with
  | (s, some count) => (s, some count)
  | (s, none) => runWithDbRetry (releaseRetry now lease · cap) fates.releaseRetry s

structure Escape where
  transient : Bool
  (reason message : String := "")

def Escape.outcome (e : Escape) : Outcome where
  status := .failed
  terminal := by decide
  failureState := some { reason := some e.reason, message := some e.message }

def partitionRetryOrFail (cap : Nat) (unguarded : Bool) (e : Escape) : Shard :=
  if e.transient then
    match requeuePartitionForRetry now lease fates s cap with
    | (s, some none) => (markPartitionTerminal now lease fates s unguarded e.outcome).1
    | (s, _) => s
  else (markPartitionTerminal now lease fates s unguarded e.outcome).1

end

structure System where
  shard : Shard
  leases : List Lease := []

/-- `_record_shard_carry_inputs` names the row by its id and asks for no lease. -/
def recordShardCarryInputs (s : Shard) (plan : CarryForwardPlan) : Shard :=
  { s with row := { s.row with payload := { s.row.payload with carryForward := some plan } } }

/-- A delivery that claims the shard, a record or the end of a handler, named by the place of its
lease, or a write of another service. Without a lease there is no fence. -/
inductive Event
  | claim (now : Time) (c : ClaimSettings) (unguarded : Bool) (workerId : String) (owner : Option Uuid)
  | record (handler : Option Nat) (plan : CarryForwardPlan)
  | settle (now : Time) (handler : Option Nat) (fates : Fates) (unguarded : Bool) (o : Outcome)
  | escape (now : Time) (handler : Option Nat) (fates : Fates) (unguarded : Bool) (e : Escape)
  | others (row : Partition)

section

variable (cap : Nat) (s : System)

def System.lease (handler : Option Nat) : Option Lease := handler.bind (s.leases[·]?)

def System.step : Event → System
  | .claim now c unguarded workerId owner =>
    let (shard, lease) := claimPartition now s.shard c unguarded workerId owner
    ⟨shard, lease.toList ++ s.leases⟩
  | .record _ plan => { s with shard := recordShardCarryInputs s.shard plan }
  | .settle now handler fates unguarded o =>
    { s with shard := (markPartitionTerminal now (s.lease handler) fates s.shard unguarded o).1 }
  | .escape now handler fates unguarded e =>
    { s with shard := partitionRetryOrFail now (s.lease handler) fates s.shard cap unguarded e }
  | .others row => { s with shard := { s.shard with row } }

def Event.Lawful : Event → Prop
  | .others row => s.shard.row.retryCount ≤ row.retryCount
  | _ => True

def Event.writes : Event → Bool
  | .settle _ _ fates _ _ | .escape _ _ fates _ _ => !fates.writeTerminal.givesUp
  | _ => true

end

section

variable {cap : Nat} {now : Time} {lease : Option Lease} {fates : Fates} {shard : Shard}
  {unguarded : Bool} {o : Outcome} {s : System} {e : Event} {events : List Event} {P : Shard → Prop}

section

variable {Result : Type} {statement : Shard → Shard × Result}

theorem attempts_invariant (keeps : ∀ s, P s → P (statement s).1) (faults : List Fault)
    (h : P shard) : P (faults.foldl (afterFault statement) shard) := by
  induction faults generalizing shard with
  | nil => exact h
  | cons fault faults ih =>
    refine ih ?_
    cases fault with
    | lost => exact h
    | unacknowledged => exact keeps shard h

theorem runWithDbRetry_invariant {fate : Fate} (keeps : ∀ s, P s → P (statement s).1)
    (h : P shard) : P (runWithDbRetry statement fate shard).1 := by
  have attempted := attempts_invariant keeps fate.faults h
  unfold runWithDbRetry
  split
  · exact attempted
  · exact keeps _ attempted

end

structure Bounded (cap : Nat) (s : Shard) : Prop where
  counted : s.paid ≤ s.row.retryCount
  capped : s.paid ≤ cap

/-- What a statement of a handler does to the shard. `gaveUp` says that the release after a terminal
write can be reached. -/
inductive Wrote (cap : Nat) (lease : Option Lease) (gaveUp : Prop) (s : Shard) : Shard → Prop
  | nothing : Wrote cap lease gaveUp s s
  | ended {row : Partition} {free : Nat} (fenced : fence lease s.row = true)
      (retries : row.retryCount = s.row.retryCount) (token : row.leaseToken = s.row.leaseToken)
      (freed : free = s.free ∨ gaveUp) : Wrote cap lease gaveUp s { s with row, free }
  | again {row : Partition} (fenced : fence lease s.row = true) (below : s.row.retryCount < cap)
      (retries : row.retryCount = s.row.retryCount + 1)
      (token : s.row.leaseToken ≤ row.leaseToken) :
      Wrote cap lease gaveUp s { s with row, paid := s.paid + 1 }

section

variable {gaveUp : Prop}

theorem wrote_writeTerminal :
    Wrote cap lease gaveUp shard (writeTerminal now lease shard unguarded o).1 := by
  unfold writeTerminal
  split
  case isTrue due => exact .ended (Bool.and_eq_true_iff.mp due).2 rfl rfl (.inl rfl)
  case isFalse => exact .nothing

theorem wrote_releaseTerminal (up : gaveUp) :
    Wrote cap lease gaveUp shard (releaseTerminal now lease shard).1 := by
  unfold releaseTerminal
  split
  case isTrue due => exact .ended (Bool.and_eq_true_iff.mp due).2 rfl rfl (.inr up)
  case isFalse => exact .nothing

theorem wrote_requeue : Wrote cap lease gaveUp shard (requeue now lease shard cap).1 := by
  unfold requeue
  split
  case isTrue due =>
    simp only [Bool.and_eq_true, decide_eq_true_eq] at due
    exact .again due.2 due.1.2 rfl (Nat.le_succ _)
  case isFalse => exact .nothing

theorem wrote_releaseRetry : Wrote cap lease gaveUp shard (releaseRetry now lease shard cap).1 := by
  unfold releaseRetry
  split
  case isTrue due =>
    simp only [Bool.and_eq_true, decide_eq_true_eq] at due
    exact .again due.2 due.1.2 rfl le_rfl
  case isFalse => exact .nothing

end

section

variable (keeps : ∀ s s', P s → Wrote cap lease (fates.writeTerminal.givesUp = true) s s' → P s')
  (h : P shard)

include keeps h

theorem keeps_markPartitionTerminal :
    P (markPartitionTerminal now lease fates shard unguarded o).1 := by
  have written : P (runWithDbRetry (writeTerminal now lease · unguarded o) fates.writeTerminal
      shard).1 := runWithDbRetry_invariant (fun s h => keeps s _ h wrote_writeTerminal) h
  unfold markPartitionTerminal
  split
  case h_1 ran => rwa [ran] at written
  case h_2 ran =>
    have gaveUp : fates.writeTerminal.givesUp = true := by
      unfold runWithDbRetry at ran
      split at ran
      case isTrue up => exact up
      case isFalse => simp [Prod.map] at ran
    rw [ran] at written
    exact runWithDbRetry_invariant (fun s h => keeps s _ h (wrote_releaseTerminal gaveUp)) written

theorem keeps_partitionRetryOrFail {escaped : Escape} :
    P (partitionRetryOrFail now lease fates shard cap unguarded escaped) := by
  have requeued : P (requeuePartitionForRetry now lease fates shard cap).1 := by
    have tried : P (runWithDbRetry (requeue now lease · cap) fates.requeue shard).1 :=
      runWithDbRetry_invariant (fun s h => keeps s _ h wrote_requeue) h
    unfold requeuePartitionForRetry
    split
    case h_1 ran => rwa [ran] at tried
    case h_2 ran =>
      rw [ran] at tried
      exact runWithDbRetry_invariant (fun s h => keeps s _ h wrote_releaseRetry) tried
  unfold partitionRetryOrFail
  split
  · split
    case h_1 ran =>
      rw [ran] at requeued
      exact keeps_markPartitionTerminal keeps requeued
    case h_2 _ ran => rwa [ran] at requeued
  · exact keeps_markPartitionTerminal keeps h

end

theorem claimPartition_counters :
    let claimed := (claimPartition now shard c unguarded workerId owner).1
    claimed.paid = shard.paid ∧ claimed.free = shard.free ∧
      claimed.row.retryCount = shard.row.retryCount := by
  unfold claimPartition
  split <;> exact ⟨rfl, rfl, rfl⟩

theorem Wrote.bounded (h : Bounded cap shard) (wrote : Wrote cap lease gaveUp shard shard') :
    Bounded cap shard' := by
  cases wrote with
  | nothing => exact h
  | ended _ retries => exact ⟨retries ▸ h.counted, h.capped⟩
  | again _ below retries =>
    exact ⟨retries ▸ Nat.succ_le_succ h.counted, h.counted.trans_lt below⟩

theorem bounded_step (h : Bounded cap s.shard) (lawful : e.Lawful s) :
    Bounded cap (s.step cap e).shard := by
  cases e with
  | claim now c unguarded workerId owner =>
    obtain ⟨paid, -, retries⟩ := @claimPartition_counters now s.shard unguarded c workerId owner
    exact ⟨paid.trans_le (retries ▸ h.counted), paid.trans_le h.capped⟩
  | record => exact ⟨h.counted, h.capped⟩
  | settle => exact keeps_markPartitionTerminal (fun _ _ => Wrote.bounded) h
  | escape => exact keeps_partitionRetryOrFail (fun _ _ => Wrote.bounded) h
  | others row => exact ⟨h.counted.trans lawful, h.capped⟩

theorem free_step (writes : e.writes = true) : (s.step cap e).shard.free = s.shard.free := by
  have keeps {lease : Option Lease} {fates : Fates} (writes : (!fates.writeTerminal.givesUp) = true)
      (t t' : Shard) (h : t.free = s.shard.free)
      (wrote : Wrote cap lease (fates.writeTerminal.givesUp = true) t t') : t'.free = s.shard.free := by
    cases wrote with
    | nothing | again => exact h
    | ended _ _ _ freed =>
      rcases freed with same | up
      · exact same.trans h
      · simp [up] at writes
  cases e with
  | claim now c unguarded workerId owner => exact claimPartition_counters.2.1
  | settle => exact keeps_markPartitionTerminal (P := (·.free = s.shard.free)) (keeps writes) rfl
  | escape => exact keeps_partitionRetryOrFail (P := (·.free = s.shard.free)) (keeps writes) rfl
  | record | others => rfl

theorem free_play (writes : ∀ e ∈ events, e.writes) :
    (play (System.step cap) s events).shard.free = s.shard.free := by
  induction events generalizing s with
  | nil => rfl
  | cons e events ih =>
    calc (play (System.step cap) (s.step cap e) events).shard.free
        = (s.step cap e).shard.free := ih fun e he => writes e (mem_cons_of_mem _ he)
      _ = s.shard.free := free_step (writes e mem_cons_self)

def System.Within (cap : Nat) (s : System) : Prop := Bounded cap s.shard

/-- The hand-backs of a run are within the cap but for those after a terminal write that was given
up; where none is, the cap bounds them all. -/
theorem handBacks_le_cap (paid : s.shard.paid = 0) (free : s.shard.free = 0)
    (lawful : Along (System.step cap) (fun s e => e.Lawful s) s events) :
    (play (System.step cap) s events).shard.handBacks ≤
        cap + (play (System.step cap) s events).shard.free ∧
      ((∀ e ∈ events, e.writes) → (play (System.step cap) s events).shard.handBacks ≤ cap) := by
  have start : Bounded cap s.shard := ⟨paid ▸ Nat.zero_le _, paid ▸ Nat.zero_le _⟩
  have bounded : (play (System.step cap) s events).Within cap :=
    lawful.invariant (fun _ _ => bounded_step) start
  refine ⟨Nat.add_le_add_right bounded.capped _, fun writes => ?_⟩
  rw [Shard.handBacks, free_play writes, free, Nat.add_zero]
  exact bounded.capped

/-- A handler fails with a message that the terminal write cannot store: the write is given up, and
the release after it lands. -/
def unstorable : List Event := [
  .claim 0 {} true "worker" (some 7),
  .escape 0 (some 0) { writeTerminal := { givesUp := true } } true
    { transient := false, reason := "ValueError", message := "\x00" }]

def queuedShard : System where
  shard := { row := { id := 1, snapshotId := 1, tenantId := 1 } }

theorem round_hands_back (cap : Nat) (queued : s.shard.row.status = .queued) :
    (play (System.step cap) s unstorable).shard.row.status = .queued ∧
      (play (System.step cap) s unstorable).shard.handBacks = s.shard.handBacks + 1 := by
  have claimable : isClaimable 0 {} true s.shard.row = true := by simp [isClaimable, queued]
  simp [play, unstorable, System.step, System.lease, claimPartition, claimable,
    partitionRetryOrFail, markPartitionTerminal, runWithDbRetry, releaseTerminal, isTerminal, fence,
    Shard.handBacks]
  rfl

theorem handBacks_unbounded : queuedShard.shard.handBacks = 0 ∧
      ∀ cap n, (play (System.step cap) queuedShard (List.replicate n unstorable).flatten).shard.handBacks
        = n := by
  refine ⟨rfl, fun cap n => ?_⟩
  suffices ∀ s : System, s.shard.row.status = .queued →
      (play (System.step cap) s (List.replicate n unstorable).flatten).shard.handBacks =
        s.shard.handBacks + n by
    simpa [queuedShard, Shard.handBacks] using this queuedShard rfl
  induction n with
  | zero => exact fun s _ => rfl
  | succ n ih =>
    intro s queued
    obtain ⟨again, one⟩ := round_hands_back cap queued
    rw [replicate_succ, flatten_cons, play, foldl_append]
    refine (ih _ again).trans ?_
    rw [one]
    omega

def recovery : List Event := [
  .claim 0 {} true "worker" (some 7),
  .escape 1 (some 0) {} true { transient := true },
  .claim 2 {} true "worker" (some 7),
  .settle 3 (some 0) {} true { status := .completed, terminal := by decide }]

theorem handBacks_le_cap_recovery :
    (play (System.step 5) queuedShard recovery).shard.handBacks = 1 ∧
      (play (System.step 5) queuedShard recovery).shard.handBacks ≤ 5 := by
  have lawful : Along (System.step 5) (fun s e => e.Lawful s) queuedShard recovery :=
    ⟨trivial, trivial, trivial, trivial, trivial⟩
  exact ⟨by decide, (handBacks_le_cap rfl rfl lawful).2 (by decide)⟩

/-- What `_partition_retry_or_fail` returns and audits: `QUEUED` with the retry count, or `FAILED`. -/
inductive Report
  | queued (retryCount : Nat) | failed
deriving DecidableEq

variable (now : Time) (lease : Option Lease) (fates : Fates) (s : Shard) (cap : Nat)
  (unguarded : Bool) (e : Escape)

/-- `none` where it raises. The answer of the terminal write is not read. -/
def partitionReport : Option Report :=
  let failed (s : Shard) :=
    (markPartitionTerminal now lease fates s unguarded e.outcome).2.map fun _ => Report.failed
  if e.transient then
    match requeuePartitionForRetry now lease fates s cap with
    | (_, some (some count)) => some (.queued count)
    | (s, some none) => failed s
    | (_, none) => none
  else failed s

def statusAfter : PartitionStatus :=
  (partitionRetryOrFail now lease fates s cap unguarded e).row.status

/-- `QUEUED` is reported exactly when the row is left queued, and a failure only when it is `FAILED`. -/
def Truthful : Prop :=
  ((∃ n, partitionReport now lease fates s cap unguarded e = some (.queued n)) ↔
      statusAfter now lease fates s cap unguarded e = .queued) ∧
    (partitionReport now lease fates s cap unguarded e = some .failed →
      statusAfter now lease fates s cap unguarded e = .failed)

/-- One of the attempts committed and its acknowledgement was lost. -/
def Fate.ackLost (f : Fate) : Bool := .unacknowledged ∈ f.faults

def Fate.acts (f : Fate) : Bool := f.ackLost || !f.givesUp

variable {now lease fates s e cap unguarded}

section

variable {Result : Type} {statement : Shard → Shard × Result} {fate : Fate} {r r' : Result}
  (idle : statement s' = (s', r'))

include idle

theorem runWithDbRetry_idle :
    runWithDbRetry statement fate s' = (s', if fate.givesUp then none else some r') := by
  have same : fate.faults.foldl (afterFault statement) s' = s' :=
    attempts_invariant (P := (· = s')) (fun s h => by rw [h, idle]) _ rfl
  rw [runWithDbRetry, same, idle]
  split <;> rfl

/-- A statement that matches once: its first commit is its only effect. -/
theorem runWithDbRetry_once (once : statement s = (s', r)) : runWithDbRetry statement fate s =
    if fate.ackLost then (s', if fate.givesUp then none else some r')
    else if fate.givesUp then (s, none) else (s', some r) := by
  obtain ⟨faults, up⟩ := fate
  induction faults with
  | nil => cases up <;> simp [runWithDbRetry, Fate.ackLost, once]
  | cons fault faults ih =>
    cases fault with
    | lost => exact ih.trans (by simp [Fate.ackLost])
    | unacknowledged =>
      have rest := @runWithDbRetry_idle _ _ _ ⟨faults, up⟩ _ idle
      have first : (statement s).1 = s' := congrArg Prod.fst once
      simp only [runWithDbRetry, foldl_cons, afterFault, first] at rest ⊢
      simpa [Fate.ackLost] using rest

end

/-- A fence no statement of the handler passes. -/
def Closed (lease : Option Lease) (s : Shard) : Prop :=
  isTerminal s.row = true ∨ fence lease s.row = false

theorem Closed.write (h : Closed lease s) :
    writeTerminal now lease s unguarded o = (s, lease.any (leaseMoved · s.row)) :=
  if_neg (by rcases h with h | h <;> simp [h])

theorem Closed.release (h : Closed lease s) : releaseTerminal now lease s = (s, ()) :=
  if_neg (by rcases h with h | h <;> simp [h])

theorem Closed.requeue (h : Closed lease s) : requeue now lease s cap = (s, none) := by
  refine if_neg ?_
  rcases h with h | h
  · have : s.row.status ≠ .inProgress := fun running => by simp [isTerminal, running] at h
    simp [this]
  · simp [h]

theorem Closed.releaseRetry (h : Closed lease s) : releaseRetry now lease s cap = (s, none) :=
  if_neg (by rcases h with h | h <;> simp [h])

theorem markPartitionTerminal_closed (h : Closed lease s) :
    (markPartitionTerminal now lease fates s unguarded o).1 = s ∧
      (markPartitionTerminal now lease fates s unguarded o).2.map (fun _ => Report.failed) =
        if fates.writeTerminal.givesUp then none else some .failed := by
  rw [markPartitionTerminal, runWithDbRetry_idle h.write]
  cases fates.writeTerminal.givesUp
  · simp
  · simp [runWithDbRetry_idle h.release]

section

variable {owner : Uuid} {token : Nat}

theorem closed_of_released (free : s.row.leaseOwnerId = none) :
    Closed (some ⟨some owner, token⟩) s := .inr (by simp [fence, free])

variable (running : s.row.status = .inProgress) (held : fence (some ⟨some owner, token⟩) s.row = true)

include running held

theorem markPartitionTerminal_held :
    (markPartitionTerminal now (some ⟨some owner, token⟩) fates s unguarded e.outcome).1.row.status =
        (if unguarded && fates.writeTerminal.acts then .failed
        else if fates.writeTerminal.givesUp && fates.releaseTerminal.acts then .queued
        else .inProgress) ∧
      (markPartitionTerminal now (some ⟨some owner, token⟩) fates s unguarded e.outcome).2.map
        (fun _ => Report.failed) = if fates.writeTerminal.givesUp then none else some .failed := by
  set lease : Option Lease := some ⟨some owner, token⟩
  obtain ⟨freed, released, queued, open_⟩ : ∃ s', releaseTerminal now lease s = (s', ()) ∧
      s'.row.status = .queued ∧ Closed lease s' :=
    ⟨_, if_pos (by simp [isTerminal, running, held]), rfl, closed_of_released rfl⟩
  have release : runWithDbRetry _ fates.releaseTerminal s = _ :=
    runWithDbRetry_once open_.release released
  cases unguarded with
  | false =>
    have write : writeTerminal now lease s false e.outcome = (s, lease.any (leaseMoved · s.row)) :=
      if_neg (by simp)
    rw [markPartitionTerminal, runWithDbRetry_idle write]
    cases up : fates.writeTerminal.givesUp
    · simp [running]
    · cases lost : fates.releaseTerminal.ackLost <;> cases up' : fates.releaseTerminal.givesUp <;>
        simp [release, lost, up', queued, running, Fate.acts]
  | true =>
    obtain ⟨ended, wrote, failed, shut⟩ : ∃ s', writeTerminal now lease s true e.outcome = (s', false) ∧
        s'.row.status = .failed ∧ Closed lease s' :=
      ⟨_, if_pos (by simp [isTerminal, running, held]), rfl, .inl rfl⟩
    rw [markPartitionTerminal, runWithDbRetry_once shut.write wrote]
    cases lost : fates.writeTerminal.ackLost <;> cases up : fates.writeTerminal.givesUp
    · simp [failed, lost, up, Fate.acts]
    · cases lost' : fates.releaseTerminal.ackLost <;> cases up' : fates.releaseTerminal.givesUp <;>
        simp [release, lost, up, lost', up', queued, running, Fate.acts]
    · simp [failed, lost, up, Fate.acts]
    · simp [failed, lost, up, Fate.acts, runWithDbRetry_idle shut.release]

end

/-- The requeue and the release after it are both given up. -/
def raises (fates : Fates) (e : Escape) : Bool :=
  e.transient && fates.requeue.givesUp && fates.releaseRetry.givesUp

/-- The shard as its handler claimed it. -/
def claimed : Shard × Option Lease := claimPartition 0 queuedShard.shard {} true "worker" (some 7)

/-- The shard at its last attempt. -/
def spent : Shard := { claimed.1 with row := { claimed.1.row with retryCount := 5 } }

end

inductive Sweep
  | requeue | republish | replay | poison | expire

def Sweep.row (t : Reconciler.Tick) (p : Partition) : Sweep → Partition
  | .requeue => Reconciler.requeue t p
  | .republish => Reconciler.republish t p
  | .replay => Reconciler.replay t p
  | .poison => Reconciler.poison p
  | .expire => Reconciler.expire p

/-- The rows the scheduler's `partition_sweep` resets, and what it makes of them. The lease stays. -/
def isStuck (now : Time) (staleMin maxRetries : Nat) (unguarded : Bool) (p : Partition) : Bool :=
  p.status = .inProgress && unguarded && p.startedAt.any (· + seconds (60 * staleMin) < now) &&
    p.leaseExpiresAt.all (· < now) && p.retryCount < maxRetries

def resetStuck (p : Partition) : Partition :=
  { p with status := .queued, workerId := none, startedAt := none, retryCount := p.retryCount + 1 }

/-- The newest claim stands until the reconciler takes the row back; `reset` says that the scheduler
did since. -/
structure Contest where
  system : System
  (stands reset : Bool := false)

inductive Act
  | worker (e : Event)
  | reconciler (t : Reconciler.Tick) (sweep : Sweep)
  | scheduler (now : Time) (staleMin maxRetries : Nat) (unguarded : Bool)

def Contest.step (cap : Nat) (c : Contest) : Act → Contest
  | .worker e =>
    let system := c.system.step cap e
    let claimed : Bool := c.system.leases.length < system.leases.length
    ⟨system, c.stands || claimed, c.reset && !claimed⟩
  | .reconciler t sweep =>
    let row := sweep.row t c.system.shard.row
    ⟨{ c.system with shard := { c.system.shard with row } }, false, c.reset⟩
  | .scheduler now staleMin maxRetries unguarded =>
    if isStuck now staleMin maxRetries unguarded c.system.shard.row then
      let row := resetStuck c.system.shard.row
      ⟨{ c.system with shard := { c.system.shard with row } }, c.stands, true⟩
    else c

def Act.Lawful (c : Contest) : Act → Prop
  | .worker (.others row) => c.system.shard.row.leaseToken ≤ row.leaseToken
  | _ => True

def Contest.Superseded (c : Contest) (handler : Nat) : Prop :=
  0 < handler ∨ c.stands = false ∨ c.reset = true

def Event.writer : Event → Option Nat
  | .record handler _ | .settle _ handler _ _ _ | .escape _ handler _ _ _ => handler
  | _ => none

def Event.fenced : Event → Bool
  | .record .. => false
  | _ => true

variable {cap : Nat} {now : Time} {l : Lease} {shard : Shard} {unguarded : Bool}
  {s : System} {e : Event} {c : Contest} {a : Act} {acts : List Act}

theorem fence_of_token (behind : l.token < shard.row.leaseToken) :
    fence (some l) shard.row = false := by
  have moved : shard.row.leaseToken ≠ l.token := behind.ne'
  simp [fence, moved]

theorem step_of_fenced (down : fence (s.lease e.writer) s.shard.row = false)
    (writes : e.writer.isSome) (fenced : e.fenced) : (s.step cap e).shard = s.shard := by
  have keeps {gaveUp : Prop} (t t' : Shard) (h : t = s.shard)
      (wrote : Wrote cap (s.lease e.writer) gaveUp t t') : t' = s.shard := by
    subst h
    cases wrote with
    | nothing => rfl
    | ended fenced | again fenced => simp [fenced] at down
  cases e with
  | claim | others => cases writes
  | record => cases fenced
  | settle => exact keeps_markPartitionTerminal (P := (· = s.shard)) keeps rfl
  | escape => exact keeps_partitionRetryOrFail (P := (· = s.shard)) keeps rfl

theorem token_le_step (lawful : (Act.worker e).Lawful c)
    (h : token ≤ c.system.shard.row.leaseToken) :
    token ≤ (c.system.step cap e).shard.row.leaseToken := by
  have keeps {lease : Option Lease} {gaveUp : Prop} (t t' : Shard) (h : token ≤ t.row.leaseToken)
      (wrote : Wrote cap lease gaveUp t t') : token ≤ t'.row.leaseToken := by
    cases wrote with
    | nothing => exact h
    | ended _ _ same => exact same.symm ▸ h
    | again _ _ _ raised => exact h.trans raised
  cases e with
  | claim now settings unguarded workerId owner =>
    simp only [System.step, claimPartition]
    split
    · exact Nat.le_succ_of_le h
    · exact h
  | record => exact h
  | others row => exact h.trans lawful
  | settle => exact keeps_markPartitionTerminal (P := (token ≤ ·.row.leaseToken)) keeps h
  | escape => exact keeps_partitionRetryOrFail (P := (token ≤ ·.row.leaseToken)) keeps h

structure Ordered (c : Contest) : Prop where
  held : ∀ l ∈ c.system.leases, l.token ≤ c.system.shard.row.leaseToken
  older : ∀ l ∈ c.system.leases.tail, l.token < c.system.shard.row.leaseToken
  fallen : c.stands = false → ∀ l ∈ c.system.leases, l.token < c.system.shard.row.leaseToken

theorem Ordered.raise (h : Ordered c)
    (raised : c.system.shard.row.leaseToken ≤ shard.row.leaseToken) (same : stands = c.stands) :
    Ordered ⟨{ c.system with shard }, stands, reset⟩ where
  held l hl := (h.held l hl).trans raised
  older l hl := (h.older l hl).trans_le raised
  fallen down l hl := (h.fallen (same ▸ down) l hl).trans_le raised

theorem Ordered.step (h : Ordered c) (lawful : a.Lawful c) : Ordered (c.step cap a) := by
  cases a with
  | reconciler t sweep =>
    have bumped : (sweep.row t c.system.shard.row).leaseToken =
        c.system.shard.row.leaseToken + 1 := by cases sweep <;> rfl
    have beyond (l : Lease) (hl : l ∈ c.system.leases) :
        l.token < (sweep.row t c.system.shard.row).leaseToken := by
      rw [bumped]
      exact Nat.lt_succ_of_le (h.held l hl)
    exact ⟨fun l hl => (beyond l hl).le, fun l hl => beyond l (mem_of_mem_tail hl), fun _ => beyond⟩
  | scheduler =>
    rw [Contest.step]
    split
    · exact h.raise le_rfl rfl
    · exact h
  | worker e =>
    have raised : c.system.shard.row.leaseToken ≤ (c.system.step cap e).shard.row.leaseToken :=
      token_le_step lawful le_rfl
    cases e with
    | claim now settings unguarded workerId owner =>
      by_cases due : isClaimable now settings unguarded c.system.shard.row = true
      · have beyond (l : Lease) (hl : l ∈ c.system.leases) :
            l.token < c.system.shard.row.leaseToken + 1 := Nat.lt_succ_of_le (h.held l hl)
        simp only [Contest.step, System.step, claimPartition, due, if_true]
        refine ⟨fun l hl => ?_, fun l hl => beyond l hl, fun down => ?_⟩
        · rcases mem_cons.mp hl with rfl | hl
          · exact le_rfl
          · exact (beyond l hl).le
        · simp at down
      · simp only [Contest.step, System.step, claimPartition, due]
        exact h.raise le_rfl (by simp)
    | record | settle | escape | others =>
      exact h.raise raised (by simp [System.step])

/-- Whatever ran before, a handler whose claim was superseded by another claim or by the reconciler
changes nothing of the shard, neither by a terminal write nor by a retry, nor by the releases after
them. -/
theorem superseded_changes_nothing (fresh : c.system.leases = [])
    (lawful : Along (Contest.step cap) (fun c a => a.Lawful c) c acts) {handler : Nat}
    (claimed : handler < (play (Contest.step cap) c acts).system.leases.length)
    (superseded : 0 < handler ∨ (play (Contest.step cap) c acts).stands = false)
    (writes : e.writer = some handler) (fenced : e.fenced) :
    ((play (Contest.step cap) c acts).system.step cap e).shard =
      (play (Contest.step cap) c acts).system.shard := by
  have start : Ordered c := by
    refine ⟨?_, ?_, fun _ => ?_⟩ <;> simp [fresh]
  have ordered : Ordered (play (Contest.step cap) c acts) :=
    lawful.invariant (fun _ _ h lawful => h.step lawful) start
  generalize play (Contest.step cap) c acts = c at *
  have held : c.system.lease e.writer = some c.system.leases[handler] := by
    rw [writes]
    exact List.getElem?_eq_getElem claimed
  have behind : c.system.leases[handler].token < c.system.shard.row.leaseToken := by
    rcases superseded with older | fallen
    · refine ordered.older _ ?_
      obtain ⟨place, rfl⟩ := Nat.exists_eq_add_of_lt older
      simp only [Nat.zero_add] at claimed ⊢
      rw [← getElem_tail (by simpa using Nat.lt_sub_of_add_lt claimed)]
      exact getElem_mem _
    · exact ordered.fallen fallen _ (getElem_mem _)
  refine step_of_fenced ?_ (writes ▸ rfl) fenced
  rw [held]
  exact fence_of_token behind

/-- The shard of a worker that stalled: its lease runs out, the reconciler requeues it, and the same
process claims it once more. -/
def stalled : List Act := [
  .worker (.claim 0 {} true "worker" (some 7)),
  .reconciler { now := 1000 } .requeue,
  .worker (.claim 1001 {} true "worker" (some 7))]

def late : Event :=
  .settle 1002 (some 1) {} true { status := .completed, terminal := .head _, filesUploaded := 3 }

theorem stalled_writes_nothing :
    (play (Contest.step 5) { system := queuedShard } stalled).system.leases.length = 2 ∧
      ((play (Contest.step 5) { system := queuedShard } stalled).system.step 5 late).shard =
        (play (Contest.step 5) { system := queuedShard } stalled).system.shard :=
  ⟨by decide +kernel, superseded_changes_nothing rfl (by simp [Along, stalled, Act.Lawful])
    (by decide +kernel : 1 < _) (.inl Nat.one_pos) rfl rfl⟩

/-- The scheduler's sweep gives the row of a worker whose lease ran out to another one. -/
def swept : List Act := [
  .worker (.claim 0 {} true "worker" (some 7)),
  .scheduler (seconds 2000) 30 5 true]

/-- The inputs that a superseded handler records overwrite those of its successor; and
the row that the scheduler queued for another worker is ended by the handler it was taken from. -/
theorem superseded_overwrites :
    let c := play (Contest.step 5) { system := queuedShard } stalled
    let d := play (Contest.step 5) { system := queuedShard } swept
    (c.Superseded 1 ∧ (c.system.step 5 (.record (some 1) {})).shard.row.payload ≠
        c.system.shard.row.payload) ∧
      d.Superseded 0 ∧ d.system.shard.row.status = .queued ∧
      (d.system.step 5 (.settle (seconds 2001) (some 0) {} true
        { status := .completed, terminal := .head _ })).shard.row.status = .completed := by
  refine ⟨⟨.inl Nat.one_pos, by decide +kernel⟩, .inr (.inr ?_), ?_, ?_⟩ <;> decide +kernel

end TmVault.Shards
