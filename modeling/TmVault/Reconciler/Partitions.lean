import TmVault.Concurrency.Runs
import TmVault.Work.Tables

namespace TmVault.Reconciler

open Concurrency Store Work List

structure Settings where
  batch : Nat := 200
  maxRequeue : Nat := 3
  heartbeatStaleS : Nat := 60
  partStaleMin : Nat := 15
  partUnclaimedStaleMin : Nat := 60
  partUnclaimedMaxRepublish : Nat := 5
  dlqReplayMax : Nat := 1
  (snapLegacyAgeS snapReapLeaseGraceS : Nat := 900)
  snapReapProgressGraceS : Nat := 9000
  dryRun : Bool := false

structure Heartbeat where
  workerId : Uuid
  lastSeenAt : Time

structure Tick where
  now : Time
  heartbeats : List Heartbeat := []
  locked : List Uuid := []
  guards : GuardSettings := {}

def minutes (n : Nat) : Time := seconds (60 * n)

section

variable (c : Settings) (t : Tick) (unguarded : Uuid → Bool) (p : Partition)

def isLive (owner : Option Uuid) : Bool :=
  owner.any fun worker => t.heartbeats.any fun h =>
    h.workerId = worker && t.now < h.lastSeenAt + seconds c.heartbeatStaleS

def leaseLapsed : Bool := p.leaseExpiresAt.all (· < t.now)

def isOpen : Bool := p.status ∈ [.queued, .inProgress]

def lastingEvidence : Bool := p.workerId.isSome || p.startedAt.isSome || 0 < p.retryCount

def claimEvidence : Bool :=
  p.status = .inProgress || p.leaseOwnerId.isSome || lastingEvidence p

def neverClaimed : Bool :=
  p.status = .queued && p.workerId.isNone && p.startedAt.isNone && p.leaseOwnerId.isNone &&
    p.retryCount = 0

def olderThan (n : Nat) : Bool := p.enqueuedAt + minutes n < t.now

def isStale : Bool :=
  isOpen p && unguarded p.id && !isLive c t p.leaseOwnerId && leaseLapsed t p && claimEvidence p &&
    olderThan t p c.partStaleMin && p.requeueCount < c.maxRequeue && p.id ∉ t.locked

def isUnclaimed : Bool :=
  neverClaimed p && unguarded p.id && !isLive c t p.leaseOwnerId && p.leaseExpiresAt.isNone &&
    olderThan t p c.partUnclaimedStaleMin &&
    p.failureState.unclaimedRepublishCount < c.partUnclaimedMaxRepublish && p.id ∉ t.locked

def isPoison : Bool :=
  isOpen p && unguarded p.id && c.maxRequeue ≤ p.requeueCount && leaseLapsed t p && claimEvidence p

def isReplayed : Bool :=
  isPoison c t unguarded p && p.failureState.dlqReplayCount < c.dlqReplayMax

def isPoisoned : Bool :=
  isPoison c t unguarded p && c.dlqReplayMax ≤ p.failureState.dlqReplayCount

def isExpired : Bool :=
  neverClaimed p && unguarded p.id && p.leaseExpiresAt.isNone &&
    olderThan t p c.partUnclaimedStaleMin &&
    c.partUnclaimedMaxRepublish ≤ p.failureState.unclaimedRepublishCount

end

section

variable (t : Tick) (p : Partition)

def requeue : Partition :=
  { p with
    status := .queued, leaseOwnerId := none, leaseExpiresAt := none, leaseToken := p.leaseToken + 1
    requeueCount := p.requeueCount + 1, enqueuedAt := t.now }

def republish : Partition :=
  { p with
    leaseToken := p.leaseToken + 1, enqueuedAt := t.now, failureState := { p.failureState with
      unclaimedRepublishCount := p.failureState.unclaimedRepublishCount + 1 } }

def replay : Partition :=
  { p with
    status := .queued, leaseOwnerId := none, leaseExpiresAt := none, leaseToken := p.leaseToken + 1
    requeueCount := 0, enqueuedAt := t.now
    failureState := { p.failureState with dlqReplayCount := p.failureState.dlqReplayCount + 1 } }

def poison : Partition :=
  { p with
    status := .failed, leaseOwnerId := none, leaseExpiresAt := none, leaseToken := p.leaseToken + 1 }

def expire : Partition :=
  { poison p with failureState := { p.failureState with unclaimedExpired := true } }

end

section

variable (c : Settings) (t : Tick) (unguarded : Uuid → Bool) (rows : List Partition)

def pick (matching : Partition → Bool) : List Uuid :=
  (((rows.filter matching).mergeSort (·.enqueuedAt ≤ ·.enqueuedAt)).take c.batch).map Partition.id

def update (matching : Partition → Bool) (set : Partition → Partition) (p : Partition) : Partition :=
  if matching p then set p else p

def staleIds : List Uuid := pick c rows (isStale c t unguarded)

def requeueStale : Partition → Partition := update (·.id ∈ staleIds c t unguarded rows) (requeue t)

def unclaimedIds : List Uuid :=
  pick c (rows.map (requeueStale c t unguarded rows)) (isUnclaimed c t unguarded)

def republishUnclaimed (p : Partition) : Partition :=
  update (·.id ∈ unclaimedIds c t unguarded rows) (republish t) (requeueStale c t unguarded rows p)

def replayPoison : Partition → Partition := update (isReplayed c t unguarded) (replay t)

def failPoison : Partition → Partition := update (isPoisoned c t unguarded) poison

def expireUnclaimed : Partition → Partition := update (isExpired c t unguarded) expire

/-- What STEP A leaves: the rows, the ids whose messages are published again, and the ids of the
dead letters of either reason. -/
structure StepA where
  partitions : List Partition
  (requeued republished replayed poisonPills unclaimedExpired : List Uuid)

def stepA : StepA :=
  let settled := rows.map (republishUnclaimed c t unguarded rows)
  let replayed := settled.map (replayPoison c t unguarded)
  let failed := replayed.map (failPoison c t unguarded)
  { partitions := failed.map (expireUnclaimed c t unguarded)
    requeued := staleIds c t unguarded rows, republished := unclaimedIds c t unguarded rows
    replayed := (settled.filter (isReplayed c t unguarded)).map Partition.id
    poisonPills := (replayed.filter (isPoisoned c t unguarded)).map Partition.id
    unclaimedExpired := (failed.filter (isExpired c t unguarded)).map Partition.id }

end

def unguardedPartition (t : Tick) (w : World) (id : Uuid) : Bool :=
  pendingCopySql t.guards w (.partition id)

def StepA.published (s : StepA) : List Uuid := s.requeued ++ s.republished

def StepA.deadLetters (s : StepA) : List Uuid := s.poisonPills ++ s.unclaimedExpired

variable {c : Settings} {t : Tick} {unguarded : Uuid → Bool} {rows : List Partition} {p : Partition}
  {id : Uuid} {matching : Partition → Bool}

theorem update_eq {set : Partition → Partition}
    {P : Partition → Prop} (hset : matching p → P (set p)) (hkeep : ¬ matching p → P p) :
    P (update matching set p) := by
  unfold update
  split
  case isTrue h => exact hset h
  case isFalse h => exact hkeep h

@[simp] theorem requeueStale_id : (requeueStale c t unguarded rows p).id = p.id :=
  update_eq (P := (·.id = p.id)) (fun _ => rfl) (fun _ => rfl)

@[simp] theorem republishUnclaimed_id : (republishUnclaimed c t unguarded rows p).id = p.id :=
  update_eq (P := (·.id = p.id)) (fun _ => requeueStale_id) (fun _ => requeueStale_id)

@[simp] theorem replayPoison_id : (replayPoison c t unguarded p).id = p.id :=
  update_eq (P := (·.id = p.id)) (fun _ => rfl) (fun _ => rfl)

@[simp] theorem failPoison_id : (failPoison c t unguarded p).id = p.id :=
  update_eq (P := (·.id = p.id)) (fun _ => rfl) (fun _ => rfl)

@[simp] theorem expireUnclaimed_id : (expireUnclaimed c t unguarded p).id = p.id :=
  update_eq (P := (·.id = p.id)) (fun _ => rfl) (fun _ => rfl)

theorem mem_pick (h : id ∈ pick c rows matching) : ∃ p ∈ rows, matching p ∧ p.id = id := by
  obtain ⟨p, hp, rfl⟩ := mem_map.mp h
  have := mem_filter.mp (mem_mergeSort.mp (mem_of_mem_take hp))
  exact ⟨p, this.1, this.2, rfl⟩

theorem isStale_of_mem (distinct : (rows.map Partition.id).Nodup) (hp : p ∈ rows)
    (h : p.id ∈ staleIds c t unguarded rows) : isStale c t unguarded p := by
  obtain ⟨q, hq, stale, same⟩ := mem_pick h
  exact inj_on_of_nodup_map distinct hq hp same ▸ stale

theorem isUnclaimed_of_mem (distinct : (rows.map Partition.id).Nodup) (hp : p ∈ rows)
    (h : p.id ∈ unclaimedIds c t unguarded rows) :
    isUnclaimed c t unguarded (requeueStale c t unguarded rows p) := by
  obtain ⟨q', hq', unclaimed, same⟩ := mem_pick h
  obtain ⟨q, hq, rfl⟩ := mem_map.mp hq'
  rw [requeueStale_id] at same
  exact inj_on_of_nodup_map distinct hq hp same ▸ unclaimed

theorem not_olderThan_now (h : p.enqueuedAt = t.now) : olderThan t p n = false := by
  simp [olderThan, h]

theorem republishUnclaimed_of_stale (distinct : (rows.map Partition.id).Nodup) (hp : p ∈ rows)
    (h : p.id ∈ staleIds c t unguarded rows) :
    republishUnclaimed c t unguarded rows p = requeue t p := by
  have requeued : requeueStale c t unguarded rows p = requeue t p := if_pos (by simpa using h)
  have young : olderThan t (requeue t p) c.partUnclaimedStaleMin = false := not_olderThan_now rfl
  have kept : p.id ∉ unclaimedIds c t unguarded rows := fun unclaimed => by
    have := isUnclaimed_of_mem distinct hp unclaimed
    simp [requeued, isUnclaimed, young] at this
  rw [republishUnclaimed, requeued]
  exact if_neg fun unclaimed => kept (of_decide_eq_true unclaimed)

section

variable (h : p.id ∉ staleIds c t unguarded rows)

include h

theorem requeueStale_of_not_stale : requeueStale c t unguarded rows p = p :=
  if_neg (by simpa using h)

theorem republishUnclaimed_of_unclaimed (h' : p.id ∈ unclaimedIds c t unguarded rows) :
    republishUnclaimed c t unguarded rows p = republish t p := by
  rw [republishUnclaimed, requeueStale_of_not_stale h]
  exact if_pos (by simpa using h')

theorem republishUnclaimed_of_neither
    (h' : p.id ∉ unclaimedIds c t unguarded rows) : republishUnclaimed c t unguarded rows p = p := by
  rw [republishUnclaimed, requeueStale_of_not_stale h]
  exact if_neg (by simpa using h')

end

theorem not_isPoison_of_neverClaimed (h : neverClaimed p) : isPoison c t unguarded p = false := by
  simp only [neverClaimed, Bool.and_eq_true, decide_eq_true_eq, Option.isNone_iff_eq_none] at h
  obtain ⟨⟨⟨⟨queued, worker⟩, started⟩, owner⟩, retries⟩ := h
  simp [isPoison, claimEvidence, lastingEvidence, queued, worker, started, owner, retries]

theorem not_isPoisoned_of_not_isPoison (h : isPoison c t unguarded p = false) :
    isPoisoned c t unguarded (replayPoison c t unguarded p) = false := by
  have kept : replayPoison c t unguarded p = p := if_neg (by simp [isReplayed, h])
  simp [kept, isPoisoned, h]

theorem enqueuedAt_of_published (distinct : (rows.map Partition.id).Nodup) (hp : p ∈ rows)
    (h : p.id ∈ staleIds c t unguarded rows ∨ p.id ∈ unclaimedIds c t unguarded rows) :
    (republishUnclaimed c t unguarded rows p).enqueuedAt = t.now := by
  by_cases stale : p.id ∈ staleIds c t unguarded rows
  · rw [republishUnclaimed_of_stale distinct hp stale]
    rfl
  · rw [republishUnclaimed_of_unclaimed stale (h.resolve_left stale)]
    rfl

theorem isPoisoned_requeue (stale : isStale c t unguarded p) :
    isPoisoned c t unguarded (replayPoison c t unguarded (requeue t p)) ↔
      c.maxRequeue ≤ p.requeueCount + 1 ∧ lastingEvidence p ∧
        c.dlqReplayMax ≤ p.failureState.dlqReplayCount := by
  simp only [isStale, Bool.and_eq_true, decide_eq_true_eq] at stale
  have free : unguarded p.id = true := stale.1.1.1.1.1.1.2
  have budget : p.requeueCount < c.maxRequeue := stale.1.2
  have poison_iff : isPoison c t unguarded (requeue t p) =
      (decide (c.maxRequeue ≤ p.requeueCount + 1) && lastingEvidence p) := by
    have evidence : claimEvidence (requeue t p) = lastingEvidence p := by
      simp only [claimEvidence, requeue, reduceCtorEq, decide_false, Option.isSome_none,
        Bool.false_or]
      rfl
    have opened : isOpen (requeue t p) = true := rfl
    have lapsed : leaseLapsed t (requeue t p) = true := rfl
    have guard : unguarded (requeue t p).id = true := free
    rw [isPoison, evidence, opened, lapsed, guard]
    simp only [Bool.and_true, Bool.true_and]
    rfl
  by_cases replays : isReplayed c t unguarded (requeue t p)
  · have spent : ¬ c.maxRequeue ≤ 0 := by omega
    have left : p.failureState.dlqReplayCount < c.dlqReplayMax :=
      of_decide_eq_true (Bool.and_eq_true_iff.mp replays).2
    rw [replayPoison, update, if_pos replays]
    simp only [isPoisoned, isPoison, replay, spent, decide_false, Bool.and_false, Bool.false_and,
      Bool.false_eq_true, false_iff]
    omega
  · rw [replayPoison, update, if_neg replays, isPoisoned, poison_iff]
    simp only [Bool.and_eq_true, decide_eq_true_eq, and_assoc]
    rfl

/-- The row is requeued for the last time, and the poison statement of the same pass still sees the
claim of the worker that died. -/
def Exhausts (c : Settings) (t : Tick) (unguarded : Uuid → Bool) (rows : List Partition)
    (p : Partition) : Prop :=
  p.id ∈ staleIds c t unguarded rows ∧ c.maxRequeue ≤ p.requeueCount + 1 ∧ lastingEvidence p ∧
    c.dlqReplayMax ≤ p.failureState.dlqReplayCount

def Spent (c : Settings) (t : Tick) (unguarded : Uuid → Bool) (p : Partition) : Prop :=
  isPoisoned c t unguarded (replayPoison c t unguarded p)

section

variable (distinct : (rows.map Partition.id).Nodup)
include distinct

theorem not_isPoison_of_stale (hp : p ∈ rows) (h : p.id ∈ staleIds c t unguarded rows) :
    isPoison c t unguarded p = false := by
  have stale := isStale_of_mem distinct hp h
  simp only [isStale, Bool.and_eq_true, decide_eq_true_eq] at stale
  simp [isPoison, Nat.not_le.mpr stale.1.2]

theorem isPoisoned_iff (hp : p ∈ rows) : isPoisoned c t unguarded
        (replayPoison c t unguarded (republishUnclaimed c t unguarded rows p)) ↔
      Exhausts c t unguarded rows p ∨ Spent c t unguarded p := by
  by_cases stale : p.id ∈ staleIds c t unguarded rows
  · have unspent : ¬ Spent c t unguarded p := by
      simp [Spent, not_isPoisoned_of_not_isPoison (not_isPoison_of_stale distinct hp stale)]
    rw [republishUnclaimed_of_stale distinct hp stale,
      isPoisoned_requeue (isStale_of_mem distinct hp stale)]
    simp [Exhausts, stale, unspent]
  have fresh : ¬ Exhausts c t unguarded rows p := fun h => stale h.1
  by_cases unclaimed : p.id ∈ unclaimedIds c t unguarded rows
  · have never : neverClaimed p := by
      have := isUnclaimed_of_mem distinct hp unclaimed
      rw [requeueStale_of_not_stale stale] at this
      simp only [isUnclaimed, Bool.and_eq_true] at this
      exact this.1.1.1.1.1.1
    rw [republishUnclaimed_of_unclaimed stale unclaimed]
    simp [fresh, Spent, not_isPoisoned_of_not_isPoison (not_isPoison_of_neverClaimed never),
      not_isPoisoned_of_not_isPoison (not_isPoison_of_neverClaimed (p := republish t p) never)]
  · rw [republishUnclaimed_of_neither stale unclaimed]
    simp [fresh, Spent]

theorem mem_poisonPills : id ∈ (stepA c t unguarded rows).poisonPills ↔
      ∃ p ∈ rows, p.id = id ∧ (Exhausts c t unguarded rows p ∨ Spent c t unguarded p) := by
  simp only [stepA, mem_map, mem_filter, map_map, Function.comp_apply]
  constructor
  · rintro ⟨_, ⟨⟨p, hp, rfl⟩, poisoned⟩, rfl⟩
    exact ⟨p, hp, by simp, (isPoisoned_iff distinct hp).mp poisoned⟩
  · rintro ⟨p, hp, rfl, h⟩
    exact ⟨_, ⟨⟨p, hp, rfl⟩, (isPoisoned_iff distinct hp).mpr h⟩, by simp⟩

end

section

/-- What STEP A makes of a row. -/
def swept (c : Settings) (t : Tick) (unguarded : Uuid → Bool) (rows : List Partition)
    (p : Partition) : Partition :=
  expireUnclaimed c t unguarded (failPoison c t unguarded
    (replayPoison c t unguarded (republishUnclaimed c t unguarded rows p)))

theorem stepA_partitions :
    (stepA c t unguarded rows).partitions = rows.map (swept c t unguarded rows) := by
  simp only [stepA, map_map]
  rfl

/-- STEP A fails the row: for its last requeue, as a poison pill, or as never claimed. -/
def GivesUp (c : Settings) (t : Tick) (unguarded : Uuid → Bool) (rows : List Partition)
    (p : Partition) : Prop :=
  Exhausts c t unguarded rows p ∨ Spent c t unguarded p ∨ isExpired c t unguarded p

instance : Decidable (GivesUp c t unguarded rows p) :=
  inferInstanceAs (Decidable ((_ ∧ _ ∧ _ ∧ _) ∨ _ = true ∨ _ = true))

@[simp] theorem snapshotId_swept :
    (swept c t unguarded rows p).snapshotId = p.snapshotId := by
  unfold swept expireUnclaimed failPoison replayPoison republishUnclaimed requeueStale update
  split_ifs <;> rfl

variable (distinct : (rows.map Partition.id).Nodup) (hp : p ∈ rows)
include distinct hp

theorem swept_of_closed (closed : isOpen p = false) : swept c t unguarded rows p = p := by
  have stale : p.id ∉ staleIds c t unguarded rows := fun h => by
    have := isStale_of_mem distinct hp h
    simp [isStale, closed] at this
  have claimed : neverClaimed p = false := by
    simp only [isOpen, mem_cons, not_mem_nil, or_false, decide_eq_false_iff_not, not_or] at closed
    simp [neverClaimed, closed.1]
  have unclaimed : p.id ∉ unclaimedIds c t unguarded rows := fun h => by
    have := isUnclaimed_of_mem distinct hp h
    rw [requeueStale_of_not_stale stale] at this
    simp [isUnclaimed, claimed] at this
  have healthy : isPoison c t unguarded p = false := by simp [isPoison, closed]
  rw [swept, republishUnclaimed_of_neither stale unclaimed]
  simp [replayPoison, failPoison, expireUnclaimed, update, isReplayed, isPoisoned, isExpired, healthy,
    claimed]

theorem isOpen_swept (opened : isOpen p) (kept : ¬ GivesUp c t unguarded rows p) :
    isOpen (swept c t unguarded rows p) := by
  obtain ⟨lasts, unspent, young⟩ := by simpa only [GivesUp, not_or] using kept
  have sound : ¬ isPoisoned c t unguarded
      (replayPoison c t unguarded (republishUnclaimed c t unguarded rows p)) := fun h =>
    ((isPoisoned_iff distinct hp).mp h).elim lasts unspent
  have queued : isOpen (republishUnclaimed c t unguarded rows p) :=
    update_eq (P := (isOpen ·)) (fun _ => update_eq (P := fun q => isOpen (republish t q))
      (fun _ => rfl) fun _ => opened) fun _ => update_eq (P := (isOpen ·)) (fun _ => rfl) fun _ => opened
  -- A row that is replayed or published again is too young to expire.
  have fresh : ¬ isExpired c t unguarded
      (replayPoison c t unguarded (republishUnclaimed c t unguarded rows p)) := by
    refine update_eq (P := fun q => ¬ isExpired c t unguarded q) (fun _ => ?_) fun _ => ?_
    · simp [isExpired, not_olderThan_now (p := replay t _) rfl]
    · by_cases published : p.id ∈ staleIds c t unguarded rows ∨ p.id ∈ unclaimedIds c t unguarded rows
      · simp [isExpired, not_olderThan_now (enqueuedAt_of_published distinct hp published)]
      · rw [not_or] at published
        rwa [republishUnclaimed_of_neither published.1 published.2]
  rw [swept, failPoison, update, if_neg sound, expireUnclaimed, update, if_neg fresh]
  exact update_eq (P := (isOpen ·)) (fun _ => rfl) fun _ => queued

end

variable {id : Uuid}

section

@[simp] theorem map_id_stepA : (stepA c t unguarded rows).partitions.map Partition.id =
    rows.map Partition.id := by
  simp [stepA, Function.comp_def]

theorem mem_unclaimedIds (h : id ∈ unclaimedIds c t unguarded rows) : ∃ p ∈ rows, p.id = id := by
  obtain ⟨_, hq, -, rfl⟩ := mem_pick h
  obtain ⟨p, hp, rfl⟩ := mem_map.mp hq
  exact ⟨p, hp, by simp⟩

theorem mem_published (h : id ∈ (stepA c t unguarded rows).published) : ∃ p ∈ rows, p.id = id ∧
      (p.id ∈ staleIds c t unguarded rows ∨ p.id ∈ unclaimedIds c t unguarded rows) := by
  obtain stale | unclaimed := mem_append.mp h
  · obtain ⟨p, hp, -, rfl⟩ := mem_pick stale
    exact ⟨p, hp, rfl, .inl stale⟩
  · obtain ⟨p, hp, rfl⟩ := mem_unclaimedIds unclaimed
    exact ⟨p, hp, rfl, .inr unclaimed⟩

variable (distinct : (rows.map Partition.id).Nodup)
include distinct

theorem not_unclaimedExpired_of_published (h : id ∈ (stepA c t unguarded rows).published) :
    id ∉ (stepA c t unguarded rows).unclaimedExpired := by
  intro expired
  obtain ⟨p, hp, rfl, published⟩ := mem_published h
  simp only [stepA, mem_map, mem_filter, map_map, Function.comp_apply] at expired
  obtain ⟨_, ⟨⟨q, hq, rfl⟩, expired⟩, same⟩ := expired
  obtain rfl := inj_on_of_nodup_map distinct hq hp (by simpa using same)
  have fresh := enqueuedAt_of_published distinct hp published
  -- neither the replay nor the poison statement makes the row older
  have replayed : (replayPoison c t unguarded (republishUnclaimed c t unguarded rows q)).enqueuedAt
      = t.now :=
    update_eq (P := (·.enqueuedAt = t.now)) (fun _ => rfl) (fun _ => fresh)
  have failed : (failPoison c t unguarded (replayPoison c t unguarded
      (republishUnclaimed c t unguarded rows q))).enqueuedAt = t.now :=
    update_eq (P := (·.enqueuedAt = t.now)) (fun _ => replayed) (fun _ => replayed)
  simp [isExpired, not_olderThan_now failed] at expired

theorem not_published_of_spent (hp : p ∈ rows) (spent : Spent c t unguarded p) :
    p.id ∉ (stepA c t unguarded rows).published := by
  intro h
  have healthy : isPoison c t unguarded p = false := by
    by_cases stale : p.id ∈ staleIds c t unguarded rows
    · exact not_isPoison_of_stale distinct hp stale
    · have unclaimed := isUnclaimed_of_mem distinct hp ((mem_append.mp h).resolve_left stale)
      rw [requeueStale_of_not_stale stale] at unclaimed
      simp only [isUnclaimed, Bool.and_eq_true] at unclaimed
      exact not_isPoison_of_neverClaimed unclaimed.1.1.1.1.1.1
  simp [Spent, not_isPoisoned_of_not_isPoison healthy] at spent

theorem published_and_dead_iff :
    id ∈ (stepA c t unguarded rows).published ∧ id ∈ (stepA c t unguarded rows).deadLetters ↔
      ∃ p ∈ rows, p.id = id ∧ Exhausts c t unguarded rows p := by
  constructor
  · rintro ⟨published, dead⟩
    have pill := (mem_append.mp dead).resolve_right
      (not_unclaimedExpired_of_published distinct published)
    obtain ⟨p, hp, rfl, exhausts | spent⟩ := (mem_poisonPills distinct).mp pill
    · exact ⟨p, hp, rfl, exhausts⟩
    · exact absurd published (not_published_of_spent distinct hp spent)
  · rintro ⟨p, hp, rfl, exhausts⟩
    exact ⟨mem_append_left _ exhausts.1,
      mem_append_left _ ((mem_poisonPills distinct).mpr ⟨p, hp, rfl, .inl exhausts⟩)⟩

end

structure History where
  world : World
  requeues : List (Uuid × Time) := []
  distinct : (world.partitions.map Partition.id).Nodup

inductive Event
  | sweep (t : Tick)
  | others (world : World) (distinct : (world.partitions.map Partition.id).Nodup)

section

variable (c : Settings) (h : History)

def History.pass (t : Tick) : StepA :=
  stepA c t (unguardedPartition t h.world) h.world.partitions

def History.step : Event → History
  | .sweep t =>
    { world := { h.world with partitions := (h.pass c t).partitions }
      requeues := (h.pass c t).requeued.map (·, t.now) ++ h.requeues, distinct := by
        rw [History.pass, map_id_stepA]
        exact h.distinct }
  | .others world distinct => { h with world, distinct }

/-- No shard is published and dead-lettered in one pass, and one that failed for its requeues was
requeued a stale window ago or earlier. -/
def Honest : Event → Prop
  | .sweep t =>
    (∀ id ∈ (h.pass c t).published, id ∉ (h.pass c t).deadLetters) ∧
      ∀ id ∈ (h.pass c t).poisonPills, ∀ time, (id, time) ∈ (h.step c (.sweep t)).requeues →
        time + minutes c.partStaleMin ≤ t.now
  | .others .. => True

/-- No shard is requeued for the last time while its claim still shows, and one that comes spent had
its window. -/
def Patient : Event → Prop
  | .sweep t =>
    ∀ p ∈ h.world.partitions,
      ¬ Exhausts c t (unguardedPartition t h.world) h.world.partitions p ∧
        (Spent c t (unguardedPartition t h.world) p →
          ∀ time, (p.id, time) ∈ h.requeues → time + minutes c.partStaleMin ≤ t.now)
  | .others .. => True

end

variable {h : History} {events : List Event}

theorem mem_requeues : (id, time) ∈ (h.step c (.sweep t)).requeues ↔
    id ∈ (h.pass c t).requeued ∧ time = t.now ∨ (id, time) ∈ h.requeues := by
  simp only [History.step, mem_append, mem_map, Prod.mk.injEq]
  constructor
  · rintro (⟨_, requeued, rfl, rfl⟩ | old)
    · exact .inl ⟨requeued, rfl⟩
    · exact .inr old
  · rintro (⟨requeued, rfl⟩ | old)
    · exact .inl ⟨id, requeued, rfl, rfl⟩
    · exact .inr old

theorem honest_iff_patient : Honest c h e ↔ Patient c h e := by
  cases e with
  | others => exact Iff.rfl
  | sweep t =>
    constructor
    · rintro ⟨apart, aged⟩ p hp
      refine ⟨fun exhausts => ?_, fun spent time requeued => ?_⟩
      · obtain ⟨published, dead⟩ := (published_and_dead_iff h.distinct).mpr ⟨p, hp, rfl, exhausts⟩
        exact apart _ published dead
      · exact aged p.id ((mem_poisonPills h.distinct).mpr ⟨p, hp, rfl, .inr spent⟩) time
          (mem_requeues.mpr (.inr requeued))
    · intro patient
      refine ⟨fun id published dead => ?_, fun id pill time requeued => ?_⟩
      · obtain ⟨p, hp, -, exhausts⟩ := (published_and_dead_iff h.distinct).mp ⟨published, dead⟩
        exact (patient p hp).1 exhausts
      · obtain ⟨p, hp, rfl, exhausts | spent⟩ := (mem_poisonPills h.distinct).mp pill
        · exact absurd exhausts (patient p hp).1
        · obtain ⟨now, -⟩ | old := mem_requeues.mp requeued
          · exact absurd (mem_append_left _ now) (not_published_of_spent h.distinct hp spent)
          · exact (patient p hp).2 spent time old

/-- Over every sequence of sweeps and of other writes. -/
theorem sweeps_honest_iff :
    Along (History.step c) (Honest c) h events ↔ Along (History.step c) (Patient c) h events :=
  ⟨Along.mono fun _ _ => honest_iff_patient.mp, Along.mono fun _ _ => honest_iff_patient.mpr⟩

def lastRequeue : History where
  world := {
    partitions := [{
      id := 1, snapshotId := 1, tenantId := 1, status := .inProgress, workerId := some "worker"
      startedAt := some 0, requeueCount := 2, failureState := { dlqReplayCount := 1 } }] }
  distinct := by decide

theorem sweep_requeues_and_fails : 1 ∈ (lastRequeue.pass {} { now := minutes 16 }).published ∧
      1 ∈ (lastRequeue.pass {} { now := minutes 16 }).deadLetters ∧
      ¬ Honest {} lastRequeue (.sweep { now := minutes 16 }) := by
  have published : 1 ∈ (lastRequeue.pass {} { now := minutes 16 }).published := by decide +kernel
  have dead : 1 ∈ (lastRequeue.pass {} { now := minutes 16 }).deadLetters := by decide +kernel
  exact ⟨published, dead, fun honest => honest.1 1 published dead⟩

end TmVault.Reconciler
