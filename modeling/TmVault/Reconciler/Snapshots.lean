import TmVault.Finalize.Partitioned
import TmVault.Reconciler.Partitions

namespace TmVault.Reconciler

open Finalize Store Work

def shardsOf (w : World) (s : Snapshot) : List Partition :=
  w.partitions.filter (·.snapshotId = s.id)

def ownItems (w : World) (s : Snapshot) : List SnapshotItem :=
  w.db.items.filter (·.snapshotId = s.id)

def restate (items : List SnapshotItem) (s : Snapshot) : Snapshot :=
  { s with
    itemCount := some (max (s.itemCount.getD 0) items.length)
    bytesTotal := some (max (s.bytesTotal.getD 0) (items.map (·.contentSize.getD 0)).sum) }

def dropLease (s : Snapshot) : Snapshot :=
  { s with leaseOwnerId := none, leaseExpiresAt := none, leaseToken := s.leaseToken + 1 }

def inFlight (shards : List Partition) : Bool := shards.any (·.status ∈ [.queued, .inProgress])

section

def settledStatus (s : Snapshot) (shards : List Partition) : SnapshotStatus :=
  if shards = [] then .failed
  else if shards.any isLossy then .partialRun
  else if isDegraded s.extraData then .partialRun
  else if shards.all (·.status = .completed) then .completed
  else if shards.all (·.status = .failed) then .failed
  else if shards.any (·.status = .failed) then .partialRun
  else .failed

def orphanReason (shards : List Partition) : String :=
  if shards = [] then
    "reconciler: orphaned non-partitioned snapshot — lease expired with no live worker heartbeat " ++
      "and no handler ever finalized it"
  else "reconciler: status derived from partition outcomes (no shard left in flight)"

def settle (t : Tick) (shards : List Partition) (items : List SnapshotItem) (s : Snapshot) : Snapshot :=
  { dropLease (restate items s) with
    status := some (settledStatus s shards), completedAt := some t.now
    extraData := { s.extraData with
      failureReason := s.extraData.failureReason.or (some (orphanReason shards))
      reconcilerSettled := true } }

variable (c : Settings) (t : Tick) (w : World) (s : Snapshot)

def isAbandoned : Bool :=
  (s.leaseExpiresAt.any (· + seconds c.snapReapLeaseGraceS < t.now) ||
      (s.leaseOwnerId.isNone && s.startedAt.any (· + seconds c.snapLegacyAgeS < t.now))) &&
    !isLive c t s.leaseOwnerId &&
    !(ownItems w s).any fun i => i.createdAt.any (t.now < · + seconds c.snapReapProgressGraceS)

def isOrphan : Bool :=
  s.status = some .inProgress && pendingCopySql t.guards w (.snapshot s.id) &&
    !inFlight (shardsOf w s) && (shardsOf w s ≠ [] || isAbandoned c t w s)

def settleOrphan : Snapshot :=
  if isOrphan c t w s then settle t (shardsOf w s) (ownItems w s) s else s

def stepB : World := { w with db := { w.db with snapshots := w.db.snapshots.map (settleOrphan c t w) } }

end

section

variable (s : Snapshot) (shards : List Partition)

def correctedStatus : Option SnapshotStatus :=
  if shards.all (·.status = .failed) then some .failed
  else if shards.any (·.status = .failed) ∨ shards.any isLossy ∨ isDegraded s.extraData then
    some .partialRun
  else if shards.all (·.status = .completed) then some .completed
  else s.status

def disagrees : Bool :=
  shards ≠ [] && !inFlight shards &&
    s.status ∈ [some .completed, some .partialRun, some .failed] &&
    s.status ≠ correctedStatus s shards

def correct (items : List SnapshotItem) : Snapshot :=
  { dropLease (restate items s) with status := correctedStatus s shards }

variable (t : Tick) (w : World)

def correctTerminal : Snapshot :=
  if pendingCopySql t.guards w (.snapshot s.id) && disagrees s (shardsOf w s) then
    correct s (shardsOf w s) (ownItems w s)
  else s

def stepD : World := { w with db := { w.db with snapshots := w.db.snapshots.map (correctTerminal · t w) } }

end

variable {s : Snapshot} {shards : List Partition}

def AllFailed (shards : List Partition) : Prop := ∀ p ∈ shards, p.status = .failed

def AnyLoss (shards : List Partition) : Prop :=
  (∃ p ∈ shards, p.status = .failed) ∨ ∃ p ∈ shards, isLossy p

instance : Decidable (AllFailed shards) := inferInstanceAs (Decidable (∀ p ∈ shards, _))

instance : Decidable (AnyLoss shards) :=
  inferInstanceAs (Decidable ((∃ p ∈ shards, _) ∨ ∃ p ∈ shards, _))

section

variable (settled : Settled shards)
include settled

theorem correctedStatus_of_settled : correctedStatus s shards =
      if AllFailed shards then some .failed
      else if AnyLoss shards ∨ isDegraded s.extraData then some .partialRun
      else some .completed := by
  unfold correctedStatus
  by_cases all : AllFailed shards
  · rw [if_pos (by simpa [AllFailed] using all), if_pos all]
  rw [if_neg (by simpa [AllFailed] using all), if_neg all]
  by_cases loss : AnyLoss shards ∨ isDegraded s.extraData
  · rw [if_pos (by simpa [AnyLoss, or_assoc] using loss), if_pos loss]
  · rw [if_neg (by simpa [AnyLoss, or_assoc] using loss), if_neg loss, if_pos]
    refine List.all_eq_true.mpr fun p hp => decide_eq_true ?_
    have ended := settled p hp
    simp only [List.mem_cons, List.not_mem_nil, or_false] at ended
    exact ended.resolve_right fun failed => loss (.inl (.inl ⟨p, hp, failed⟩))

theorem not_inFlight_of_settled : inFlight shards = false := by
  refine List.any_eq_false.mpr fun p hp => ?_
  have ended := settled p hp
  simp only [List.mem_cons, List.not_mem_nil, or_false] at ended
  rcases ended with h | h <;> simp [h]

theorem agrees_iff (partitioned : shards ≠ [])
    (terminal : s.status ∈ [some .completed, some .partialRun, some .failed]) :
    disagrees s shards = false ↔ s.status = correctedStatus s shards := by
  simp [disagrees, partitioned, terminal, not_inFlight_of_settled settled]

end

open List

def rollUp (snapshots : List Snapshot) : JobStatus :=
  if !snapshots.any (·.status ∈ [some .completed, some .partialRun, some .skipped]) then .failed
  else if snapshots.any (·.status ∈ [some .partialRun, some .failed]) then .partialRun
  else .completed

def snapshotsOf (w : World) (jobId : Uuid) : List Snapshot :=
  w.db.snapshots.filter (·.jobId = some jobId)

section

variable (t : Tick) (w : World) (j : Job)

def isOrphanJob : Bool :=
  j.status = .running && pendingCopySql t.guards w (.job j.id) &&
    !(snapshotsOf w j.id).any (·.status = some .inProgress) && snapshotsOf w j.id ≠ []

def settleJob : Job :=
  if isOrphanJob t w j then
    { j with
      status := rollUp (snapshotsOf w j.id), completedAt := some t.now, leaseOwnerId := none
      leaseExpiresAt := none, leaseToken := j.leaseToken + 1 }
  else j

def stepC : World := { w with jobs := w.jobs.map (settleJob t w) }

end

section

variable (c : Settings) (t : Tick) (w : World)

def sweepPartitions : World :=
  { w with partitions := (stepA c t (unguardedPartition t w) w.partitions).partitions }

def settledWorld : World := stepB c t (sweepPartitions c t w)

def sweepOrphans : World := if c.dryRun then w else stepD t (stepC t (settledWorld c t w))

def isRolledUp (s : JobStatus) : Bool := s ∈ [.completed, .partialRun, .failed]

def CarriesRollUp : Prop :=
  ∀ id j j', w.jobs.find? (·.id = id) = some j →
    (sweepOrphans c t w).jobs.find? (·.id = id) = some j' →
    isRolledUp j.status = false → isRolledUp j'.status = true →
    j'.status = rollUp (snapshotsOf (sweepOrphans c t w) id)

end

variable {c : Settings} {t : Tick} {w : World} {j : Job} {id : Uuid}

@[simp] theorem settleJob_id : (settleJob t w j).id = j.id := by
  unfold settleJob
  split <;> rfl

theorem isRolledUp_rollUp : isRolledUp (rollUp snapshots) = true := by
  unfold rollUp
  split
  · rfl
  · split <;> rfl

theorem isRolledUp_settleJob (live : isRolledUp j.status = false) :
    isRolledUp (settleJob t w j).status = true ↔ isOrphanJob t w j = true := by
  unfold settleJob
  split
  case isTrue h => simp only [h, isRolledUp_rollUp]
  case isFalse h => simp only [h, live, Bool.false_eq_true]

theorem find?_sweepOrphans (commits : c.dryRun = false) :
    (sweepOrphans c t w).jobs.find? (·.id = id) =
      (w.jobs.find? (·.id = id)).map (settleJob t (settledWorld c t w)) := by
  have jobs : (sweepOrphans c t w).jobs = w.jobs.map (settleJob t (settledWorld c t w)) := by
    rw [sweepOrphans, commits]
    rfl
  rw [jobs, find?_map]
  simp only [Function.comp_def, settleJob_id]

theorem snapshotsOf_sweepOrphans (commits : c.dryRun = false) :
    snapshotsOf (sweepOrphans c t w) id =
      (snapshotsOf (settledWorld c t w) id).map (correctTerminal · t (stepC t (settledWorld c t w))) := by
  have snapshots : (sweepOrphans c t w).db.snapshots = (settledWorld c t w).db.snapshots.map
      (correctTerminal · t (stepC t (settledWorld c t w))) := by
    rw [sweepOrphans, commits]
    rfl
  have keeps (s : Snapshot) (w : World) : (correctTerminal s t w).jobId = s.jobId := by
    unfold correctTerminal
    split <;> rfl
  rw [snapshotsOf, snapshots, filter_map, snapshotsOf]
  congr 1
  exact filter_congr fun s _ => by simp only [Function.comp_apply, keeps]

def KeepsRollUp (c : Settings) (t : Tick) (w : World) : Prop :=
  ∀ id j, w.jobs.find? (·.id = id) = some j → isOrphanJob t (settledWorld c t w) j = true →
    rollUp (snapshotsOf (settledWorld c t w) id) =
      rollUp ((snapshotsOf (settledWorld c t w) id).map
        (correctTerminal · t (stepC t (settledWorld c t w))))

theorem carriesRollUp_iff (commits : c.dryRun = false) :
    CarriesRollUp c t w ↔ KeepsRollUp c t w := by
  have status {j : Job} (orphan : isOrphanJob t (settledWorld c t w) j = true) :
      (settleJob t (settledWorld c t w) j).status = rollUp (snapshotsOf (settledWorld c t w) j.id) := by
    rw [settleJob, if_pos orphan]
  constructor
  · intro carries id j hj orphan
    have hid : j.id = id := by simpa using find?_some hj
    have live : isRolledUp j.status = false := by
      simp only [isOrphanJob, Bool.and_eq_true, decide_eq_true_eq] at orphan
      rw [orphan.1.1.1]
      rfl
    have found : (sweepOrphans c t w).jobs.find? (·.id = id) =
        some (settleJob t (settledWorld c t w) j) := by
      rw [find?_sweepOrphans commits, hj, Option.map_some]
    have carried := carries id j _ hj found live ((isRolledUp_settleJob live).mpr orphan)
    rwa [status orphan, hid, snapshotsOf_sweepOrphans commits] at carried
  · intro keeps id j j' hj hj' live rolled
    have hid : j.id = id := by simpa using find?_some hj
    rw [find?_sweepOrphans commits, hj, Option.map_some, Option.some.injEq] at hj'
    subst hj'
    have orphan := (isRolledUp_settleJob live).mp rolled
    rw [status orphan, hid, snapshotsOf_sweepOrphans commits]
    exact keeps id j hj orphan

section

theorem shardsOf_sweepPartitions : shardsOf (sweepPartitions c t w) s =
    (shardsOf w s).map (swept c t (unguardedPartition t w) w.partitions) := by
  rw [shardsOf, sweepPartitions, stepA_partitions, filter_map, shardsOf]
  congr 1
  exact filter_congr fun p _ => by simp only [Function.comp_apply, snapshotId_swept]

/-- What the rows of a snapshot say before the pass: STEP A gives up none of its shards, it would not
be settled as partial on failed shards only, and its status, if it has ended, is that of its shards. -/
structure Agrees (c : Settings) (t : Tick) (w : World) (s : Snapshot) : Prop where
  kept : ∀ p ∈ shardsOf w s, ¬ GivesUp c t (unguardedPartition t w) w.partitions p
  orphaned : s.status = some .inProgress → shardsOf w s ≠ [] → AllFailed (shardsOf w s) →
    ¬ ((shardsOf w s).any isLossy ∨ isDegraded s.extraData)
  ended : disagrees s (shardsOf w s) = false

theorem settle_agrees {items : List SnapshotItem}
    (sound : shards ≠ [] → AllFailed shards → ¬ (shards.any isLossy ∨ isDegraded s.extraData)) :
    disagrees (settle t shards items s) shards = false := by
  by_cases none : shards = []
  · simp [disagrees, none]
  have degraded : isDegraded (settle t shards items s).extraData = isDegraded s.extraData := rfl
  have status : (settle t shards items s).status = some (settledStatus s shards) := rfl
  suffices h : correctedStatus (settle t shards items s) shards = some (settledStatus s shards) by
    simp [disagrees, h, status]
  rw [correctedStatus, status, degraded]
  obtain ⟨p, hp⟩ := exists_mem_of_ne_nil _ none
  have apart : shards.all (·.status = .completed) → ¬ shards.any (·.status = .failed) := by
    intro completed failed
    obtain ⟨q, hq, h⟩ := any_eq_true.mp failed
    have := all_eq_true.mp completed q hq
    simp_all
  have some_ : shards.all (·.status = .failed) → shards.any (·.status = .failed) := fun failed =>
    any_eq_true.mpr ⟨p, hp, all_eq_true.mp failed p hp⟩
  have plain : shards.all (·.status = .failed) → ¬ (shards.any isLossy ∨ isDegraded s.extraData) :=
    fun failed => sound none (by simpa [AllFailed] using failed)
  clear sound status degraded hp
  rw [settledStatus, if_neg none]
  generalize shards.all (·.status = .failed) = allFailed at *
  generalize shards.any (·.status = .failed) = anyFailed at *
  generalize shards.all (·.status = .completed) = allCompleted at *
  generalize shards.any isLossy = lossy at *
  generalize isDegraded s.extraData = degraded at *
  revert allFailed anyFailed allCompleted lossy degraded
  decide

variable (distinct : (w.partitions.map Partition.id).Nodup)
  (kept : ∀ p ∈ shardsOf w s, ¬ GivesUp c t (unguardedPartition t w) w.partitions p)

include distinct kept

/-- Shards that STEP A does not give up are in flight before and after it, or as they were. -/
theorem shardsOf_swept :
    inFlight (shardsOf w s) = true ∧ inFlight (shardsOf (sweepPartitions c t w) s) = true ∨
    shardsOf (sweepPartitions c t w) s = shardsOf w s := by
  rw [shardsOf_sweepPartitions]
  by_cases opened : ∃ p ∈ shardsOf w s, isOpen p
  · obtain ⟨p, hp, opened⟩ := opened
    have still := isOpen_swept distinct (mem_filter.mp hp).1 opened (kept p hp)
    exact .inl ⟨any_eq_true.mpr ⟨p, hp, opened⟩, any_eq_true.mpr ⟨_, mem_map_of_mem hp, still⟩⟩
  · refine .inr ((map_congr_left fun p hp => ?_).trans (map_id _))
    exact swept_of_closed distinct (mem_filter.mp hp).1
      (Bool.eq_false_iff.mpr fun h => opened ⟨p, hp, h⟩)

end

theorem Agrees.correctTerminal (distinct : (w.partitions.map Partition.id).Nodup)
    (h : Agrees c t w s) :
    correctTerminal (settleOrphan c t (sweepPartitions c t w) s) t (stepC t (settledWorld c t w)) =
      settleOrphan c t (sweepPartitions c t w) s := by
  set s' := settleOrphan c t (sweepPartitions c t w) s with hs'
  have shards : shardsOf (stepC t (settledWorld c t w)) s' = shardsOf (sweepPartitions c t w) s := by
    have id : s'.id = s.id := by
      rw [hs', settleOrphan]
      split <;> rfl
    simp only [shardsOf, id]
    rfl
  suffices stands : disagrees s' (shardsOf (sweepPartitions c t w) s) = false by
    rw [Reconciler.correctTerminal, shards, stands, Bool.and_false]
    rfl
  rcases shardsOf_swept distinct h.kept with ⟨-, flies⟩ | same
  · simp [disagrees, flies]
  rw [same]
  rw [settleOrphan] at hs'
  split at hs'
  · rename_i orphan
    simp only [isOrphan, Bool.and_eq_true, decide_eq_true_eq] at orphan
    rw [hs', same]
    exact settle_agrees (h.orphaned orphan.1.1.1)
  · rw [hs']
    exact h.ended

theorem snapshotsOf_settledWorld {id : Uuid} : snapshotsOf (settledWorld c t w) id =
    (snapshotsOf w id).map (settleOrphan c t (sweepPartitions c t w)) := by
  have keeps (s : Snapshot) : (settleOrphan c t (sweepPartitions c t w) s).jobId = s.jobId := by
    unfold settleOrphan
    split <;> rfl
  rw [snapshotsOf, settledWorld, stepB, filter_map, snapshotsOf]
  congr 1
  exact filter_congr fun s _ => by simp only [Function.comp_apply, keeps]

theorem rollUp_correct (differs : disagrees s shards = true) (items : List SnapshotItem) :
    rollUp [correct s shards items] ≠ rollUp [s] := by
  have status : (correct s shards items).status = correctedStatus s shards := rfl
  simp only [disagrees, Bool.and_eq_true, decide_eq_true_eq, mem_cons, not_mem_nil, or_false] at differs
  obtain ⟨⟨-, terminal⟩, differs⟩ := differs
  have corrected : correctedStatus s shards ∈ [some .completed, some .partialRun, some .failed] := by
    unfold correctedStatus
    split_ifs <;> simp [terminal]
  simp only [mem_cons, not_mem_nil, or_false] at corrected
  simp only [rollUp, any_cons, any_nil, status, Bool.or_false]
  rcases terminal with h | h | h <;> rcases corrected with h' | h' | h' <;> simp_all

def regressed : World where
  jobs := [{ id := 1, tenantId := 1, status := .running }]
  db := { snapshots := [{ id := 1, resourceId := 1, jobId := some 1, status := some .completed }] }
  partitions := [{ id := 1, snapshotId := 1, tenantId := 1, status := .failed }]

def steady : World :=
  { regressed with
    partitions := [{ id := 1, snapshotId := 1, tenantId := 1, status := .completed }] }

variable {s : Snapshot} {shards : List Partition} {inventory : List ItemType} {t : Tick} {now : Time}
  {cancelled : Bool} {items : List SnapshotItem}

section

theorem anyLoss_iff : 0 < failedShards shards ∨ 0 < lossyShards shards ↔ AnyLoss shards :=
  or_congr failedShards_pos lossyShards_pos

variable (settled : Settled shards)
include settled

theorem firstStatus_of_settled : firstStatus s shards inventory =
      if AllFailed shards then
        if (catalogueFormat s.extraData ∨ s.extraData.copyRequiredFailed) ∧ inventory ≠ [] then
          some .partialRun
        else some .failed
      else if AnyLoss shards ∨ s.extraData.copyRequiredFailed ∨
          (catalogueFormat s.extraData ∧ isDegraded s.extraData) then
        if s.extraData.copyRequiredFailed ∧ inventory = [] then some .failed else some .partialRun
      else some .completed := by
  unfold firstStatus
  rw [terminalShards_of_settled settled, if_neg (Nat.lt_irrefl _)]
  have none : completedShards shards = 0 ↔ AllFailed shards := completedShards_eq_zero settled
  simp only [none, ← or_assoc, anyLoss_iff]
  by_cases all : AllFailed shards
  · simp only [all, true_and, if_true]
  · simp only [all, false_and, if_false]

theorem derivedStatus_of_settled (partitioned : shards ≠ []) : derivedStatus s shards inventory =
      if s.extraData.copyRequiredFailed then
        if persistedCount inventory ≠ 0 then some .partialRun else some .failed
      else if AllFailed shards then
        if catalogueFormat s.extraData ∧ persistedCount inventory ≠ 0 then some .partialRun
        else some .failed
      else if AnyLoss shards then some .partialRun
      else some .completed := by
  unfold derivedStatus
  rw [if_pos ⟨partitioned, pendingShards_of_settled settled⟩]
  have everyone : failedShards shards = shards.length ↔ AllFailed shards := failedShards_eq_length
  simp only [everyone, anyLoss_iff]
  by_cases all : AllFailed shards
  · simp only [all, true_and, if_true]
  · simp only [all, false_and, if_false]

theorem settledStatus_of_settled (partitioned : shards ≠ []) : some (settledStatus s shards) =
      if (∃ p ∈ shards, isLossy p) ∨ isDegraded s.extraData then some .partialRun
      else correctedStatus s shards := by
  rw [correctedStatus_of_settled settled]
  unfold settledStatus
  rw [if_neg partitioned]
  by_cases lossy : ∃ p ∈ shards, isLossy p
  · rw [if_pos (by simpa using lossy), if_pos (.inl lossy)]
  rw [if_neg (by simpa using lossy)]
  by_cases degraded : isDegraded s.extraData
  · rw [if_pos degraded, if_pos (.inr degraded)]
  have healthy : ¬ ((∃ p ∈ shards, isLossy p) ∨ isDegraded s.extraData) :=
    not_or.mpr ⟨lossy, degraded⟩
  rw [if_neg degraded, if_neg healthy]
  by_cases failed : ∃ p ∈ shards, p.status = .failed
  · obtain ⟨p, hp, down⟩ := failed
    have notCompleted : ¬ (shards.all (·.status = .completed) = true) := fun completed => by
      have := all_eq_true.mp completed p hp
      simp [down] at this
    have anyFailed : shards.any (·.status = .failed) = true :=
      any_eq_true.mpr ⟨p, hp, by simp [down]⟩
    have loss : AnyLoss shards := .inl ⟨p, hp, down⟩
    rw [if_neg notCompleted]
    by_cases all : AllFailed shards
    · rw [if_pos (by simpa [AllFailed] using all), if_pos all]
    · rw [if_neg (by simpa [AllFailed] using all), if_pos anyFailed, if_neg all, if_pos (.inl loss)]
  · have completed : ∀ p ∈ shards, p.status = .completed := fun p hp => by
      have ended := settled p hp
      simp only [mem_cons, not_mem_nil, or_false] at ended
      exact ended.resolve_right fun down => failed ⟨p, hp, down⟩
    obtain ⟨p, hp⟩ := exists_mem_of_ne_nil shards partitioned
    have notAll : ¬ AllFailed shards := fun all => failed ⟨p, hp, all p hp⟩
    have noLoss : ¬ (AnyLoss shards ∨ isDegraded s.extraData) :=
      not_or.mpr ⟨not_or.mpr ⟨failed, lossy⟩, degraded⟩
    have allCompleted : shards.all (·.status = .completed) = true := by simpa using completed
    rw [if_pos allCompleted, if_neg notAll, if_neg noLoss]

end

section

theorem isDegraded_of_reason
    (h : e.degradedReason = reason) (said : ∀ r ∈ reason, r ≠ "") : isDegraded e ↔ reason.isSome := by
  rw [isDegraded, h]
  cases reason with
  | none => simp
  | some r => simpa using said r rfl

def Named (shards : List Partition) : Prop :=
  0 < lostFiles shards ∨ 0 < failedShards shards ∨ enumIncomplete shards

instance : Decidable (Named shards) := inferInstanceAs (Decidable (_ ∨ _ ∨ _))

theorem degradedReason_spec (s : Snapshot) (shards : List Partition) (inventory : List ItemType) :
    (∀ r ∈ degradedReason s shards inventory, r ≠ "") ∧
      ((degradedReason s shards inventory).isSome ↔ isDegraded s.extraData ∨
        derivedStatus s shards inventory ∈ [some .partialRun, some .failed] ∧ Named shards) := by
  unfold degradedReason
  by_cases degraded : isDegraded s.extraData
  · have said : ∀ r ∈ s.extraData.degradedReason, r ≠ "" := fun r hr => by
      rw [Option.mem_def] at hr
      simpa [isDegraded, hr] using degraded
    have stored := (isDegraded_of_reason rfl said).mp degraded
    simp only [degraded, if_true, true_or, iff_true]
    exact ⟨said, stored⟩
  · by_cases derived : derivedStatus s shards inventory ∈ [some .partialRun, some .failed]
    · simp only [degraded, derived, if_true, true_and, Bool.false_eq_true, if_false, false_or]
      exact partitionLossDegradedReason_spec
    · simp [degraded, derived]

variable (settled : Settled shards) (partitioned : shards ≠ [])
include settled partitioned

omit settled in
theorem settleFirst_eq (running : s.status = some .inProgress)
    (pending : s.extraData.mailCarryForwardPending = false) :
    settleFirst s shards inventory now true = { s with
      status := firstStatus s shards inventory
      completedAt := if terminalShards shards = shards.length then some now else s.completedAt } :=
  if_pos ⟨partitioned, running, pending, rfl⟩

theorem disagrees_settleFirst (running : s.status = some .inProgress)
    (pending : s.extraData.mailCarryForwardPending = false) :
    disagrees (settleFirst s shards inventory now true) shards = false ↔
      if AllFailed shards then
        ¬ ((catalogueFormat s.extraData ∨ s.extraData.copyRequiredFailed) ∧ inventory ≠ [])
      else
        (s.extraData.copyRequiredFailed →
          inventory ≠ [] ∧ (AnyLoss shards ∨ isDegraded s.extraData)) ∧
        (isDegraded s.extraData → AnyLoss shards ∨ s.extraData.copyRequiredFailed ∨
          catalogueFormat s.extraData) := by
  have status : firstStatus s shards inventory = _ := firstStatus_of_settled settled
  rw [settleFirst_eq partitioned running pending, agrees_iff settled partitioned,
    correctedStatus_of_settled settled]
  · show firstStatus s shards inventory = _ ↔ _
    rw [status]
    by_cases all : AllFailed shards <;> by_cases loss : AnyLoss shards <;>
      by_cases degraded : isDegraded s.extraData <;>
      by_cases required : s.extraData.copyRequiredFailed <;>
      by_cases format : catalogueFormat s.extraData <;> by_cases empty : inventory = [] <;>
      simp [all, loss, degraded, required, format, empty]
  · show firstStatus s shards inventory ∈ _
    rw [status]
    split_ifs <;> simp

theorem derivedStatus_terminal : derivedStatus s shards inventory ∈
    [some .completed, some .partialRun, some .failed] := by
  rw [derivedStatus_of_settled settled partitioned]
  split_ifs <;> simp

omit settled partitioned in
theorem isDegraded_settleSecond (live : s.status ≠ some .pendingDeletion) :
    isDegraded (settleSecond s shards inventory now cancelled).extraData ↔
      isDegraded s.extraData ∨
        derivedStatus s shards inventory ∈ [some .partialRun, some .failed] ∧ Named shards := by
  obtain ⟨said, isSome_iff⟩ := degradedReason_spec s shards inventory
  rw [← isSome_iff, settleSecond, if_neg live]
  cases reason : degradedReason s shards inventory with
  | none =>
    have healthy : ¬ isDegraded s.extraData := fun degraded => by
      simp [reason, degraded] at isSome_iff
    simpa [isDegraded, reason] using healthy
  | some r => simpa [isDegraded, reason] using said r reason

theorem status_settleSecond (live : s.status ≠ some .pendingDeletion) :
    (settleSecond s shards inventory now cancelled).status =
      if cancelled then some .failed
      else if isDegraded s.extraData ∧ derivedStatus s shards inventory = some .completed then
        some .partialRun
      else derivedStatus s shards inventory := by
  have isSome_iff := (degradedReason_spec s shards inventory).2
  have terminal : derivedStatus s shards inventory ∈ _ := derivedStatus_terminal settled partitioned
  rw [settleSecond, if_neg live]
  simp only [mem_cons, not_mem_nil, or_false] at terminal
  rcases terminal with derived | derived | derived <;>
    simp only [derived, isSome_iff] <;> cases cancelled <;> simp

theorem disagrees_settleSecond (live : s.status ≠ some .pendingDeletion) :
    disagrees (settleSecond s shards inventory now cancelled) shards = false ↔
      if cancelled then AllFailed shards
      else if AllFailed shards then
        ¬ ((catalogueFormat s.extraData ∨ s.extraData.copyRequiredFailed) ∧
          persistedCount inventory ≠ 0)
      else s.extraData.copyRequiredFailed → persistedCount inventory ≠ 0 ∧
        (AnyLoss shards ∨ isDegraded s.extraData ∨ Named shards) := by
  have status : (settleSecond s shards inventory now cancelled).status = _ :=
    status_settleSecond settled partitioned live
  have degraded : isDegraded (settleSecond s shards inventory now cancelled).extraData ↔ _ :=
    isDegraded_settleSecond live
  have derived : derivedStatus s shards inventory = _ := derivedStatus_of_settled settled partitioned
  rw [agrees_iff settled partitioned, correctedStatus_of_settled settled, status]
  · simp only [degraded]
    cases cancelled with
    | true => by_cases all : AllFailed shards <;> simp [all, apply_ite]
    | false =>
      by_cases required : s.extraData.copyRequiredFailed
      · by_cases all : AllFailed shards <;> by_cases kept : persistedCount inventory = 0 <;>
          by_cases loss : AnyLoss shards ∨ isDegraded s.extraData ∨ Named shards <;>
          simp [derived, required, all, kept, loss]
      · by_cases all : AllFailed shards
        · by_cases kept : catalogueFormat s.extraData ∧ persistedCount inventory ≠ 0 <;>
            simp [derived, required, all, kept]
        · by_cases loss : AnyLoss shards <;> by_cases reason : isDegraded s.extraData <;>
            simp [derived, required, all, loss, reason]
  · have terminal : derivedStatus s shards inventory ∈ _ :=
      derivedStatus_terminal settled partitioned
    rw [status]
    split_ifs
    · simp
    · simp
    · exact terminal

theorem disagrees_settle : disagrees (settle t shards items s) shards = false ↔
      ¬ (AllFailed shards ∧ ((∃ p ∈ shards, isLossy p) ∨ isDegraded s.extraData)) := by
  have status : (settle t shards items s).status = _ := settledStatus_of_settled settled partitioned
  have corrected : correctedStatus (settle t shards items s) shards = correctedStatus s shards := by
    rw [correctedStatus_of_settled settled, correctedStatus_of_settled settled]
    rfl
  rw [agrees_iff settled partitioned, corrected, status, correctedStatus_of_settled settled]
  · by_cases all : AllFailed shards <;>
      by_cases lost : (∃ p ∈ shards, isLossy p) ∨ isDegraded s.extraData
    · simp [all, lost]
    · simp [lost]
    · have loss : AnyLoss shards ∨ isDegraded s.extraData := lost.imp_left .inr
      simp [all, lost, loss]
    · simp [all, lost]
  · rw [status, correctedStatus_of_settled settled]
    split_ifs <;> simp

end

/-- When the first and the last commit of the worker's finalizer and that of the reconciler are such
that the integrity sweep leaves the snapshot alone. -/
theorem settlements_stand_iff (settled : Settled shards) (partitioned : shards ≠ [])
    (running : s.status = some .inProgress)
    (pending : s.extraData.mailCarryForwardPending = false) :
    (disagrees (settleFirst s shards inventory now true) shards = false ↔ if AllFailed shards then
        ¬ ((catalogueFormat s.extraData ∨ s.extraData.copyRequiredFailed) ∧ inventory ≠ [])
      else
        (s.extraData.copyRequiredFailed →
          inventory ≠ [] ∧ (AnyLoss shards ∨ isDegraded s.extraData)) ∧
        (isDegraded s.extraData → AnyLoss shards ∨ s.extraData.copyRequiredFailed ∨
          catalogueFormat s.extraData)) ∧
    (disagrees (finalizePartitionedSnapshot s shards inventory now true cancelled) shards = false ↔
      if cancelled then AllFailed shards
      else if AllFailed shards then
        ¬ ((catalogueFormat s.extraData ∨ s.extraData.copyRequiredFailed) ∧
          persistedCount inventory ≠ 0)
      else s.extraData.copyRequiredFailed → persistedCount inventory ≠ 0 ∧
        (AnyLoss shards ∨ isDegraded s.extraData ∨ Named shards)) ∧
    (disagrees (settle t shards items s) shards = false ↔
      ¬ (AllFailed shards ∧ ((∃ p ∈ shards, isLossy p) ∨ isDegraded s.extraData))) := by
  refine ⟨disagrees_settleFirst settled partitioned running pending, ?_,
    disagrees_settle settled partitioned⟩
  have live : firstStatus s shards inventory ≠ some .pendingDeletion := by
    rw [firstStatus_of_settled settled]
    split_ifs <;> simp
  rw [finalizePartitionedSnapshot, settleFirst_eq partitioned running pending]
  exact disagrees_settleSecond settled partitioned live

def failedChats : Snapshot where
  id := 1
  resourceId := 1
  extraData := { chatInventoryFormat := some "1" }

def degradedOrphan : Snapshot where
  id := 1
  resourceId := 1
  extraData := { degradedReason := some "folders failed" }

def failedShard : Partition where
  id := 1
  snapshotId := 1
  tenantId := 1
  status := .failed

theorem settlements_flipped :
    let finalized :=
      finalizePartitionedSnapshot failedChats [failedShard] [.teamsChatMessage] 5 true false
    let reaped := settle { now := 5 } [failedShard] [] degradedOrphan
    (finalized.status = some .partialRun ∧ disagrees finalized [failedShard] = true ∧
      (correct finalized [failedShard] []).status = some .failed) ∧
    reaped.status = some .partialRun ∧ disagrees reaped [failedShard] = true ∧
      (correct reaped [failedShard] []).status = some .failed := by
  decide +kernel

theorem settlements_stand_iff_completed :
    disagrees (finalizePartitionedSnapshot failedChats [{ failedShard with status := .completed }]
      [.teamsChatMessage] 5 true false) [{ failedShard with status := .completed }] = false := by
  have stands := @settlements_stand_iff failedChats [{ failedShard with status := .completed }]
    [.teamsChatMessage] { now := 5 } 5 false [] (by decide) (by decide) rfl rfl
  exact stands.2.1.mpr (by decide +kernel)

end TmVault.Reconciler
