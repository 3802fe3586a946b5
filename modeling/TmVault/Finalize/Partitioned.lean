import Mathlib.Algebra.BigOperators.Group.List.Basic
import TmVault.Work.Tables

namespace TmVault.Finalize

open Store Work List

def catalogueFormat (e : SnapshotExtra) : Bool := e.chatInventoryFormat = some "1"

def isDegraded (e : SnapshotExtra) : Bool := e.degradedReason.any (· ≠ "")

def isLossy (p : Partition) : Bool := p.failureState.filesFailed.any (0 < ·)

section

variable (shards : List Partition)

def terminalShards : Nat := shards.countP (·.status ∈ [.completed, .failed])

def completedShards : Nat := shards.countP (·.status = .completed)

def failedShards : Nat := shards.countP (·.status = .failed)

def lossyShards : Nat := shards.countP isLossy

def pendingShards : Nat := shards.countP (·.status ∈ [.queued, .inProgress])

def lostFiles : Int := (shards.map (·.failureState.filesFailed.getD 0)).sum

def enumIncomplete : Bool := shards.any (·.failureState.enumerationIncomplete)

def firstError : Option String := (shards.find? (·.status = .failed)).bind (·.failureState.message)

end

section

variable (s : Snapshot) (shards : List Partition) (inventory : List ItemType)

def firstStatus : Option SnapshotStatus :=
  if terminalShards shards < shards.length then s.status
  else if completedShards shards = 0 ∧ (catalogueFormat s.extraData ∨ s.extraData.copyRequiredFailed) ∧
      inventory ≠ [] then some .partialRun
  else if completedShards shards = 0 then some .failed
  else if 0 < failedShards shards ∨ 0 < lossyShards shards ∨ s.extraData.copyRequiredFailed ∨
      (catalogueFormat s.extraData ∧ isDegraded s.extraData) then
    if s.extraData.copyRequiredFailed ∧ inventory = [] then some .failed else some .partialRun
  else some .completed

def settleFirst (now : Time) (unguarded : Bool) : Snapshot :=
  if shards ≠ [] ∧ s.status = some .inProgress ∧ s.extraData.mailCarryForwardPending = false ∧
      unguarded then
    { s with
      status := firstStatus s shards inventory
      completedAt := if terminalShards shards = shards.length then some now else s.completedAt }
  else s

end

def joined : List String → String
  | [] => ""
  | [bit] => bit
  | bit :: bits => bit ++ "; " ++ joined bits

def lossBits (lost : Int) (lossy failed total : Nat) (incomplete : Bool) : List String :=
  (if 0 < lost then
    [toString lost ++ " file(s) failed to back up" ++
      (if 0 < lossy ∧ 0 < total then
        " across " ++ toString lossy ++ " of " ++ toString total ++ " shard(s)" else "")] else []) ++
  (if 0 < failed then
    [if 0 < total then toString failed ++ " of " ++ toString total ++ " shard(s) failed outright"
      else toString failed ++ " shard(s) failed outright"] else []) ++
  (if incomplete then ["enumeration incomplete — some containers were never listed"] else [])

def partitionLossDegradedReason (lost : Int) (lossy failed total : Nat) (incomplete : Bool)
    (firstError : Option String) : Option String :=
  let bits := lossBits lost lossy failed total incomplete
  if bits = [] then none
  else
    let first := if 0 < failed then (firstError.filter (· ≠ "")).toList else []
    some (joined (bits ++ first.map fun error => "first: " ++ String.ofList (error.toList.take 300)))

section

variable (s : Snapshot) (shards : List Partition) (inventory : List ItemType)

def childItemTypes : List ItemType := [.chatAttachment, .emailAttachment, .chatHostedContent]

def persistedCount : Nat := inventory.countP (· ∉ childItemTypes)

def derivedStatus : Option SnapshotStatus :=
  if shards ≠ [] ∧ pendingShards shards = 0 then
    if s.extraData.copyRequiredFailed then
      if persistedCount inventory ≠ 0 then some .partialRun else some .failed
    else if failedShards shards = shards.length ∧ catalogueFormat s.extraData ∧
        persistedCount inventory ≠ 0 then some .partialRun
    else if failedShards shards = shards.length then some .failed
    else if 0 < failedShards shards ∨ 0 < lossyShards shards then some .partialRun
    else some .completed
  else none

def degradedReason : Option String :=
  if isDegraded s.extraData then s.extraData.degradedReason
  else if derivedStatus s shards inventory ∈ [some .partialRun, some .failed] then
    partitionLossDegradedReason (lostFiles shards) (lossyShards shards) (failedShards shards)
      shards.length (enumIncomplete shards) (firstError shards)
  else none

def settleSecond (now : Time) (cancelled : Bool) : Snapshot :=
  if s.status = some .pendingDeletion then s
  else
    let reason := degradedReason s shards inventory
    let status := (derivedStatus s shards inventory).or s.status
    let degraded := if reason.isSome ∧ status = some .completed then some .partialRun else status
    let coerced := cancelled && degraded ∈ [some .completed, some .partialRun]
    { s with
      itemCount := some (persistedCount inventory)
      status := if coerced then some .failed else degraded
      completedAt := s.completedAt.or (some now), extraData := { s.extraData with
        degradedReason := reason.or s.extraData.degradedReason, partitionReconciled := true
        failureReason := reason.or s.extraData.failureReason
        finalizeCancelled := coerced || s.extraData.finalizeCancelled } }

end

def finalizePartitionedSnapshot (s : Snapshot) (shards : List Partition) (inventory : List ItemType)
    (now : Time) (unguarded cancelled : Bool) : Snapshot :=
  settleSecond (settleFirst s shards inventory now unguarded) shards inventory now cancelled

section

variable {shards : List Partition}

section

theorem joined_ne_empty (h : bit ≠ "") : joined (bit :: bits) ≠ "" := by
  cases bits <;> simp [joined, h]

variable {lossy failed total : Nat} {incomplete : Bool} {lost : Int}

theorem lossBits_ne_empty (h : bit ∈ lossBits lost lossy failed total incomplete) : bit ≠ "" := by
  simp only [lossBits, mem_append] at h
  obtain (h | h) | h := h
  · split at h
    · simp [mem_singleton.mp h]
    · exact absurd h not_mem_nil
  · split at h
    · rw [mem_singleton.mp h]
      split <;> simp
    · exact absurd h not_mem_nil
  · split at h
    · simp [mem_singleton.mp h]
    · exact absurd h not_mem_nil

theorem lossBits_eq_nil :
    lossBits lost lossy failed total incomplete = [] ↔ ¬ (0 < lost ∨ 0 < failed ∨ incomplete) := by
  simp only [lossBits, append_eq_nil_iff]
  split <;> split <;> split <;> simp_all

theorem partitionLossDegradedReason_spec :
    (∀ reason ∈ partitionLossDegradedReason lost lossy failed total incomplete error, reason ≠ "") ∧
      ((partitionLossDegradedReason lost lossy failed total incomplete error).isSome ↔
        0 < lost ∨ 0 < failed ∨ incomplete) := by
  unfold partitionLossDegradedReason
  cases bits : lossBits lost lossy failed total incomplete with
  | nil => simpa using lossBits_eq_nil.mp bits
  | cons bit bits' =>
    have said : bit ≠ "" := lossBits_ne_empty (by rw [bits]; exact mem_cons_self)
    have loss : 0 < lost ∨ 0 < failed ∨ incomplete :=
      not_not.mp fun none => by simp [lossBits_eq_nil.mpr none] at bits
    simpa [loss] using joined_ne_empty said

def Settled (shards : List Partition) : Prop := ∀ p ∈ shards, p.status ∈ [.completed, .failed]

instance : Decidable (Settled shards) := inferInstanceAs (Decidable (∀ p ∈ shards, _))

variable (settled : Settled shards)
include settled

theorem terminalShards_of_settled : terminalShards shards = shards.length :=
  countP_eq_length.mpr fun p hp => decide_eq_true (settled p hp)

theorem pendingShards_of_settled : pendingShards shards = 0 :=
  countP_eq_zero.mpr fun p hp => by
    have := settled p hp
    simp only [mem_cons, not_mem_nil, or_false, decide_eq_true_eq] at this ⊢
    rcases this with h | h <;> simp [h]

theorem completedShards_eq_zero : completedShards shards = 0 ↔ ∀ p ∈ shards, p.status = .failed := by
  rw [completedShards, countP_eq_zero]
  refine forall₂_congr fun p hp => ?_
  have := settled p hp
  simp only [mem_cons, not_mem_nil, or_false] at this
  rcases this with h | h <;> simp [h]

end

theorem failedShards_eq_length :
    failedShards shards = shards.length ↔ ∀ p ∈ shards, p.status = .failed := by
  simp [failedShards, countP_eq_length]

theorem failedShards_pos : 0 < failedShards shards ↔ ∃ p ∈ shards, p.status = .failed := by
  simp [failedShards, countP_pos_iff]

theorem lossyShards_pos : 0 < lossyShards shards ↔ ∃ p ∈ shards, isLossy p := by
  simp [lossyShards, countP_pos_iff]

end

open Relational

def isSettled (s : JobStatus) : Bool :=
  s ∈ [.completed, .partialRun, .failed, .cancelled, .cancelling]

def isTerminal (s : Snapshot) : Bool :=
  s.status ∈ [some .completed, some .failed, some .partialRun, some .skipped]

section

variable (w : World) (j : Job)

def batch : List Uuid := j.batchResourceIds.getD []

def expected : Nat := (batch j).length

def children : List Snapshot := w.db.snapshots.filter (·.jobId = some j.id)

def terminal : Nat := (children w j).countP isTerminal

def failed : Nat := (children w j).countP (·.status = some .failed)

def completed : Nat := (children w j).countP (·.status ∈ [some .completed, some .skipped])

def partials : Nat := (children w j).countP (·.status = some .partialRun)

def usable : List Snapshot :=
  (children w j).filter (·.status ∈ [some .completed, some .partialRun])

def items : Int := ((usable w j).map (·.itemCount.getD 0)).sum

def bytes : Int := ((usable w j).map (·.bytesAdded.getD 0)).sum

def partsPending : Nat :=
  w.partitions.countP fun p => p.jobId = j.id && p.status ∉ [.completed, .failed]

def covers (rid : Uuid) (s : Snapshot) : Bool :=
  s.resourceId = rid &&
    (s.jobId = some j.id || s.createdAt.any fun taken => j.createdAt.any (· ≤ taken))

def missing : List Uuid :=
  ((batch j).filter fun rid => !w.db.snapshots.any (covers j rid)).mergeSort (· ≤ ·)

end

section

variable (w : World) (now : Time) (j : Job)

def flippedStatus : JobStatus :=
  if isSettled j.status then j.status
  else if terminal w j < expected j then j.status
  else if 0 < partsPending w j then j.status
  else if completed w j = 0 ∧ partials w j = 0 then .failed
  else if 0 < partials w j ∨ 0 < failed w j ∨ missing w j ≠ [] then .partialRun
  else .completed

def flippedCompletedAt : Option Time :=
  if j.completedAt.isSome then j.completedAt
  else if terminal w j = expected j ∧ partsPending w j = 0 then some now
  else j.completedAt

def flippedProgress : Option Nat :=
  if isSettled j.status then some (j.progressPct.getD 100)
  else some (max (j.progressPct.getD 0) (min 99 (100 * terminal w j / expected j)))

def flippedResult : JobResult :=
  let refreshed : JobResult :=
    { j.result with
      snapshotsTotal := some (expected j), snapshotsCompleted := some (completed w j)
      snapshotsFailed := some (failed w j), snapshotsPartial := some (partials w j)
      itemsProcessed := some (items w j), bytesProcessed := some (bytes w j)
      partitionsPending := some (partsPending w j) }
  if expected j ≤ terminal w j ∧ partsPending w j = 0 ∧ missing w j ≠ [] then
    { refreshed with
      snapshotsFailed := some (failed w j + (missing w j).length)
      snapshotsMissing := some (missing w j).length
      missingResourceIds := some ((missing w j).take 50) }
  else refreshed

def flipped : Job :=
  { j with
    status := flippedStatus w j, completedAt := flippedCompletedAt w now j
    progressPct := flippedProgress w j, itemsProcessed := some (items w j)
    bytesProcessed := some (bytes w j), result := flippedResult w j }

/-- What the copy guards answer for the job: `has_pending_copy`, `verify_copy_resume` and the
`pending_copy_sql` in the statement. -/
structure Gates where
  hasPendingCopy : Bool := false
  (verifyCopyResume pendingCopySql : Bool := true)

def Gates.isOpen (g : Gates) : Bool := !g.hasPendingCopy && g.verifyCopyResume && g.pendingCopySql

def finalizeBulkParentIfComplete (g : Gates) (jobId : Uuid) : World × Option JobStatus :=
  match w.jobs.find? (·.id = jobId) with
  | none => (w, none)
  | some j =>
    if g.isOpen && 0 < expected j then
      ({ w with jobs := updateKey Job.id jobId (flipped w now) w.jobs },
        if !isSettled j.status && flippedStatus w j ∈ [.completed, .partialRun, .failed] &&
            expected j ≤ terminal w j && partsPending w j = 0 then some (flippedStatus w j)
        else none)
    else (w, none)

end

variable {w : World} {now : Time} {j : Job} {jobId : Uuid} {g : Gates}

def Covered (w : World) (j : Job) : Prop :=
  ∀ rid ∈ batch j, ∃ s ∈ children w j, s.resourceId = rid ∧ isTerminal s

def Quiescent (w : World) (j : Job) : Prop := ∀ s ∈ children w j, s.status ≠ some .inProgress

instance : Decidable (Quiescent w j) :=
  inferInstanceAs (Decidable (∀ s ∈ children w j, _))

def Closes (w : World) (g : Gates) (j : Job) : Prop :=
  g.isOpen ∧ 0 < expected j ∧ isSettled j.status = false ∧ expected j ≤ terminal w j ∧
    partsPending w j = 0

def MadeTerminal (w w' : World) (jobId : Uuid) : Prop :=
  ∃ j j', w.jobs.find? (·.id = jobId) = some j ∧ w'.jobs.find? (·.id = jobId) = some j' ∧
    isSettled j.status = false ∧ isSettled j'.status = true

def Honest (w w' : World) (jobId : Uuid) : Prop :=
  ∀ j j', w.jobs.find? (·.id = jobId) = some j → w'.jobs.find? (·.id = jobId) = some j' →
    Covered w j ∧ Quiescent w j ∧ j'.completedAt.isSome

theorem flippedStatus_isSettled (h : isSettled j.status = false) :
    isSettled (flippedStatus w j) = true ↔
      expected j ≤ terminal w j ∧ partsPending w j = 0 := by
  unfold flippedStatus
  rw [if_neg (by simp [h])]
  by_cases short : terminal w j < expected j
  · simp [short, h, Nat.not_le.mpr short]
  by_cases pending : 0 < partsPending w j
  · simp [short, pending, h, Nat.ne_of_gt pending]
  have settled : ∀ a b : Prop, [Decidable a] → [Decidable b] →
      isSettled (if a then .failed else if b then .partialRun else .completed) = true := by
    intro a b _ _
    split
    · rfl
    · split <;> rfl
  simp only [if_neg short, if_neg pending, settled, true_iff]
  exact ⟨Nat.not_lt.mp short, Nat.eq_zero_of_not_pos pending⟩

theorem flippedCompletedAt_isSome (now : Time) (drained : partsPending w j = 0) :
    (flippedCompletedAt w now j).isSome ↔ j.completedAt.isSome ∨ terminal w j = expected j := by
  unfold flippedCompletedAt
  by_cases set : j.completedAt.isSome
  · simp [set]
  · by_cases all : terminal w j = expected j
    · simp [set, all, drained]
    · simp [set, all]

theorem jobs_finalized (now : Time) (g : Gates) (hj : w.jobs.find? (·.id = jobId) = some j) :
    (finalizeBulkParentIfComplete w now g jobId).1.jobs.find? (·.id = jobId) =
      some (if g.isOpen ∧ 0 < expected j then flipped w now j else j) := by
  unfold finalizeBulkParentIfComplete
  rw [hj]
  by_cases h : g.isOpen ∧ 0 < expected j
  · simp only [h, decide_true, Bool.and_self, if_true]
    exact find?_updateKey_self (fun _ _ => rfl) hj
  · have closed : (g.isOpen && decide (0 < expected j)) = false := by simpa using h
    simp only [closed, if_neg h]
    exact hj

theorem madeTerminal_iff (hj : w.jobs.find? (·.id = jobId) = some j) :
    MadeTerminal w (finalizeBulkParentIfComplete w now g jobId).1 jobId ↔ Closes w g j := by
  have found := jobs_finalized now g hj
  unfold MadeTerminal Closes
  simp only [hj, found, Option.some.injEq]
  constructor
  · rintro ⟨_, _, rfl, rfl, live, settled⟩
    split at settled
    case isTrue h => exact ⟨h.1, h.2, live, (flippedStatus_isSettled live).mp settled⟩
    case isFalse => exact absurd settled (by simp [live])
  · rintro ⟨gate, some, live, due⟩
    refine ⟨j, _, rfl, rfl, live, ?_⟩
    rw [if_pos ⟨gate, some⟩]
    exact (flippedStatus_isSettled live).mpr due

theorem covered_of_one_row_each (distinct : ((children w j).map Snapshot.resourceId).Nodup)
    (within : ∀ s ∈ children w j, s.resourceId ∈ batch j) (due : expected j ≤ terminal w j) :
    Covered w j ∧ Quiescent w j ∧ terminal w j = expected j := by
  have subperm : ((children w j).map Snapshot.resourceId).Subperm (batch j) := by
    refine subperm_of_subset distinct fun rid hrid => ?_
    obtain ⟨s, hs, rfl⟩ := mem_map.mp hrid
    exact within s hs
  have rows_le : (children w j).length ≤ expected j := by
    simpa [expected] using subperm.length_le
  have terminal_le : terminal w j ≤ (children w j).length := countP_le_length
  have all : ∀ s ∈ children w j, isTerminal s = true :=
    countP_eq_length.mp (le_antisymm terminal_le (rows_le.trans due))
  refine ⟨fun rid hrid => ?_, fun s hs running => ?_, by omega⟩
  · have perm := subperm.perm_of_length_le (by simpa [expected] using due.trans terminal_le)
    obtain ⟨s, hs, rfl⟩ := mem_map.mp (perm.mem_iff.mpr hrid)
    exact ⟨s, hs, rfl, all s hs⟩
  · have := all s hs
    simp [isTerminal, running] at this

/-- A bulk job is made terminal with its children settled and its completion time set exactly in the
states that have these before; one child row for each resource is enough. -/
theorem bulk_finalize_honest_iff (hj : w.jobs.find? (·.id = jobId) = some j) :
    ((MadeTerminal w (finalizeBulkParentIfComplete w now g jobId).1 jobId →
        Honest w (finalizeBulkParentIfComplete w now g jobId).1 jobId) ↔
      (Closes w g j →
        Covered w j ∧ Quiescent w j ∧ (j.completedAt.isSome ∨ terminal w j = expected j))) ∧
    (((children w j).map Snapshot.resourceId).Nodup → (∀ s ∈ children w j, s.resourceId ∈ batch j) →
      MadeTerminal w (finalizeBulkParentIfComplete w now g jobId).1 jobId →
      Honest w (finalizeBulkParentIfComplete w now g jobId).1 jobId) := by
  have found := jobs_finalized now g hj
  have honest_iff (closes : Closes w g j) :
      Honest w (finalizeBulkParentIfComplete w now g jobId).1 jobId ↔
        Covered w j ∧ Quiescent w j ∧ (j.completedAt.isSome ∨ terminal w j = expected j) := by
    rw [if_pos ⟨closes.1, closes.2.1⟩] at found
    have stamped := flippedCompletedAt_isSome now closes.2.2.2.2
    constructor
    · intro honest
      obtain ⟨covered, quiescent, set⟩ := honest _ _ hj found
      exact ⟨covered, quiescent, stamped.mp set⟩
    · rintro ⟨covered, quiescent, set⟩ _ _ hj₀ hj'
      obtain rfl := Option.mem_unique hj hj₀
      obtain rfl := Option.mem_unique found hj'
      exact ⟨covered, quiescent, stamped.mpr set⟩
  rw [madeTerminal_iff hj]
  refine ⟨forall_congr' honest_iff, fun distinct within closes => (honest_iff closes).mpr ?_⟩
  obtain ⟨covered, quiescent, all⟩ := covered_of_one_row_each distinct within closes.2.2.2.1
  exact ⟨covered, quiescent, .inr all⟩

/-- A bulk job of two resources; a row is a snapshot's id, its resource and its status. -/
def pairJob (rows : List (Uuid × Uuid × SnapshotStatus)) : World where
  jobs := [{ id := 1, tenantId := 1, status := .running, batchResourceIds := some [10, 11] }]
  db := { snapshots := rows.map fun (id, resourceId, status) =>
    { id, resourceId, jobId := some 1, status := some status } }

def masked : World := pairJob [(1, 10, .completed), (2, 10, .failed), (3, 11, .inProgress)]

def surplus : World := pairJob [(1, 10, .completed), (2, 10, .failed), (3, 11, .completed)]

theorem bulk_finalize_masks_running :
    (MadeTerminal masked (finalizeBulkParentIfComplete masked 5 {} 1).1 1 ∧
      ¬ Honest masked (finalizeBulkParentIfComplete masked 5 {} 1).1 1) ∧
    MadeTerminal surplus (finalizeBulkParentIfComplete surplus 5 {} 1).1 1 ∧
      ¬ Honest surplus (finalizeBulkParentIfComplete surplus 5 {} 1).1 1 := by
  refine ⟨⟨⟨_, _, rfl, rfl, by decide, by decide +kernel⟩, fun honest => ?_⟩,
    ⟨_, _, rfl, rfl, by decide, by decide +kernel⟩, fun honest => ?_⟩
  · exact absurd (honest _ _ rfl rfl).2.1 (by decide +kernel)
  · exact absurd (honest _ _ rfl rfl).2.2 (by decide +kernel)

def settledPair : World := pairJob [(1, 10, .completed), (2, 11, .failed)]

theorem bulk_finalize_honest_iff_settledPair :
    MadeTerminal settledPair (finalizeBulkParentIfComplete settledPair 5 {} 1).1 1 ∧
      Honest settledPair (finalizeBulkParentIfComplete settledPair 5 {} 1).1 1 := by
  have made : MadeTerminal settledPair (finalizeBulkParentIfComplete settledPair 5 {} 1).1 1 :=
    ⟨_, _, rfl, rfl, by decide, by decide +kernel⟩
  exact ⟨made, (bulk_finalize_honest_iff rfl).2 (by decide +kernel) (by decide +kernel) made⟩

end TmVault.Finalize
