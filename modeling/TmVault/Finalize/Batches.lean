import TmVault.Work.Tables

/-! `_finalize_batch_if_complete`: a batch is closed from the snapshots its resources got since it
began, whichever run took them. -/

namespace TmVault.Batches

open Store List

/-- `dispatchable` says that the policy, if there is one, backs this type of resource up. -/
structure Resource where
  id : Uuid
  type : ResourceType
  parentResourceId : Option Uuid := none
  (archived licenseMissing : Bool := false)
  dispatchable : Bool := true

/-- A snapshot with the batch of its job, whether `pending_copy_sql` lets it pass, and whether a shard
of it is queued or in progress. -/
structure Snapshot where
  resourceId : Uuid
  createdAt : Time
  status : SnapshotStatus
  batchId : Option Uuid := none
  copyReady : Bool := true
  inflight : Bool := false
  deriving DecidableEq

inductive PendingState
  | waitingDiscovery | noContent | discoveryFailed | backupEnqueued
  deriving DecidableEq

/-- A row of `backup_batches`, with the resources its jobs were dispatched for. -/
structure Batch where
  id : Uuid
  createdAt : Time
  (scopeUserIds dispatched : List Uuid)
  pendingUsers : List (Uuid × PendingState) := []

structure Tables where
  resources : List Resource := []
  snapshots : List Snapshot := []
  copyPending : Bool := false
  archiveBackupEnabled : Bool := true

variable (w : Tables) (b : Batch)

def entraIds : List Uuid :=
  b.scopeUserIds.filter fun u =>
    w.resources.any fun r => r.id = u && r.type = .entraUser && !r.archived

def children (user : Uuid) : List Resource :=
  w.resources.filter fun r => r.parentResourceId = some user && !r.archived

def missingTier2 (user : Uuid) : Bool :=
  children w user = [] && (b.pendingUsers.lookup user).all (· = .waitingDiscovery)

def isDispatched (leaf : Uuid) : Bool := (w.resources.find? (·.id = leaf)).all (·.dispatchable)

def leafIds : List Uuid :=
  let tier2 := (entraIds w b).flatMap fun u => ((children w u).filter fun r =>
    !r.licenseMissing && (w.archiveBackupEnabled || r.type ≠ .userArchive)).map (·.id)
  let direct := b.scopeUserIds.filter (· ∉ entraIds w b)
  (entraIds w b ++ tier2 ++ direct).dedup.filter (isDispatched w)

def seen : List Snapshot :=
  w.snapshots.filter fun s => s.resourceId ∈ leafIds w b && b.createdAt < s.createdAt

def latest (leaf : Uuid) : Option Snapshot :=
  ((seen w b).filter (·.resourceId = leaf)).foldl (fun best s =>
    if best.all (·.createdAt ≤ s.createdAt) then some s else best) none

def isSettled (s : Snapshot) : Bool :=
  s.status ∈ [.completed, .partialRun, .failed, .skipped] && s.copyReady

def isLossy (s : Snapshot) : Bool := s.status ∈ [.partialRun, .failed]

inductive Outcome
  | completed | partialRun
  deriving DecidableEq

def outcomeOf (snapshots : List Snapshot) : Outcome :=
  if snapshots.any isLossy then .partialRun else .completed

/-- On a batch in progress; `none` leaves it so. -/
def finalizeBatchIfComplete : Option Outcome :=
  if w.copyPending then none
  else if b.scopeUserIds = [] then some .completed
  else if (entraIds w b).any (missingTier2 w b) then none
  else if leafIds w b = [] then none
  else if (leafIds w b).any fun leaf => !(latest w b leaf).any isSettled then none
  else if (seen w b).any (·.inflight) then none
  else some (outcomeOf (seen w b))

def runs : List Snapshot := w.snapshots.filter (·.batchId = some b.id)

/-- Every leaf has settled since the batch began, in its newest run, and the outcome is that of all
the runs since. -/
structure Closes (outcome : Outcome) : Prop where
  settled : ∀ r ∈ leafIds w b, ∃ s ∈ seen w b, s.resourceId = r ∧ isSettled s ∧
    ∀ other ∈ seen w b, other.resourceId = r → other.createdAt ≤ s.createdAt
  drained : ∀ s ∈ seen w b, s.inflight = false
  outcome_eq : outcome = outcomeOf (seen w b)

/-- Every resource the batch dispatched has settled in a run of this batch, and the outcome is that
of these runs. -/
def ClosesByOwnRuns (outcome : Outcome) : Prop :=
  (∀ r ∈ b.dispatched, ∃ s ∈ runs w b, s.resourceId = r ∧ isSettled s ∧ s.inflight = false) ∧
    outcome = outcomeOf (runs w b)

/-- Since the batch began its leaves were backed up by its own runs only, and what it dispatched is
still among them. -/
structure Alone : Prop where
  leaves : ∀ r ∈ b.dispatched, r ∈ leafIds w b
  own : runs w b = seen w b

variable {w b}

theorem latest_newest (h : latest w b leaf = some s) : s ∈ seen w b ∧ s.resourceId = leaf ∧
      ∀ other ∈ seen w b, other.resourceId = leaf → other.createdAt ≤ s.createdAt := by
  have kept (rows : List Snapshot) (best : Option Snapshot)
      (h : rows.foldl (fun best s =>
        if best.all (·.createdAt ≤ s.createdAt) then some s else best) best = some s) :
      (s ∈ rows ∨ best = some s) ∧ (∀ other ∈ rows, other.createdAt ≤ s.createdAt) ∧
        ∀ other ∈ best, other.createdAt ≤ s.createdAt := by
    induction rows generalizing best with
    | nil => exact ⟨.inr h, by simp, fun other mem => by simp_all⟩
    | cons row rows ih =>
      obtain ⟨from_, newer, best_le⟩ := ih _ h
      dsimp only at from_ best_le
      split at from_ <;> rename_i wins
      · rw [if_pos wins] at best_le
        have row_le := best_le row rfl
        refine ⟨.inl ?_, forall_mem_cons.mpr ⟨row_le, newer⟩, fun other mem => ?_⟩
        · rcases from_ with later | now
          · exact mem_cons_of_mem _ later
          · exact Option.some.inj now ▸ mem_cons_self
        · rw [Option.mem_def.mp mem] at wins
          exact Nat.le_trans (by simpa using wins) row_le
      · rw [if_neg wins] at best_le
        refine ⟨from_.imp (mem_cons_of_mem _) id, forall_mem_cons.mpr ⟨?_, newer⟩, best_le⟩
        cases best with
        | none => simp at wins
        | some top => exact Nat.le_trans (Nat.le_of_lt (by simpa using wins)) (best_le top rfl)
  obtain ⟨from_, newer, -⟩ := kept _ none h
  have mem := from_.resolve_right (by simp)
  simp only [mem_filter, decide_eq_true_eq] at mem newer
  exact ⟨mem.1, mem.2, fun other ho same => newer other ⟨ho, same⟩⟩

theorem closes_of_finalize (named : b.scopeUserIds ≠ [])
    (closed : finalizeBatchIfComplete w b = some outcome) : Closes w b outcome := by
  unfold finalizeBatchIfComplete at closed
  rw [if_neg named] at closed
  split at closed
  · cases closed
  split at closed
  · cases closed
  split at closed
  · cases closed
  split at closed
  · cases closed
  rename_i settled
  split at closed
  · cases closed
  rename_i inflight
  refine ⟨fun r hr => ?_, fun s mem => ?_, (Option.some.inj closed).symm⟩
  · cases found : latest w b r with
    | none => exact absurd (any_eq_true.mpr ⟨r, hr, by simp [found]⟩) settled
    | some s =>
      obtain ⟨mem, same, newest⟩ := latest_newest found
      refine ⟨s, mem, same, ?_, newest⟩
      by_contra open_
      exact settled (any_eq_true.mpr ⟨r, hr, by simpa [found] using open_⟩)
  · by_contra busy
    exact inflight (any_eq_true.mpr ⟨s, mem, by simpa using busy⟩)

theorem Closes.own (closes : Closes w b outcome) (alone : Alone w b) :
    ClosesByOwnRuns w b outcome := by
  rw [ClosesByOwnRuns, alone.own]
  refine ⟨fun r hr => ?_, closes.outcome_eq⟩
  obtain ⟨s, mem, same, settled, -⟩ := closes.settled r (alone.leaves r hr)
  exact ⟨s, mem, same, settled, closes.drained s mem⟩

theorem finalize_by_time {outcome : Outcome} (closed : finalizeBatchIfComplete w b = some outcome) :
    (b.scopeUserIds = [] ∧ outcome = .completed) ∨
      (Closes w b outcome ∧ (Alone w b → ClosesByOwnRuns w b outcome)) := by
  by_cases empty : b.scopeUserIds = []
  · refine .inl ⟨empty, ?_⟩
    unfold finalizeBatchIfComplete at closed
    rw [if_pos empty] at closed
    split at closed
    · cases closed
    · exact (Option.some.inj closed).symm
  · have closes := closes_of_finalize empty closed
    exact .inr ⟨closes, closes.own⟩

def site : Batch := { id := 1, createdAt := 10, scopeUserIds := [4], dispatched := [4] }

def siteTables (run : SnapshotStatus) : Tables where
  resources := [{ id := 4, type := .sharepointSite }]
  snapshots := [{ resourceId := 4, createdAt := 11, status := run, batchId := some 1 }]

def manualRun : Snapshot := { resourceId := 4, createdAt := 12, status := .completed }

theorem manualRun_closes_batch : finalizeBatchIfComplete { siteTables .inProgress with
      snapshots := (siteTables .inProgress).snapshots ++ [manualRun] } site = some .completed ∧
    ¬ ClosesByOwnRuns { siteTables .inProgress with
      snapshots := (siteTables .inProgress).snapshots ++ [manualRun] } site .completed := by
  refine ⟨by decide, fun honest => ?_⟩
  obtain ⟨s, own, -, settled, -⟩ := honest.1 4 (by decide)
  revert s
  decide

theorem ownRun_closes_batch :
    finalizeBatchIfComplete (siteTables .partialRun) site = some .partialRun ∧
      ClosesByOwnRuns (siteTables .partialRun) site .partialRun := by
  have closed : finalizeBatchIfComplete (siteTables .partialRun) site = some .partialRun := by decide
  rcases finalize_by_time closed with ⟨empty, -⟩ | ⟨-, own⟩
  · cases empty
  · exact ⟨closed, own ⟨by decide, by decide⟩⟩

open Work

/-- The counters of a batch's row, but for those on its jobs. -/
structure RollupCounts where
  (snapTotal snapDone snapPartial snapFailed snapPending partsPending missingT2 : Nat)
  (expectedTotal snapSkipped tier1Total tier1Terminal tier2Total tier2Terminal : Nat := 0)
  skippedNoLicense : Nat := 0
  (discoveryPending anyTier2Jobs : Bool := false)
  batchRecent : Bool := true

/-- A batch is a group of jobs, so it has one. `capture` has the bytes and the files captured and
expected of a single OneDrive whose shards report them. -/
structure BatchRow where
  jobs : List JobStatus
  nonempty : jobs ≠ []
  counts : RollupCounts
  capture : Option ((Nat × Nat) × Nat × Nat) := none

namespace BatchRow

variable (row : BatchRow)

def allJobsTerminal : Bool := row.jobs.all (· ∈ [.completed, .partialRun, .failed, .cancelled])

def anyCancelled : Bool := .cancelled ∈ row.jobs

def anyJobFailed : Bool := .failed ∈ row.jobs

def anyJobCompleted : Bool := row.jobs.any (· ∈ [.completed, .partialRun])

end BatchRow

inductive BatchStatus
  | inProgress | done | failed | canceled | expired
  deriving DecidableEq

inductive Warnings
  | counted (partialFailed : Option (Nat × Nat)) (skippedNoLicense : Option Nat)
  | noDataCaptured

def deriveBatchStatus (row : BatchRow) : BatchStatus × Option Warnings :=
  let r := row.counts
  let skipped := if 0 < r.skippedNoLicense then some r.skippedNoLicense else none
  if !row.allJobsTerminal || 0 < r.snapPending || 0 < r.partsPending ||
      (0 < r.missingT2 && r.batchRecent) || r.discoveryPending then (.inProgress, none)
  else
    let missingUnspawned := if r.anyTier2Jobs then 0 else r.missingT2
    if r.snapTotal = 0 then
      if skipped.isSome && !row.anyJobFailed && missingUnspawned = 0 then
        (.done, some (.counted none skipped))
      else if row.anyJobCompleted then (.done, none)
      else if row.anyCancelled then (.canceled, none)
      else (if row.anyJobFailed then .failed else .expired, none)
    else if 0 < r.snapSkipped && r.snapDone + r.snapPartial + r.snapFailed = 0 then
      (.done, some .noDataCaptured)
    else if r.snapDone + r.snapPartial = 0 then
      -- the arms of an empty batch that follow here were taken above
      (if row.anyCancelled then .canceled else .failed, none)
    else
      let mixed := 0 < r.snapPartial + r.snapFailed + missingUnspawned || row.anyCancelled
      (.done, if mixed || skipped.isSome then
        some (.counted (if mixed then some (r.snapPartial, r.snapFailed + missingUnspawned) else none)
          skipped)
      else none)

def share (terminal total : Nat) : ℚ := 1 ⊓ terminal / total

def progressPct (row : BatchRow) (status : BatchStatus) : Nat :=
  let r := row.counts
  let pct :=
    if status ∈ [.done, .failed, .canceled] then 100
    else if 0 < r.tier1Total && 0 < r.tier2Total then
      (10 * share r.tier1Terminal r.tier1Total + 90 * share r.tier2Terminal r.tier2Total).floor.toNat
    else if 0 < r.tier1Total then (100 * share r.tier1Terminal r.tier1Total).floor.toNat
    else if 0 < r.tier2Total then (100 * share r.tier2Terminal r.tier2Total).floor.toNat
    else
      -- dividing by no snapshots gives the 0 of the source
      100 ⊓ 100 * (r.snapDone + r.snapPartial + r.snapFailed) /
        if 0 < r.expectedTotal then r.expectedTotal else r.snapTotal
  if status = .inProgress then
    99 ⊓ match row.capture with
    | none => pct
    | some ((bytes, ofBytes), files, ofFiles) =>
      if 0 < ofBytes then 100 * bytes / ofBytes
      else if 0 < ofFiles then 100 * files / ofFiles else pct
  else pct

inductive Phase
  | inProgress | done

structure ActivityItem where
  status : BatchStatus
  warnings : Option Warnings
  phase : Phase
  progressPct : Nat
  cancellable : Bool

def shapeBatchRow (row : BatchRow) : ActivityItem :=
  let (status, warnings) := deriveBatchStatus row
  { status, warnings
    phase := if status ∈ [.done, .failed, .canceled] then .done else .inProgress
    progressPct := progressPct row status
    cancellable := !(row.allJobsTerminal || row.anyCancelled) }

variable {row : BatchRow}

/-- The jobs of a batch that ended are completed, failed or cancelled. -/
theorem BatchRow.failed_of_terminal (terminal : row.allJobsTerminal)
    (incomplete : row.anyJobCompleted = false) (live : row.anyCancelled = false) :
    row.anyJobFailed := by
  obtain ⟨job, hjob⟩ := exists_mem_of_ne_nil _ row.nonempty
  have ended := all_eq_true.mp terminal job hjob
  have other := any_eq_false.mp incomplete job hjob
  simp only [anyCancelled, anyJobFailed, decide_eq_false_iff_not, decide_eq_true_eq] at live ⊢
  simp only [mem_cons, not_mem_nil, or_false, decide_eq_true_eq] at ended other
  grind

theorem deriveBatchStatus_ne_expired : (deriveBatchStatus row).1 ≠ .expired := by
  have ended := @BatchRow.failed_of_terminal row
  grind [deriveBatchStatus]

theorem done_of_warnings (h : (deriveBatchStatus row).2.isSome) : (deriveBatchStatus row).1 = .done := by
  grind [deriveBatchStatus]

theorem progressPct_inProgress : progressPct row .inProgress ≤ 99 := inf_le_left

theorem batch_row_consistent (row : BatchRow) :
    let item := shapeBatchRow row
    (item.status ≠ .inProgress ↔ item.phase = .done) ∧
    (item.status ≠ .inProgress ↔ item.progressPct = 100) ∧
    (item.warnings.isSome → item.status ≠ .inProgress) := by
  have never := @deriveBatchStatus_ne_expired row
  have warned := @done_of_warnings row
  have started := @progressPct_inProgress row
  simp only [shapeBatchRow]
  cases status : (deriveBatchStatus row).1 with
  | inProgress => grind
  | expired => exact absurd status never
  | _ => simp [progressPct]

end TmVault.Batches
