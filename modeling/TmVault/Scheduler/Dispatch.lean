import Mathlib.Data.Rat.Floor
import TmVault.Work.Tables

namespace TmVault.Scheduler

open Relational Store Work List

inductive Trigger
  | scheduled | manual | autoRetry | preemptive
  deriving DecidableEq

structure Job where
  id : Uuid
  isBackup : Bool := true
  tenantId : Uuid
  status : JobStatus := .queued
  slaPolicyId : Option Uuid := none
  triggeredBy : Option Trigger := none
  createdAt : Time
  batchId : Option Uuid := none
  wave : Option Nat := none
  batchResourceIds : Option (List Uuid) := none
  resourceId : Option Uuid := none

structure Snapshot where
  (id jobId resourceId : Uuid)
  status : SnapshotStatus := .inProgress
  skippedConcurrent : Bool := false

structure Resource where
  id : Uuid
  type : ResourceType
  tenantId : Uuid
  slaPolicyId : Option Uuid
  status : ResourceStatus := .active
  lastBackupAt : Option Time := none
  licenseMissing : Bool := false

structure Policy where
  id : Uuid
  enabled : Bool := true
  maxConcurrent : Nat := 0
  enabledTypes : List ResourceType

structure Tables where
  resources : List Resource
  jobs : List Job := []
  snapshots : List Snapshot := []
  nextUuid : Uuid := 1000

section

variable (t : Tables)

def Job.members (j : Job) : List Uuid := j.batchResourceIds.getD [] ++ j.resourceId.toList

def inflightJobs (policyId : Option Uuid) : List Job :=
  t.jobs.filter fun j => j.isBackup && j.status ∈ [.queued, .running] &&
    policyId.all (j.slaPolicyId = some ·)

def liveSnapshot (jobId resourceId : Uuid) : Bool :=
  t.snapshots.any fun s => s.jobId = jobId && s.resourceId = resourceId &&
    s.status = .inProgress && !s.skippedConcurrent

def settledSnapshot (jobId resourceId : Uuid) : Bool :=
  t.snapshots.any fun s => s.jobId = jobId && s.resourceId = resourceId &&
    (s.status ∈ [.completed, .partialRun, .failed, .skipped] || s.skippedConcurrent)

def memberInFlight (j : Job) (resourceId : Uuid) : Bool :=
  j.status = .queued || liveSnapshot t j.id resourceId || !settledSnapshot t j.id resourceId

def inflightMembers (policyId : Option Uuid) : List Uuid :=
  (inflightJobs t policyId).flatMap fun j => j.members.filter (memberInFlight t j)

def inflightResourceIds : List Uuid := (inflightMembers t none).dedup

def inflightResourceCount (policyId : Uuid) : Nat := (inflightMembers t (some policyId)).dedup.length

end

inductive OverlapAction
  | dispatch | skip | override
  deriving DecidableEq

def scheduledInflight (t : Tables) (policyId : Uuid) : List Job :=
  (inflightJobs t (some policyId)).filter (·.triggeredBy = some .scheduled)

def decideOverlapAction (t : Tables) (policyId : Uuid) (now staleAfter : Time) (guardEnabled : Bool) :
    OverlapAction :=
  if !guardEnabled then .dispatch
  else
    match ((scheduledInflight t policyId).map (·.createdAt)).min? with
    | none => .dispatch
    | some oldest => if oldest + staleAfter < now then .override else .skip

def partitionOverlapHolds (resources : List Resource) (inflight : List Uuid) :
    List Resource × List Resource :=
  resources.partition fun r => r.id ∉ inflight

def backupPriorityKey (r : Resource) : Bool ×ₗ Time ×ₗ Uuid :=
  toLex (r.lastBackupAt.isSome, toLex (r.lastBackupAt.getD 0, r.id))

def inPriorityOrder (resources : List Resource) : List Resource :=
  resources.insertionSort fun a b => backupPriorityKey a ≤ backupPriorityKey b

def planConcurrencyBudget (resources : List Resource) (maxConcurrent inflight : Nat) :
    List Resource × List Resource :=
  if maxConcurrent = 0 then (resources, [])
  else
    let budget := maxConcurrent - inflight
    if resources.length ≤ budget then (resources, [])
    else (inPriorityOrder resources).splitAt budget

def planWave (remaining : List Resource) (budget maxConcurrent : Nat) (minFraction : ℚ) :
    List Resource :=
  if budget = 0 || remaining = [] then []
  else if remaining.length ≤ budget then remaining
  else
    let floor := max 1 ⌊(min remaining.length maxConcurrent : ℕ) * minFraction⌋₊
    if budget < floor then [] else remaining.take budget

structure Fire where
  (dispatched deferred held : List Resource)

def powerBi : ResourceType := .other "POWER_BI"

def dispatchable (t : Tables) (policy : Policy) : List Resource :=
  t.resources.filter fun r => r.slaPolicyId = some policy.id && r.status ∈ [.discovered, .active]

def overlapHold (t : Tables) (action : OverlapAction) (eligible : List Resource) :
    List Resource × List Resource :=
  if action = .skip then partitionOverlapHolds eligible (inflightResourceIds t) else (eligible, [])

/-- `_dispatch_policy_backups_impl` up to the dispatch. `modified` says which Power BI workspaces its
prefilter keeps. -/
def dispatchPolicyBackups (t : Tables) (policy : Policy) (now staleAfter : Time) (guardEnabled : Bool)
    (modified : Resource → Bool) : Option Fire :=
  if !policy.enabled then none
  else
    let action := decideOverlapAction t policy.id now staleAfter guardEnabled
    let eligible := ((dispatchable t policy).filter (·.type ∈ policy.enabledTypes)).filter
      (!·.licenseMissing)
    let (free, held) := overlapHold t action eligible
    let kept := free.filter fun r => r.type ≠ powerBi || modified r
    let (dispatched, deferred) := planConcurrencyBudget kept policy.maxConcurrent
      (inflightResourceCount t policy.id)
    if dispatched = [] then none else some ⟨dispatched, deferred, held⟩

section

variable (t : Tables) (policyId : Uuid) (since : Time)

def cycleJobs : List Job :=
  t.jobs.filter fun j => j.isBackup && j.slaPolicyId = some policyId &&
    j.triggeredBy = some .scheduled && since ≤ j.createdAt

def cycleDispatchedIds : List Uuid := (cycleJobs t policyId since).flatMap (·.batchResourceIds.getD [])

def cycleBatchId : Option Uuid :=
  (orderByFirst (fun a b => a.createdAt ≤ b.createdAt) (cycleJobs t policyId since)).bind (·.batchId)

def cycleMaxWave : Nat := ((cycleJobs t policyId since).filterMap (·.wave)).max?.getD 0

def drainCandidates (policy : Policy) : List Resource :=
  inPriorityOrder ((dispatchable t policy).filter fun r => r.type ∈ policy.enabledTypes &&
    r.type ≠ powerBi && !r.licenseMissing && r.id ∉ cycleDispatchedIds t policy.id since)

structure CycleWindow where
  (start finish : Time)

structure Plan where
  policyId : Uuid
  maxConcurrent : Nat
  (rows wave remaining held : List Resource)
  batchId : Option Uuid
  number : Nat

def cycleIsDrainable (window : CycleWindow) (now : Time) : Bool :=
  window.start + 300000000 ≤ now && now < window.finish

def isClosing (window : CycleWindow) (now tick : Time) : Bool := window.finish ≤ now + tick

def minWaveFraction (window : CycleWindow) (now tick : Time) : ℚ :=
  if isClosing window now tick then 0 else 1 / 5

/-- `drain_policy_cycle` up to the dispatch; `withinWindow` is `within_backup_window` and `tick` the
drain interval. -/
def drainPolicyCycle (policy : Policy) (window : CycleWindow) (withinWindow : Bool) (now tick : Time) :
    Option Plan :=
  if !policy.enabled || policy.maxConcurrent = 0 || !cycleIsDrainable window now || !withinWindow then none
  else
    let budget := policy.maxConcurrent - inflightResourceCount t policy.id
    if budget = 0 && !isClosing window now tick then none
    else
      let rows := drainCandidates t window.start policy
      let (candidates, held) := partitionOverlapHolds rows (inflightResourceIds t)
      let ordered := inPriorityOrder candidates
      let wave := planWave ordered budget policy.maxConcurrent (minWaveFraction window now tick)
      if wave = [] then none
      else
        let batchId := cycleBatchId t policy.id window.start
        let number := if batchId.isNone then 1 else max (cycleMaxWave t policy.id window.start) 1 + 1
        some ⟨policy.id, policy.maxConcurrent, rows, wave, ordered.drop wave.length, held, batchId, number⟩

end

section

variable {t : Tables} {policy : Policy} {now staleAfter tick : Time} {window : CycleWindow}
  {resources : List Resource} {r : Resource}

theorem decideOverlapAction_skip (draining : scheduledInflight t policy.id ≠ [])
    (fresh : ∀ j ∈ scheduledInflight t policy.id, now ≤ j.createdAt + staleAfter) :
    decideOverlapAction t policy.id now staleAfter true = .skip := by
  cases oldest : ((scheduledInflight t policy.id).map (·.createdAt)).min? with
  | none =>
    rw [List.min?_eq_none_iff, map_eq_nil_iff] at oldest
    exact absurd oldest draining
  | some time =>
    obtain ⟨j, hj, rfl⟩ := mem_map.mp (List.min?_mem oldest)
    simp [decideOverlapAction, oldest, (fresh j hj).not_gt]

@[simp] theorem mem_inPriorityOrder : r ∈ inPriorityOrder resources ↔ r ∈ resources := mem_insertionSort _

theorem planConcurrencyBudget_subset (h : r ∈ (planConcurrencyBudget resources maxConcurrent inflight).1) :
    r ∈ resources := by
  unfold planConcurrencyBudget at h
  split at h
  · exact h
  dsimp only at h
  split at h
  · exact h
  · rw [splitAt_eq] at h
    exact mem_inPriorityOrder.mp (mem_of_mem_take h)

theorem planWave_eq_take :
    let wave := planWave remaining budget maxConcurrent minFraction
    wave = remaining.take wave.length ∧ wave.length ≤ budget := by
  unfold planWave
  dsimp only
  split
  · exact ⟨rfl, Nat.zero_le _⟩
  split
  · exact ⟨take_length.symm, ‹_›⟩
  split
  · exact ⟨rfl, Nat.zero_le _⟩
  · rw [length_take]
    refine ⟨?_, min_le_left _ _⟩
    rw [← take_take, take_length]

theorem drainPolicyCycle_eq_some
    (h : drainPolicyCycle t policy window withinWindow now tick = some plan) :
    ∃ budget minFraction, budget = policy.maxConcurrent - inflightResourceCount t policy.id ∧
      plan.policyId = policy.id ∧ plan.maxConcurrent = policy.maxConcurrent ∧
      plan.rows = drainCandidates t window.start policy ∧
      plan.held = (partitionOverlapHolds plan.rows (inflightResourceIds t)).2 ∧
      plan.wave = planWave (inPriorityOrder (partitionOverlapHolds plan.rows (inflightResourceIds t)).1)
        budget policy.maxConcurrent minFraction ∧
      plan.wave ≠ [] ∧
      plan.remaining = (inPriorityOrder
        (partitionOverlapHolds plan.rows (inflightResourceIds t)).1).drop plan.wave.length ∧
      plan.batchId = cycleBatchId t policy.id window.start ∧
      plan.number = if plan.batchId.isNone then 1
        else max (cycleMaxWave t policy.id window.start) 1 + 1 := by
  unfold drainPolicyCycle at h
  split at h
  · cases h
  dsimp only at h
  split at h
  · cases h
  split at h
  · cases h
  rename_i nonempty
  cases h
  exact ⟨_, _, rfl, rfl, rfl, rfl, rfl, rfl, nonempty, rfl, rfl, rfl⟩

@[simp] theorem mem_partition_fst :
    r ∈ (partitionOverlapHolds resources inflight).1 ↔ r ∈ resources ∧ r.id ∉ inflight := by
  rw [partitionOverlapHolds, partition_eq_filter_filter]
  simp

/-- A drain wave, and a cron fire while a scheduled cycle of its policy is in flight and not stale,
leaves out every resource in flight under any job. -/
theorem dispatch_leaves_out_inflight {withinWindow : Bool} {modified : Resource → Bool} :
    (∀ plan, drainPolicyCycle t policy window withinWindow now tick = some plan →
      ∀ r ∈ plan.wave, r.id ∉ inflightResourceIds t) ∧
    (scheduledInflight t policy.id ≠ [] →
      (∀ j ∈ scheduledInflight t policy.id, now ≤ j.createdAt + staleAfter) →
      ∀ fire, dispatchPolicyBackups t policy now staleAfter true modified = some fire →
        ∀ r ∈ fire.dispatched, r.id ∉ inflightResourceIds t) := by
  constructor
  · intro plan h r hr
    obtain ⟨budget, minFraction, -, -, -, -, -, wave, -⟩ := drainPolicyCycle_eq_some h
    rw [wave, planWave_eq_take.1] at hr
    exact (mem_partition_fst.mp (mem_inPriorityOrder.mp (mem_of_mem_take hr))).2
  · intro draining fresh fire h r hr
    unfold dispatchPolicyBackups at h
    rw [decideOverlapAction_skip draining fresh] at h
    split at h
    · cases h
    dsimp only at h
    split at h
    · cases h
    · cases h
      have kept := mem_of_mem_filter (planConcurrencyBudget_subset hr)
      rw [overlapHold, if_pos rfl] at kept
      exact (mem_partition_fst.mp kept).2

end

def oneRunning (trigger : Trigger) : Tables where
  resources := [⟨1, .userMail, 7, some 5, .active, none, false⟩,
    ⟨2, .userMail, 7, some 5, .active, none, false⟩]
  jobs := [{
    id := 20, tenantId := 7, status := .running, slaPolicyId := some 5, triggeredBy := some trigger
    createdAt := 0, resourceId := some 1 }]
  snapshots := [{ id := 30, jobId := 20, resourceId := 1 }]

def mailPolicy : Policy := { id := 5, enabledTypes := [.userMail] }

theorem scheduledRun_held : ∃ fire,
    dispatchPolicyBackups (oneRunning .scheduled) mailPolicy 100 1000 true (fun _ => true) = some fire ∧
      fire.dispatched.map (·.id) = [2] ∧
      ∀ r ∈ fire.dispatched, r.id ∉ inflightResourceIds (oneRunning .scheduled) := by
  have fired : (dispatchPolicyBackups (oneRunning .scheduled) mailPolicy 100 1000 true fun _ => true).map
      (·.dispatched.map (·.id)) = some [2] := by decide +kernel
  obtain ⟨fire, hfire, ids⟩ := Option.map_eq_some_iff.mp fired
  have window : CycleWindow := ⟨0, 0⟩
  refine ⟨fire, hfire, ids, ?_⟩
  exact (@dispatch_leaves_out_inflight _ mailPolicy 100 1000 0 window true _).2 (by decide +kernel)
    (by decide +kernel) fire hfire

/-- No scheduled job is in flight, so the fire holds nothing back. -/
theorem manualRun_dispatched : inflightResourceIds (oneRunning .manual) = [1] ∧
    (dispatchPolicyBackups (oneRunning .manual) mailPolicy 100 1000 true fun _ => true).map
      (·.dispatched.map (·.id)) = some [1, 2] := by
  decide +kernel

end TmVault.Scheduler
