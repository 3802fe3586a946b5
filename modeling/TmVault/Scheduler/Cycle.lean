import TmVault.Concurrency.Runs
import TmVault.Scheduler.Dispatch

namespace TmVault.Scheduler

open Relational Concurrency Store Work List

def batches (size : Nat) : Nat → List Resource → List (List Resource)
  | 0, _ => []
  | fuel + 1, resources =>
    if resources = [] then [] else resources.take size :: batches size fuel (resources.drop size)

def groups (resources : List Resource) : List (List Resource) :=
  (resources.map fun r => (r.type, r.tenantId)).reverse.dedup.reverse.map fun key =>
    resources.filter fun r => (r.type, r.tenantId) = key

def jobBatches (resources : List Resource) : List (List Resource) :=
  (groups resources).flatMap fun group => batches 1000 group.length group

def jobRows (policyId : Uuid) (batchId : Uuid) (wave : Nat) (now : Time) :
    Uuid → List (List Resource) → List Job
  | _, [] => []
  | next, batch :: rest =>
    { id := next
      tenantId := (batch.head?.map (·.tenantId)).getD 0, slaPolicyId := some policyId
      triggeredBy := some .scheduled, createdAt := now, batchId := some batchId, wave := some wave
      batchResourceIds := some (batch.map (·.id)) } ::
      jobRows policyId batchId wave now (next + 1) rest

def dispatchResources (t : Tables) (policyId : Uuid) (batchId : Option Uuid) (wave : Nat) (now : Time)
    (resources : List Resource) : Tables :=
  let rows := jobRows policyId (batchId.getD t.nextUuid) wave now (t.nextUuid + 1) (jobBatches resources)
  { t with jobs := t.jobs ++ rows, nextUuid := t.nextUuid + 1 + rows.length }

section

structure Cycle where
  tables : Tables
  plan : Option Plan := none

inductive Event
  | fire (policy : Policy) (now staleAfter : Time) (guardEnabled : Bool) (modified : Resource → Bool)
  | tick (policy : Policy) (withinWindow : Bool) (now tick : Time)
  | dispatch (now : Time)
  | runJob (id : Uuid)
  | endJob (id : Uuid) (status : JobStatus)
  | startSnapshot (snapshot : Snapshot)
  | endSnapshot (id : Uuid) (status : SnapshotStatus)

variable (policyId : Uuid) (window : CycleWindow)

def Cycle.step (c : Cycle) : Event → Cycle
  | .fire policy now staleAfter guardEnabled modified =>
    match dispatchPolicyBackups c.tables policy now staleAfter guardEnabled modified with
    | none => c
    | some fire => { c with tables := dispatchResources c.tables policy.id none 1 now fire.dispatched }
  | .tick policy withinWindow now tick =>
    if c.plan.isSome then c
    else { c with plan := drainPolicyCycle c.tables policy window withinWindow now tick }
  | .dispatch now =>
    match c.plan with
    | none => c
    | some plan => ⟨dispatchResources c.tables plan.policyId plan.batchId plan.number now plan.wave, none⟩
  | .runJob id => { c with tables := { c.tables with
      jobs := updateKey (·.id) id (fun j => { j with status := .running }) c.tables.jobs } }
  | .endJob id status => { c with tables := { c.tables with
      jobs := updateKey (·.id) id (fun j => { j with status }) c.tables.jobs } }
  | .startSnapshot snapshot => { c with tables := { c.tables with
      snapshots := c.tables.snapshots ++ [snapshot] } }
  | .endSnapshot id status => { c with tables := { c.tables with
      snapshots := updateKey (·.id) id (fun s => { s with status }) c.tables.snapshots } }

/-- The cron fires first, ticks are of one policy and one cycle, and jobs and snapshots move towards
their end: a queued job runs, a job ends, a member gets its snapshot, a snapshot ends. A member with a
snapshot is tried again only while no wave is decided. -/
def Cycle.allows (c : Cycle) : Event → Bool
  | .fire policy now _ _ _ => policy.id = policyId && window.start ≤ now && c.plan.isNone &&
      (cycleJobs c.tables policyId window.start).isEmpty
  | .tick policy _ _ _ => policy.id = policyId
  | .dispatch now => window.start ≤ now
  | .runJob id => c.tables.jobs.all fun j => j.id ≠ id || j.status ∈ [.queued, .running]
  | .endJob _ status => status ∉ [.queued, .running]
  | .startSnapshot s => c.plan.isNone || !settledSnapshot c.tables s.jobId s.resourceId
  | .endSnapshot _ status => status ∈ [.completed, .partialRun, .failed, .skipped]

end

section

variable {t : Tables} {policyId batchId next : Uuid} {wave : Nat} {now since : Time}
  {resources : List Resource}

theorem batches_flatten (positive : 0 < size)
    (enough : resources.length ≤ fuel) : (batches size fuel resources).flatten = resources := by
  induction fuel generalizing resources with
  | zero =>
    cases length_eq_zero_iff.mp (Nat.le_zero.mp enough)
    rfl
  | succ fuel ih =>
    unfold batches
    split
    · rename_i empty
      rw [empty]
      rfl
    · rename_i nonempty
      have shorter : (resources.drop size).length ≤ fuel := by
        have := length_pos_iff.mpr nonempty
        rw [length_drop]
        omega
      rw [flatten_cons, ih shorter, take_append_drop]

theorem groups_flatten (resources : List Resource) : (groups resources).flatten.Perm resources := by
  have split (keys : List (ResourceType × Uuid)) (nodup : keys.Nodup) (resources : List Resource)
      (named : ∀ r ∈ resources, (r.type, r.tenantId) ∈ keys) :
      (keys.map fun key => resources.filter fun r => (r.type, r.tenantId) = key).flatten.Perm resources := by
    induction keys generalizing resources with
    | nil =>
      have empty : resources = [] := eq_nil_iff_forall_not_mem.mpr fun r hr =>
        not_mem_nil (named r hr)
      rw [empty]
      exact .refl _
    | cons key keys ih =>
      rw [nodup_cons] at nodup
      -- the other groups are those of the resources without this key
      have rest : (keys.map fun k => resources.filter fun r => (r.type, r.tenantId) = k) =
          keys.map fun k => (resources.filter fun r => !decide ((r.type, r.tenantId) = key)).filter
            fun r => (r.type, r.tenantId) = k := by
        refine map_congr_left fun k hk => ?_
        rw [filter_filter]
        refine filter_congr fun r _ => ?_
        have other : k ≠ key := fun same => nodup.1 (same ▸ hk)
        by_cases same : (r.type, r.tenantId) = k
        · simp [same, other]
        · simp [same]
      rw [map_cons, flatten_cons, rest]
      refine (List.Perm.append_left _ (ih nodup.2 _ fun r hr => ?_)).trans
        (filter_append_perm _ resources)
      obtain ⟨hr, other⟩ := mem_filter.mp hr
      rcases mem_cons.mp (named r hr) with same | mem
      · simp [same] at other
      · exact mem
  refine split _ (nodup_reverse.mpr (nodup_dedup _)) resources fun r hr => ?_
  simp only [mem_reverse, mem_dedup]
  exact mem_map_of_mem hr

theorem jobBatches_flatten (resources : List Resource) :
    (jobBatches resources).flatten.Perm resources := by
  have each : (jobBatches resources).flatten = (groups resources).flatten := by
    rw [jobBatches, flatMap_def, flatten_flatten, map_map]
    congr 1
    refine (map_congr_left fun group _ => ?_).trans (map_id _)
    exact batches_flatten (by decide) le_rfl
  rw [each]
  exact groups_flatten resources

theorem mem_jobRows {batches : List (List Resource)} {j : Job}
    (h : j ∈ jobRows policyId batchId wave now next batches) :
    j.isBackup = true ∧ j.status = .queued ∧ j.slaPolicyId = some policyId ∧
      j.triggeredBy = some .scheduled ∧ j.createdAt = now ∧ j.batchId = some batchId ∧
      j.wave = some wave ∧ j.resourceId = none := by
  induction batches generalizing next with
  | nil => cases h
  | cons batch rest ih =>
    rcases mem_cons.mp h with rfl | h
    · exact ⟨rfl, rfl, rfl, rfl, rfl, rfl, rfl, rfl⟩
    · exact ih h

theorem jobRows_ids (batches : List (List Resource)) :
    (jobRows policyId batchId wave now next batches).flatMap (·.batchResourceIds.getD []) =
      batches.flatten.map (·.id) := by
  induction batches generalizing next with
  | nil => rfl
  | cons batch rest ih =>
    rw [jobRows, flatMap_cons, ih, flatten_cons, map_append]
    rfl

theorem cycleJobs_dispatchResources {batchId : Option Uuid} (later : since ≤ now) : ∃ rows,
    cycleJobs (dispatchResources t policyId batchId wave now resources) policyId since =
      cycleJobs t policyId since ++ rows ∧
    (∀ j ∈ rows, j.wave = some wave ∧ j.batchId.isSome) ∧
    (rows.flatMap (·.batchResourceIds.getD [])).Perm (resources.map (·.id)) := by
  refine ⟨jobRows policyId (batchId.getD t.nextUuid) wave now (t.nextUuid + 1) (jobBatches resources),
    ?_, ?_, ?_⟩
  · rw [cycleJobs, dispatchResources, filter_append, cycleJobs]
    congr 1
    refine filter_eq_self.mpr fun j hj => ?_
    obtain ⟨isBackup, -, policy, trigger, created, -⟩ := mem_jobRows hj
    simp [isBackup, policy, trigger, created, later]
  · intro j hj
    obtain ⟨-, -, -, -, -, batch, number, -⟩ := mem_jobRows hj
    exact ⟨number, by simp [batch]⟩
  · rw [jobRows_ids]
    exact (jobBatches_flatten resources).map _

end

section

variable {t t' : Tables} {policyId r : Uuid} {scope : Option Uuid}

theorem mem_inflightMembers : r ∈ inflightMembers t scope ↔ ∃ j ∈ t.jobs, j.isBackup = true ∧
    j.status ∈ [.queued, .running] ∧ scope.all (j.slaPolicyId = some ·) = true ∧ r ∈ j.members ∧
    memberInFlight t j r = true := by
  simp only [inflightMembers, inflightJobs, mem_flatMap, mem_filter, Bool.and_eq_true,
    decide_eq_true_eq, and_assoc]

theorem inflightResourceCount_le {extra : List Uuid}
    (h : ∀ r ∈ inflightMembers t' (some policyId), r ∈ inflightMembers t (some policyId) ∨ r ∈ extra) :
    inflightResourceCount t' policyId ≤ inflightResourceCount t policyId + extra.length := by
  rw [inflightResourceCount, inflightResourceCount, ← length_append]
  refine (subperm_of_subset (nodup_dedup _) fun r hr => ?_).length_le
  rw [mem_append, mem_dedup]
  exact h r (mem_dedup.mp hr)

theorem inflightMembers_dispatchResources
    (h : r ∈ inflightMembers (dispatchResources t policy batchId wave now resources) scope) :
    r ∈ inflightMembers t scope ∨ r ∈ resources.map (·.id) := by
  obtain ⟨j, hj, isBackup, status, ofPolicy, member, inFlight⟩ := mem_inflightMembers.mp h
  rcases mem_append.mp hj with old | new
  · exact .inl (mem_inflightMembers.mpr ⟨j, old, isBackup, status, ofPolicy, member, inFlight⟩)
  · have single := (mem_jobRows new).2.2.2.2.2.2.2
    rw [Job.members, single, Option.toList_none, append_nil] at member
    have listed : r ∈ (jobRows policy (batchId.getD t.nextUuid) wave now (t.nextUuid + 1)
        (jobBatches resources)).flatMap (·.batchResourceIds.getD []) :=
      mem_flatMap.mpr ⟨j, new, member⟩
    rw [jobRows_ids] at listed
    exact .inr (((jobBatches_flatten resources).map _).mem_iff.mp listed)

structure Settles (t t' : Tables) : Prop where
  resources : t'.resources = t.resources
  inflight : ∀ scope, ∀ r ∈ inflightMembers t' scope, r ∈ inflightMembers t scope
  jobs : ∀ policyId since, cycleDispatchedIds t' policyId since = cycleDispatchedIds t policyId since ∧
    ∀ j' ∈ cycleJobs t' policyId since, ∃ j ∈ cycleJobs t policyId since,
      j'.wave = j.wave ∧ j'.batchId = j.batchId

theorem cycle_updateStatus {id : Uuid} {status : JobStatus} (since : Time) :
    let t' := { t with jobs := updateKey (·.id) id (fun j => { j with status }) t.jobs }
    cycleDispatchedIds t' policyId since = cycleDispatchedIds t policyId since ∧
      ∀ j' ∈ cycleJobs t' policyId since, ∃ j ∈ cycleJobs t policyId since,
        j'.wave = j.wave ∧ j'.batchId = j.batchId := by
  intro t'
  have same : cycleJobs t' policyId since =
      updateKey (·.id) id (fun j => { j with status }) (cycleJobs t policyId since) :=
    filter_updateKey fun _ => rfl
  constructor
  · rw [cycleDispatchedIds, same, updateKey, flatMap_map, cycleDispatchedIds]
    congr 1
    funext j
    split <;> rfl
  · intro j' hj'
    rw [same] at hj'
    rcases mem_updateKey.mp hj' with ⟨hj, -⟩ | ⟨j, hj, -, rfl⟩
    · exact ⟨j', hj, rfl, rfl⟩
    · exact ⟨j, hj, rfl, rfl⟩

theorem settles_runJob {id : Uuid} (open_ : ∀ j ∈ t.jobs, j.id = id → j.status ∈ [.queued, .running]) :
    Settles t { t with jobs := updateKey (·.id) id (fun j => { j with status := .running }) t.jobs } := by
  refine ⟨rfl, fun scope r h => ?_, fun _ since => cycle_updateStatus since⟩
  obtain ⟨j', hj', isBackup, status, ofPolicy, member, inFlight⟩ := mem_inflightMembers.mp h
  rcases mem_updateKey.mp hj' with ⟨hj, -⟩ | ⟨j, hj, same, rfl⟩
  · exact mem_inflightMembers.mpr ⟨j', hj, isBackup, status, ofPolicy, member, inFlight⟩
  · refine mem_inflightMembers.mpr ⟨j, hj, isBackup, open_ j hj same, ofPolicy, member, ?_⟩
    have unsettled : (liveSnapshot t j.id r || !settledSnapshot t j.id r) = true := inFlight
    rw [memberInFlight, Bool.or_assoc, unsettled, Bool.or_true]

theorem settles_endJob {id : Uuid} {status : JobStatus} (over_ : status ∉ [.queued, .running]) :
    Settles t { t with jobs := updateKey (·.id) id (fun j => { j with status }) t.jobs } := by
  refine ⟨rfl, fun scope r h => ?_, fun _ since => cycle_updateStatus since⟩
  obtain ⟨j', hj', isBackup, inflight, rest⟩ := mem_inflightMembers.mp h
  rcases mem_updateKey.mp hj' with ⟨hj, -⟩ | ⟨j, -, -, rfl⟩
  · exact mem_inflightMembers.mpr ⟨j', hj, isBackup, inflight, rest⟩
  · exact absurd inflight over_

theorem settles_snapshots
    (inFlight : ∀ j r, memberInFlight { t with snapshots } j r = true → memberInFlight t j r = true) :
    Settles t { t with snapshots } := by
  refine ⟨rfl, fun scope r h => ?_, fun _ _ => ⟨rfl, fun j hj => ⟨j, hj, rfl, rfl⟩⟩⟩
  obtain ⟨j, hj, isBackup, status, ofPolicy, member, isIn⟩ := mem_inflightMembers.mp h
  exact mem_inflightMembers.mpr ⟨j, hj, isBackup, status, ofPolicy, member, inFlight j r isIn⟩

theorem settles_startSnapshot (first : settledSnapshot t s.jobId s.resourceId = false) :
    Settles t { t with snapshots := t.snapshots ++ [s] } := by
  refine settles_snapshots fun j r h => ?_
  by_cases its : s.jobId = j.id ∧ s.resourceId = r
  · rw [its.1, its.2] at first
    rw [memberInFlight, first, Bool.not_false, Bool.or_true]
  · have other : (decide (s.jobId = j.id) && decide (s.resourceId = r)) = false := by simpa using its
    simpa only [memberInFlight, liveSnapshot, settledSnapshot, any_append, any_cons,
      any_nil, other, Bool.false_and, Bool.or_false] using h

theorem settles_endSnapshot {id : Uuid} {status : SnapshotStatus}
    (terminal : status ∈ [.completed, .partialRun, .failed, .skipped]) :
    Settles t { t with snapshots := updateKey (·.id) id (fun s => { s with status }) t.snapshots } := by
  refine settles_snapshots fun j r h => ?_
  simp only [memberInFlight, Bool.or_eq_true, Bool.not_eq_true'] at h ⊢
  rcases h with (queued | live) | unsettled
  · exact .inl (.inl queued)
  · obtain ⟨s', hs', is⟩ := any_eq_true.mp live
    rcases mem_updateKey.mp hs' with ⟨hs, -⟩ | ⟨s, hs, -, rfl⟩
    · exact .inl (.inr (any_eq_true.mpr ⟨s', hs, is⟩))
    · simp only [Bool.and_eq_true, decide_eq_true_eq] at is
      rw [is.1.2] at terminal
      cases mem_cons.mp terminal <;> simp_all
  · refine .inr (Bool.eq_false_iff.mpr fun settled => ?_)
    obtain ⟨s, hs, is⟩ := any_eq_true.mp settled
    simp only [Bool.and_eq_true, Bool.or_eq_true, decide_eq_true_eq] at is
    refine Bool.eq_false_iff.mp unsettled (any_eq_true.mpr ?_)
    simp only [Bool.and_eq_true, Bool.or_eq_true, decide_eq_true_eq]
    by_cases same : s.id = id
    · exact ⟨_, mem_updateKey.mpr (.inr ⟨s, hs, same, rfl⟩), is.1, .inl terminal⟩
    · exact ⟨s, mem_updateKey.mpr (.inl ⟨hs, same⟩), is⟩

end

section

variable {t t' : Tables} {policy : Policy} {window : CycleWindow} {plan : Plan} {now tick : Time}
  {withinWindow : Bool} {policyId : Uuid} {since : Time}

structure Carries (t : Tables) (policyId : Uuid) (since : Time) : Prop where
  resources : (t.resources.map (·.id)).Nodup
  once : (cycleDispatchedIds t policyId since).Nodup
  batch : ∀ j ∈ cycleJobs t policyId since, j.batchId.isSome

structure Fits (t : Tables) (policyId : Uuid) (since : Time) (plan : Plan) : Prop where
  policy : plan.policyId = policyId
  slots : inflightResourceCount t policyId + plan.wave.length ≤ plan.maxConcurrent
  nodup : (plan.wave.map (·.id)).Nodup
  fresh : ∀ r ∈ plan.wave, r.id ∉ cycleDispatchedIds t policyId since
  ahead : ∀ j ∈ cycleJobs t policyId since, ∀ n ∈ j.wave, n < plan.number

theorem drainPolicyCycle_perm
    (h : drainPolicyCycle t policy window withinWindow now tick = some plan) :
    (plan.wave ++ plan.remaining ++ plan.held).Perm (drainCandidates t window.start policy) := by
  obtain ⟨budget, minFraction, -, -, -, rows, held, wave, -, remaining, -⟩ := drainPolicyCycle_eq_some h
  have ordered : plan.wave ++ plan.remaining =
      inPriorityOrder (partitionOverlapHolds plan.rows (inflightResourceIds t)).1 := by
    rw [remaining]
    conv_lhs => rw [wave]
    rw [planWave_eq_take.1, length_take, take_eq_take_min]
    simp
  rw [ordered, held, rows, partitionOverlapHolds, partition_eq_filter_filter]
  refine (List.Perm.append_right _ (perm_insertionSort _ _)).trans ?_
  exact filter_append_perm _ _

theorem cycleMaxWave_ge (hj : j ∈ cycleJobs t policyId since)
    (hn : n ∈ j.wave) : n ≤ cycleMaxWave t policyId since := by
  have mem : n ∈ (cycleJobs t policyId since).filterMap (·.wave) := mem_filterMap.mpr ⟨j, hj, hn⟩
  rw [cycleMaxWave]
  cases highest : ((cycleJobs t policyId since).filterMap (·.wave)).max? with
  | none =>
    rw [List.max?_eq_none_iff] at highest
    rw [highest] at mem
    cases mem
  | some m => exact (List.max?_eq_some_iff.mp highest).2 n mem

theorem cycleJobs_of_no_batch (carries : Carries t policyId since)
    (h : cycleBatchId t policyId since = none) : cycleJobs t policyId since = [] := by
  rw [cycleBatchId, Option.bind_eq_none_iff] at h
  cases first : orderByFirst (fun a b : Job => decide (a.createdAt ≤ b.createdAt))
      (cycleJobs t policyId since) with
  | none => exact orderByFirst_eq_none first
  | some j =>
    have := carries.batch j (orderByFirst_mem first)
    rw [h j first] at this
    cases this

theorem fits_of_drainPolicyCycle (carries : Carries t policy.id window.start)
    (h : drainPolicyCycle t policy window withinWindow now tick = some plan) :
    Fits t policy.id window.start plan := by
  obtain ⟨budget, minFraction, hbudget, id, max, rows, -, wave, nonempty, -, batch, number⟩ :=
    drainPolicyCycle_eq_some h
  have parts := drainPolicyCycle_perm h
  have candidates : ((drainCandidates t window.start policy).map (·.id)).Nodup := by
    refine ((perm_insertionSort _ _).map _).nodup_iff.mpr ?_
    exact carries.resources.sublist ((filter_sublist.trans filter_sublist).map _)
  have inWave (r : Resource) (hr : r ∈ plan.wave) : r ∈ drainCandidates t window.start policy :=
    parts.mem_iff.mp (mem_append_left _ (mem_append_left _ hr))
  refine ⟨id, ?_, ?_, ?_, ?_⟩
  · have fits : plan.wave.length ≤ budget := wave ▸ planWave_eq_take.2
    have := length_pos_iff.mpr nonempty
    rw [max]
    omega
  · have all := (parts.map (·.id)).nodup_iff.mpr candidates
    rw [map_append, map_append] at all
    exact (nodup_append.mp (nodup_append.mp all).1).1
  · intro r hr
    have := (mem_filter.mp (mem_inPriorityOrder.mp (inWave r hr))).2
    simp only [Bool.and_eq_true, decide_eq_true_eq] at this
    exact this.2
  · intro j hj n hn
    rw [number]
    cases none : plan.batchId with
    | none =>
      rw [cycleJobs_of_no_batch carries (batch.symm.trans none)] at hj
      cases hj
    | some b =>
      have := cycleMaxWave_ge hj hn
      simp only [Option.isNone_some, Bool.false_eq_true, if_false]
      omega

theorem Fits.settles (fits : Fits t policyId since plan) (h : Settles t t') :
    Fits t' policyId since plan := by
  refine ⟨fits.policy, ?_, fits.nodup, ?_, ?_⟩
  · have fewer : inflightResourceCount t' policyId ≤ inflightResourceCount t policyId + [].length :=
      inflightResourceCount_le fun r hr => .inl (h.inflight (some policyId) r hr)
    exact (Nat.add_le_add_right fewer _).trans fits.slots
  · rw [(h.jobs policyId since).1]
    exact fits.fresh
  · intro j' hj' n hn
    obtain ⟨j, hj, wave, -⟩ := (h.jobs policyId since).2 j' hj'
    exact fits.ahead j hj n (wave ▸ hn)

theorem Carries.settles (carries : Carries t policyId since) (h : Settles t t') :
    Carries t' policyId since := by
  refine ⟨h.resources ▸ carries.resources, (h.jobs policyId since).1 ▸ carries.once, ?_⟩
  intro j' hj'
  obtain ⟨j, hj, -, batch⟩ := (h.jobs policyId since).2 j' hj'
  exact batch ▸ carries.batch j hj

theorem Carries.dispatch {batchId : Option Uuid} {number : Nat}
    {resources : List Resource} (carries : Carries t policyId since) (later : since ≤ now)
    (nodup : (resources.map (·.id)).Nodup)
    (fresh : ∀ r ∈ resources, r.id ∉ cycleDispatchedIds t policyId since) :
    Carries (dispatchResources t policyId batchId number now resources) policyId since := by
  obtain ⟨rows, jobs, stamped, ids⟩ :=
    @cycleJobs_dispatchResources t policyId number now since resources batchId later
  refine ⟨carries.resources, ?_, ?_⟩
  · rw [cycleDispatchedIds, jobs, flatMap_append]
    refine nodup_append.mpr ⟨carries.once, ids.nodup_iff.mpr nodup, ?_⟩
    intro a old b new same
    obtain ⟨r, hr, rfl⟩ := mem_map.mp (ids.mem_iff.mp new)
    exact fresh r hr (same ▸ old)
  · intro j hj
    rw [jobs] at hj
    rcases mem_append.mp hj with old | new
    · exact carries.batch j old
    · exact (stamped j new).2

end

section

variable {c : Cycle} {e : Event} {policyId : Uuid} {window : CycleWindow}

structure CycleInv (policyId : Uuid) (window : CycleWindow) (c : Cycle) : Prop where
  carries : Carries c.tables policyId window.start
  fits : ∀ plan ∈ c.plan, Fits c.tables policyId window.start plan

theorem CycleInv.settles (inv : CycleInv policyId window c) (h : Settles c.tables t) :
    CycleInv policyId window { c with tables := t } :=
  ⟨inv.carries.settles h, fun plan hplan => (inv.fits plan hplan).settles h⟩

theorem planConcurrencyBudget_nodup (nodup : (resources.map (·.id)).Nodup) :
    ((planConcurrencyBudget resources maxConcurrent inflight).1.map (·.id)).Nodup := by
  unfold planConcurrencyBudget
  split
  · exact nodup
  dsimp only
  split
  · exact nodup
  · rw [splitAt_eq]
    have ordered : ((inPriorityOrder resources).map (·.id)).Nodup :=
      ((perm_insertionSort _ resources).map (·.id)).nodup_iff.mpr nodup
    exact ordered.sublist ((take_sublist _ _).map _)

theorem dispatchPolicyBackups_nodup (nodup : (t.resources.map (·.id)).Nodup)
    (h : dispatchPolicyBackups t policy now staleAfter guardEnabled modified = some fire) :
    (fire.dispatched.map (·.id)).Nodup := by
  unfold dispatchPolicyBackups at h
  split at h
  · cases h
  dsimp only at h
  split at h
  · cases h
  · cases h
    refine planConcurrencyBudget_nodup (nodup.sublist ?_)
    have eligible : (((dispatchable t policy).filter (·.type ∈ policy.enabledTypes)).filter
        (!·.licenseMissing)).Sublist t.resources :=
      filter_sublist.trans (filter_sublist.trans filter_sublist)
    refine (filter_sublist.trans ?_).map _
    rw [overlapHold]
    split
    · rw [partitionOverlapHolds, partition_eq_filter_filter]
      exact filter_sublist.trans eligible
    · exact eligible

theorem cycleInv_step (inv : CycleInv policyId window c) (ok : c.allows policyId window e) :
    CycleInv policyId window (c.step window e) := by
  cases e with
  | fire policy now staleAfter guardEnabled modified =>
    simp only [Cycle.allows, Bool.and_eq_true, decide_eq_true_eq, Option.isNone_iff_eq_none,
      List.isEmpty_iff] at ok
    obtain ⟨⟨⟨rfl, later⟩, idle⟩, empty⟩ := ok
    unfold Cycle.step
    dsimp only
    split
    · exact inv
    · rename_i fire hfire
      refine ⟨inv.carries.dispatch later (dispatchPolicyBackups_nodup inv.carries.resources hfire) ?_, ?_⟩
      · intro r _
        rw [cycleDispatchedIds, empty]
        exact List.not_mem_nil
      · intro plan hplan
        cases idle.symm.trans hplan
  | tick policy withinWindow now tick =>
    obtain rfl : policy.id = policyId := of_decide_eq_true ok
    unfold Cycle.step
    dsimp only
    split
    · exact inv
    · exact ⟨inv.carries, fun plan hplan => fits_of_drainPolicyCycle inv.carries hplan⟩
  | dispatch now =>
    unfold Cycle.step
    dsimp only
    split
    · exact inv
    · rename_i plan hplan
      have fits := inv.fits plan hplan
      rw [fits.policy]
      exact ⟨inv.carries.dispatch (of_decide_eq_true ok) fits.nodup fits.fresh,
        fun _ h => nomatch h⟩
  | runJob id =>
    simp only [Cycle.allows, all_eq_true, Bool.or_eq_true, decide_eq_true_eq] at ok
    exact inv.settles (settles_runJob fun j hj same => (ok j hj).resolve_left fun h => h same)
  | endJob id status => exact inv.settles (settles_endJob (of_decide_eq_true ok))
  | startSnapshot s =>
    rcases Bool.or_eq_true_iff.mp ok with idle | first
    · have idle := Option.isNone_iff_eq_none.mp idle
      exact ⟨⟨inv.carries.1, inv.carries.2, inv.carries.3⟩, fun _ h => nomatch idle.symm.trans h⟩
    · exact inv.settles (settles_startSnapshot (by simpa using first))
  | endSnapshot id status => exact inv.settles (settles_endSnapshot (of_decide_eq_true ok))

/-- A wave, the remainder and the held resources are the candidates; once it is dispatched the
resources in flight are within the cap, each carried once, and its number is above those before. -/
theorem cycle_waves {t : Tables} {events : List Event} (resources : (t.resources.map (·.id)).Nodup)
    (start : cycleJobs t policyId window.start = [])
    (run : Along (Cycle.step window) (fun c e => c.allows policyId window e) ⟨t, none⟩ events) :
    let c := play (Cycle.step window) ⟨t, none⟩ events
    (∀ policy withinWindow now tick plan, policy.id = policyId →
      drainPolicyCycle c.tables policy window withinWindow now tick = some plan →
      (plan.wave ++ plan.remaining ++ plan.held).Perm (drainCandidates c.tables window.start policy)) ∧
    ∀ plan now, c.plan = some plan → window.start ≤ now →
      let dispatched := (c.step window (.dispatch now)).tables
      inflightResourceCount dispatched policyId ≤ plan.maxConcurrent ∧
      (cycleDispatchedIds dispatched policyId window.start).Nodup ∧
      ∃ rows, cycleJobs dispatched policyId window.start =
          cycleJobs c.tables policyId window.start ++ rows ∧
        (∀ j ∈ rows, j.wave = some plan.number) ∧
        (rows.flatMap (·.batchResourceIds.getD [])).Perm (plan.wave.map (·.id)) ∧
        ∀ j ∈ cycleJobs c.tables policyId window.start, ∀ n ∈ j.wave, n < plan.number := by
  have opened : CycleInv policyId window ⟨t, none⟩ := by
    refine ⟨⟨resources, ?_, ?_⟩, fun _ h => nomatch h⟩
    · rw [cycleDispatchedIds, start]
      exact nodup_nil
    · rw [start]
      exact fun j hj => absurd hj not_mem_nil
  have inv := Along.invariant (fun _ _ inv ok => cycleInv_step inv ok) opened run
  intro c
  refine ⟨fun _ _ _ _ _ _ h => drainPolicyCycle_perm h, ?_⟩
  intro plan now hplan later
  have fits : Fits c.tables policyId window.start plan := inv.fits plan hplan
  have committed : (c.step window (.dispatch now)).tables =
      dispatchResources c.tables policyId plan.batchId plan.number now plan.wave := by
    rw [Cycle.step, hplan]
    exact congrArg (dispatchResources c.tables · plan.batchId plan.number now plan.wave) fits.policy
  obtain ⟨rows, jobs, stamped, ids⟩ := @cycleJobs_dispatchResources c.tables policyId plan.number now
    window.start plan.wave plan.batchId later
  intro dispatched
  rw [show dispatched = _ from committed]
  refine ⟨?_, (inv.carries.dispatch later fits.nodup fits.fresh).once, rows, jobs,
    fun j hj => (stamped j hj).1, ids, fits.ahead⟩
  have more : inflightResourceCount
      (dispatchResources c.tables policyId plan.batchId plan.number now plan.wave) policyId ≤
      inflightResourceCount c.tables policyId + (plan.wave.map (·.id)).length :=
    inflightResourceCount_le fun r hr => inflightMembers_dispatchResources hr
  rw [length_map] at more
  exact more.trans fits.slots

end

def threeMailboxes : Tables where
  resources := [⟨1, .userMail, 7, some 5, .active, none, false⟩,
    ⟨2, .userMail, 7, some 5, .active, some 4, false⟩,
    ⟨3, .userMail, 7, some 5, .active, some 9, false⟩]

def twoSlots : Policy := { id := 5, maxConcurrent := 2, enabledTypes := [.userMail] }

def eightHours : CycleWindow := ⟨0, 28800000000⟩

def thirdLater : List Event :=
  [.fire twoSlots 1 1000 true (fun _ => true), .runJob 1001,
    .startSnapshot { id := 50, jobId := 1001, resourceId := 1 }, .endSnapshot 50 .completed,
    .tick twoSlots true 600000000 120000000]

theorem thirdLater_waves : ∃ plan,
    (play (Cycle.step eightHours) ⟨threeMailboxes, none⟩ thirdLater).plan = some plan ∧
    plan.wave.map (·.id) = [3] ∧ plan.number = 2 ∧
    inflightResourceCount ((play (Cycle.step eightHours) ⟨threeMailboxes, none⟩ thirdLater).step
      eightHours (.dispatch 600000001)).tables 5 ≤ plan.maxConcurrent := by
  have run : Along (Cycle.step eightHours) (fun c e => c.allows 5 eightHours e)
      ⟨threeMailboxes, none⟩ thirdLater := by
    simp only [thirdLater, Along]
    decide +kernel
  have decided : (play (Cycle.step eightHours) ⟨threeMailboxes, none⟩ thirdLater).plan.map
      (fun plan => (plan.wave.map (·.id), plan.number)) = some ([3], 2) := by decide +kernel
  obtain ⟨plan, hplan, is⟩ := Option.map_eq_some_iff.mp decided
  obtain ⟨wave, number⟩ := Prod.ext_iff.mp is
  have waves := cycle_waves (by decide) (by decide) run
  exact ⟨plan, hplan, wave, number, (waves.2 plan 600000001 hplan (by decide)).1⟩

end TmVault.Scheduler
