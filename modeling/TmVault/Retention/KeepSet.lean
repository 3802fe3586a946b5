import TmVault.Retention.Delete

namespace TmVault.Retention

open Relational Store

def dayLength : Nat := 86400000000

def dayOf (t : Time) : Nat := t / dayLength

def daysBeforeYear (year : Nat) : Nat :=
  let y := year - 1
  y * 365 + y / 4 - y / 100 + y / 400

def isLeap (year : Nat) : Bool := year % 4 = 0 && (year % 100 ≠ 0 || year % 400 = 0)

def daysBeforeMonth (year month : Nat) : Nat :=
  [0, 0, 31, 59, 90, 120, 151, 181, 212, 243, 273, 304, 334].getD month 0 +
    if 2 < month && isLeap year then 1 else 0

def yearOf (t : Time) : Nat :=
  Nat.findGreatest (fun y => daysBeforeYear y ≤ dayOf t) (dayOf t / 365 + 1)

def monthOf (t : Time) : Nat × Nat :=
  let y := yearOf t
  (y, Nat.findGreatest (fun m => daysBeforeYear y + daysBeforeMonth y m ≤ dayOf t) 12)

def weekOf (t : Time) : Nat := dayOf t / 7

def maxTime : Nat := daysBeforeYear 10000 * dayLength - 1

inductive RetentionMode
  | flat | gfs

inductive ArchivedRetentionMode
  | same | keepAll | keepLast | custom

structure SlaPolicy where
  id : Uuid
  isDefault : Bool := false
  retentionMode : RetentionMode := .flat
  retentionDays : Option Int := none
  retentionHotDays : Option Int := some 7
  retentionCoolDays : Option Int := some 30
  retentionArchiveDays : Option Int := none
  (gfsDailyCount gfsWeeklyCount gfsMonthlyCount gfsYearlyCount : Option Int := none)
  archivedRetentionMode : ArchivedRetentionMode := .same
  archivedRetentionDays : Option Int := none
  legalHoldEnabled : Bool := false
  legalHoldUntil : Option Time := none
  immutabilityLocked : Bool := false

def snapTs (s : Snapshot) : Time := s.takenAt.getD 0

def holdsPersistedContent (s : Snapshot) : Bool :=
  s.itemCount.getD 0 > 0 || s.bytesTotal.getD 0 > 0

def isRehydratedHeir (s : Snapshot) : Bool := s.extraData.reuseRehydratedFrom.isSome

def restorableStatuses : List SnapshotStatus := [.completed, .partialRun]

def holdsRecoverableData (s : Snapshot) : Bool :=
  if s.extraData.skippedConcurrent then false
  else if s.status = some .pendingDeletion then false
  else if holdsPersistedContent s then true
  else if isRehydratedHeir s then true
  else if s.status.any (· ∉ restorableStatuses) then false
  else if s.itemCount.any (· ≤ 0) then
    -- a pointer or an overlay shows the rows of another snapshot
    s.reuseChainRootId.isSome || s.overlayBaseId.isSome
  else true

def isRestorable (s : Snapshot) : Bool := s.status.all (· ∈ restorableStatuses)

def isCompleted (s : Snapshot) : Bool := s.status = some .completed

def restoreRank (s : Snapshot) : Nat :=
  if !isRestorable s then 1 else if isCompleted s then 3 else 2

def isProtectedInFlight (now : Time) (s : Snapshot) : Bool :=
  s.status.any (· ∉ terminalStatuses) ||
    s.hcDrainStatus.getD .notApplicable = .pending ||
    s.leaseExpiresAt.any (now < ·)

def newest (pool : List Snapshot) : Option Snapshot := pool.argmax snapTs

def orElse (pool fallback : List Snapshot) : List Snapshot := if pool = [] then fallback else pool

def idOf (s : Option Snapshot) : List Uuid := (s.map (·.id)).toList

def latestRestorable (snapshots : List Snapshot) : Option Snapshot :=
  newest (orElse (snapshots.filter isCompleted) snapshots)

def bucketCandidates (snapshots : List Snapshot) : List Snapshot :=
  orElse (snapshots.filter holdsRecoverableData) snapshots

def latestIds (snapshots : List Snapshot) : List Uuid :=
  let candidates := bucketCandidates snapshots
  idOf (newest snapshots) ++ idOf (newest candidates) ++
    idOf (newest (orElse (candidates.filter isRestorable) candidates)) ++
    idOf (latestRestorable snapshots)

def pickBucketWinners {κ : Type} [DecidableEq κ] (sorted : List Snapshot) (period : Time → κ)
    (limit : Int) : List Uuid :=
  if limit ≤ 0 then []
  else (claimBuckets (fun s => period (snapTs s)) restoreRank limit.toNat sorted []).map (·.id)

def fullAnchorIds (snapshots : List Snapshot) : List Uuid :=
  idOf (newest ((snapshots.filter holdsRecoverableData).filter (·.type = some .full)))

abbrev largest (count : Snapshot → Int) (snapshots : List Snapshot) : Option Snapshot :=
  @List.argmax Snapshot Int Int.instLinearOrder.toPartialOrder.toPreorder Int.decLt count snapshots

def baselineKeepIds (snapshots : List Snapshot) : List Uuid :=
  let real := (snapshots.filter holdsRecoverableData).insertionSort fun a b => snapTs a ≤ snapTs b
  if real = [] then []
  else
    idOf real.head? ++ idOf (largest (fun s => s.itemCount.getD 0) real) ++
      idOf (largest (fun s => s.bytesTotal.getD 0) real) ++ fullAnchorIds snapshots

inductive CutoffError
  | overflow
  deriving DecidableEq

def cutoff (now : Time) (days : Int) : Except CutoffError Time :=
  let t : Int := now - days * dayLength
  if t < 0 || t > maxTime then throw .overflow else pure t.toNat

def keptSince (now cut : Time) (snapshots : List Snapshot) : List Uuid :=
  (snapshots.filter fun s => cut ≤ s.takenAt.getD now).map (·.id)

def archivedKeepIdsInner (policy : SlaPolicy) (now : Time) (snapshots : List Snapshot) :
    Except CutoffError (Option (List Uuid)) :=
  if snapshots = [] then pure (some [])
  else match policy.archivedRetentionMode with
    | .keepAll => pure (some (snapshots.map (·.id)))
    | .keepLast => pure (some (latestIds snapshots))
    | .custom =>
      match policy.archivedRetentionDays with
      | none => pure (some (snapshots.map (·.id)))
      | some days => do
        let cut ← cutoff now days
        pure (some (keptSince now cut snapshots ++ latestIds snapshots))
    | .same => pure none

def archivedKeepIds (policy : SlaPolicy) (now : Time) (snapshots : List Snapshot) :
    Except CutoffError (Option (List Uuid)) := do
  let keep ← archivedKeepIdsInner policy now snapshots
  pure (keep.map (· ++ baselineKeepIds snapshots))

def flatKeepDays (policy : SlaPolicy) : Option Int :=
  let days := policy.retentionDays.getD 0
  if days = 0 then
    policy.retentionArchiveDays.map fun archive =>
      policy.retentionHotDays.getD 0 + policy.retentionCoolDays.getD 0 + archive
  else some days

def flatKeepIdsInner (policy : SlaPolicy) (now : Time) (snapshots : List Snapshot) :
    Except CutoffError (List Uuid) :=
  if snapshots = [] then pure []
  else match flatKeepDays policy with
    | none => pure (snapshots.map (·.id))
    | some days =>
      if days ≤ 0 then pure (snapshots.map (·.id))
      else do
        let cut ← cutoff now days
        pure (keptSince now cut snapshots ++ latestIds snapshots)

def gfsKeepIdsInner (policy : SlaPolicy) (snapshots : List Snapshot) : List Uuid :=
  if snapshots = [] then []
  else
    let sorted := newestFirst snapTs (bucketCandidates snapshots)
    latestIds snapshots ++
      pickBucketWinners sorted dayOf (policy.gfsDailyCount.getD 0) ++
      pickBucketWinners sorted weekOf (policy.gfsWeeklyCount.getD 0) ++
      pickBucketWinners sorted monthOf (policy.gfsMonthlyCount.getD 0) ++
      pickBucketWinners sorted yearOf (policy.gfsYearlyCount.getD 0)

def withBaseline (keep : List Uuid) (snapshots : List Snapshot) : List Uuid :=
  keep ++ fullAnchorIds snapshots

def flatKeepIds (policy : SlaPolicy) (now : Time) (snapshots : List Snapshot) :
    Except CutoffError (List Uuid) := do
  let keep ← flatKeepIdsInner policy now snapshots
  pure (withBaseline keep snapshots)

def gfsKeepIds (policy : SlaPolicy) (snapshots : List Snapshot) : List Uuid :=
  withBaseline (gfsKeepIdsInner policy snapshots) snapshots

def modeKeepIds (policy : SlaPolicy) (now : Time) (snapshots : List Snapshot) :
    Except CutoffError (List Uuid) :=
  match policy.retentionMode with
  | .gfs => pure (gfsKeepIds policy snapshots ++ baselineKeepIds snapshots)
  | .flat => do
    let keep ← flatKeepIds policy now snapshots
    pure (keep ++ baselineKeepIds snapshots)

def archivedChoice (archived : Bool) (policy : SlaPolicy) (now : Time)
    (snapshots : List Snapshot) : Except CutoffError (Option (List Uuid)) :=
  if archived then archivedKeepIds policy now snapshots else pure none

def keepIds (archived : Bool) (policy : SlaPolicy) (now : Time) (snapshots : List Snapshot) :
    Except CutoffError (List Uuid) := do
  let chosen ← archivedChoice archived policy now snapshots
  match chosen with
  | some keep => pure keep
  | none => modeKeepIds policy now snapshots

structure Resource where
  id : Uuid
  slaPolicyId : Option Uuid := none
  archived : Bool := false

def resourceSnapshots (db : Db) (rid : Uuid) : List Snapshot :=
  db.snapshots.filter (·.resourceId = rid)

def itemsOf (db : Db) (sid : Uuid) : List SnapshotItem := db.items.filter (·.snapshotId = sid)

def lyingCounters (now : Time) (db : Db) (s : Snapshot) : Bool :=
  !holdsPersistedContent s && !isProtectedInFlight now s && itemsOf db s.id ≠ []

def restated (db : Db) (s : Snapshot) : Snapshot :=
  { s with
    itemCount := some (itemsOf db s.id).length, bytesTotal := some (sumSizes (itemsOf db s.id)) }

def restateLyingCounters (now : Time) (rid : Uuid) (db : Db) : Db :=
  db.setWhere (((resourceSnapshots db rid).filter (lyingCounters now db)).map (·.id)) (restated db)

def isOnHold (now : Time) (policy : SlaPolicy) : Bool :=
  policy.legalHoldEnabled && policy.legalHoldUntil.all (now < ·) || policy.immutabilityLocked

def toDelete (now : Time) (keep : List Uuid) (rid : Uuid) (db : Db) : List Uuid :=
  ((resourceSnapshots db rid).filter fun s =>
    s.id ∉ keep && s.id ∉ db.pinned && !isProtectedInFlight now s).map (·.id)

inductive PassError
  | cutoff (e : CutoffError)
  | store (e : StoreError)

/-- What the scheduler knows: `RETENTION_DELETE_ENABLED`, the fingerprint digest and the tenant's
policies. -/
structure PassConfig where
  deleteEnabled : Bool
  md5 : List Payload → String
  policies : List SlaPolicy

def enforceResource (cfg : PassConfig) (now : Time) (policy : SlaPolicy) (res : Resource) (db : Db) :
    Except PassError Db :=
  let db := restateLyingCounters now res.id db
  match keepIds res.archived policy now (resourceSnapshots db res.id) with
  | .error e => .error (.cutoff e)
  | .ok keep =>
    let doomed := toDelete now keep res.id db
    -- every doomed snapshot has its audit event
    if cfg.deleteEnabled && doomed ≠ [] then
      match deleteSnapshots cfg.md5 now doomed doomed db with
      | .error e => .error (.store e)
      | .ok (db', _) => .ok db'
    else .ok db

def policyFor (policies : List SlaPolicy) (res : Resource) : Option SlaPolicy :=
  (policies.find? fun p => res.slaPolicyId = some p.id).or (policies.find? (·.isDefault))

structure TenantRun where
  (committed working : Db)
  sinceCommit : Nat := 0

def commitEvery : Nat := 100

def enforceStep (cfg : PassConfig) (run : TenantRun) (job : Resource × Time) :
    Except Db TenantRun :=
  match policyFor cfg.policies job.1 with
  | none => .ok run
  | some policy =>
    if isOnHold job.2 policy || resourceSnapshots run.working job.1.id = [] then .ok run
    else
      match enforceResource cfg job.2 policy job.1 run.working with
      | .error _ => .error run.committed
      | .ok db =>
        if commitEvery ≤ run.sinceCommit + 1 then .ok ⟨db, db, 0⟩
        else .ok ⟨run.committed, db, run.sinceCommit + 1⟩

/-- `enforce_retention_for_tenant` over the tenant's resources, each at the clock of its turn: the
database once the session is closed. -/
def enforceRetentionForTenant (cfg : PassConfig) (jobs : List (Resource × Time)) (db : Db) : Db :=
  match jobs.foldlM (enforceStep cfg) ⟨db, db, 0⟩ with
  | .error committed => committed
  | .ok run => run.working

open List

section

variable {snapshots : List Snapshot} {c : Snapshot}

theorem mem_of_newest (h : newest l = some c) : c ∈ l := argmax_mem h

section

variable (nodup : (snapshots.map (·.id)).Nodup) (hc : c ∈ snapshots) (sub : pool ⊆ snapshots)

include nodup hc sub

theorem mem_idOf : c.id ∈ idOf (newest pool) ↔ newest pool = some c := by
  rw [idOf, Option.mem_toList, Option.map_eq_some_iff]
  constructor
  · rintro ⟨d, hd, hid⟩
    rw [hd, inj_on_of_nodup_map nodup (sub (mem_of_newest hd)) hc hid]
  · exact fun h => ⟨c, h, rfl⟩

theorem mem_ids : c.id ∈ pool.map (·.id) ↔ c ∈ pool := by
  constructor
  · intro h
    obtain ⟨d, hd, hid⟩ := mem_map.mp h
    rwa [← inj_on_of_nodup_map nodup (sub hd) hc hid]
  · exact mem_map_of_mem

end

theorem orElse_of_mem (h : c ∈ pool) : orElse pool snapshots = pool :=
  if_neg (ne_nil_of_mem h)

end

def newestComplete (snapshots : List Snapshot) : Option Snapshot :=
  newest (snapshots.filter fun s => holdsRecoverableData s && isCompleted s)

def PeriodOpen {κ : Type} [DecidableEq κ] (period : Time → κ) (limit : Int)
    (snapshots : List Snapshot) (c : Snapshot) : Prop :=
  (((((snapshots.filter holdsRecoverableData).filter (snapTs c < snapTs ·)).map
    fun s => period (snapTs s)).toFinset.erase (period (snapTs c))).card : Int) < limit

def TakenWithin (now : Time) (days : Int) (c : Snapshot) : Prop :=
  (now : Int) - days * dayLength ≤ c.takenAt.getD now

instance (now : Time) (days : Int) (c : Snapshot) : Decidable (TakenWithin now days c) :=
  inferInstanceAs (Decidable (_ ≤ _))

def InWindow (archived : Bool) (policy : SlaPolicy) (now : Time) (snapshots : List Snapshot)
    (c : Snapshot) : Prop :=
  match archived, policy.archivedRetentionMode with
  | true, .keepAll => True
  | true, .keepLast => False
  | true, .custom => ∀ days ∈ policy.archivedRetentionDays, TakenWithin now days c
  | _, _ =>
    match policy.retentionMode with
    | .flat => ∀ days ∈ flatKeepDays policy, 0 < days → TakenWithin now days c
    | .gfs =>
      PeriodOpen dayOf (policy.gfsDailyCount.getD 0) snapshots c ∨
        PeriodOpen weekOf (policy.gfsWeeklyCount.getD 0) snapshots c ∨
        PeriodOpen monthOf (policy.gfsMonthlyCount.getD 0) snapshots c ∨
        PeriodOpen yearOf (policy.gfsYearlyCount.getD 0) snapshots c

variable {snapshots : List Snapshot} {c : Snapshot} (nodup : (snapshots.map (·.id)).Nodup)
  (hc : newestComplete snapshots = some c) {policy : SlaPolicy} {now : Time} {keep : List Uuid}
  {s : Snapshot}

theorem isRestorable_of_isCompleted (h : isCompleted s = true) : isRestorable s = true := by
  have status : s.status = some .completed := of_decide_eq_true h
  rw [isRestorable, status]
  rfl

theorem restoreRank_le (s : Snapshot) : restoreRank s ≤ 3 := by
  rw [restoreRank]
  split
  · decide
  · split <;> decide

theorem restoreRank_of_isCompleted (h : isCompleted s = true) : restoreRank s = 3 := by
  rw [restoreRank, isRestorable_of_isCompleted h, h]
  rfl

theorem restoreRank_lt (h : isCompleted s = false) : restoreRank s < 3 := by
  rw [restoreRank, h]
  split <;> decide

include hc

theorem newestComplete_mem : c ∈ snapshots ∧ holdsRecoverableData c = true ∧ isCompleted c = true := by
  have h := mem_filter.mp (mem_of_newest hc)
  rwa [Bool.and_eq_true] at h

theorem bucketCandidates_eq : bucketCandidates snapshots = snapshots.filter holdsRecoverableData :=
  have ⟨mem, real, _⟩ := newestComplete_mem hc
  orElse_of_mem (mem_filter.mpr ⟨mem, real⟩)

include nodup

theorem mem_latestIds : c.id ∈ latestIds snapshots ↔
    newest (snapshots.filter isCompleted) = some c ∨
      newest ((snapshots.filter holdsRecoverableData).filter isRestorable) = some c := by
  obtain ⟨mem, real, completed⟩ := newestComplete_mem hc
  have restorable := isRestorable_of_isCompleted completed
  have rows : snapshots.Nodup := nodup.of_map _
  have hcompleted : c ∈ snapshots.filter isCompleted := mem_filter.mpr ⟨mem, completed⟩
  have hreal : c ∈ snapshots.filter holdsRecoverableData := mem_filter.mpr ⟨mem, real⟩
  have hrestorable := mem_filter.mpr ⟨hreal, restorable⟩
  have sub : snapshots.filter holdsRecoverableData ⊆ snapshots := filter_subset_self _
  simp only [latestIds, latestRestorable, bucketCandidates_eq hc, orElse_of_mem hcompleted,
    orElse_of_mem hrestorable, mem_append]
  rw [mem_idOf nodup mem (Subset.refl _), mem_idOf nodup mem sub,
    mem_idOf nodup mem (fun _ h => sub (mem_of_mem_filter h)),
    mem_idOf nodup mem (filter_subset_self _)]
  constructor
  · rintro (((h | h) | h) | h)
    · exact .inl (argmax_filter rows h completed)
    · exact .inr (argmax_filter (rows.filter _) h restorable)
    · exact .inr h
    · exact .inl h
  · rintro (h | h)
    · exact .inr h
    · exact .inl (.inr h)

theorem mem_keptSince (now cut : Time) :
    c.id ∈ keptSince now cut snapshots ↔ cut ≤ c.takenAt.getD now := by
  have mem := (newestComplete_mem hc).1
  rw [keptSince, mem_ids nodup mem (filter_subset_self _), mem_filter, decide_eq_true_eq]
  exact and_iff_right mem

theorem mem_pickBucketWinners {κ : Type} [DecidableEq κ] (period : Time → κ) (limit : Int) :
    c.id ∈ pickBucketWinners (newestFirst snapTs (bucketCandidates snapshots)) period limit ↔
      PeriodOpen period limit snapshots c := by
  obtain ⟨mem, real, completed⟩ := newestComplete_mem hc
  have rank := restoreRank_of_isCompleted completed
  have first : ((snapshots.filter holdsRecoverableData).filter isCompleted).argmax snapTs =
      some c := by
    rw [filter_filter]
    simpa only [newestComplete, newest, Bool.and_comm] using hc
  rw [pickBucketWinners, bucketCandidates_eq hc, PeriodOpen]
  split
  case isTrue none_open => exact iff_of_false not_mem_nil (by omega)
  case isFalse =>
    have sub : ∀ s ∈ claimBuckets (fun s => period (snapTs s)) restoreRank limit.toNat
        (newestFirst snapTs (snapshots.filter holdsRecoverableData)) [], s ∈ snapshots := by
      intro s hs
      have hs := (of_mem_claimBuckets hs).resolve_right not_mem_nil
      exact mem_of_mem_filter ((mem_newestFirst snapTs).mp hs)
    rw [mem_ids nodup mem sub, newest_claims_iff period ((nodup.of_map _).filter _) first
      (fun a _ => rank ▸ restoreRank_le a) (fun a _ h => rank ▸ restoreRank_lt h)]
    omega

omit nodup hc in
theorem cutoff_ok (h : cutoff now days = .ok cut) :
    cut ≤ c.takenAt.getD now ↔ TakenWithin now days c := by
  rw [cutoff] at h
  simp only [Bool.or_eq_true, decide_eq_true_eq] at h
  split at h
  · cases h
  · cases h
    exact Int.toNat_le

omit nodup in
theorem fullAnchorIds_subset : fullAnchorIds snapshots ⊆ baselineKeepIds snapshots := by
  obtain ⟨mem, real, -⟩ := newestComplete_mem hc
  have hreal : c ∈ (snapshots.filter holdsRecoverableData).insertionSort fun a b =>
      snapTs a ≤ snapTs b :=
    (mem_insertionSort _).mpr (mem_filter.mpr ⟨mem, real⟩)
  intro x hx
  rw [baselineKeepIds, if_neg (ne_nil_of_mem hreal)]
  exact mem_append_right _ hx

theorem mem_gfsKeepIdsInner (policy : SlaPolicy) :
    c.id ∈ gfsKeepIdsInner policy snapshots ↔ c.id ∈ latestIds snapshots ∨
      PeriodOpen dayOf (policy.gfsDailyCount.getD 0) snapshots c ∨
        PeriodOpen weekOf (policy.gfsWeeklyCount.getD 0) snapshots c ∨
        PeriodOpen monthOf (policy.gfsMonthlyCount.getD 0) snapshots c ∨
        PeriodOpen yearOf (policy.gfsYearlyCount.getD 0) snapshots c := by
  rw [gfsKeepIdsInner, if_neg (ne_nil_of_mem (newestComplete_mem hc).1)]
  simp only [mem_append, mem_pickBucketWinners nodup hc, or_assoc]

theorem mem_flatKeepIdsInner (h : flatKeepIdsInner policy now snapshots = .ok keep) :
    c.id ∈ keep ↔ (c.id ∈ latestIds snapshots ∨
      ∀ days ∈ flatKeepDays policy, 0 < days → TakenWithin now days c) := by
  have mem := (newestComplete_mem hc).1
  have all : c.id ∈ snapshots.map (·.id) := mem_map_of_mem mem
  rw [flatKeepIdsInner, if_neg (ne_nil_of_mem mem)] at h
  split at h
  case h_1 unlimited =>
    cases h
    exact iff_of_true all (.inr (by simp [unlimited]))
  case h_2 days hdays =>
    split at h
    case isTrue nonpos =>
      cases h
      refine iff_of_true all (.inr ?_)
      intro d hd pos
      cases hdays.symm.trans hd
      omega
    case isFalse pos =>
      obtain ⟨cut, hcut, h⟩ := of_bind h
      cases h
      rw [mem_append, mem_keptSince nodup hc, cutoff_ok hcut, or_comm, hdays]
      simp [Int.not_le.mp pos]

theorem mem_archivedKeepIdsInner (h : archivedKeepIdsInner policy now snapshots = .ok (some keep)) :
    c.id ∈ keep ↔ c.id ∈ latestIds snapshots ∨ InWindow true policy now snapshots c := by
  have mem := (newestComplete_mem hc).1
  have all : c.id ∈ snapshots.map (·.id) := mem_map_of_mem mem
  rw [archivedKeepIdsInner, if_neg (ne_nil_of_mem mem)] at h
  cases mode : policy.archivedRetentionMode with
  | keepAll =>
    simp only [mode] at h
    cases h
    exact iff_of_true all (.inr (by simp [InWindow, mode]))
  | keepLast =>
    simp only [mode] at h
    cases h
    simp [InWindow, mode]
  | custom =>
    simp only [mode] at h
    simp only [InWindow, mode]
    split at h
    case h_1 unlimited =>
      cases h
      exact iff_of_true all (.inr (by simp [unlimited]))
    case h_2 days hdays =>
      obtain ⟨cut, hcut, h⟩ := of_bind h
      cases h
      rw [mem_append, mem_keptSince nodup hc, cutoff_ok hcut, or_comm, hdays]
      simp
  | same =>
    simp only [mode] at h
    cases h

omit nodup in
theorem archivedRetentionMode_of_none (h : archivedKeepIdsInner policy now snapshots = .ok none) :
    policy.archivedRetentionMode = .same := by
  rw [archivedKeepIdsInner, if_neg (ne_nil_of_mem (newestComplete_mem hc).1)] at h
  split at h
  · cases h
  · cases h
  · split at h
    · cases h
    · obtain ⟨_, -, h⟩ := of_bind h
      cases h
  · assumption

theorem mem_modeKeepIds (normal : archived = true → policy.archivedRetentionMode = .same)
    (h : modeKeepIds policy now snapshots = .ok keep) :
    c.id ∈ keep ↔ c.id ∈ latestIds snapshots ∨ c.id ∈ baselineKeepIds snapshots ∨
      InWindow archived policy now snapshots c := by
  have anchors := fullAnchorIds_subset hc
  have window : InWindow archived policy now snapshots c =
      InWindow false policy now snapshots c := by
    cases archived with
    | false => rfl
    | true => simp only [InWindow, normal rfl]
  rw [window]
  rw [modeKeepIds] at h
  simp only [InWindow]
  split at h
  case h_1 mode =>
    cases h
    rw [mode, gfsKeepIds, withBaseline, mem_append, mem_append, mem_gfsKeepIdsInner nodup hc]
    have := @anchors c.id
    grind
  case h_2 mode =>
    obtain ⟨flat, hflat, h⟩ := of_bind h
    cases h
    obtain ⟨inner, hinner, hflat⟩ := of_bind hflat
    cases hflat
    rw [mode, withBaseline, mem_append, mem_append, mem_flatKeepIdsInner nodup hc hinner]
    have := @anchors c.id
    grind

/-- The newest completed restore point is kept exactly when no completed row is newer, or no restorable
row with data is, or it is an anchor, or the policy's window reaches it. -/
theorem newestComplete_kept_iff {archived : Bool} {policy : SlaPolicy} {now : Time}
    {keep : List Uuid} (h : keepIds archived policy now snapshots = .ok keep) :
    c.id ∈ keep ↔ newest (snapshots.filter isCompleted) = some c ∨
      newest ((snapshots.filter holdsRecoverableData).filter isRestorable) = some c ∨
      c.id ∈ baselineKeepIds snapshots ∨ InWindow archived policy now snapshots c := by
  rw [← or_assoc, ← mem_latestIds nodup hc]
  obtain ⟨chosen, hchosen, h⟩ := of_bind h
  cases archived with
  | false =>
    cases hchosen
    exact mem_modeKeepIds nodup hc nofun h
  | true =>
    obtain ⟨inner, hinner, hchosen⟩ := of_bind hchosen
    cases hchosen
    cases inner with
    | some ids =>
      cases h
      rw [mem_append, mem_archivedKeepIdsInner nodup hc hinner]
      grind
    | none => exact mem_modeKeepIds nodup hc (fun _ => archivedRetentionMode_of_none hc hinner) h

omit nodup hc

def prunedHistory : List Snapshot :=
  let day := fun n => some (n * dayLength)
  [{ id := 1, resourceId := 0, status := some .completed, startedAt := day 739000,
     itemCount := some 100 },
    { id := 2, resourceId := 0, status := some .completed, startedAt := day 739010,
      itemCount := some 50 },
    { id := 3, resourceId := 0, status := some .partialRun, startedAt := day 739012,
      itemCount := some 60 },
    { id := 4, resourceId := 0, status := some .completed, startedAt := day 739013,
      extraData := { skippedConcurrent := true } }]

theorem prunedHistory_keeps_within_days : newestComplete prunedHistory = prunedHistory[1]? ∧
      keepIds false { id := 9, retentionDays := some 10 } (739015 * dayLength) prunedHistory =
        .ok [2, 3, 4, 4, 3, 3, 4, 1, 1, 1] ∧ 2 ∈ [2, 3, 4, 4, 3, 3, 4, 1, 1, 1] := by
  have nodup : (prunedHistory.map (·.id)).Nodup := by decide
  have first : newestComplete prunedHistory = some prunedHistory[1] := by decide
  have call : keepIds false { id := 9, retentionDays := some 10 } (739015 * dayLength)
      prunedHistory = .ok [2, 3, 4, 4, 3, 3, 4, 1, 1, 1] := by decide
  have window : InWindow false { id := 9, retentionDays := some 10 } (739015 * dayLength)
      prunedHistory prunedHistory[1] := by
    intro days hdays _
    cases hdays
    decide
  exact ⟨first, call, (newestComplete_kept_iff nodup first call).mpr (.inr (.inr (.inr window)))⟩

theorem prunedHistory_loses_complete : newestComplete prunedHistory = prunedHistory[1]? ∧
      keepIds false { id := 9, retentionMode := .gfs, gfsDailyCount := some 1 }
        (739015 * dayLength) prunedHistory = .ok [4, 3, 3, 4, 3, 1, 1, 1] := by
  decide

open Db

variable {cfg : PassConfig} {db db' : Db} {run : TenantRun} {jobs : List (Resource × Time)}

abbrev PassConfig.Prunes (cfg : PassConfig) : Db → Db → Prop := Pruned {_x | cfg.deleteEnabled}

theorem enforceResource_pruned (wf : db.Wf) (h : enforceResource cfg now policy res db = .ok db') :
    cfg.Prunes db db' := by
  have kept : Kept db (restateLyingCounters now res.id db) := FoldKept.kept wf
    ⟨lineage_setWhere (fun _ => rfl) (fun _ => rfl) fun _ => rfl, ids_setWhere fun _ => rfl, id⟩
  simp only [enforceResource] at h
  split at h
  · cases h
  · split at h
    case isFalse =>
      cases h
      exact .of_kept wf kept
    case isTrue due =>
      rw [Bool.and_eq_true, decide_eq_true_eq] at due
      rw [deleteSnapshots, if_neg due.2] at h
      split at h
      case h_1 => cases h
      case h_2 deleted =>
        cases h
        exact (Pruned.of_kept wf kept).trans ((deleteLocked_pruned kept.wf
          (fun _ => mem_lockedRows kept.wf) deleted).mono fun _ _ => due.1)

theorem turns_pruned (committed : cfg.Prunes db run.committed)
    (working : cfg.Prunes db run.working) :
    cfg.Prunes db (match jobs.foldlM (enforceStep cfg) run with
      | .error committed => committed
      | .ok run => run.working) := by
  induction jobs generalizing run with
  | nil => exact working
  | cons job jobs ih =>
    rw [foldlM_cons]
    fun_cases enforceStep cfg run job with
    | case1 | case2 => exact ih committed working
    | case3 => exact committed
    | case4 policy known idle db₁ done due =>
      have working := working.trans (enforceResource_pruned working.wf done)
      exact ih working working
    | case5 policy known idle db₁ done due =>
      exact ih committed (working.trans (enforceResource_pruned working.wf done))

/-- A tenant's pass, wherever it stops, leaves every snapshot that survives it with the captured
items it had, sparse item types aside, and loses none unless deletion is enabled. -/
theorem tenant_pass_keeps_inventories (cfg : PassConfig) (jobs : List (Resource × Time)) (db : Db)
    (wf : db.TablesWf) :
    let db' := enforceRetentionForTenant cfg jobs db
    (∀ s ∈ db'.snapshots, ∀ p : Payload, ¬ p.itemType.sparse →
      ((∃ i ∈ db'.snapshotItemsEffective s.id, i.toPayload = p) ↔
        ∃ i ∈ db.snapshotItemsEffective s.id, i.toPayload = p)) ∧
      (cfg.deleteEnabled = false → ∀ s ∈ db.snapshots, ∃ x, db'.snapshot? s.id = some x) := by
  intro db'
  have start : cfg.Prunes db db := .refl wf.wf
  have pruned : cfg.Prunes db db' := turns_pruned start start
  refine ⟨fun s hs p dense => ?_, fun off s hs => pruned.spared s hs (by simp [off])⟩
  obtain ⟨x, hx⟩ := pruned.known s hs
  have hs' := (snapshot?_eq_some pruned.wf.snapshot_ids).mpr ⟨hs, rfl⟩
  rw [effective_lineage hs' dense, effective_lineage hx dense, pruned.inventory s hs]

theorem sharedHistory_survives_pass :
    let policy : SlaPolicy := { id := 1, isDefault := true, retentionDays := some 1 }
    let db' := enforceRetentionForTenant ⟨true, fun _ => "", [policy]⟩ [({ id := 0 }, 86400000005)]
      sharedHistory
    db'.snapshots.map (·.id) = [1, 5, 6] ∧
      ∀ s ∈ db'.snapshots, ∀ p : Payload, ¬ p.itemType.sparse →
        ((∃ i ∈ db'.snapshotItemsEffective s.id, i.toPayload = p) ↔
          ∃ i ∈ sharedHistory.snapshotItemsEffective s.id, i.toPayload = p) :=
  ⟨by decide +kernel, (tenant_pass_keeps_inventories _ _ sharedHistory (by decide +kernel)).1⟩

end TmVault.Retention
