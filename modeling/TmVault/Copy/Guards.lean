import TmVault.Copy.Workflow

namespace TmVault.Copy.Guards

open Relational Store Work

structure Scope where
  (snapshotId partitionId jobId : Option Uuid := none)
  named : snapshotId.isSome || partitionId.isSome || jobId.isSome

def Scope.covers (scope : Scope) (leaf : Leaf) (jobId : Uuid) : Bool :=
  scope.snapshotId.all (leaf.snapshotId = ·) && scope.partitionId.all (leaf.partitionId = some ·) &&
    scope.jobId.all (jobId = ·)

structure OwnClaim where
  (workId ownerId : Uuid)
  generation : Nat
  deriving DecidableEq

inductive Settling
  | nothing
  | parent
  | claim (own : OwnClaim)
  deriving DecidableEq

structure Ambient where
  copyWorkEnabled : Bool := true
  copyGuardsActive : Bool := false
  providerWorkEnabled : Bool := true
  providerGuards : Bool := false
  current : Option OwnClaim := none
  deferred : Bool := false
  settling : Settling := .nothing
  resuming : Option ResumeClaim := none
  parentSettlement : Bool := false

namespace Ambient

variable (a : Ambient)

def settlement : Option OwnClaim :=
  match a.settling with
  | .claim own => some own
  | _ => none

def guardsEnabled : Bool :=
  a.providerGuards || a.providerWorkEnabled || a.current.isSome || a.settlement.isSome

def copyWorkGuardsEnabled : Bool :=
  a.copyWorkEnabled || a.copyGuardsActive || a.resuming.isSome || a.guardsEnabled

def guardClaim : Option OwnClaim :=
  match a.settlement with
  | some own => some own
  | none => if a.deferred then none else a.current

end Ambient

section

variable (a : Ambient) (w : World) (now : Time) (scope : Scope)

def blocks (r : ProviderWork) : Bool :=
  (r.state.isActive || a.settling = .nothing && r.parentSettlePending) &&
    scope.covers r.leaf r.jobId && a.guardClaim.all (r.id ≠ ·.workId)

def isOwn (own : OwnClaim) (r : ProviderWork) : Bool :=
  r.id = own.workId && r.generation = own.generation &&
    (if a.settlement.isSome then r.state ∈ [.completed, .partialRun, .failed] && r.parentSettlePending
      else r.state = .resuming) &&
    r.leaseOwnerId = some own.ownerId && r.leaseExpiresAt.any (now < ·)

def pendingProviderSql : Bool :=
  !a.guardsEnabled ||
    !w.works.any (blocks a scope) && a.guardClaim.all fun own => w.works.any (isOwn a now own)

def hasPendingProvider : Bool :=
  if a.guardClaim.any fun own => !w.works.any (isOwn a now own) then true
  else w.works.any (blocks a scope)

end

section

variable (a : Ambient) (w : World) (now : Time) (scope : Scope)

def copyBlocks (f : CopyWorkflow) : Bool :=
  (f.state.isActive || !a.parentSettlement && f.parentSettlePending) &&
    scope.covers f.leaf f.jobId && a.resuming.all (f.id ≠ ·.workflowId)

def isResumed (c : ResumeClaim) (f : CopyWorkflow) : Bool :=
  f.id = c.workflowId && f.state = .resuming && f.leaseOwnerId = some c.ownerId &&
    f.generation = c.generation && f.parentLeaseToken = c.parentLeaseToken

def pendingCopySql : Bool :=
  !a.copyWorkGuardsEnabled ||
    !w.workflows.any (copyBlocks a scope) && a.resuming.all (fun c => w.workflows.any (isResumed c)) &&
      pendingProviderSql a w now scope

def hasPendingCopy : Bool :=
  if !a.copyWorkGuardsEnabled then false
  else if a.guardsEnabled && hasPendingProvider a w now scope then true
  else if a.resuming.any fun c => !resumeHolds w c then true
  else w.workflows.any (copyBlocks a scope)

end

variable {a : Ambient} {w : World} {now start : Time} {scope : Scope}

/-- What `verify_copy_resume` asks beyond the statement's guard: the workflow's job and snapshot are
there and not cancelled, and the leaf has the claim's token. -/
def parentsHold (w : World) (c : ResumeClaim) : Bool :=
  (w.workflow? c.workflowId).any fun f =>
    let l := lockParents w f
    l.job.any (fun job => job.status ∉ [.cancelled, .cancelling]) &&
      l.snapshot.any fun s => !truthy s.extraData.cancelledAt && l.leaseToken s = c.parentLeaseToken

theorem resumeHolds_iff (keyed : (w.workflows.map (·.id)).Nodup) :
    resumeHolds w c = true ↔ w.workflows.any (isResumed c) = true ∧ parentsHold w c = true := by
  have found (f : CopyWorkflow) : w.workflow? c.workflowId = some f ↔
      f ∈ w.workflows ∧ f.id = c.workflowId :=
    find?_key_eq_some keyed
  simp only [resumeHolds, parentsHold, isResumed, Option.any_eq_true, List.any_eq_true,
    Bool.and_eq_true, decide_eq_true_eq, found]
  constructor
  · rintro ⟨f, ⟨mem, key⟩, ⟨⟨⟨⟨state, generation⟩, owner⟩, token⟩, job⟩, snapshot⟩
    exact ⟨⟨f, mem, ⟨⟨⟨key, state⟩, owner⟩, generation⟩, token⟩, f, ⟨mem, key⟩, job, snapshot⟩
  · rintro ⟨⟨f, mem, ⟨⟨⟨⟨key, state⟩, owner⟩, generation⟩, token⟩⟩, g, ⟨mem', key'⟩, job, snapshot⟩
    cases List.inj_on_of_nodup_map keyed mem mem' (key.trans key'.symm)
    exact ⟨f, ⟨mem, key⟩, ⟨⟨⟨⟨state, generation⟩, owner⟩, token⟩, job⟩, snapshot⟩

theorem isOwn_mono (le : start ≤ now) (h : isOwn a now own r) : isOwn a start own r := by
  simp only [isOwn, Bool.and_eq_true, Option.any_eq_true_iff_get, decide_eq_true_eq] at h ⊢
  obtain ⟨rest, some, lt⟩ := h
  exact ⟨rest, some, le.trans_lt lt⟩

def ownsAt (a : Ambient) (w : World) (now : Time) : Prop :=
  ∀ own ∈ a.guardClaim, w.works.any (isOwn a now own) = true

theorem hasPendingProvider_eq_false : hasPendingProvider a w now scope = false ↔
    w.works.any (blocks a scope) = false ∧ ownsAt a w now := by
  unfold hasPendingProvider ownsAt
  cases a.guardClaim with
  | none => simp
  | some own => simp [and_comm]

theorem pendingProviderSql_eq_true : pendingProviderSql a w now scope = true ↔
    (a.guardsEnabled = true → w.works.any (blocks a scope) = false ∧ ownsAt a w now) := by
  unfold pendingProviderSql ownsAt
  cases a.guardsEnabled <;> cases a.guardClaim <;> simp

theorem copyWorkGuardsEnabled_eq_false (h : a.copyWorkGuardsEnabled = false) :
    a.resuming = none ∧ a.guardsEnabled = false := by
  simp only [Ambient.copyWorkGuardsEnabled, Bool.or_eq_false_iff, Option.isSome_eq_false_iff,
    Option.isNone_iff_eq_none] at h
  exact ⟨h.1.2, h.2⟩

theorem hasPendingCopy_eq_false : hasPendingCopy a w now scope = false ↔
    (a.copyWorkGuardsEnabled = true → (a.guardsEnabled = true → hasPendingProvider a w now scope = false) ∧
      (∀ c ∈ a.resuming, resumeHolds w c = true) ∧ w.workflows.any (copyBlocks a scope) = false) := by
  unfold hasPendingCopy
  cases a.copyWorkGuardsEnabled with
  | false => simp
  | true =>
    cases a.resuming with
    | none => cases a.guardsEnabled <;> cases hasPendingProvider a w now scope <;> simp
    | some c =>
      cases a.guardsEnabled <;> cases hasPendingProvider a w now scope <;> cases resumeHolds w c <;> simp

theorem pendingCopySql_eq_true : pendingCopySql a w now scope = true ↔
    (a.copyWorkGuardsEnabled = true → w.workflows.any (copyBlocks a scope) = false ∧
      (∀ c ∈ a.resuming, w.workflows.any (isResumed c) = true) ∧
      pendingProviderSql a w now scope = true) := by
  unfold pendingCopySql
  cases a.copyWorkGuardsEnabled <;> cases a.resuming <;> simp [and_assoc]

/-- The question before the write also asks that a resumed workflow's parents stand and that the
ambient claim owns its row. Without a resume claim, at one time, the two are opposite. -/
theorem hasPendingCopy_opposite (keyed : (w.workflows.map (·.id)).Nodup) (le : start ≤ now) :
    (hasPendingCopy a w now scope = false ↔ pendingCopySql a w start scope = true ∧
      (∀ c ∈ a.resuming, parentsHold w c = true) ∧ (a.guardsEnabled = true → ownsAt a w now)) ∧
    (a.resuming = none → start = now →
      hasPendingCopy a w now scope = !pendingCopySql a w start scope) := by
  have adds : hasPendingCopy a w now scope = false ↔ pendingCopySql a w start scope = true ∧
      (∀ c ∈ a.resuming, parentsHold w c = true) ∧ (a.guardsEnabled = true → ownsAt a w now) := by
    rw [hasPendingCopy_eq_false, pendingCopySql_eq_true, pendingProviderSql_eq_true,
      hasPendingProvider_eq_false]
    cases guards : a.copyWorkGuardsEnabled with
    | false =>
      obtain ⟨resuming, off⟩ := copyWorkGuardsEnabled_eq_false guards
      simp [resuming, off]
    | true =>
      simp only [forall_const, resumeHolds_iff keyed]
      have earlier (owns : ownsAt a w now) : ownsAt a w start := by
        intro own hown
        obtain ⟨r, hr, is⟩ := List.any_eq_true.mp (owns own hown)
        exact List.any_eq_true.mpr ⟨r, hr, isOwn_mono le is⟩
      constructor
      · rintro ⟨provider, resumed, copies⟩
        exact ⟨⟨copies, fun c hc => (resumed c hc).1,
          fun on => ⟨(provider on).1, earlier (provider on).2⟩⟩,
          fun c hc => (resumed c hc).2, fun on => (provider on).2⟩
      · rintro ⟨⟨copies, resumed, provider⟩, parents, owns⟩
        exact ⟨fun on => ⟨(provider on).1, owns on⟩, fun c hc => ⟨resumed c hc, parents c hc⟩, copies⟩
  refine ⟨adds, fun none same => ?_⟩
  subst same
  cases sql : pendingCopySql a w start scope with
  | false =>
    cases pending : hasPendingCopy a w start scope with
    | true => rfl
    | false => exact absurd (adds.mp pending).1 (by simp [sql])
  | true =>
    refine adds.mpr ⟨sql, fun c hc => by simp [none] at hc, fun on => ?_⟩
    have enabled : a.copyWorkGuardsEnabled = true := by simp [Ambient.copyWorkGuardsEnabled, on]
    exact (pendingProviderSql_eq_true.mp (pendingCopySql_eq_true.mp sql enabled).2.2 on).2

def resumedWorld (status : JobStatus) : World where
  db := { snapshots := [{ id := 2, resourceId := 1, jobId := some 3, leaseToken := 1 }] }
  jobs := [{ id := 3, tenantId := 1, status }]
  workflows := [{
    id := 7, leaf := ⟨2, none⟩, tenantId := 1, resourceId := 1, jobId := 3, state := .resuming
    generation := 3, parentLeaseToken := 1, leaseOwnerId := some 8 }]

def resumer : Ambient := { resuming := some ⟨7, 8, 3, 1⟩ }

def ofSnapshot (id : Uuid) : Scope := { snapshotId := some id, named := rfl }

theorem resumed_permitted : hasPendingCopy resumer (resumedWorld .running) 5 (ofSnapshot 2) = false := by
  have le : (4 : Time) ≤ 5 := by decide
  refine (hasPendingCopy_opposite (by decide) le).1.mpr ⟨by decide, ?_, ?_⟩
  · rintro c ⟨⟩
    decide
  · intro _ own hown
    cases hown

/-- A cancelled job stops the question, not the statement. -/
theorem cancelled_permitted_and_pending :
    pendingCopySql resumer (resumedWorld .cancelled) 5 (ofSnapshot 2) = true ∧
      hasPendingCopy resumer (resumedWorld .cancelled) 5 (ofSnapshot 2) = true := by
  decide

end TmVault.Copy.Guards
