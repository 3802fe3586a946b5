import TmVault.Copy.Batch

namespace TmVault.Copy

open Relational Concurrency Store Work Option

inductive Ack
  | heard | lost | rolledBack
  deriving DecidableEq

structure Suspension where
  receipt : SealReceipt
  (before after : World)

structure Sealer where
  system : System
  capture : CopyCollection
  suspensions : List Suspension := []

section

variable (w : World) (now : Time) (capture : CopyCollection) (own : Option ResumeClaim)
  (provider : Option Provider.ProviderClaim) (continuation : String) (receiptOnly : Bool)

def noted : Option SealReceipt :=
  if capture.error || 65536 < continuation.utf8ByteSize ||
      capture.sealReceipt.any (·.continuation ≠ continuation) || capture.sealedResult.isSome then none
  else
    match sealDecision w capture own continuation receiptOnly with
    | .ok (.suspend r _ _) => some r
    | _ => none

/-- A receipt stays in the capture when the transaction is rolled back, and the result of a commit is
only there once it was heard of. -/
def Sealer.attempt (s : Sealer) (ack : Ack) : Sealer :=
  let w := s.system.world
  let receipt := noted w s.capture own continuation receiptOnly
  let kept := { s.capture with sealReceipt := receipt.or s.capture.sealReceipt }
  match sealCurrentCopy w now s.capture own provider continuation receiptOnly with
  | .error _ => { s with capture := kept }
  | .ok (w', sealed) =>
    if ack = .rolledBack then { s with capture := kept }
    else {
      system := { s.system with world := w' }, capture := if ack = .heard then sealed else kept
      suspensions := receipt.toList.map (⟨·, w, w'⟩) ++ s.suspensions }

end

inductive SealEvent
  | other (op : Op)
  | attempt (now : Time) (own : Option ResumeClaim) (provider : Option Provider.ProviderClaim)
      (continuation : String) (receiptOnly : Bool) (ack : Ack)

def Sealer.step (env : Env) (s : Sealer) : SealEvent → Sealer
  | .other op => { s with system := op.run env s.system }
  | .attempt now own provider continuation receiptOnly ack =>
    s.attempt now own provider continuation receiptOnly ack

def SealEvent.Lawful (s : Sealer) : SealEvent → Prop
  | .other op => op.Lawful s.system
  | .attempt .. => True

def Stored (w : World) (r : SealReceipt) : Prop :=
  ∃ f ∈ w.workflows, f.id = r.workflowId ∧ f.state = .waiting ∧ f.generation = r.generation + 1 ∧
    f.continuation = r.continuation

structure Suspension.Advances (x : Suspension) : Prop where
  before : ∃ f ∈ x.before.workflows, f.id = x.receipt.workflowId ∧ f.generation = x.receipt.generation
  after : Stored x.after x.receipt

section

variable {env : Env} {w w' : World} {now : Time} {capture sealed : CopyCollection}
  {own : Option ResumeClaim} {provider : Option Provider.ProviderClaim} {continuation : String}
  {receiptOnly : Bool} {s : Sealer} {r : SealReceipt}

theorem suspend_workflow (mem : f ∈ w.workflows)
    (h : suspend w now provider continuation f snapshot = .ok w') :
    ∃ f' ∈ w'.workflows, f'.id = f.id ∧ f'.state = .waiting ∧ f'.generation = f.generation + 1 ∧
      f'.continuation = continuation := by
  obtain ⟨w₁, handed, h⟩ := of_bind h
  cases h
  obtain ⟨queues, control, aligned⟩ := @alignReadyWorkflow_eq (w₁.writeLease
    ((lockParents w f).leaf snapshot) ((lockParents w f).leaseToken snapshot + 1) none none) f
  refine ⟨_, mem_updateKey.mpr (.inr ⟨f, ?_, rfl, rfl⟩), rfl, rfl, rfl, rfl⟩
  rw [aligned]
  exact ((handOffFrom_ok handed).trans .writeLease).workflows ▸ mem

/-- An attempt that does not come to write leaves the tables alone, and has a result only where the
receipt is stored. One that does writes what its receipt says. -/
theorem sealCurrentCopy_cases
    (h : sealCurrentCopy w now capture own provider continuation receiptOnly = .ok (w', sealed)) :
    (∀ r ∈ capture.sealReceipt, r.continuation = continuation) ∧
      (noted w capture own continuation receiptOnly = none ∧ w' = w ∧
          (sealed = capture ∨ capture.sealedResult = none ∧
            ∃ r, capture.sealReceipt = some r ∧ Stored w r ∧
              sealed = { capture with sealedResult := some r.workflowId }) ∨
        ∃ r, noted w capture own continuation receiptOnly = some r ∧ r.continuation = continuation ∧
          (∀ r' ∈ capture.sealReceipt, r' = r) ∧ Suspension.Advances ⟨r, w, w'⟩ ∧
          sealed = { capture with sealReceipt := some r, sealedResult := some r.workflowId }) := by
  obtain ⟨noError, h⟩ := of_failIf h
  obtain ⟨bounded, h⟩ := of_failIf h
  obtain ⟨same, h⟩ := of_failIf h
  refine ⟨fun r receipt => by simpa [mem_def.mp receipt] using same, ?_⟩
  cases result : capture.sealedResult with
  | some id =>
    simp only [result, isSome_some, if_true] at h
    cases h
    exact .inl ⟨by simp [noted, result], rfl, .inl rfl⟩
  | none =>
    have reached : noted w capture own continuation receiptOnly =
        match sealDecision w capture own continuation receiptOnly with
        | .ok (.suspend r _ _) => some r
        | _ => none := by
      rw [noted, noError, bounded, same, result]
      rfl
    simp only [result, isSome_none, Bool.false_eq_true, if_false] at h
    obtain ⟨decision, decided, h⟩ := of_bind h
    rw [reached, decided]
    rcases sealDecision_ok decided with rfl | ⟨r, rfl, receipt, f, mem, matching⟩ |
      ⟨f, snapshot, rfl, mem, -, held⟩
    · cases h
      exact .inl ⟨rfl, rfl, .inl rfl⟩
    · cases h
      simp only [matchesSealReceipt, Bool.and_eq_true, decide_eq_true_eq] at matching
      obtain ⟨⟨⟨⟨⟨⟨⟨⟨⟨⟨id, state⟩, generation⟩, -⟩, stored⟩, -⟩, -⟩, -⟩, -⟩, -⟩, -⟩ := matching
      exact .inl ⟨rfl, rfl, .inr ⟨rfl, r, receipt, ⟨f, mem, id, state, generation, stored⟩, rfl⟩⟩
    · obtain ⟨w₁, suspended, h⟩ := of_bind h
      cases h
      obtain ⟨f', mem', id, state, generation, stored⟩ := suspend_workflow mem suspended
      refine .inr ⟨_, rfl, ?_⟩
      cases receipt : capture.sealReceipt with
      | none => exact ⟨rfl, by simp, ⟨⟨f, mem, rfl, rfl⟩, f', mem', id, state, generation, stored⟩, rfl⟩
      | some r =>
        obtain ⟨sameId, sameGeneration⟩ := held r receipt
        have continued : r.continuation = continuation := by simpa [receipt] using same
        refine ⟨continued, by simp, ⟨⟨f, mem, sameId, sameGeneration⟩, f', mem', ?_⟩, rfl⟩
        exact ⟨id.trans sameId, state, generation.trans (congrArg (· + 1) sameGeneration),
          stored.trans continued.symm⟩

def Grows (w w' : World) : Prop :=
  ∀ f ∈ w.workflows, ∃ f' ∈ w'.workflows, f'.id = f.id ∧ f.generation ≤ f'.generation

theorem Grows.of_inPlace (h : InPlace Passes w.workflows w'.workflows) : Grows w w' := by
  intro f mem
  obtain ⟨f', mem', passes⟩ := InPlace.of_mem h.flip mem
  exact ⟨f', mem', passes.id, passes.generation⟩

theorem Grows.updateWorkflow
    (h : ∀ f, (g f).id = f.id ∧ f.generation ≤ (g f).generation) : Grows w (w.updateWorkflow key g) := by
  intro f mem
  refine ⟨_, List.mem_map_of_mem mem, ?_⟩
  dsimp only
  split
  · exact h f
  · exact ⟨rfl, le_rfl⟩

theorem Effect.grows {s s' : System} {op : Op} (h : Effect env s op s') : Grows s.world s'.world := by
  have same : Grows s.world s.world := fun f mem => ⟨f, mem, rfl, le_rfl⟩
  cases h with
  | calm calm => exact .of_inPlace calm.workflows
  | enqueued enqueued =>
    obtain ⟨kept, added, inPlace, all, -⟩ := enqueued.workflows
    intro f mem
    obtain ⟨f', mem', reopens⟩ := InPlace.of_mem inPlace.flip mem
    refine ⟨f', all ▸ List.mem_append_left added mem', ?_⟩
    rcases reopens with rfl | ⟨rfl, id, -, -, generation⟩
    · exact ⟨rfl, le_rfl⟩
    · exact ⟨id, generation⟩
  | ran ran => exact fun f mem => ⟨f, ran.workflows.symm ▸ mem, rfl, le_rfl⟩
  | adopted | finished => exact .updateWorkflow fun _ => ⟨rfl, le_rfl⟩
  | @takenOver _ _ f _ c found taken =>
    obtain ⟨now, token, snapshotToken, untouched⟩ := taken.world
    have resumed : Grows s.world
        (s.world.updateWorkflow f.id (resumeWorkflow now c.ownerId token snapshotToken)) :=
      .updateWorkflow fun _ => ⟨rfl, Nat.le_succ _⟩
    intro g mem
    rw [untouched.workflows]
    exact resumed g mem
  | read | unread | dropped => exact same

structure SealInv (s : Sealer) : Prop where
  sound : Sound s.system.world
  once : s.suspensions = [] ∨ ∃ x, s.suspensions = [x] ∧ s.capture.sealReceipt = some x.receipt ∧
    ∃ f ∈ s.system.world.workflows, f.id = x.receipt.workflowId ∧ x.receipt.generation < f.generation
  advances : ∀ x ∈ s.suspensions, x.Advances
  result : ∀ id ∈ s.capture.sealedResult, ∃ r, s.capture.sealReceipt = some r ∧ r.workflowId = id

theorem SealInv.grows (inv : SealInv s) (sound : Sound system.world)
    (grows : Grows s.system.world system.world) : SealInv { s with system } where
  sound
  once := by
    refine inv.once.imp id ?_
    rintro ⟨x, only, receipt, f, mem, id, past⟩
    obtain ⟨f', mem', id', le⟩ := grows f mem
    exact ⟨x, only, receipt, f', mem', id'.trans id, past.trans_le le⟩
  advances := inv.advances
  result := inv.result

theorem SealInv.unsuspended (inv : SealInv s) (same : ∀ r' ∈ s.capture.sealReceipt, r' = r)
    (before : ∃ f ∈ s.system.world.workflows, f.id = r.workflowId ∧ f.generation = r.generation) :
    s.suspensions = [] := by
  refine inv.once.resolve_right ?_
  rintro ⟨x, -, receipt, f, mem, id, past⟩
  cases same x.receipt receipt
  obtain ⟨g, mem', id', now⟩ := before
  have : g = f := List.inj_on_of_nodup_map inv.sound.workflow_ids mem' mem (id'.trans id.symm)
  exact absurd (this ▸ now) past.ne'

theorem SealInv.note (inv : SealInv s)
    (same : ∀ r' ∈ s.capture.sealReceipt, r' = r) (idle : s.suspensions = []) :
    SealInv { s with capture := { s.capture with sealReceipt := some r } } where
  sound := inv.sound
  once := .inl idle
  advances := inv.advances
  result id hid := by
    obtain ⟨r', receipt, workflow⟩ := inv.result id hid
    exact ⟨r, rfl, same r' receipt ▸ workflow⟩

theorem noted_spec (h : noted w capture own continuation receiptOnly = some r) :
    (∀ r' ∈ capture.sealReceipt, r' = r) ∧
      ∃ f ∈ w.workflows, f.id = r.workflowId ∧ f.generation = r.generation := by
  unfold noted at h
  split at h
  · cases h
  split at h
  · rename_i decided
    cases h
    rcases sealDecision_ok decided with h | ⟨_, h, -⟩ | ⟨f, _, h, mem, -, held⟩
    · cases h
    · cases h
    · rw [(SealDecision.suspend.inj h).1]
      cases receipt : capture.sealReceipt with
      | none => exact ⟨by simp, f, mem, rfl, rfl⟩
      | some r => exact ⟨by simp, f, mem, held r receipt⟩
  · cases h

theorem SealInv.attempt (inv : SealInv s) (ack : Ack) :
    SealInv (s.attempt now own provider continuation receiptOnly ack) := by
  have kept : SealInv { s with capture := { s.capture with
      sealReceipt := (noted s.system.world s.capture own continuation receiptOnly).or
        s.capture.sealReceipt } } := by
    cases h : noted s.system.world s.capture own continuation receiptOnly with
    | none => exact inv
    | some r =>
      obtain ⟨same, before⟩ := noted_spec h
      exact inv.note same (inv.unsuspended same before)
  unfold Sealer.attempt
  dsimp only
  split
  · exact kept
  · rename_i w' sealed done
    split
    · exact kept
    obtain ⟨-, ⟨unnoted, rfl, found⟩ | ⟨r, hr, -, same, advances, rfl⟩⟩ := sealCurrentCopy_cases done
    · rw [unnoted] at kept ⊢
      split
      · rcases found with rfl | ⟨-, r, receipt, -, rfl⟩
        · exact inv
        · exact ⟨inv.sound, inv.once, inv.advances, fun id hid => ⟨r, receipt, some_inj.mp hid⟩⟩
      · exact kept
    · have idle := inv.unsuspended same advances.before
      have sound : Sound w' := by
        let op := Op.sealCopy now s.capture own provider continuation receiptOnly
        have effect : Effect {} s.system op (op.run {} s.system) := run_effect inv.sound trivial
        have ran := effect.sound inv.sound
        rwa [Op.run, done] at ran
      rw [hr, idle]
      obtain ⟨f, mem, id, -, generation, -⟩ := advances.after
      refine ⟨sound, .inr ⟨_, rfl, ?_, f, mem, id, generation ▸ Nat.lt_succ_self _⟩, ?_, ?_⟩
      · split <;> rfl
      · rintro x hx
        cases List.mem_singleton.mp hx
        exact advances
      · split
        · exact fun id hid => ⟨r, rfl, some_inj.mp hid⟩
        · exact (inv.note same idle).result

theorem SealInv.step (inv : SealInv s) (lawful : e.Lawful s) : SealInv (s.step env e) := by
  cases e with
  | other op =>
    have effect : Effect env s.system op (op.run env s.system) := run_effect inv.sound lawful
    exact inv.grows (effect.sound inv.sound) effect.grows
  | attempt => exact inv.attempt _

/-- A capture suspends its workflow once at most. An attempt that does not suspend leaves the tables
alone, and one that returns a new result has its continuation stored. -/
theorem seal_commits_once (env : Env) (s : System) (sound : Sound s.world)
    (fresh : capture.sealReceipt = none ∧ capture.sealedResult = none) (events : List SealEvent)
    (lawful : Along (Sealer.step env) (fun z e => e.Lawful z) ⟨s, capture, []⟩ events) :
    ∃ z, play (Sealer.step env) ⟨s, capture, []⟩ events = z ∧ z.suspensions.length ≤ 1 ∧
      (∀ x ∈ z.suspensions, x.Advances) ∧
      ∀ now own provider continuation receiptOnly w' sealed,
        sealCurrentCopy z.system.world now z.capture own provider continuation receiptOnly =
          .ok (w', sealed) →
        (noted z.system.world z.capture own continuation receiptOnly = none → w' = z.system.world) ∧
        ∀ id ∈ sealed.sealedResult, ∃ r, sealed.sealReceipt = some r ∧ r.workflowId = id ∧
          r.continuation = continuation ∧ (z.capture.sealedResult = none → Stored w' r) := by
  have start : SealInv ⟨s, capture, []⟩ := ⟨sound, .inl rfl, by simp, by simp [fresh.2]⟩
  have inv := Along.invariant (fun _ _ inv ok => inv.step ok) start lawful
  refine ⟨_, rfl, ?_, inv.advances, fun now own provider continuation receiptOnly w' sealed done => ?_⟩
  · rcases inv.once with none | ⟨x, only, -⟩
    · simp [none]
    · simp [only]
  obtain ⟨continued, ⟨-, rfl, found⟩ | ⟨r, noted, continuation, -, advances, rfl⟩⟩ :=
    sealCurrentCopy_cases done
  · refine ⟨fun _ => rfl, fun id hid => ?_⟩
    rcases found with rfl | ⟨-, r, receipt, stored, rfl⟩
    · obtain ⟨r, receipt, workflow⟩ := inv.result id hid
      refine ⟨r, receipt, workflow, continued r receipt, fun none => ?_⟩
      rw [none] at hid
      cases hid
    · exact ⟨r, receipt, some_inj.mp hid, continued r receipt, fun _ => stored⟩
  · refine ⟨fun none => ?_, fun id hid => ?_⟩
    · cases none.symm.trans noted
    · exact ⟨r, rfl, some_inj.mp hid, continuation, fun _ => advances.after⟩

end

def drainingCopy : System where
  world := {
    db := { snapshots := [{ id := 10, resourceId := 5, jobId := some 1, status := some .inProgress }] }
    jobs := [{ id := 1, tenantId := 1, status := .running }]
    workflows := [{ id := 30, leaf := ⟨10, none⟩, tenantId := 1, resourceId := 5, jobId := 1 }] }

def lostSeal : Sealer :=
  play (Sealer.step {}) ⟨drainingCopy, { snapshotId := 10 }, []⟩ [.attempt 0 none none "next" false .lost]

theorem lostSeal_found : lostSeal.suspensions.length = 1 ∧
    ∃ w' sealed r, sealCurrentCopy lostSeal.system.world 1 lostSeal.capture none none "next" true =
      .ok (w', sealed) ∧ sealed.sealedResult = some 30 ∧ r.continuation = "next" ∧ Stored w' r := by
  refine ⟨by decide +kernel, ?_⟩
  have fresh : ({ snapshotId := 10 } : CopyCollection).sealReceipt = none ∧
      ({ snapshotId := 10 } : CopyCollection).sealedResult = none := ⟨rfl, rfl⟩
  obtain ⟨z, rfl, -, -, later⟩ := seal_commits_once {} drainingCopy ⟨by decide, by decide⟩ fresh
    [.attempt 0 none none "next" false .lost] ⟨trivial, trivial⟩
  have view : (sealCurrentCopy lostSeal.system.world 1 lostSeal.capture none none "next" true).toOption.bind
      (·.2.sealedResult) = some 30 := by decide +kernel
  have unheard : lostSeal.capture.sealedResult = none := by decide +kernel
  cases done : sealCurrentCopy lostSeal.system.world 1 lostSeal.capture none none "next" true with
  | error e =>
    rw [done] at view
    cases view
  | ok pair =>
    rw [done] at view
    obtain ⟨r, -, -, continuation, stored⟩ := (later _ _ _ _ _ _ _ done).2 30 view
    exact ⟨pair.1, pair.2, r, rfl, view, continuation, stored unheard⟩

end TmVault.Copy
