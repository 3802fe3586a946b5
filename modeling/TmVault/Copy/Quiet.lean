import TmVault.Concurrency.Runs
import TmVault.Copy.Workflow

namespace TmVault.Copy

open Relational Store Work

section

/-- A `finish_resume` call that has made its first read. `latest` is the newest claim of the workflow at
that read. -/
structure Finishing where
  claim : ResumeClaim
  seen : CopyWorkflow
  latest : Option ResumeClaim
  deriving DecidableEq

/-- The tables, the claims `begin_resume` has handed out, the newest first, and the `finish_resume`
calls under way. A worker that crashes only stops. -/
structure System where
  world : World := {}
  resumeClaims : List ResumeClaim := []
  finishing : List Finishing := []

def System.latest (s : System) (workflowId : Uuid) : Option ResumeClaim :=
  s.resumeClaims.find? (·.workflowId = workflowId)

/-- A transaction, or the first read of `finish_resume`. The clock of each is arbitrary, so a lease runs
out at any point. -/
inductive Op
  | enqueue (now : Time) (workflowId taskId : Uuid) (req : CopyRequest)
  | sealCopy (now : Time) (capture : CopyCollection) (own : Option ResumeClaim)
      (provider : Option Provider.ProviderClaim) (continuation : String) (receiptOnly : Bool)
  | claim (now : Time) (busy : Bool) (locked : List Uuid) (owner : Uuid) (leaseSeconds : Nat)
  | batch (now : Time) (call : BatchCall)
  | settle (now : Time) (claim : CopyClaim) (cause : Cause)
  | release (now : Time) (claim : CopyClaim)
  | beginResume (now : Time) (workflowId owner : Uuid)
  | verifyResume (now : Time) (claim : ResumeClaim)
  | finishRead (claim : ResumeClaim)
  | finishResume (now : Time) (call : Nat) (failed : Bool)
  | settleParent (workflowId : Uuid)
  | cancel (now : Time) (scope : CancelScope) (reason : String) (terminal : AbortState)
  | others (world : World)

namespace System

variable (s : System)

def commit {ε : Type} : Except ε World → System
  | .ok world => { s with world }
  | .error _ => s

def handOut : Except Failure (World × Option ResumeClaim) → System
  | .ok (world, claim) => { s with world, resumeClaims := claim.toList ++ s.resumeClaims }
  | .error _ => s

def read (claim : ResumeClaim) : System :=
  match s.world.workflow? claim.workflowId with
  | some seen => { s with finishing := ⟨claim, seen, s.latest claim.workflowId⟩ :: s.finishing }
  | none => s

def finish (now : Time) (call : Nat) (failed : Bool) : System :=
  match s.finishing[call]? with
  | none => s
  | some p =>
    { s.commit (finishResume s.world now p.seen p.claim.ownerId failed) with
      finishing := s.finishing.eraseIdx call }

end System

variable (env : Env)

def Op.run (s : System) : Op → System
  | .enqueue now workflowId taskId req =>
    s.commit ((Copy.enqueue env s.world now workflowId taskId req).map (·.1))
  | .sealCopy now capture own provider continuation receiptOnly =>
    s.commit ((sealCurrentCopy s.world now capture own provider continuation receiptOnly).map (·.1))
  | .claim now busy locked owner leaseSeconds =>
    s.commit ((Copy.claim env s.world now busy locked owner leaseSeconds).map (·.1))
  | .batch now call => s.commit (batchTransaction env s.world now call)
  | .settle now c cause =>
    match afterFailure cause with
    | .settle settlement => { s with world := settleOnce s.world now c settlement }
    | _ => s
  | .release now c => { s with world := releaseCancelledClaim s.world now c }
  | .beginResume now workflowId owner => s.handOut (Copy.beginResume s.world now workflowId owner)
  | .verifyResume now c => { s with world := (verifyCopyResume s.world now c).1 }
  | .finishRead c => s.read c
  | .finishResume now call failed => s.finish now call failed
  | .settleParent workflowId => { s with world := finishParentSettlement s.world workflowId }
  | .cancel now scope reason terminal => s.commit (cancelCopyWork s.world now scope reason terminal)
  | .others world => { s with world }

def untokened (f : CopyWorkflow) : CopyWorkflow :=
  { f with parentLeaseToken := 0, snapshotLeaseToken := 0, jobLeaseToken := 0 }

structure SameWork (w w' : World) : Prop where
  workflows : w'.workflows.map untokened = w.workflows.map untokened
  tasks : w'.copyTasks = w.copyTasks
  items : w'.copyItems = w.copyItems
  queues : w'.copyQueues = w.copyQueues

def Op.Lawful (s : System) : Op → Prop
  | .others world => SameWork s.world world
  | .finishRead c => c ∈ s.resumeClaims
  | _ => True

end

structure Progress where
  (id workflowId : Uuid)
  captureAttempt : Nat
  kind : CopyKind
  idempotencyKey : IdempotencyKey
  prepared : Bool
  checkpoint : Int
  rowCount : Nat
  bytesCount : Int

def progress (t : CopyWorkTask) : Progress where
  id := t.id
  workflowId := t.workflowId
  captureAttempt := t.captureAttempt
  kind := t.kind
  idempotencyKey := t.idempotencyKey
  prepared := t.prepared
  checkpoint := t.checkpoint
  rowCount := t.rowCount
  bytesCount := t.bytesCount

structure Idle (t t' : CopyWorkTask) : Prop where
  progress : progress t' = progress t
  completed : t'.state = .completed ↔ t.state = .completed

namespace Idle

variable {t t' : CopyWorkTask}

theorem refl (t : CopyWorkTask) : Idle t t := ⟨rfl, .rfl⟩

theorem trans (h : Idle t t') (h' : Idle t' t'') : Idle t t'' :=
  ⟨h'.progress.trans h.progress, h'.completed.trans h.completed⟩

theorem of_open (progress : Copy.progress t' = Copy.progress t) (h : t.state ≠ .completed)
    (h' : t'.state ≠ .completed) : Idle t t' :=
  ⟨progress, fun done => absurd done h', fun done => absurd done h⟩

variable (h : Idle t t')

include h

theorem id : t'.id = t.id := congrArg Progress.id h.progress

theorem workflowId : t'.workflowId = t.workflowId := congrArg Progress.workflowId h.progress

theorem captureAttempt : t'.captureAttempt = t.captureAttempt :=
  congrArg Progress.captureAttempt h.progress

end Idle

/-- The workflow does not become complete, resumed or draining, keeps its resumer, and its generation
is not taken back. -/
structure Passes (f f' : CopyWorkflow) : Prop where
  id : f'.id = f.id
  leaf : f'.leaf = f.leaf
  captureAttempt : f'.captureAttempt = f.captureAttempt
  completed : f'.state = .completed → f.state = .completed
  draining : f'.state = .draining → f.state = .draining
  resuming : f'.state = .resuming → f.state = .resuming ∧ f'.leaseOwnerId = f.leaseOwnerId
  generation : f.generation ≤ f'.generation

theorem Passes.refl (f : CopyWorkflow) : Passes f f :=
  ⟨rfl, rfl, rfl, fun h => h, fun h => h, fun h => ⟨h, rfl⟩, le_rfl⟩

theorem Passes.trans (h : Passes f f') (h' : Passes f' f'') : Passes f f'' where
  id := h'.id.trans h.id
  leaf := h'.leaf.trans h.leaf
  captureAttempt := h'.captureAttempt.trans h.captureAttempt
  completed hf := h.completed (h'.completed hf)
  draining hf := h.draining (h'.draining hf)
  resuming hf := by
    obtain ⟨hf', owner'⟩ := h'.resuming hf
    obtain ⟨hf, owner⟩ := h.resuming hf'
    exact ⟨hf, owner'.trans owner⟩
  generation := h.generation.trans h'.generation

structure Calm (w w' : World) : Prop where
  tasks : InPlace Idle w.copyTasks w'.copyTasks
  workflows : InPlace Passes w.workflows w'.workflows
  items : w'.copyItems.Sublist w.copyItems

structure Quiet (w w' : World) : Prop extends Calm w w' where
  queues : w'.copyQueues = w.copyQueues

variable {w w' : World} {now : Time} {f : CopyWorkflow} {t : CopyWorkTask}

theorem Calm.trans (h : Calm w w') (h' : Calm w' w'') : Calm w w'' where
  tasks := h.tasks.trans Idle.trans h'.tasks
  workflows := h.workflows.trans Passes.trans h'.workflows
  items := h'.items.trans h.items

theorem Calm.of_eq (tasks : w'.copyTasks = w.copyTasks) (workflows : w'.workflows = w.workflows)
    (items : w'.copyItems = w.copyItems) : Calm w w' where
  tasks := .of_eq Idle.refl tasks
  workflows := .of_eq Passes.refl workflows
  items := items ▸ .refl _

structure Untouched (w w' : World) : Prop where
  tasks : w'.copyTasks = w.copyTasks
  workflows : w'.workflows = w.workflows
  items : w'.copyItems = w.copyItems
  queues : w'.copyQueues = w.copyQueues

namespace Untouched

theorem refl (w : World) : Untouched w w := ⟨rfl, rfl, rfl, rfl⟩

theorem trans (h : Untouched w w') (h' : Untouched w' w'') : Untouched w w'' where
  tasks := h'.tasks.trans h.tasks
  workflows := h'.workflows.trans h.workflows
  items := h'.items.trans h.items
  queues := h'.queues.trans h.queues

theorem quiet (h : Untouched w w') : Quiet w w' :=
  ⟨.of_eq h.tasks h.workflows h.items, h.queues⟩

theorem updateWorkflow (h : Untouched w w') :
    Untouched (w.updateWorkflow key g) (w'.updateWorkflow key g) :=
  ⟨h.tasks, by rw [World.updateWorkflow, h.workflows, World.updateWorkflow], h.items, h.queues⟩

theorem updateSnapshot : Untouched w (w.updateSnapshot key g) :=
  ⟨rfl, rfl, rfl, rfl⟩

theorem writeLease : Untouched w (w.writeLease leaf token owner expiresAt) := by
  rw [World.writeLease]
  split
  · exact ⟨rfl, rfl, rfl, rfl⟩
  · exact updateSnapshot

theorem putPlan : Untouched w (w.putPlan plan) := ⟨rfl, rfl, rfl, rfl⟩

theorem withControl : Untouched w (withControl w) := ⟨rfl, rfl, rfl, rfl⟩

theorem abortPublication : Untouched w (abortPublication w key) := by
  rw [Copy.abortPublication]
  split
  · exact .refl w
  · exact ⟨rfl, rfl, rfl, rfl⟩

theorem settlePublication {tasks : List CopyWorkTask} : Untouched w (settlePublication w tasks key) := by
  rw [Copy.settlePublication]
  split
  · exact abortPublication
  · exact .refl w

theorem recordUnitCheckpoint
    (h : Provider.recordUnitCheckpoint w now c unit = .ok w') : Untouched w w' := by
  unfold Provider.recordUnitCheckpoint at h
  obtain ⟨-, -, h⟩ := of_bind h
  dsimp only at h
  split at h
  · cases h
  split at h
  · cases h
  split at h
  · split at h
    · cases h
    · cases h
      exact .refl w
  · obtain ⟨next, _, written⟩ := of_bind h
    cases written
    exact ⟨rfl, rfl, rfl, rfl⟩

theorem finishWork (h : Provider.finishWork w now c state = .ok w') : Untouched w w' := by
  unfold Provider.finishWork at h
  obtain ⟨pair, -, h⟩ := of_bind h
  dsimp only at h
  split at h
  · cases h
  split at h
  · cases h
  · cases h
    exact ⟨rfl, rfl, rfl, rfl⟩

theorem handOff (h : handOff w now c = .ok w') : Untouched w w' := by
  obtain ⟨w₁, recorded, w₂, finished, h⟩ := of_bind₂ h
  cases h
  have noted : Untouched w₂ (w₂.updateWork c.workId fun r =>
      { r with parentSettlePending := false, lastReason := some "copy_handoff" }) :=
    ⟨rfl, rfl, rfl, rfl⟩
  exact ((recordUnitCheckpoint recorded).trans (finishWork finished)).trans noted

end Untouched

namespace Quiet

theorem refl (w : World) : Quiet w w := ⟨.of_eq rfl rfl rfl, rfl⟩

theorem trans (h : Quiet w w') (h' : Quiet w' w'') : Quiet w w'' where
  toCalm := h.toCalm.trans h'.toCalm
  queues := h'.queues.trans h.queues

theorem updateTask
    (h : ∀ t ∈ w.copyTasks, t.id = key → Idle t (g t)) : Quiet w (w.updateTask key g) where
  tasks := .updateKey Idle.refl h
  workflows := .of_eq Passes.refl rfl
  items := .refl _
  queues := rfl

theorem updateWorkflow
    (h : ∀ f ∈ w.workflows, f.id = key → Passes f (g f)) : Quiet w (w.updateWorkflow key g) where
  tasks := .of_eq Idle.refl rfl
  workflows := .updateKey Passes.refl h
  items := .refl _
  queues := rfl

theorem dropManifests : Quiet w (dropManifests w key) where
  tasks := .of_eq Idle.refl rfl
  workflows := .of_eq Passes.refl rfl
  items := List.filter_sublist
  queues := rfl

end Quiet

structure Sound (w : World) : Prop where
  task_ids : (w.copyTasks.map (·.id)).Nodup
  workflow_ids : (w.workflows.map (·.id)).Nodup

section

variable (sound : Sound w)

include sound

theorem Sound.task : w.copyTask? key = some t ↔ t ∈ w.copyTasks ∧ t.id = key :=
  find?_key_eq_some sound.task_ids

theorem Sound.workflow : w.workflow? key = some f ↔ f ∈ w.workflows ∧ f.id = key :=
  find?_key_eq_some sound.workflow_ids

theorem Sound.calm (h : Calm w w') : Sound w' where
  task_ids := (h.tasks.map_eq fun idle => idle.id) ▸ sound.task_ids
  workflow_ids := (h.workflows.map_eq fun passes => passes.id) ▸ sound.workflow_ids

theorem Sound.updateWorkflow (keeps : ∀ f, (g f).id = f.id) : Sound (w.updateWorkflow key g) where
  task_ids := sound.task_ids
  workflow_ids := by
    have ids : (w.updateWorkflow key g).workflows.map (·.id) = w.workflows.map (·.id) :=
      map_updateKey fun f _ => keeps f
    rw [ids]
    exact sound.workflow_ids

theorem Sound.quiet_updateTask
    (ht : w.copyTask? key = some t) (h : Idle t (g t)) : Quiet w (w.updateTask key g) := by
  refine .updateTask fun t' mem same => ?_
  have found : w.copyTask? key = some t' := sound.task.mpr ⟨mem, same⟩
  cases ht.symm.trans found
  exact h

end

section

variable {claim : CopyClaim} {s : Settlement}

theorem heldTask_eq_some {job : Job} {snapshot : Snapshot}
    (h : heldTask w claim = some (t, f, job, snapshot)) :
    w.copyTask? claim.taskId = some t ∧ t.state = .running := by
  simp only [heldTask, Option.bind_eq_bind, Option.bind_eq_some_iff] at h
  obtain ⟨t', ht, f', -, job', -, snapshot', -, h⟩ := h
  split at h
  case isTrue held =>
    cases h
    exact ⟨ht, held.2.1⟩
  case isFalse => cases h

theorem owned_ok (h : owned w claim = .ok (t, f)) :
    w.copyTask? claim.taskId = some t ∧ t.state = .running := by
  rw [owned] at h
  split at h
  · cases h
  · rename_i held
    split at h
    · cases h
    · split at h
      · cases h
      · split at h
        · cases h
        · cases h
          exact heldTask_eq_some held

theorem deferTask_idle (h : t.state ≠ .completed) : Idle t (deferTask now s t) := by
  rw [deferTask]
  split
  · exact .of_open rfl h TaskState.noConfusion
  · split <;> exact .of_open rfl h TaskState.noConfusion

theorem settleTask_idle (h : t.state ≠ .completed) : Idle t (settleTask now s t) := by
  rw [settleTask]
  cases s.status with
  | deferred => exact ⟨(deferTask_idle h).progress, (deferTask_idle h).completed⟩
  | failed | cancelled => exact .of_open rfl h TaskState.noConfusion

theorem owned_error {abort : Abort} (h : owned w claim = .error abort) (held : abort ≠ .stale) :
    ∃ t, w.copyTask? claim.taskId = some t ∧ t.state = .running := by
  rw [owned] at h
  split at h
  · cases h
    exact absurd rfl held
  · rename_i t _ _ _ held
    obtain ⟨ht, running⟩ := heldTask_eq_some held
    exact ⟨t, ht, running⟩

theorem quiet_settleOnce (sound : Sound w) : Quiet w (settleOnce w now claim s) := by
  have settles {s : Settlement} (h : ∃ t, w.copyTask? claim.taskId = some t ∧ t.state = .running) :
      Quiet w (w.updateTask claim.taskId (settleTask now s)) := by
    obtain ⟨t, ht, running⟩ := h
    refine sound.quiet_updateTask ht (settleTask_idle ?_)
    rw [running]
    exact TaskState.noConfusion
  rw [settleOnce]
  split
  · rename_i pair ho
    obtain ⟨ht, running⟩ := owned_ok ho
    exact settles ⟨pair.1, ht, running⟩
  · rename_i ho
    exact settles (owned_error ho Abort.noConfusion)
  · rename_i ho
    exact settles (owned_error ho Abort.noConfusion)
  · exact .refl w

theorem quiet_releaseCancelledClaim : Quiet w (releaseCancelledClaim w now claim) := by
  refine .updateTask fun t _ _ => ?_
  split
  case isTrue held =>
    simp only [Bool.and_eq_true, decide_eq_true_eq] at held
    refine .of_open rfl ?_ TaskState.noConfusion
    rw [held.1.1]
    exact TaskState.noConfusion
  case isFalse => exact .refl t

end

theorem quiet_verifyCopyResume : Quiet w (verifyCopyResume w now c).1 := by
  rw [verifyCopyResume]
  split
  · exact .updateWorkflow fun f _ _ => ⟨rfl, rfl, rfl, id, id, fun h => ⟨h, rfl⟩, le_rfl⟩
  · exact .refl w

theorem quiet_finishParentSettlement : Quiet w (finishParentSettlement w key) := by
  rw [finishParentSettlement]
  split
  · exact .refl w
  · dsimp only
    split
    · refine Quiet.dropManifests.trans (.updateWorkflow fun f _ _ => ?_)
      exact ⟨rfl, rfl, rfl, id, id, fun h => ⟨h, rfl⟩, le_rfl⟩
    · exact .refl w

theorem Passes.of_ended (id : f'.id = f.id) (leaf : f'.leaf = f.leaf)
    (attempt : f'.captureAttempt = f.captureAttempt) (generation : f.generation ≤ f'.generation)
    (ended : f'.state ∈ [.waiting, .partialRun, .failed, .cancelled]) : Passes f f' := by
  refine ⟨id, leaf, attempt, fun h => ?_, fun h => ?_, fun h => ?_, generation⟩
  · simp [h] at ended
  · simp [h] at ended
  · simp [h] at ended

variable {reason : String} {terminal : AbortState} {scope : CancelScope}

theorem cancelTask_idle : Idle t (cancelTask reason t) := by
  rw [cancelTask]
  split
  case isTrue => exact .refl t
  case isFalse h =>
    refine .of_open rfl (fun done => h ?_) TaskState.noConfusion
    rw [done]
    rfl

theorem quiet_cancelTasks : Quiet w (cancelTasks w key reason) := by
  refine ⟨⟨.of_map fun t _ => ?_, .of_eq Passes.refl rfl, .refl _⟩, rfl⟩
  split
  · exact cancelTask_idle
  · exact .refl t

theorem abortWorkflow_passes : Passes f (abortWorkflow now terminal f) :=
  .of_ended rfl rfl rfl (Nat.le_succ _) (by cases terminal <;> simp [abortWorkflow, AbortState.state])

theorem quiet_cancelWorkflow : Quiet w (cancelWorkflow now reason terminal w f) := by
  have stopped : Quiet w (cancelTasks (dropManifests w f.id) f.id reason) :=
    Quiet.dropManifests.trans quiet_cancelTasks
  have aborted : Quiet w ((cancelTasks (dropManifests w f.id) f.id reason).updateWorkflow f.id
      (abortWorkflow now terminal)) :=
    stopped.trans (.updateWorkflow fun _ _ _ => abortWorkflow_passes)
  rw [cancelWorkflow]
  dsimp only
  split
  · split
    · exact aborted.trans Untouched.updateSnapshot.quiet
    · exact aborted
  · exact aborted

theorem quiet_cancelCopyWork (h : cancelCopyWork w now scope reason terminal = .ok w') :
    Quiet w w' := by
  obtain ⟨-, -, h⟩ := of_bind h
  cases h
  generalize w.workflows.filter _ = workflows
  clear * -
  induction workflows generalizing w with
  | nil => exact .refl w
  | cons f workflows ih => exact quiet_cancelWorkflow.trans ih

end TmVault.Copy
