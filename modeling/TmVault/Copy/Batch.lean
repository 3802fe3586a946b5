import TmVault.Copy.Steps

namespace TmVault.Copy

open Relational Store Work List

variable {env : Env} {w w' : World} {now : Time} {f : CopyWorkflow} {t t' : CopyWorkTask}
  {out : BatchOutcome} {limit : Nat} {taskId : Uuid}

theorem numbered_own (h : r ∈ numbered taskId rows) : r.taskId = taskId ∧ 0 < r.ordinal := by
  obtain ⟨⟨s, n⟩, mem, rfl⟩ := mem_map.mp h
  exact ⟨rfl, by dsimp only; omega⟩

def Prepares (key : Uuid) (t t' : CopyWorkTask) : Prop :=
  t' = t ∧ t.id ≠ key ∨
    t.id = key ∧ progress t' = { progress t with prepared := true } ∧ t'.state = t.state

structure Prepared (w w' : World) (t : CopyWorkTask) (rows : List CopyWorkItem) : Prop where
  workflows : w'.workflows = w.workflows
  tasks : InPlace (Prepares t.id) w.copyTasks w'.copyTasks
  manifest : manifest w' = manifest w ++ rows
  own : ∀ r ∈ rows, r.taskId = t.id
  queues : w'.copyQueues = w.copyQueues

structure Filled (w w' : World) (rows : List CopyWorkItem) : Prop where
  workflows : w'.workflows = w.workflows
  tasks : w'.copyTasks = w.copyTasks
  manifest : manifest w' = manifest w ++ rows
  queues : w'.copyQueues = w.copyQueues

theorem insertManifest_ok (positive : ∀ r ∈ rows, 0 < r.ordinal)
    (h : insertManifest w rows = .ok w') : Filled w w' rows := by
  rw [insertManifest] at h
  split at h
  · cases h
  · cases h
    refine ⟨rfl, rfl, ?_, rfl⟩
    rw [manifest, filter_append,
      filter_eq_self.mpr fun r hr => decide_eq_true (positive r hr), manifest]

def Labels (t : CopyWorkTask) (rows : List CopyWorkItem) : Prop :=
  ∀ r ∈ rows, r.taskId = t.id ∧ 0 < r.ordinal

theorem labelRows_ok (h : labelRows w t = .ok rows) : Labels t rows := by
  rw [labelRows] at h
  split at h
  · cases h
    intro r hr
    obtain ⟨input, -, hr⟩ := mem_filterMap.mp hr
    split at hr
    · cases hr
      exact ⟨rfl, by dsimp only; omega⟩
    · cases hr
  · obtain ⟨_, _, h⟩ := of_bind h
    cases h
    exact fun r => numbered_own

theorem preparePublication_ok (h : preparePublication w t f = .ok w') :
    ∃ rows, Filled w w' rows ∧ Labels t rows := by
  obtain ⟨_, _, plan, _, _, _, h⟩ := of_bind₃ h
  obtain ⟨_, _, w₁, filled, h⟩ := of_bind₂ h
  cases h
  have filled := insertManifest_ok (fun r hr => (numbered_own hr).2) filled
  exact ⟨_, ⟨filled.workflows, filled.tasks, filled.manifest, filled.queues⟩, fun r => numbered_own⟩

theorem fillManifest_ok (h : fillManifest w t f = .ok w') : ∃ rows, Filled w w' rows ∧ Labels t rows := by
  rw [fillManifest] at h
  split at h
  · obtain ⟨rows, labels, h⟩ := of_bind h
    have labels := labelRows_ok labels
    exact ⟨rows, insertManifest_ok (fun r hr => (labels r hr).2) h, labels⟩
  · exact preparePublication_ok h

theorem Filled.prepared {g : CopyWorkTask → CopyWorkTask}
    (h : Filled w w' rows) (own : ∀ r ∈ rows, r.taskId = t.id)
    (writes : ∀ u, progress (g u) = { progress u with prepared := true } ∧ (g u).state = u.state) :
    Prepared w (w'.updateTask t.id g) t rows where
  workflows := h.workflows
  tasks := by
    rw [← h.tasks]
    refine .of_map fun u _ => ?_
    by_cases same : u.id = t.id
    · rw [if_pos same]
      exact .inr ⟨same, writes u⟩
    · rw [if_neg same]
      exact .inl ⟨rfl, same⟩
  manifest := h.manifest
  own
  queues := h.queues

theorem preparePresentationManifest_ok (h : preparePresentationManifest w t = .ok w') :
    ∃ rows, Prepared w w' t rows := by
  obtain ⟨f, _, w₁, filled, h⟩ := of_bind₂ h
  cases h
  obtain ⟨rows, filled, labels⟩ := fillManifest_ok filled
  exact ⟨rows, filled.prepared (fun r hr => (labels r hr).1) fun _ => ⟨rfl, rfl⟩⟩

theorem Filled.insertPins {ids : List Uuid}
    (h : Filled w w' rows) : Filled w (insertPins w' taskId ids) rows :=
  ⟨h.workflows, h.tasks, manifest_insertPins.trans h.manifest, h.queues⟩

theorem prepareManifest_ok (unprepared : t.prepared = false) (h : prepareManifest w t = .ok w') :
    ∃ rows, Prepared w w' t rows := by
  obtain ⟨f, _, h⟩ := of_bind h
  rw [if_neg (by rw [unprepared]; exact Bool.false_ne_true)] at h
  split at h
  · exact preparePresentationManifest_ok h
  · obtain ⟨_, _, _, _, w₁, filled, h⟩ := of_bind₃ h
    cases h
    have filled := insertManifest_ok (fun r hr => (numbered_own hr).2) filled
    exact ⟨_, filled.insertPins.prepared (fun r hr => (numbered_own hr).1) fun _ => ⟨rfl, rfl⟩⟩

theorem Prepared.refl (sound : Sound w) (ht : w.copyTask? t.id = some t) (prepared : t.prepared = true) :
    Prepared w w t [] where
  workflows := rfl
  tasks := by
    refine forall₂_same.mpr fun u mem => ?_
    by_cases same : u.id = t.id
    · cases ht.symm.trans (sound.task.mpr ⟨mem, same⟩)
      refine .inr ⟨rfl, ?_, rfl⟩
      rw [← prepared]
      rfl
    · exact .inl ⟨rfl, same⟩
  manifest := (append_nil _).symm
  own _ hr := absurd hr not_mem_nil
  queues := rfl

theorem Prepares.id (h : Prepares key t t') : t'.id = t.id := by
  rcases h with ⟨rfl, -⟩ | ⟨-, progress, -⟩
  · rfl
  · exact congrArg Progress.id progress

theorem Prepared.sound (h : Prepared w w' t rows) (sound : Sound w) :
    Sound w' := by
  refine ⟨?_, h.workflows ▸ sound.workflow_ids⟩
  rw [h.tasks.map_eq fun prepares => prepares.id]
  exact sound.task_ids

theorem Prepared.same (h : Prepared w w' t rows)
    (ht : w.copyTask? t.id = some t) (ht' : w'.copyTask? t.id = some t') :
    progress t' = { progress t with prepared := true } ∧ t'.state = t.state := by
  obtain ⟨u, found, prepares⟩ := h.tasks.find? (fun prepares => prepares.id) ht
  cases ht'.symm.trans found
  rcases prepares with ⟨-, other⟩ | ⟨-, same⟩
  · exact absurd rfl other
  · exact same

theorem ensurePrepared_ok (sound : Sound w) (ht : w.copyTask? t.id = some t)
    (h : ensurePrepared w t = .ok (w', t')) :
    w'.copyTask? t.id = some t' ∧ ∃ rows, Prepared w w' t rows := by
  rw [ensurePrepared] at h
  split at h
  case isTrue prepared =>
    cases h
    exact ⟨ht, [], .refl sound ht prepared⟩
  case isFalse unprepared =>
    obtain ⟨w₁, prepared, h⟩ := of_bind h
    obtain ⟨t₁, found, h⟩ := of_orFail h
    cases h
    exact ⟨found, prepareManifest_ok (by simpa using unprepared) prepared⟩

structure Batched (w w' : World) (t : CopyWorkTask) (out : BatchOutcome) : Prop where
  workflows : w'.workflows = w.workflows
  tasks : w'.copyTasks = w.copyTasks
  items : w'.copyItems = w.copyItems
  queues : w'.copyQueues = w.copyQueues
  done : out.done = exhausted w t out.cursor

theorem applyLabels_ok (h : applyLabels w now t f labels done = .ok w') : Untouched w w' := by
  rw [applyLabels] at h
  split at h
  · rw [draftLabels] at h
    split at h
    · cases h
      exact ⟨rfl, rfl, rfl, rfl⟩
    · cases h
  · obtain ⟨plan, _, _, _, h⟩ := of_bind₂ h
    split at h
    · obtain ⟨_, _, h⟩ := of_bind h
      cases h
      exact ⟨rfl, rfl, rfl, rfl⟩
    · cases h
      exact ⟨rfl, rfl, rfl, rfl⟩

theorem copyManifestBatch_ok (h : copyManifestBatch env w t now limit = .ok (w', out)) :
    Batched w w' t out := by
  obtain ⟨_, _, f, _, _, _, h⟩ := of_bind₃ h
  split at h
  · obtain ⟨f', _, w₁, applied, h⟩ := of_bind₂ h
    cases h
    have untouched := applyLabels_ok applied
    exact ⟨untouched.workflows, untouched.tasks, untouched.items, untouched.queues, rfl⟩
  · obtain ⟨_, _, h⟩ := of_bind h
    split at h <;> cases h <;> exact ⟨rfl, rfl, rfl, rfl, rfl⟩

variable {call : BatchCall}

structure Ran (w w' : World) (now : Time) (call : BatchCall) (t t₁ : CopyWorkTask) (w₁ w₂ : World)
    (rows : List CopyWorkItem) (out : BatchOutcome) : Prop where
  prepared : Prepared w w₁ t rows
  task : w₁.copyTask? t.id = some t₁
  state : t₁.state = .running
  batched : Batched w₁ w₂ t₁ out
  world : w' = w₂.updateTask t.id (recordBatch now call out)

theorem mapError_eq_ok {ε ε' α : Type} {x : Except ε α} {g : ε → ε'} {a : α} :
    x.mapError g = .ok a ↔ x = .ok a := by
  cases x with
  | error | ok => simp [Except.mapError]

theorem batchTransaction_ok (sound : Sound w) (h : batchTransaction env w now call = .ok w') :
    ∃ t t₁ w₁ w₂ rows out, Ran w w' now call t t₁ w₁ w₂ rows out := by
  obtain ⟨⟨t, f⟩, holds, h⟩ := of_bind h
  obtain ⟨held, running⟩ := owned_ok holds
  obtain ⟨_, _, ⟨w₁, t₁⟩, prepared, ⟨w₂, out⟩, batched, h⟩ := of_bind₃ h
  obtain ⟨_, _, h⟩ := of_bind h
  cases h
  have id : t.id = call.claim.taskId := (sound.task.mp held).2
  obtain ⟨task, rows, prepared⟩ := ensurePrepared_ok sound (id ▸ held) (mapError_eq_ok.mp prepared)
  obtain ⟨same, state⟩ := prepared.same (id ▸ held) task
  have key : t₁.id = t.id := congrArg Progress.id same
  rw [key]
  exact ⟨t, t₁, w₁, w₂, rows, out, prepared, task, state.trans running,
    copyManifestBatch_ok (mapError_eq_ok.mp batched), rfl⟩

theorem recordBatch_progress : progress (recordBatch now call out t) = { progress t with
      checkpoint := out.cursor, rowCount := t.rowCount + out.rows
      bytesCount := t.bytesCount + out.bytes } := by
  rw [recordBatch]
  dsimp only
  split
  · rfl
  · split <;> rfl

theorem Ran.workflows (h : Ran w w' now call t t₁ w₁ w₂ rows out) : w'.workflows = w.workflows := by
  rw [h.world]
  exact h.batched.workflows.trans h.prepared.workflows

theorem Ran.sound (h : Ran w w' now call t t₁ w₁ w₂ rows out) (sound : Sound w) : Sound w' := by
  refine ⟨?_, h.workflows ▸ sound.workflow_ids⟩
  have ids : w'.copyTasks.map (·.id) = w₂.copyTasks.map (·.id) := by
    rw [h.world]
    exact map_updateKey fun u _ => congrArg Progress.id recordBatch_progress
  rw [ids, h.batched.tasks]
  exact (h.prepared.sound sound).task_ids

variable {s : System} {op : Op}

inductive Effect (env : Env) (s : System) : Op → System → Prop
  | calm {op : Op} {world : World} (calm : Calm s.world world) : Effect env s op { s with world }
  | enqueued {now : Time} {workflowId taskId : Uuid} {req : CopyRequest} {world : World}
      {f : CopyWorkflow} (enqueued : Enqueued s.world world f) :
      Effect env s (.enqueue now workflowId taskId req) { s with world }
  | ran {now : Time} {call : BatchCall} {t t₁ : CopyWorkTask} {world w₁ w₂ : World}
      {rows : List CopyWorkItem} {out : BatchOutcome}
      (ran : Ran s.world world now call t t₁ w₁ w₂ rows out) :
      Effect env s (.batch now call) { s with world }
  | adopted {now : Time} {key owner : Uuid} {f : CopyWorkflow} (found : s.world.workflow? key = some f)
      (outlived : Outlived s.world now f) : Effect env s (.beginResume now key owner)
        { s with world := s.world.updateWorkflow f.id (adoptOutcome now true) }
  | takenOver {now : Time} {key : Uuid} {f : CopyWorkflow} {world : World} {c : ResumeClaim}
      (found : s.world.workflow? key = some f) (taken : TakenOver s.world world f c) :
      Effect env s (.beginResume now key c.ownerId)
        { s with world, resumeClaims := c :: s.resumeClaims }
  | read {c : ResumeClaim} {seen : CopyWorkflow} (handed : c ∈ s.resumeClaims)
      (found : s.world.workflow? c.workflowId = some seen) : Effect env s (.finishRead c)
        { s with finishing := ⟨c, seen, s.latest c.workflowId⟩ :: s.finishing }
  | unread {op : Op} : Effect env s op s
  | finished {now : Time} {call : Nat} {failed : Bool} {p : Finishing}
      (under : s.finishing[call]? = some p) (resuming : p.seen.state = .resuming)
      (owner : p.seen.leaseOwnerId = some p.claim.ownerId) : Effect env s (.finishResume now call failed)
        { s with
          world := s.world.updateWorkflow p.seen.id (finishWorkflow now
            (failed || (s.world.tasksOf p.seen).any (·.state ≠ .completed)))
          finishing := s.finishing.eraseIdx call }
  | dropped {now : Time} {call : Nat} {failed : Bool} : Effect env s (.finishResume now call failed)
        { s with finishing := s.finishing.eraseIdx call }

theorem finish_effect {call : Nat} :
    Effect env s (.finishResume now call failed) (s.finish now call failed) := by
  rw [System.finish]
  split
  · exact .unread
  · rename_i p under
    cases h : finishResume s.world now p.seen p.claim.ownerId failed with
    | error e => exact .dropped
    | ok world =>
      rcases finishResume_ok h with rfl | ⟨resuming, owner, rfl⟩
      · exact .dropped
      · exact .finished under resuming owner

theorem commit_calm {ε α : Type} {x : Except ε (World × α)}
    (h : ∀ world a, x = .ok (world, a) → Calm s.world world) :
    Effect env s op (s.commit (x.map (·.1))) := by
  cases x with
  | error e => exact .unread
  | ok pair => exact .calm (h pair.1 pair.2 rfl)

theorem run_effect (sound : Sound s.world) (lawful : op.Lawful s) : Effect env s op (op.run env s) := by
  cases op with
  | enqueue now workflowId taskId req =>
    rw [Op.run]
    cases h : enqueue env s.world now workflowId taskId req with
    | error e => exact .unread
    | ok pair =>
      obtain ⟨f, enqueued⟩ := enqueue_ok sound h
      exact .enqueued enqueued
  | sealCopy now capture own provider continuation receiptOnly =>
    refine commit_calm fun world capture' h => ?_
    rcases sealCurrentCopy_ok h with rfl | ⟨w₁, f, untouched, -, -, quiet⟩
    · exact (Quiet.refl _).toCalm
    · obtain ⟨queues, control, aligned⟩ := @alignReadyWorkflow_eq w₁ f
      rw [aligned] at quiet
      have entered : Calm w₁ { w₁ with copyQueues := queues, copyControl := control } :=
        .of_eq rfl rfl rfl
      exact (untouched.quiet.toCalm.trans entered).trans quiet.toCalm
  | claim now busy locked owner leaseSeconds =>
    refine commit_calm fun world c h => ?_
    rcases claim_ok sound h with ⟨-, quiet⟩ | ⟨chain, -, -, quiet⟩
    · exact quiet.toCalm
    · have charged : Calm s.world (chargeTurn s.world chain) := .of_eq rfl rfl rfl
      exact charged.trans quiet.toCalm
  | batch now call =>
    rw [Op.run]
    cases h : batchTransaction env s.world now call with
    | error e => exact .unread
    | ok world =>
      obtain ⟨t, t₁, w₁, w₂, rows, out, ran⟩ := batchTransaction_ok sound h
      exact .ran ran
  | settle now c cause =>
    rw [Op.run]
    split
    · exact .calm (quiet_settleOnce sound).toCalm
    · exact .unread
  | release now c => exact .calm quiet_releaseCancelledClaim.toCalm
  | beginResume now key owner =>
    rw [Op.run]
    cases h : beginResume s.world now key owner with
    | error e => exact .unread
    | ok pair =>
      obtain ⟨world, c⟩ := pair
      rcases beginResume_ok h with ⟨rfl, quiet⟩ | ⟨f, found, ⟨rfl, outlived, rfl⟩ | ⟨c', rfl, rfl, taken⟩⟩
      · exact .calm quiet.toCalm
      · exact .adopted found outlived
      · exact .takenOver found taken
  | verifyResume now c => exact .calm quiet_verifyCopyResume.toCalm
  | finishRead c =>
    rw [Op.run, System.read]
    split
    · rename_i seen found
      exact .read lawful found
    · exact .unread
  | finishResume now call failed => exact finish_effect
  | settleParent key => exact .calm quiet_finishParentSettlement.toCalm
  | cancel now scope reason terminal =>
    rw [Op.run]
    cases h : cancelCopyWork s.world now scope reason terminal with
    | error e => exact .unread
    | ok world => exact .calm (quiet_cancelCopyWork h).toCalm
  | others world => exact .calm (SameWork.calm lawful)

theorem Effect.sound (sound : Sound s.world) (h : Effect env s op s') : Sound s'.world := by
  cases h with
  | calm calm => exact sound.calm calm
  | enqueued enqueued => exact enqueued.sound
  | ran ran => exact ran.sound sound
  | adopted | finished => exact sound.updateWorkflow fun _ => rfl
  | takenOver found taken =>
    obtain ⟨now, token, snapshotToken, untouched⟩ := taken.world
    refine Sound.calm ?_ untouched.quiet.toCalm
    exact sound.updateWorkflow fun _ => rfl
  | read | unread | dropped => exact sound

end TmVault.Copy
