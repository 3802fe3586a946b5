import TmVault.Copy.Batch

namespace TmVault.Copy

open Relational Concurrency Store Work

variable {env : Env} {w : World} {s : System} {op : Op} {now : Time} {f : CopyWorkflow}
  {t t' : CopyWorkTask}

def Settled (w : World) : Prop :=
  ∀ f ∈ w.workflows, f.state = .completed → ∀ t ∈ w.tasksOf f, t.state = .completed

instance : Decidable (Settled w) :=
  inferInstanceAs (Decidable (∀ f ∈ w.workflows, f.state = .completed →
    ∀ t ∈ w.tasksOf f, t.state = .completed))

structure Stays (t t' : CopyWorkTask) : Prop where
  workflowId : t'.workflowId = t.workflowId
  captureAttempt : t'.captureAttempt = t.captureAttempt
  completed : t.state = .completed → t'.state = .completed

theorem Stays.refl (t : CopyWorkTask) : Stays t t := ⟨rfl, rfl, id⟩

theorem Stays.trans (h : Stays t t') (h' : Stays t' t'') : Stays t t'' :=
  ⟨h'.workflowId.trans h.workflowId, h'.captureAttempt.trans h.captureAttempt,
    fun done => h'.completed (h.completed done)⟩

theorem Idle.stays (h : Idle t t') : Stays t t' := ⟨h.workflowId, h.captureAttempt, h.completed.mpr⟩

theorem Registers.stays (h : Registers f t t') : Stays t t' := by
  rcases h with h | ⟨h, -⟩
  · exact h.stays
  · exact ⟨congrArg Progress.workflowId h.progress, congrArg Progress.captureAttempt h.progress,
      fun _ => h.completed⟩

@[simp] theorem mem_tasksOf : t ∈ w.tasksOf f ↔
    t ∈ w.copyTasks ∧ t.workflowId = f.id ∧ t.captureAttempt = f.captureAttempt := by
  simp [World.tasksOf]

theorem Settled.step (settled : Settled w) (sound : Sound w')
    (tasks : Extended Stays (fun t => ∃ f ∈ w'.workflows, f.id = t.workflowId ∧ f.state = .draining)
      w.copyTasks w'.copyTasks) (workflows : ∀ f' ∈ w'.workflows, f'.state = .completed →
      (∃ f ∈ w.workflows, f.state = .completed ∧ f.id = f'.id ∧ f.captureAttempt = f'.captureAttempt) ∨
        ∀ t ∈ w.tasksOf f', t.state = .completed) : Settled w' := by
  intro f' mem done t' ht'
  obtain ⟨mem', owner, attempt⟩ := mem_tasksOf.mp ht'
  rcases tasks.of_mem mem' with ⟨t, ht, stays⟩ | ⟨g, hg, same, draining⟩
  · have ht : t ∈ w.tasksOf f' :=
      mem_tasksOf.mpr ⟨ht, stays.workflowId ▸ owner, stays.captureAttempt ▸ attempt⟩
    apply stays.completed
    rcases workflows f' mem done with ⟨f, hf, completed, id, attempts⟩ | all
    · obtain ⟨ht, owner, attempt⟩ := mem_tasksOf.mp ht
      exact settled f hf completed t (mem_tasksOf.mpr ⟨ht, owner.trans id.symm, attempt.trans attempts.symm⟩)
    · exact all t ht
  · have found : w'.workflow? f'.id = some g := sound.workflow.mpr ⟨hg, same.trans owner⟩
    cases found.symm.trans (sound.workflow.mpr ⟨mem, rfl⟩)
    rw [done] at draining
    cases draining

theorem Settled.calm (settled : Settled w) (sound : Sound w) (calm : Calm w w') : Settled w' := by
  refine settled.step (sound.calm calm) (.of_inPlace (calm.tasks.imp fun _ _ => Idle.stays)) ?_
  intro f' mem done
  obtain ⟨f, hf, passes⟩ := calm.workflows.of_mem mem
  exact .inl ⟨f, hf, passes.completed done, passes.id.symm, passes.captureAttempt.symm⟩

theorem Settled.enqueued (settled : Settled w) (h : Enqueued w w' f) : Settled w' := by
  obtain ⟨kept, added, inPlace, eq, new⟩ := h.tasks
  refine settled.step h.sound ⟨kept, added, inPlace.imp fun _ _ => Registers.stays, eq,
    fun t ht => ⟨f, h.mem, (new t ht).workflowId.symm, h.draining⟩⟩ fun g mem done => ?_
  have other : g ≠ f := by
    rintro rfl
    cases done.symm.trans h.draining
  rcases h.workflows.of_mem mem with ⟨g', hg', rfl | ⟨rfl, -⟩⟩ | rfl
  · exact .inl ⟨g, hg', done, rfl, rfl⟩
  · exact absurd rfl other
  · exact absurd rfl other

theorem Settled.updateWorkflow (settled : Settled w) (sound : Sound w)
    (keeps : ∀ f, (g f).id = f.id)
    (done : ∀ f, w.workflow? key = some f → (g f).state = .completed →
      ∀ t ∈ w.tasksOf (g f), t.state = .completed) : Settled (w.updateWorkflow key g) := by
  refine settled.step (sound.updateWorkflow keeps) (.of_inPlace (.of_eq Stays.refl rfl)) ?_
  intro f' mem completed
  rcases mem_updateKey.mp mem with ⟨mem, -⟩ | ⟨f, hf, same, rfl⟩
  · exact .inl ⟨f', mem, completed, rfl, rfl⟩
  · exact .inr (done f (sound.workflow.mpr ⟨hf, same⟩) completed)

theorem Prepares.stays (h : Prepares key t t') : Stays t t' := by
  rcases h with ⟨rfl, -⟩ | ⟨-, progress, state⟩
  · exact .refl t'
  · exact ⟨congrArg Progress.workflowId progress, congrArg Progress.captureAttempt progress,
      fun done => state.trans done⟩

theorem Ran.stays (sound : Sound w)
    (h : Ran w w' now call t t₁ w₁ w₂ rows out) : InPlace Stays w.copyTasks w'.copyTasks := by
  have prepared : InPlace Stays w.copyTasks w₁.copyTasks :=
    h.prepared.tasks.imp fun _ _ prepares => prepares.stays
  have recorded : InPlace Stays w₂.copyTasks w'.copyTasks := by
    rw [h.world]
    refine .updateKey Stays.refl fun u mem same => ?_
    rw [h.batched.tasks] at mem
    cases h.task.symm.trans ((h.prepared.sound sound).task.mpr ⟨mem, same⟩)
    refine ⟨congrArg Progress.workflowId recordBatch_progress,
      congrArg Progress.captureAttempt recordBatch_progress, fun done => ?_⟩
    cases done.symm.trans h.state
  rw [h.batched.tasks] at recorded
  exact prepared.trans Stays.trans recorded

theorem Settled.ran (settled : Settled w) (sound : Sound w)
    (h : Ran w w' now call t t₁ w₁ w₂ rows out) : Settled w' := by
  refine settled.step (h.sound sound) (.of_inPlace (h.stays sound)) fun g mem done => ?_
  exact .inl ⟨g, h.workflows ▸ mem, done, rfl, rfl⟩

def Op.Settles (s : System) : Op → Prop
  | .beginResume now workflowId _ => ∀ f ∈ s.world.workflow? workflowId, Outlived s.world now f →
      ∀ t ∈ s.world.tasksOf f, t.state = .completed
  | .finishResume _ call _ => ∀ p ∈ s.finishing[call]?, ∀ f ∈ s.world.workflow? p.seen.id,
      f.captureAttempt = p.seen.captureAttempt
  | _ => True

theorem Settled.run (settled : Settled s.world) (sound : Sound s.world) (lawful : op.Lawful s)
    (settles : op.Settles s) : Settled (op.run env s).world := by
  have effect : Effect env s op (op.run env s) := run_effect sound lawful
  generalize op.run env s = s' at effect
  cases effect with
  | calm calm => exact settled.calm sound calm
  | enqueued enqueued => exact settled.enqueued enqueued
  | ran ran => exact settled.ran sound ran
  | @adopted now key owner f found outlived =>
    refine settled.updateWorkflow sound (fun _ => rfl) fun g hg _ t ht => ?_
    have own : s.world.workflow? f.id = some f := sound.workflow.mpr ⟨(sound.workflow.mp found).1, rfl⟩
    cases own.symm.trans hg
    exact settles f found outlived t ht
  | takenOver found taken =>
    obtain ⟨now, token, snapshotToken, untouched⟩ := taken.world
    refine Settled.calm ?_ (Sound.updateWorkflow sound ?_) untouched.quiet.toCalm
    case refine_2 => exact fun _ => rfl
    refine settled.updateWorkflow sound (fun _ => rfl) fun g _ done => ?_
    cases done
  | read | unread | dropped => exact settled
  | @finished now call failed p under resuming owner =>
    refine settled.updateWorkflow sound (fun _ => rfl) fun g hg done t ht => ?_
    -- the gaps were looked for in the attempt that the first read saw
    have complete : (failed || (s.world.tasksOf p.seen).any (·.state ≠ .completed)) = false := by
      by_contra gaps
      rw [Bool.not_eq_false] at gaps
      rw [finishWorkflow, gaps] at done
      cases done
    obtain ⟨mem, workflow, attempt⟩ := mem_tasksOf.mp ht
    have seen : t ∈ s.world.tasksOf p.seen :=
      mem_tasksOf.mpr ⟨mem, workflow.trans (sound.workflow.mp hg).2, attempt.trans (settles p under g hg)⟩
    simp only [Bool.or_eq_false_iff, List.any_eq_false, decide_eq_true_eq, not_not] at complete
    exact complete.2 t seen

def Sane (s : System) : Prop := Sound s.world ∧ Settled s.world

theorem Sane.run (sane : Sane s) (guard : op.Lawful s ∧ op.Settles s) : Sane (op.run env s) := by
  have effect : Effect env s op (op.run env s) := run_effect sane.1 guard.1
  exact ⟨effect.sound sane.1, sane.2.run sane.1 guard.1 guard.2⟩

/-- A workflow is complete only when its tasks are, as long as no outcome of a leaf is adopted over a
gap and no capture starts over while a resume finishes. -/
theorem completed_workflow_tasks_completed (env : Env) (s : System) (ops : List Op)
    (sound : Sound s.world) (settled : Settled s.world)
    (along : Along (Op.run env) (fun s op => op.Lawful s ∧ op.Settles s) s ops) :
    Settled (play (Op.run env) s ops).world := by
  have sane : Sane (play (Op.run env) s ops) :=
    along.invariant (fun _ _ sane guard => sane.run guard) ⟨sound, settled⟩
  exact sane.2

def endedCopy (state : TaskState) : System where
  world := {
    db := { snapshots := [{ id := 10, resourceId := 5, jobId := some 1 }] }
    jobs := [{ id := 1, tenantId := 1, status := .running }]
    partitions := [{ id := 20, snapshotId := 10, tenantId := 1, status := .inProgress }]
    workflows := [{ id := 30, leaf := ⟨10, some 20⟩, tenantId := 1, resourceId := 5, jobId := 1
                    state := .waiting }]
    copyTasks := [{ id := 40, workflowId := 30, tenantId := 1, resourceId := 5
                    idempotencyKey := ⟨30, 0, .chatCarry, {}⟩, kind := .chatCarry, lane := .micro
                    state }] }

def markPartitions (w : World) : World :=
  { w with partitions := w.partitions.map ({ · with status := .completed }) }

def resumeAndMark (state : TaskState) : List Op :=
  [.beginResume 0 30 7, .others (markPartitions ((endedCopy state).handOut
    (beginResume (endedCopy state).world 0 30 7)).world)]

theorem completed_workflow_tasks_completed_ended : Settled (play (Op.run {}) (endedCopy .completed)
      (resumeAndMark .completed ++ [.finishRead ⟨30, 7, 1, 1⟩, .finishResume 0 0 false])).world ∧
    (play (Op.run {}) (endedCopy .completed) (resumeAndMark .completed ++
      [.finishRead ⟨30, 7, 1, 1⟩, .finishResume 0 0 false])).world.workflows.map (·.state) =
        [.completed] := by
  refine ⟨completed_workflow_tasks_completed {} _ _ ⟨by decide, by decide⟩ (by decide) ?_,
    by decide +kernel⟩
  refine ⟨⟨trivial, ?_⟩, ⟨⟨rfl, rfl, rfl, rfl⟩, trivial⟩, ⟨?_, trivial⟩, ⟨trivial, ?_⟩, trivial⟩
  · unfold Op.Settles
    decide +kernel
  · unfold Op.Lawful
    decide +kernel
  · unfold Op.Settles
    decide +kernel

/-- The callback marks its partition COMPLETED with the copy failed, and crashes before it finishes: the
next resume adopts the outcome of the partition. -/
theorem adopted_over_failed_task :
    Sound (endedCopy .failed).world ∧ Settled (endedCopy .failed).world ∧
    Along (Op.run {}) (fun s op => op.Lawful s) (endedCopy .failed)
      (resumeAndMark .failed ++ [.beginResume (seconds 91) 30 8]) ∧
    ¬ Settled (play (Op.run {}) (endedCopy .failed)
      (resumeAndMark .failed ++ [.beginResume (seconds 91) 30 8])).world := by
  refine ⟨⟨by decide, by decide⟩, by decide, ⟨trivial, ⟨rfl, rfl, rfl, rfl⟩, trivial, trivial⟩, ?_⟩
  decide +kernel

open List

abbrev Passed (w : World) : Prop := ∀ t ∈ w.copyTasks, t.state = .completed → t.kind ≠ .mailCarry →
  ∀ r ∈ manifest w, r.taskId = t.id → r.ordinal ≤ t.checkpoint

theorem Passed.step (passed : Passed w) (items : manifest w' ⊆ manifest w)
    (tasks : ∀ t' ∈ w'.copyTasks, (∃ t ∈ w.copyTasks, Idle t t') ∨
      (t'.state = .completed → t'.kind = .mailCarry)) : Passed w' := by
  intro t' mem' done kind r hr own
  rcases tasks t' mem' with ⟨t, mem, idle⟩ | bootstrapped
  · have checkpoint : t'.checkpoint = t.checkpoint := congrArg Progress.checkpoint idle.progress
    have same : t'.kind = t.kind := congrArg Progress.kind idle.progress
    rw [checkpoint]
    exact passed t mem (idle.completed.mp done) (same ▸ kind) r (items hr) (own.trans idle.id)
  · exact absurd (bootstrapped done) kind

theorem Passed.calm (passed : Passed w) (calm : Calm w w') : Passed w' :=
  passed.step (calm.items.filter _).subset fun _ mem => .inl (calm.tasks.of_mem mem)

theorem Passed.enqueued (passed : Passed w) (h : Enqueued w w' f) : Passed w' := by
  refine passed.step (fun _ mem => h.manifest ▸ mem) fun t' mem => ?_
  rcases h.tasks.of_mem mem with ⟨t, mem, idle | ⟨h, -⟩⟩ | new
  · exact .inl ⟨t, mem, idle⟩
  · exact .inr fun _ => (congrArg Progress.kind h.progress).trans h.kind
  · exact .inr new.completed

theorem recordBatch_completed (running : t.state = .running)
    (h : (recordBatch now call out t).state = .completed) : out.done = true := by
  by_contra more
  rw [recordBatch, if_neg more] at h
  split at h
  · cases running.symm.trans h
  · cases h

theorem Passed.ran (passed : Passed w) (sound : Sound w)
    (h : Ran w w' now call t t₁ w₁ w₂ rows out) : Passed w' := by
  have items : manifest w' = manifest w₁ := by
    rw [h.world, manifest, manifest, ← h.batched.items]
    rfl
  intro u' mem' done kind r hr own
  rw [items] at hr
  rw [h.world] at mem'
  rcases mem_updateKey.mp mem' with ⟨mem, other⟩ | ⟨u, mem, same, rfl⟩
  · rw [h.batched.tasks] at mem
    obtain ⟨u, hu, ⟨rfl, -⟩ | ⟨key, progress, -⟩⟩ := h.prepared.tasks.of_mem mem
    · rw [h.prepared.manifest, mem_append] at hr
      rcases hr with hr | hr
      · exact passed u' hu done kind r hr own
      · exact absurd (own.symm.trans (h.prepared.own r hr)) other
    · exact absurd ((congrArg Progress.id progress).trans key) other
  · rw [h.batched.tasks] at mem
    cases h.task.symm.trans ((h.prepared.sound sound).task.mpr ⟨mem, same⟩)
    -- the batch that completes the task found nothing beyond its cursor
    have spent := recordBatch_completed h.state done
    rw [h.batched.done, exhausted, all_eq_true] at spent
    have checkpoint : (recordBatch now call out t₁).checkpoint = out.cursor :=
      congrArg Progress.checkpoint recordBatch_progress
    have id : (recordBatch now call out t₁).id = t₁.id := congrArg Progress.id recordBatch_progress
    rw [checkpoint]
    exact of_decide_eq_true (spent r (mem_filter.mpr ⟨(mem_filter.mp hr).1, by simp [own, id]⟩))

def Passing (s : System) : Prop := Sound s.world ∧ Passed s.world

theorem Passing.run (passing : Passing s) (lawful : op.Lawful s) : Passing (op.run env s) := by
  obtain ⟨sound, passed⟩ := passing
  have effect : Effect env s op (op.run env s) := run_effect sound lawful
  refine ⟨effect.sound sound, ?_⟩
  generalize op.run env s = s' at effect ⊢
  cases effect with
  | calm calm => exact passed.calm calm
  | enqueued enqueued => exact passed.enqueued enqueued
  | ran ran => exact passed.ran sound ran
  | takenOver found taken =>
    obtain ⟨now, token, snapshotToken, untouched⟩ := taken.world
    exact Passed.calm (w := s.world.updateWorkflow _ _) passed untouched.quiet.toCalm
  | adopted | read | unread | finished | dropped => exact passed

/-- A task completes only once it has passed every row of its manifest, whoever runs its batches and
however often they are taken over; the bootstrap may close a mail carry without one. -/
theorem completed_tasks_passed_manifest (env : Env) (s : System) (ops : List Op)
    (sound : Sound s.world) (passed : Passed s.world)
    (along : Along (Op.run env) (fun s op => op.Lawful s) s ops) :
    Passed (play (Op.run env) s ops).world := by
  have passing : Passing (play (Op.run env) s ops) :=
    along.invariant (fun _ _ passing lawful => passing.run lawful) ⟨sound, passed⟩
  exact passing.2

def leasedCopy : System where
  world :=
    let w := (endedCopy .running).world
    { w with
      db := { w.db with resources := [{ id := 5, tenantId := 1, type := .mailbox, externalId := "u" }] }
      workflows := w.workflows.map ({ · with leaf := ⟨10, none⟩ })
      copyControl := some { enabled := true }
      copyTasks := w.copyTasks.map
        ({ · with prepared := true, leaseOwnerId := some 7, leaseExpiresAt := some (seconds 90) })
      copyItems := [1, 2].map fun n =>
        { taskId := 40, ordinal := n
          payload := .row { id := 50, snapshotId := 9, itemType := .teamsChatMessage, externalId := "m" } } }

def twoBatches : List Op :=
  .replicate 2 (.batch 0 { claim := ⟨40, 7, 0⟩, batchSize := 1, keepClaim := true })

theorem completed_tasks_passed_manifest_leased :
    Passed (play (Op.run {}) leasedCopy twoBatches).world ∧
    (play (Op.run {}) leasedCopy twoBatches).world.copyTasks.map (·.state) = [.completed] := by
  refine ⟨completed_tasks_passed_manifest {} _ _ ⟨by decide, by decide⟩ (by decide)
    ⟨trivial, trivial, trivial⟩, ?_⟩
  decide +kernel

theorem latest_mem (h : s.latest key = some c) : c ∈ s.resumeClaims ∧ c.workflowId = key :=
  ⟨mem_of_find?_eq_some h, of_find? h⟩

def Leased (s : System) (f : CopyWorkflow) : Prop :=
  f.state = .resuming → ∃ c, s.latest f.id = some c ∧ f.leaseOwnerId = some c.ownerId

structure Read (s : System) (p : Finishing) : Prop where
  handed : p.claim ∈ s.resumeClaims
  workflow : p.seen.id = p.claim.workflowId
  leased : p.seen.state = .resuming → ∃ c, p.latest = some c ∧ p.seen.leaseOwnerId = some c.ownerId

structure Handed (s : System) : Prop where
  sound : Sound s.world
  leased : ∀ f ∈ s.world.workflows, Leased s f
  read : ∀ p ∈ s.finishing, Read s p

theorem Handed.step (handed : Handed s) (sound : Sound s'.world) (claims : s'.resumeClaims = s.resumeClaims)
    (workflows : ∀ f' ∈ s'.world.workflows, f'.state = .resuming →
      ∃ f ∈ s.world.workflows, f.state = .resuming ∧ f.id = f'.id ∧ f.leaseOwnerId = f'.leaseOwnerId)
    (finishing : ∀ p ∈ s'.finishing, p ∈ s.finishing) : Handed s' where
  sound
  leased f' mem resuming := by
    obtain ⟨f, hf, state, id, owner⟩ := workflows f' mem resuming
    obtain ⟨c, latest, lease⟩ := handed.leased f hf state
    refine ⟨c, ?_, owner ▸ lease⟩
    rw [System.latest, claims, ← id]
    exact latest
  read p hp := by
    have old := handed.read p (finishing p hp)
    exact ⟨claims ▸ old.handed, old.workflow, old.leased⟩

theorem resuming_of_updateWorkflow {key : Uuid} {g : CopyWorkflow → CopyWorkflow}
    (ends : ∀ f, (g f).state ≠ .resuming) {f' : CopyWorkflow}
    (mem : f' ∈ (w.updateWorkflow key g).workflows) (resuming : f'.state = .resuming) :
    ∃ f ∈ w.workflows, f.state = .resuming ∧ f.id = f'.id ∧ f.leaseOwnerId = f'.leaseOwnerId := by
  rcases mem_updateKey.mp mem with ⟨mem, -⟩ | ⟨f, -, -, rfl⟩
  · exact ⟨f', mem, resuming, rfl, rfl⟩
  · exact absurd resuming (ends f)

theorem Handed.takenOver (handed : Handed s) (taken : TakenOver s.world world f c) :
    Handed { s with world, resumeClaims := c :: s.resumeClaims } := by
  obtain ⟨now, token, snapshotToken, untouched⟩ := taken.world
  refine ⟨?_, fun f' mem resuming => ?_, fun p hp => ?_⟩
  · refine Sound.calm ?_ untouched.quiet.toCalm
    exact handed.sound.updateWorkflow fun _ => rfl
  · rw [untouched.workflows] at mem
    rcases mem_updateKey.mp mem with ⟨mem, other⟩ | ⟨g, -, same, rfl⟩
    · obtain ⟨d, latest, lease⟩ := handed.leased f' mem resuming
      refine ⟨d, ?_, lease⟩
      have otherClaim : c.workflowId ≠ f'.id := fun same => other (same.symm.trans taken.workflowId)
      rw [System.latest, find?_cons_of_neg (by simpa using otherClaim)]
      exact latest
    · refine ⟨c, ?_, rfl⟩
      have own : c.workflowId = (resumeWorkflow now c.ownerId token snapshotToken g).id :=
        taken.workflowId.trans same.symm
      exact find?_cons_of_pos (decide_eq_true own)
  · have old := handed.read p hp
    exact ⟨mem_cons_of_mem c old.handed, old.workflow, old.leased⟩

theorem Handed.run (handed : Handed s) (lawful : op.Lawful s) : Handed (op.run env s) := by
  have effect : Effect env s op (op.run env s) := run_effect handed.sound lawful
  have sound := effect.sound handed.sound
  generalize op.run env s = s' at effect sound
  have same (p : Finishing) (hp : p ∈ s.finishing) : p ∈ s.finishing := hp
  cases effect with
  | calm calm =>
    refine handed.step sound rfl (fun f' mem resuming => ?_) same
    obtain ⟨f, hf, passes⟩ := calm.workflows.of_mem mem
    obtain ⟨state, owner⟩ := passes.resuming resuming
    exact ⟨f, hf, state, passes.id.symm, owner.symm⟩
  | enqueued enqueued =>
    refine handed.step sound rfl (fun f' mem resuming => ?_) same
    rcases enqueued.workflows.of_mem mem with ⟨g, hg, rfl | ⟨rfl, -⟩⟩ | rfl
    · exact ⟨f', hg, resuming, rfl, rfl⟩
    · cases resuming.symm.trans enqueued.draining
    · cases resuming.symm.trans enqueued.draining
  | ran ran =>
    refine handed.step sound rfl (fun f' mem resuming => ?_) same
    exact ⟨f', ran.workflows ▸ mem, resuming, rfl, rfl⟩
  | adopted found outlived =>
    exact handed.step sound rfl
      (fun f' mem => resuming_of_updateWorkflow (fun _ => WorkState.noConfusion) mem) same
  | takenOver found taken => exact handed.takenOver taken
  | @read c seen hc found =>
    have workflow := handed.sound.workflow.mp found
    refine ⟨sound, handed.leased, fun p hp => ?_⟩
    rcases mem_cons.mp hp with rfl | hp
    · refine ⟨hc, workflow.2, fun resuming => ?_⟩
      obtain ⟨d, latest, lease⟩ := handed.leased seen workflow.1 resuming
      exact ⟨d, workflow.2 ▸ latest, lease⟩
    · have old := handed.read p hp
      exact ⟨old.handed, old.workflow, old.leased⟩
  | unread => exact handed
  | @finished now call failed p under resuming owner =>
    refine handed.step sound rfl
      (fun f' mem => resuming_of_updateWorkflow (fun _ => ?_) mem) fun p => mem_of_mem_eraseIdx
    rw [finishWorkflow]
    dsimp only
    split <;> exact WorkState.noConfusion
  | dropped =>
    exact handed.step sound rfl (fun f' mem resuming => ⟨f', mem, resuming, rfl, rfl⟩)
      fun p => mem_of_mem_eraseIdx

/-- A `finish_resume` that writes carries the claim handed out last, if no claim was handed out after its
first read and no other claim of the workflow went to the same owner. -/
theorem finish_carries_latest_claim (env : Env) (s : System) (ops : List Op) (sound : Sound s.world)
    (idle : (∀ f ∈ s.world.workflows, f.state ≠ .resuming) ∧ s.finishing = [])
    (along : Along (Op.run env) (fun s op => op.Lawful s) s ops) (now : Time) (call : Nat) (failed : Bool)
    (p : Finishing) (under : (play (Op.run env) s ops).finishing[call]? = some p)
    (writes : ((play (Op.run env) s ops).finish now call failed).world ≠
      (play (Op.run env) s ops).world)
    (unmoved : (play (Op.run env) s ops).latest p.claim.workflowId = p.latest)
    (alone : ∀ d ∈ (play (Op.run env) s ops).resumeClaims, d.workflowId = p.claim.workflowId →
      d.ownerId = p.claim.ownerId → d = p.claim) :
    (play (Op.run env) s ops).latest p.claim.workflowId = some p.claim := by
  have handed : Handed (play (Op.run env) s ops) := by
    refine along.invariant (fun _ _ handed lawful => handed.run lawful) ⟨sound, ?_, ?_⟩
    · exact fun f mem resuming => absurd resuming (idle.1 f mem)
    · rw [idle.2]
      exact fun p hp => absurd hp not_mem_nil
  generalize play (Op.run env) s ops = s at *
  have read := handed.read p (mem_of_getElem? under)
  obtain ⟨resuming, owner⟩ : p.seen.state = .resuming ∧ p.seen.leaseOwnerId = some p.claim.ownerId := by
    rw [System.finish, under] at writes
    dsimp only at writes
    cases h : finishResume s.world now p.seen p.claim.ownerId failed with
    | error e =>
      rw [h] at writes
      exact absurd rfl writes
    | ok world =>
      rw [h] at writes
      rcases finishResume_ok h with rfl | ⟨resuming, owner, -⟩
      · exact absurd rfl writes
      · exact ⟨resuming, owner⟩
  obtain ⟨c, latest, lease⟩ := read.leased resuming
  rw [latest] at unmoved
  obtain ⟨mem, workflow⟩ := latest_mem unmoved
  have same : c.ownerId = p.claim.ownerId := Option.some_inj.mp (lease.symm.trans owner)
  rw [unmoved, alone c mem workflow same]

theorem finish_carries_latest_claim_ended : (play (Op.run {}) (endedCopy .completed)
      (resumeAndMark .completed ++ [.finishRead ⟨30, 7, 1, 1⟩])).latest 30 = some ⟨30, 7, 1, 1⟩ := by
  let seen : CopyWorkflow := {
    id := 30, leaf := ⟨10, some 20⟩, tenantId := 1, resourceId := 5, jobId := 1, state := .resuming
    generation := 1, parentLeaseToken := 1, leaseOwnerId := some 7, leaseExpiresAt := some (seconds 90) }
  refine finish_carries_latest_claim {} (endedCopy .completed)
    (resumeAndMark .completed ++ [.finishRead ⟨30, 7, 1, 1⟩]) ⟨by decide, by decide⟩ ⟨by decide, rfl⟩
    ?_ 0 0 false ⟨⟨30, 7, 1, 1⟩, seen, some ⟨30, 7, 1, 1⟩⟩ ?_ ?_ ?_ ?_
  · refine ⟨trivial, ⟨rfl, rfl, rfl, rfl⟩, ?_, trivial⟩
    unfold Op.Lawful
    decide +kernel
  · decide +kernel
  · decide +kernel
  · decide +kernel
  · decide +kernel

def sameOwner : List Op :=
  [.beginResume 0 30 7, .beginResume (seconds 91) 30 7,
    .others (markPartitions (play (Op.run {}) (endedCopy .completed)
      [.beginResume 0 30 7, .beginResume (seconds 91) 30 7]).world),
    .finishRead ⟨30, 7, 1, 1⟩]

def staleRead : List Op :=
  [.beginResume 0 30 7, .finishRead ⟨30, 7, 1, 1⟩, .beginResume (seconds 91) 30 8,
    .others (markPartitions (play (Op.run {}) (endedCopy .completed)
      [.beginResume 0 30 7, .finishRead ⟨30, 7, 1, 1⟩, .beginResume (seconds 91) 30 8]).world)]

theorem superseded_claim_finishes :
    (Along (Op.run {}) (fun s op => op.Lawful s) (endedCopy .completed) sameOwner ∧
      (play (Op.run {}) (endedCopy .completed) sameOwner).finishing.map (·.claim) = [⟨30, 7, 1, 1⟩] ∧
      (play (Op.run {}) (endedCopy .completed) sameOwner).latest 30 = some ⟨30, 7, 2, 2⟩ ∧
      ((play (Op.run {}) (endedCopy .completed) sameOwner).finish 0 0 false).world.workflows.map
        (·.state) = [.completed]) ∧
    Along (Op.run {}) (fun s op => op.Lawful s) (endedCopy .completed) staleRead ∧
      (play (Op.run {}) (endedCopy .completed) staleRead).finishing.map (·.claim) = [⟨30, 7, 1, 1⟩] ∧
      (play (Op.run {}) (endedCopy .completed) staleRead).latest 30 = some ⟨30, 8, 2, 2⟩ ∧
      ((play (Op.run {}) (endedCopy .completed) staleRead).finish 0 0 false).world.workflows.map
        (·.state) = [.completed] := by
  refine ⟨⟨⟨trivial, trivial, ⟨rfl, rfl, rfl, rfl⟩, ?_, trivial⟩, ?_⟩,
    ⟨trivial, ?_, trivial, ⟨rfl, rfl, rfl, rfl⟩, trivial⟩, ?_⟩
  · unfold Op.Lawful
    decide +kernel
  · decide +kernel
  · unfold Op.Lawful
    decide +kernel
  · decide +kernel

end TmVault.Copy
