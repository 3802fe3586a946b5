import TmVault.Copy.Quiet

namespace TmVault.Copy

open Relational Store Work
open List hiding partition

variable {env : Env} {w w' : World} {now : Time} {f : CopyWorkflow} {t t' : CopyWorkTask}
  {snapshot : Snapshot} {req : CopyRequest}

def manifest (w : World) : List CopyWorkItem := w.copyItems.filter (0 < ·.ordinal)

structure Bootstrapped (t t' : CopyWorkTask) : Prop where
  kind : t.kind = .mailCarry
  unsettled : t.state ≠ .completed
  progress : progress t' = { progress t with prepared := true }
  completed : t'.state = .completed

def Registers (f : CopyWorkflow) (t t' : CopyWorkTask) : Prop :=
  Idle t t' ∨ Bootstrapped t t' ∧ t.idempotencyKey.workflowId = f.id ∧
    t.idempotencyKey.captureAttempt = f.captureAttempt

namespace Registers

theorem refl (t : CopyWorkTask) : Registers f t t := .inl (.refl t)

theorem trans (h : Registers f t t') (h' : Registers f t' t'') : Registers f t t'' := by
  rcases h, h' with ⟨h | ⟨h, key⟩, h' | ⟨h', key'⟩⟩
  · exact .inl (h.trans h')
  · have same : t'.idempotencyKey = t.idempotencyKey := congrArg Progress.idempotencyKey h.progress
    rw [same] at key'
    refine .inr ⟨⟨(congrArg Progress.kind h.progress).symm.trans h'.kind,
      fun done => h'.unsettled (h.completed.mpr done), ?_, h'.completed⟩, key'⟩
    rw [h'.progress, h.progress]
  · exact .inr ⟨⟨h.kind, h.unsettled, h'.progress.trans h.progress, h'.completed.mpr h.completed⟩, key⟩
  · exact absurd h.completed h'.unsettled

theorem id (h : Registers f t t') : t'.id = t.id := by
  rcases h with h | ⟨h, -⟩
  · exact h.id
  · exact congrArg Progress.id h.progress

end Registers

structure NewTask (f : CopyWorkflow) (t : CopyWorkTask) : Prop where
  workflowId : t.workflowId = f.id
  key : t.idempotencyKey.workflowId = f.id ∧ t.idempotencyKey.captureAttempt = f.captureAttempt
  completed : t.state = .completed → t.kind = .mailCarry

theorem NewTask.registers (new : NewTask f t) (h : Registers f t t') : NewTask f t' := by
  rcases h with h | ⟨h, key⟩
  · have same : t'.idempotencyKey = t.idempotencyKey := congrArg Progress.idempotencyKey h.progress
    refine ⟨h.workflowId.trans new.workflowId, same ▸ new.key, fun done => ?_⟩
    exact (congrArg Progress.kind h.progress).trans (new.completed (h.completed.mp done))
  · have same : t'.idempotencyKey = t.idempotencyKey := congrArg Progress.idempotencyKey h.progress
    exact ⟨(congrArg Progress.workflowId h.progress).trans new.workflowId, same ▸ key,
      fun _ => (congrArg Progress.kind h.progress).trans h.kind⟩

def Reopens (f g g' : CopyWorkflow) : Prop :=
  g' = g ∨ g' = f ∧ f.id = g.id ∧ f.leaf = g.leaf ∧ g.captureAttempt < f.captureAttempt ∧
    g.generation ≤ f.generation

structure Opened (w w' : World) (f : CopyWorkflow) : Prop where
  sound : Sound w'
  draining : f.state = .draining
  mem : f ∈ w'.workflows
  workflows : Extended (Reopens f) (· = f) w.workflows w'.workflows
  tasks : w'.copyTasks = w.copyTasks
  items : w'.copyItems = w.copyItems
  queues : w'.copyQueues = w.copyQueues

theorem openWorkflow_ok (sound : Sound w) {id : Uuid} {job : Job}
    (h : openWorkflow w id snapshot resource job partition = .ok (w', f)) : Opened w w' f := by
  rw [openWorkflow] at h
  dsimp only at h
  split at h
  · split at h
    · cases h
    · rename_i fresh
      cases h
      refine ⟨⟨sound.task_ids, ?_⟩, rfl, by simp, .append (fun _ => .inl rfl) rfl, rfl, rfl, rfl⟩
      rw [map_append, map_singleton, ← concat_eq_append]
      exact sound.workflow_ids.concat (by simpa using fresh)
  · rename_i g found
    have mem : g ∈ w.workflows := mem_of_find?_eq_some found
    split at h
    · cases h
      refine ⟨sound.updateWorkflow fun _ => rfl, rfl, mem_updateKey.mpr (.inr ⟨g, mem, rfl, rfl⟩), ?_,
        rfl, rfl, rfl⟩
      refine .of_inPlace (.updateKey (fun _ => .inl rfl) fun g' mem' same => ?_)
      cases (sound.workflow.mpr ⟨mem, rfl⟩).symm.trans (sound.workflow.mpr ⟨mem', same⟩)
      exact .inr ⟨rfl, rfl, rfl, Nat.lt_succ_self _, Nat.le_succ _⟩
    · split at h
      · rename_i held
        cases h
        simp only [Bool.and_eq_true, decide_eq_true_eq] at held
        exact ⟨sound, held.1, mem, .of_inPlace (.of_eq (fun _ => .inl rfl) rfl), rfl, rfl, rfl⟩
      · cases h

theorem openPlan_ok (h : openPlan w snapshot partition req = .ok w') : Untouched w w' := by
  obtain ⟨-, -, -, -, h⟩ := of_bind₂ h
  cases h
  exact .putPlan

structure Registered (f : CopyWorkflow) (w w' : World) : Prop where
  sound : Sound w'
  workflows : w'.workflows = w.workflows
  tasks : Extended (Registers f) (NewTask f) w.copyTasks w'.copyTasks
  manifest : manifest w' = manifest w
  queues : w'.copyQueues = w.copyQueues

theorem Registered.next (h : Registered f w w') (tasks : InPlace (Registers f) w'.copyTasks w''.copyTasks)
    (workflows : w''.workflows = w'.workflows) (manifest : Copy.manifest w'' = Copy.manifest w')
    (queues : w''.copyQueues = w'.copyQueues) : Registered f w w'' where
  sound := by
    refine ⟨?_, workflows ▸ h.sound.workflow_ids⟩
    rw [tasks.map_eq fun registers => registers.id]
    exact h.sound.task_ids
  workflows := workflows.trans h.workflows
  tasks := h.tasks.inPlace Registers.trans NewTask.registers tasks
  manifest := manifest.trans h.manifest
  queues := queues.trans h.queues

theorem insertTask_ok (sound : Sound w) (new : NewTask f t) (h : insertTask w t = .ok (w', t')) :
    Registered f w w' ∧ w'.copyTask? t'.id = some t' ∧ t'.idempotencyKey = t.idempotencyKey := by
  rw [insertTask] at h
  split at h
  · rename_i known found
    cases h
    exact ⟨⟨sound, rfl, .of_inPlace (.of_eq Registers.refl rfl), rfl, rfl⟩,
      sound.task.mpr ⟨mem_of_find?_eq_some found, rfl⟩, by simpa using find?_some found⟩
  · split at h
    · cases h
    · rename_i fresh
      cases h
      have sound' : Sound { w with copyTasks := w.copyTasks ++ [t] } := by
        refine ⟨?_, sound.workflow_ids⟩
        rw [map_append, map_singleton, ← concat_eq_append]
        exact sound.task_ids.concat (by simpa using fresh)
      exact ⟨⟨sound', rfl, .append Registers.refl new, rfl, rfl⟩,
        sound'.task.mpr ⟨mem_append_right _ mem_cons_self, rfl⟩, rfl⟩

theorem manifest_insertPins : manifest (insertPins w taskId ids) = manifest w := by
  refine filter_insertAllIgnore fun i hi => ?_
  obtain ⟨⟨id, n⟩, -, rfl⟩ := mem_map.mp hi
  simp only [decide_eq_false_iff_not]
  omega

theorem pinIntentSources_ok (h : pinIntentSources env w t = .ok w') :
    InPlace Idle w.copyTasks w'.copyTasks ∧ w'.workflows = w.workflows ∧ manifest w' = manifest w ∧
      w'.copyQueues = w.copyQueues := by
  have same : InPlace Idle w.copyTasks w.copyTasks := .of_eq Idle.refl rfl
  rw [pinIntentSources] at h
  split at h
  · cases h
    exact ⟨same, rfl, rfl, rfl⟩
  · obtain ⟨f, -, h⟩ := of_bind h
    split at h
    · cases h
      exact ⟨same, rfl, rfl, rfl⟩
    · obtain ⟨-, -, -, -, -, -, h⟩ := of_bind₃ h
      obtain ⟨-, -, h⟩ := of_bind h
      cases h
      exact ⟨.updateKey Idle.refl fun _ _ _ => ⟨rfl, .rfl⟩, rfl, manifest_insertPins, rfl⟩

theorem completeBootstrapMailNoop_registers (kind : t.kind = .mailCarry) (ready : t.state = .ready)
    (key : t.idempotencyKey.workflowId = f.id ∧ t.idempotencyKey.captureAttempt = f.captureAttempt) :
    Registers f t (completeBootstrapMailNoop w snapshot t) := by
  have unsettled : t.state ≠ .completed := by
    rw [ready]
    exact TaskState.noConfusion
  rw [completeBootstrapMailNoop]
  split
  · exact .inl (.of_open rfl unsettled TaskState.noConfusion)
  · split
    · exact .inr ⟨⟨kind, unsettled, rfl, rfl⟩, key⟩
    · exact .inl (.of_open rfl unsettled TaskState.noConfusion)

structure Enqueued (w w' : World) (f : CopyWorkflow) : Prop where
  sound : Sound w'
  draining : f.state = .draining
  mem : f ∈ w'.workflows
  workflows : Extended (Reopens f) (· = f) w.workflows w'.workflows
  tasks : Extended (Registers f) (NewTask f) w.copyTasks w'.copyTasks
  manifest : manifest w' = manifest w
  queues : ∃ rows, w'.copyQueues = insertAllIgnore (·.key) w.copyQueues rows

theorem planLabels_ok (h : planLabels w snapshot partition req = .ok w') : Untouched w w' := by
  rw [planLabels] at h
  split at h
  · exact openPlan_ok h
  · cases h
    exact .refl w

theorem bootstrapNoop_inPlace (sound : Sound w) (ht : w.copyTask? taskId = some t)
    (key : t.idempotencyKey.workflowId = f.id ∧ t.idempotencyKey.captureAttempt = f.captureAttempt) :
    InPlace (Registers f) w.copyTasks (bootstrapNoop w snapshot resource taskId).copyTasks := by
  refine .updateKey Registers.refl fun u mem same => ?_
  cases ht.symm.trans (sound.task.mpr ⟨mem, same⟩)
  split
  · rename_i applies
    simp only [Bool.and_eq_true, decide_eq_true_eq] at applies
    exact completeBootstrapMailNoop_registers applies.1.1.1.1.1 applies.1.1.1.1.2 key
  · exact .refl t

theorem register_ok (sound : Sound w) {taskId id : Uuid} {job : Job} {policyId : Option Uuid}
    (h : register env w now taskId f snapshot resource job policyId req = .ok (w', id)) :
    ∃ rows, Registered f { w with copyQueues := insertAllIgnore (·.key) w.copyQueues rows } w' := by
  obtain ⟨-, -, h⟩ := of_bind h
  dsimp only at h
  obtain ⟨⟨w₁, t⟩, inserted, w₂, pinned, h⟩ := of_bind₂ h
  cases h
  have new : NewTask f (newTask env now taskId f resource policyId req
      (intentParams snapshot req.params)) :=
    ⟨rfl, ⟨rfl, rfl⟩, nofun⟩
  generalize newTask env now taskId f resource policyId req _ = fresh at new inserted
  have queued : Sound (insertQueues w fresh (schedulingWeight job req.weight)) :=
    ⟨sound.task_ids, sound.workflow_ids⟩
  obtain ⟨registered, found, key⟩ := insertTask_ok queued new inserted
  obtain ⟨tasks, workflows, manifest, queues⟩ := pinIntentSources_ok pinned
  have registered := registered.next (tasks.imp fun _ _ => .inl) workflows manifest queues
  obtain ⟨t', found', idle⟩ := tasks.find? (fun idle => idle.id) found
  have key' : t'.idempotencyKey = t.idempotencyKey := congrArg Progress.idempotencyKey idle.progress
  refine ⟨_, registered.next (bootstrapNoop_inPlace registered.sound found' ?_) rfl rfl rfl⟩
  rw [key', key]
  exact new.key

theorem enqueue_ok (sound : Sound w) {workflowId taskId id : Uuid}
    (h : enqueue env w now workflowId taskId req = .ok (w', id)) : ∃ f, Enqueued w w' f := by
  obtain ⟨-, -, ⟨snapshot, resource, job⟩, -, -, -, h⟩ := of_bind₃ h
  obtain ⟨-, -, partition, -, ⟨w₁, f⟩, opened, h⟩ := of_bind₃ h
  obtain ⟨w₂, planned, h⟩ := of_bind h
  have opened := openWorkflow_ok sound opened
  have planned := planLabels_ok planned
  have sound₂ : Sound w₂ := opened.sound.calm planned.quiet.toCalm
  obtain ⟨rows, registered⟩ := register_ok sound₂ h
  refine ⟨f, registered.sound, opened.draining, ?_, ?_, ?_, ?_, rows, ?_⟩
  · rw [registered.workflows, planned.workflows]
    exact opened.mem
  · rw [registered.workflows, planned.workflows]
    exact opened.workflows
  · have tasks := registered.tasks
    rwa [planned.tasks, opened.tasks] at tasks
  · rw [registered.manifest, manifest, planned.items, opened.items, manifest]
  · rw [registered.queues, planned.queues, opened.queues]

section

theorem claimedTask_progress : progress (claimedTask now owner leaseSeconds t) = progress t := by
  have waited : progress (countWait now t) = progress t := by
    rw [countWait]
    split <;> rfl
  have budgeted : progress (withBudget (countWait now t)) = progress t := by
    rw [withBudget]
    split <;> exact waited
  rw [claimedTask]
  dsimp only
  split
  · exact waited
  · exact budgeted

theorem claimedTask_idle (h : t.state ≠ .completed) : Idle t (claimedTask now owner leaseSeconds t) := by
  refine .of_open claimedTask_progress h ?_
  rw [claimedTask]
  dsimp only
  split <;> exact TaskState.noConfusion

theorem eligible_backlog (h : eligible w now t = true) : t.state.isBacklog = true := by
  simp only [eligible, Bool.and_eq_true, Bool.or_eq_true, decide_eq_true_eq] at h
  rcases h.1.1.2 with ⟨ready, -⟩ | ⟨running, -⟩
  · rw [ready]
    rfl
  · rw [running]
    rfl

theorem Untouched.chargeTurn (h : Untouched w w') :
    Quiet (Copy.chargeTurn w chain) (Copy.chargeTurn w' chain) :=
  ⟨.of_eq h.tasks h.workflows h.items, by rw [Copy.chargeTurn, h.queues, Copy.chargeTurn]⟩

theorem claim_ok (sound : Sound w)
    (h : claim env w now busy locked owner leaseSeconds = .ok (w', c)) :
    (busy = true ∨ servedChain env w now = none) ∧ Quiet w w' ∨
      ∃ chain, busy = false ∧ servedChain env w now = some chain ∧ Quiet (chargeTurn w chain) w' := by
  rw [claim] at h
  dsimp only at h
  split at h
  case isTrue free =>
    cases h
    exact .inl ⟨.inl free, Untouched.withControl.quiet⟩
  case isFalse free =>
    have free : busy = false := by simpa using free
    split at h
    · rename_i served
      cases h
      exact .inl ⟨.inr served, Untouched.withControl.quiet⟩
    · rename_i chain served
      refine .inr ⟨chain, free, served, ?_⟩
      have charged : Quiet (chargeTurn w chain) (chargeTurn (withControl w) chain) :=
        Untouched.withControl.chargeTurn
      split at h
      · cases h
        exact charged
      · rename_i t next
        obtain ⟨_, _, _, _, h⟩ := of_bind₂ h
        cases h
        obtain ⟨q, -, next⟩ := Option.bind_eq_some_iff.mp next
        have claimable := mem_filter.mp (mem_of_mem_filter (orderByFirst_mem next))
        have backlog := eligible_backlog claimable.2
        have sound' : Sound (chargeTurn (withControl w) chain) := ⟨sound.task_ids, sound.workflow_ids⟩
        have found : (chargeTurn (withControl w) chain).copyTask? t.id = some t :=
          sound'.task.mpr ⟨claimable.1, rfl⟩
        refine charged.trans (sound'.quiet_updateTask found (claimedTask_idle fun done => ?_))
        rw [done] at backlog
        cases backlog

end

theorem alignReadyWorkflow_eq : ∃ queues control, alignReadyWorkflow w f =
    { w with copyQueues := queues, copyControl := control } := by
  rw [alignReadyWorkflow]
  split
  · exact ⟨w.copyQueues, w.copyControl, rfl⟩
  · exact ⟨_, _, rfl⟩

theorem quiet_readyTasks : Quiet w (readyTasks now f w) := by
  refine ⟨⟨.of_map fun t _ => ?_, .of_eq Passes.refl rfl, .refl _⟩, rfl⟩
  split
  · exact ⟨rfl, .rfl⟩
  · exact .refl t

theorem sealDecision_ok (h : sealDecision w capture own continuation receiptOnly = .ok d) :
    d = .nothing ∨
      (∃ r, d = .already r ∧ capture.sealReceipt = some r ∧
        ∃ f ∈ w.workflows, matchesSealReceipt r f (lockParents w f)) ∨
      ∃ f snapshot, d = .suspend (capture.sealReceipt.getD ⟨f.id, f.generation, f.captureAttempt,
          parentIdentity (lockParents w f), continuation⟩) f snapshot ∧
        f ∈ w.workflows ∧ f.state = .draining ∧
        ∀ r ∈ capture.sealReceipt, f.id = r.workflowId ∧ f.generation = r.generation := by
  rw [sealDecision] at h
  dsimp only at h
  split at h
  · split at h
    · cases h
    · cases h
      exact .inl rfl
  · rename_i f found
    have mem := mem_of_find?_eq_some found
    obtain ⟨job, _, snapshot, _, _, _, h⟩ := of_bind₃ h
    split at h
    · obtain ⟨_, _, h⟩ := of_bind h
      cases h
      exact .inl rfl
    · obtain ⟨_, _, _, _, h⟩ := of_bind₂ h
      split at h
      · rename_i r matching
        cases h
        obtain ⟨receipt, matching⟩ := Option.filter_eq_some_iff.mp matching
        exact .inr (.inl ⟨r, rfl, receipt, f, mem, matching⟩)
      · obtain ⟨held, h⟩ := of_failIf h
        obtain ⟨draining, h⟩ := of_failIf h
        obtain ⟨_, _, _, _, h⟩ := of_bind₂ h
        split at h
        · cases h
          exact .inl rfl
        · cases h
          refine .inr (.inr ⟨f, snapshot, rfl, mem, by simpa using draining, ?_⟩)
          intro r receipt
          simp only [Option.mem_def.mp receipt, Option.any_some, Bool.or_eq_false_iff,
            decide_eq_false_iff_not, not_not] at held
          exact ⟨held.1.1.1, held.1.1.2⟩

theorem handOffFrom_ok (h : handOffFrom w now provider = .ok w') : Untouched w w' := by
  cases provider with
  | none =>
    cases h
    exact .refl w
  | some c =>
    rw [handOffFrom] at h
    cases handed : handOff w now c with
    | error e =>
      rw [handed] at h
      cases h
    | ok w₁ =>
      rw [handed] at h
      cases h
      exact .handOff handed

theorem suspend_ok (h : suspend w now provider continuation f snapshot = .ok w') :
    ∃ w₁, Untouched w w₁ ∧ Quiet (alignReadyWorkflow w₁ f) w' := by
  obtain ⟨w₁, handed, h⟩ := of_bind h
  cases h
  let l := lockParents w f
  refine ⟨w₁.writeLease (l.leaf snapshot) (l.leaseToken snapshot + 1) none none,
    (handOffFrom_ok handed).trans .writeLease, ?_⟩
  generalize alignReadyWorkflow _ f = w₂
  refine .trans ?_ Untouched.updateSnapshot.quiet
  refine .trans ?_ quiet_readyTasks
  exact .updateWorkflow fun _ _ _ => .of_ended rfl rfl rfl (Nat.le_succ _) mem_cons_self

theorem sealCurrentCopy_ok
    (h : sealCurrentCopy w now capture own provider continuation receiptOnly = .ok (w', capture')) :
    w' = w ∨ ∃ w₁ f, Untouched w w₁ ∧ f ∈ w.workflows ∧ f.state = .draining ∧
      Quiet (alignReadyWorkflow w₁ f) w' := by
  obtain ⟨_, _, _, _, _, _, h⟩ := of_bind₃ h
  split at h
  · cases h
    exact .inl rfl
  · obtain ⟨decision, decided, h⟩ := of_bind h
    rcases sealDecision_ok decided with rfl | ⟨r, rfl, -⟩ | ⟨f, snapshot, rfl, mem, draining, -⟩
    · cases h
      exact .inl rfl
    · cases h
      exact .inl rfl
    · obtain ⟨w₂, suspended, h⟩ := of_bind h
      cases h
      obtain ⟨w₁, untouched, quiet⟩ := suspend_ok suspended
      exact .inr ⟨w₁, f, untouched, mem, draining, quiet⟩

section

variable {snapshot : Snapshot}

def Outlived (w : World) (now : Time) (f : CopyWorkflow) : Prop :=
  resumable now f = true ∧ tasksPending w f = false ∧
    ∃ snapshot, (lockParents w f).snapshot = some snapshot ∧
      (lockParents w f).succeeded snapshot = true

instance : Decidable (Outlived w now f) :=
  match h : (lockParents w f).snapshot with
  | none => .isFalse fun ⟨_, _, _, found, _⟩ => nomatch h.symm.trans found
  | some s => decidable_of_iff (resumable now f = true ∧ tasksPending w f = false ∧
      (lockParents w f).succeeded s = true) <| by simp [Outlived, h]

structure TakenOver (w w' : World) (f : CopyWorkflow) (c : ResumeClaim) : Prop where
  workflowId : c.workflowId = f.id
  world : ∃ now token snapshotToken,
    Untouched (w.updateWorkflow f.id (resumeWorkflow now c.ownerId token snapshotToken)) w'

theorem takeOver_takenOver : TakenOver w (takeOver w now owner f snapshot).1 f
    (takeOver w now owner f snapshot).2 := by
  let l := lockParents w f
  let token := l.leaseToken snapshot + 1
  refine ⟨rfl, now, token, if l.partition.isSome then snapshot.leaseToken else token, ?_⟩
  exact (Untouched.writeLease.updateWorkflow.trans .updateSnapshot).trans .settlePublication

theorem beginResume_ok (h : beginResume w now key owner = .ok (w', c)) :
    c = none ∧ Quiet w w' ∨ ∃ f, w.workflow? key = some f ∧
      (c = none ∧ Outlived w now f ∧ w' = w.updateWorkflow f.id (adoptOutcome now true) ∨
        ∃ c', c = some c' ∧ c'.ownerId = owner ∧ TakenOver w w' f c') := by
  rw [beginResume] at h
  split at h
  · cases h
    exact .inl ⟨rfl, .refl w⟩
  · rename_i f found
    split at h
    · cases h
      exact .inl ⟨rfl, .refl w⟩
    · rename_i free
      simp only [Bool.or_eq_true, Bool.not_eq_true', not_or, Bool.not_eq_false,
        Bool.not_eq_true] at free
      obtain ⟨job, _, h⟩ := of_bind h
      obtain ⟨snapshot, hs, h⟩ := of_orFail h
      split at h
      · cases h
        cases succeeded : (lockParents w f).succeeded snapshot with
        | true => exact .inr ⟨f, found, .inl ⟨rfl, ⟨free.1, free.2, snapshot, hs, succeeded⟩, rfl⟩⟩
        | false =>
          exact .inl ⟨rfl, .updateWorkflow fun _ _ _ =>
            .of_ended rfl rfl rfl le_rfl (by simp [adoptOutcome])⟩
      · split at h
        · cases h
          refine .inl ⟨rfl, Quiet.dropManifests.trans (.updateWorkflow fun _ _ _ => ?_)⟩
          exact .of_ended rfl rfl rfl le_rfl (by simp)
        · obtain ⟨_, _, h⟩ := of_bind h
          cases h
          exact .inr ⟨f, found, .inr ⟨_, rfl, rfl, takeOver_takenOver⟩⟩

theorem finishResume_ok (h : finishResume w now seen owner failed = .ok w') :
    w' = w ∨ seen.state = .resuming ∧ seen.leaseOwnerId = some owner ∧
      w' = w.updateWorkflow seen.id
        (finishWorkflow now (failed || (w.tasksOf seen).any (·.state ≠ .completed))) := by
  rw [finishResume] at h
  split at h
  · cases h
    exact .inl rfl
  · rename_i held
    simp only [Bool.or_eq_true, decide_eq_true_eq, not_or, not_not] at held
    obtain ⟨_, _, _, _, h⟩ := of_bind₂ h
    cases h
    exact .inr ⟨held.1, held.2, rfl⟩

end

theorem untokened_passes (h : untokened f' = untokened f) : Passes f f' := by
  have field {α : Type} (column : CopyWorkflow → α) : column (untokened f') = column (untokened f) :=
    congrArg column h
  have state : f'.state = f.state := field CopyWorkflow.state
  refine ⟨field CopyWorkflow.id, field CopyWorkflow.leaf, field CopyWorkflow.captureAttempt, ?_, ?_,
    fun resuming => ⟨state ▸ resuming, field CopyWorkflow.leaseOwnerId⟩,
    (field CopyWorkflow.generation).ge⟩
  · rw [state]
    exact id
  · rw [state]
    exact id

theorem SameWork.calm (h : SameWork w w') : Calm w w' where
  tasks := .of_eq Idle.refl h.tasks
  workflows := by
    have same : InPlace (fun f f' => untokened f' = untokened f) w.workflows w'.workflows := by
      have := h.workflows
      rw [← forall₂_eq_eq_eq, forall₂_map_left_iff, forall₂_map_right_iff] at this
      exact this.flip
    exact same.imp fun f f' h => untokened_passes h
  items := h.items ▸ .refl _

end TmVault.Copy
