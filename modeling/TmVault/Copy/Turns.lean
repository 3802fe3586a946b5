import TmVault.Copy.Fairness

namespace TmVault.Copy

open Relational Concurrency Store Work List

/-- `_parent` passes for the task's workflow. -/
def ParentHolds (w : World) (t : CopyWorkTask) : Prop :=
  ∃ f, w.workflow? t.workflowId = some f ∧ ∃ p, parent w f.leaf.snapshotId = .ok p

def TurnHolds (w : World) (now : Time) (locked : List Uuid) (chain : List CopyWorkQueue) : Prop :=
  ∀ t, (chain.getLast?.bind fun q => nextTask w now locked q.key) = some t → ParentHolds w t

theorem charged_ne (q : CopyWorkQueue) : charged q ≠ q := by
  intro same
  have still : q.virtualFinish + quantum q = q.virtualFinish := congrArg (·.virtualFinish) same
  have positive : 0 < quantum q := one_div_pos.mpr (Nat.cast_pos.mpr q.weight.2.1)
  linarith

theorem chargeTurn_ne (h : servedChain env w now = some chain) :
    (chargeTurn w chain).copyQueues ≠ w.copyQueues := by
  obtain ⟨tenant, policy, resource, rfl, first, -, -⟩ := servedChain_eq h
  intro same
  have stays := map_eq_map_iff.mp (same.trans (map_id _).symm) tenant (nextQueue_mem first).1
  rw [if_pos (mem_map_of_mem mem_cons_self)] at stays
  exact charged_ne tenant stays

theorem claim_of_turnHolds (owner : Uuid) (leaseSeconds : Nat)
    (h : servedChain env w now = some chain) (holds : TurnHolds w now locked chain) : ∃ w' c,
      claim env w now false locked owner leaseSeconds = .ok (w', c) ∧
        w'.copyQueues = (chargeTurn w chain).copyQueues := by
  have chosen : servedChain env (withControl w) now = some chain := h
  simp only [claim, chosen, Bool.false_eq_true, if_false]
  split
  · exact ⟨_, _, rfl, rfl⟩
  · rename_i t offered
    obtain ⟨f, hf, p, hp⟩ := holds t offered
    exact ⟨_, _, bind_eq_ok.mpr ⟨f, orFail_eq_ok.mpr hf, bind_eq_ok.mpr ⟨p, hp, rfl⟩⟩, rfl⟩

theorem turnHolds_of_claim (h : servedChain env w now = some chain)
    (ok : claim env w now false locked owner leaseSeconds = .ok (w', c)) :
    TurnHolds w now locked chain := by
  intro t offered
  have chosen : servedChain env (withControl w) now = some chain := h
  have offered : (chain.getLast?.bind fun q => nextTask (withControl w) now locked q.key) = some t :=
    offered
  simp only [claim, chosen, offered, Bool.false_eq_true, if_false] at ok
  obtain ⟨f, hf, ok⟩ := of_orFail ok
  obtain ⟨p, hp, -⟩ := of_bind ok
  exact ⟨f, hf, p, hp⟩

/-- A claim that chose a chain advances its clocks, and counts as a turn of its queues, exactly when
the parent of the task it goes on to check still holds. -/
theorem turn_committed_iff (env : Env) (s : System) (now : Time) (locked : List Uuid) (owner : Uuid)
    (leaseSeconds : Nat) (chain : List CopyWorkQueue) (chosen : servedChain env s.world now = some chain) :
    (((Op.claim now false locked owner leaseSeconds).run env s).world.copyQueues =
        (chargeTurn s.world chain).copyQueues ↔ TurnHolds s.world now locked chain) ∧
      ((Op.claim now false locked owner leaseSeconds).serves env s = chain.map (·.key) ↔
        TurnHolds s.world now locked chain) := by
  by_cases holds : TurnHolds s.world now locked chain
  · obtain ⟨w', c, ok, queues⟩ := claim_of_turnHolds owner leaseSeconds chosen holds
    refine ⟨iff_of_true ?_ holds, iff_of_true ?_ holds⟩
    · simp only [Op.run, ok]
      exact queues
    · simp [Op.serves, ok, chosen]
  · have refused : ∃ e, claim env s.world now false locked owner leaseSeconds = .error e := by
      cases result : claim env s.world now false locked owner leaseSeconds with
      | ok r => exact absurd (turnHolds_of_claim chosen result) holds
      | error e => exact ⟨e, rfl⟩
    obtain ⟨e, refused⟩ := refused
    refine ⟨iff_of_false ?_ holds, iff_of_false ?_ holds⟩
    · simp only [Op.run, refused]
      exact (chargeTurn_ne chosen).symm
    · obtain ⟨tenant, policy, resource, rfl, -⟩ := servedChain_eq chosen
      simp [Op.serves, refused]

theorem live_turn_committed :
    ((Op.claim (seconds 1000) false [] 7 60).run {} deferredCopy).world.copyQueues ≠
      deferredCopy.world.copyQueues := by
  have chosen : servedChain {} deferredCopy.world (seconds 1000) =
      some [{ key := .tenant 1 .micro }, { key := .policy 1 none .micro }, firstQueue 0] := by
    decide +kernel
  have holds : TurnHolds deferredCopy.world (seconds 1000) []
      [{ key := .tenant 1 .micro }, { key := .policy 1 none .micro }, firstQueue 0] := by
    intro t offered
    obtain rfl := Option.some.inj offered
    exact ⟨_, rfl, _, rfl⟩
  rw [(turn_committed_iff {} deferredCopy (seconds 1000) [] 7 60 _ chosen).1.mpr holds]
  exact chargeTurn_ne chosen

theorem claimable_congr (ready : ∀ t ∈ w.copyTasks, t.state = .ready ∧ t.readyAt ≤ since)
    (late : since ≤ now) : claimable w now = claimable w since := by
  apply filter_congr
  intro t ht
  obtain ⟨state, due⟩ := ready t ht
  simp [eligible, state, due, due.trans late]

/-- The first resource's run has ended while its copy was waiting. -/
def endedParent : System :=
  { deferredCopy with world := { deferredCopy.world with
      db := deferredCopy.world.db.setWhere [10] fun s => { s with status := some .failed } } }

theorem claim_endedParent (late : seconds 1000 ≤ now) :
    claim {} endedParent.world now false [] 7 60 =
      .error (.conflict "copy parent is no longer active") := by
  have same : claimable (withControl endedParent.world) now =
      claimable (withControl endedParent.world) (seconds 1000) := claimable_congr (by decide) late
  simp only [claim, servedChain, nextQueue, contenders, nextTask, same]
  rfl

/-- Both resources have work that can be claimed, and however often it is polled nothing is committed
and the second resource is not served once. -/
theorem ended_parent_starves : Eligible endedParent.world (seconds 1000) secondQueue.key ∧
    ∀ times : List Time, (∀ t ∈ times, seconds 1000 ≤ t) →
    (∀ now ∈ times, Eligible endedParent.world now secondQueue.key ∧
        (servedChain {} endedParent.world now).isSome) ∧
      play (Op.run {}) endedParent (times.map fun now => .claim now false [] 7 60) = endedParent ∧
      turns {} secondQueue.key endedParent (times.map fun now => .claim now false [] 7 60) = 0 := by
  refine ⟨by decide, fun times late => ?_⟩
  have same (now : Time) (h : seconds 1000 ≤ now) : claimable endedParent.world now =
      claimable endedParent.world (seconds 1000) := claimable_congr (by decide) h
  have stays (now : Time) (h : seconds 1000 ≤ now) :
      (Op.claim now false [] 7 60).run {} endedParent = endedParent := by
    simp only [Op.run, claim_endedParent h]
    rfl
  refine ⟨fun now hn => ?_, ?_⟩
  · simp only [Eligible, servedChain, nextQueue, contenders, same now (late now hn)]
    decide +kernel
  · induction times with
    | nil => exact ⟨rfl, rfl⟩
    | cons now times ih =>
      have first := late now mem_cons_self
      have rest := ih fun t ht => late t (mem_cons_of_mem now ht)
      have none : (Op.claim now false [] 7 60).serves {} endedParent = [] := by
        simp only [Op.serves, claim_endedParent first]
      simp only [map_cons, turns, none, stays now first]
      simpa [play, stays now first] using rest

/-- A task's row, its failed executions since a batch committed, and the try of the present claim. -/
structure Executions where
  task : CopyWorkTask
  failures : Nat := 0
  turn : Option Nat := none

namespace Executions

/-- `settled` is `none` where the settlement does not commit: the worker is gone, or was replaced. -/
inductive Event
  | claim (now : Time) (owner : Uuid) (leaseSeconds : Nat)
  | raised (cause : Cause) (settled : Option Time)
  | copied (now : Time) (call : BatchCall) (out : BatchOutcome)

def executed : Cause → Bool
  | .abort (.failed _) _ => true
  | .abort _ _ => false
  | .sql _ phase _ _ => phase = .execution

def due (now : Time) (t : CopyWorkTask) : Bool :=
  t.state = .ready && t.readyAt ≤ now || t.state = .running && t.leaseExpiresAt.any (· < now)

variable (s : Executions)

def begin (task : CopyWorkTask) : Option Nat := if task.state = .running then some 1 else none

def atTry (n : Nat) : Cause → Cause
  | .sql state phase _ queued => .sql state phase n queued
  | cause => cause

def raise (n : Nat) (cause : Cause) (settled : Option Time) : Executions :=
  -- The claim has set the budget flag.
  if executed cause && 3 < s.task.attempts then s
  else
    let failures := if executed cause then s.failures + 1 else s.failures
    match afterFailure (atTry n cause) with
    | .retry => { s with failures, turn := some (n + 1) }
    | .leave => { s with failures, turn := none }
    | .settle x => { task := settled.elim s.task (settleTask · x s.task), failures }

def step : Event → Executions
  | .claim now owner leaseSeconds =>
    if due now s.task then
      let task := claimedTask now owner leaseSeconds s.task
      { s with task, turn := begin task }
    else s
  | .raised cause settled => s.turn.elim s (s.raise · cause settled)
  | .copied now call out =>
    if s.turn.isNone || 3 < s.task.attempts then s
    else
      let task := recordBatch now call out s.task
      { task, turn := begin task }

/-- No execution runs into the statement timeout, which `run_batch` retries under the same claim. -/
def Timely : Event → Prop
  | .raised (.sql .statementTimeout phase _ _) _ => phase ≠ .execution
  | _ => True

/-- `attempts` counts each failed execution, and one more for the claim that may still execute. -/
structure Reserved : Prop where
  bound : s.failures ≤ 3
  budget : 0 < s.failures ∨ s.turn.isSome → s.task.params.executionBudgetV1 = true
  held : s.failures ≤ s.task.attempts
  next : s.turn.isSome → s.failures < s.task.attempts

variable {s} {t : CopyWorkTask} {x : Settlement}

theorem claimedTask_attempts :
    let t' := claimedTask now owner leaseSeconds t
    t'.state = .failed ∧ t'.attempts = t.attempts ∧ t'.params = t.params ∨
      t'.params.executionBudgetV1 = true ∧ 0 < t'.attempts ∧
        (t.params.executionBudgetV1 = true → t.attempts < t'.attempts) := by
  simp only [claimedTask, countWait, withBudget]
  grind

theorem settleTask_attempts :
    (settleTask now x t).params = t.params ∧ t.attempts ≤ (settleTask now x t).attempts + 1 ∧
      (x.spendAttempt = true → (settleTask now x t).attempts = t.attempts) := by
  simp only [settleTask, deferTask, waitAgain]
  grind

theorem spends_of_executed {cause : Cause} (ran : executed cause = true)
    (settles : afterFailure (atTry n cause) = .settle x) : x.spendAttempt = true := by
  revert ran settles
  simp only [executed, afterFailure, atTry, failExecution]
  grind

theorem not_retried {cause : Cause} (timely : Timely (.raised cause settled)) :
    afterFailure (atTry n cause) ≠ .retry := by
  revert timely
  simp only [Timely, afterFailure, atTry, failExecution, deferUnexecuted]
  grind

theorem Reserved.raise {cause : Cause} (inv : s.Reserved) (turn : s.turn.isSome)
    (timely : Timely (.raised cause settled)) : (s.raise n cause settled).Reserved := by
  have budget := inv.budget (.inr turn)
  have room := inv.next turn
  unfold Executions.raise
  split
  · exact inv
  obtain ⟨bound, -, held, -⟩ := inv
  dsimp only
  split
  · exact absurd ‹_› (not_retried timely)
  · constructor <;> grind
  · rename_i x settles
    have spends := @spends_of_executed x n cause
    have settled' := @settleTask_attempts s.task x
    cases settled <;> constructor <;> grind

theorem Reserved.step {e : Event} (inv : s.Reserved) (timely : Timely e) : (s.step e).Reserved := by
  cases e with
  | claim now owner leaseSeconds =>
    rw [Executions.step]
    split
    · have claimed := @claimedTask_attempts s.task now owner leaseSeconds
      obtain ⟨bound, budget, held, -⟩ := inv
      constructor <;> grind [begin]
    · exact inv
  | raised cause settled =>
    rw [Executions.step]
    cases turn : s.turn with
    | none => exact inv
    | some n => exact inv.raise (turn ▸ rfl) timely
  | copied now call out =>
    rw [Executions.step]
    split
    · exact inv
    · rename_i ready
      rw [Bool.or_eq_true, not_or, Option.isNone_iff_eq_none] at ready
      have budget := inv.budget (.inr (Option.isSome_iff_ne_none.mpr ready.1))
      refine ⟨Nat.zero_le _, fun _ => ?_, Nat.zero_le _, ?_⟩ <;> simp only [begin, recordBatch] <;> grind

end Executions

open Executions

/-- Where no execution times out, a task's batch fails at most three times before it commits. -/
theorem executions_bounded (task : CopyWorkTask) (events : List Event)
    (timely : ∀ e ∈ events, Timely e) : (play step { task } events).failures ≤ 3 := by
  have start : Reserved { task } := ⟨Nat.zero_le _, by simp, Nat.zero_le _, nofun⟩
  exact (List.foldlRecOn (motive := Reserved) events step start
    fun _ inv e mem => inv.step (timely e mem)).bound

def freshTask : CopyWorkTask :=
  { id := 1, workflowId := 1, tenantId := 1, resourceId := 1
    idempotencyKey := ⟨1, 0, .mailCarry, {}⟩, kind := .mailCarry, lane := .micro }

def rounds (events : Time → List Event) : List Event :=
  [0, 2, 4].flatMap fun n => .claim (seconds n) 7 90 :: events (seconds n)

theorem deadlocks_bounded :
    let s := play step { task := freshTask } (rounds fun now =>
      [.raised (.sql .deadlock .execution 0 0) now])
    s.task.state = .failed ∧ s.failures ≤ 3 := by
  refine ⟨by decide +kernel, executions_bounded _ _ ?_⟩
  simp [rounds, Timely]

/-- The third try of each claim is deferred, which gives back its attempt. -/
theorem timeouts_uncounted :
    let timeout := Event.raised (.sql .statementTimeout .execution 0 0) none
    let s := play step { task := freshTask } (rounds fun now =>
      [timeout, timeout, .raised (.abort (.deferred "copy_lane_busy") 0) now])
    s.failures = 6 ∧ s.task.state = .ready := by
  decide +kernel

end TmVault.Copy
