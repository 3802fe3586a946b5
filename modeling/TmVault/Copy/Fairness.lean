import TmVault.Copy.Batch
import TmVault.Sched.ServiceClock

namespace TmVault.Copy

open Relational Concurrency Store Work Sched List Option
open Bool hiding or_false

structure Row (w : World) (q : CopyWorkQueue) : Prop where
  mem : q ∈ w.copyQueues
  only : ∀ q' ∈ w.copyQueues, q'.key = q.key → q' = q

def Backlogged (w : World) (key : CopyQueueKey) : Prop :=
  ∃ t ∈ backlog w, t.queueKeyAt key.scope = key

def Eligible (w : World) (now : Time) (key : CopyQueueKey) : Prop :=
  ∃ t ∈ claimable w now, t.queueKeyAt key.scope = key

instance (w : World) (key : CopyQueueKey) : Decidable (Backlogged w key) :=
  inferInstanceAs (Decidable (∃ t ∈ backlog w, t.queueKeyAt key.scope = key))

instance (w : World) (now : Time) (key : CopyQueueKey) : Decidable (Eligible w now key) :=
  inferInstanceAs (Decidable (∃ t ∈ claimable w now, t.queueKeyAt key.scope = key))

def Contends (key : CopyQueueKey) (s : System) (op : Op) : Prop :=
  Backlogged s.world key ∧ match op with
    | .claim now _ _ _ _ => Eligible s.world now key
    | _ => True

def Op.serves (env : Env) (s : System) : Op → List CopyQueueKey
  | .claim now busy locked owner leaseSeconds =>
    match Copy.claim env s.world now busy locked owner leaseSeconds with
    | .ok _ => if busy then [] else ((servedChain env s.world now).getD []).map (·.key)
    | .error _ => []
  | _ => []

def turns (env : Env) (key : CopyQueueKey) : System → List Op → ℕ
  | _, [] => 0
  | s, op :: ops => (if key ∈ op.serves env s then 1 else 0) + turns env key (op.run env s) ops

def charged (q : CopyWorkQueue) : CopyWorkQueue := { q with virtualFinish := q.virtualFinish + quantum q }

section

variable {env : Env} {w : World} {q q₁ q₂ : CopyWorkQueue} {f : CopyWorkflow} {now : Time}
  {scope : QueueScope} {above : Option CopyQueueKey}

theorem Row.of_eq (row : Row w q) (queues : w'.copyQueues = w.copyQueues) : Row w' q :=
  ⟨queues ▸ row.mem, queues ▸ row.only⟩

theorem Row.map (row : Row w q) (keys : ∀ q, (g q).key = q.key)
    (queues : w'.copyQueues = w.copyQueues.map g) : Row w' (g q) := by
  constructor
  · rw [queues]
    exact mem_map_of_mem row.mem
  · intro q' hq' same
    rw [queues] at hq'
    obtain ⟨q₀, hq₀, rfl⟩ := mem_map.mp hq'
    rw [row.only q₀ hq₀ ((keys q₀).symm.trans (same.trans (keys q)))]

theorem Row.insert (row : Row w q)
    (queues : w'.copyQueues = insertAllIgnore (·.key) w.copyQueues rows) : Row w' q := by
  constructor
  · rw [queues]
    exact subset_insertAllIgnore rows row.mem
  · intro q' hq' same
    rw [queues] at hq'
    rcases mem_of_mem_insertAllIgnore hq' with old | ⟨-, fresh⟩
    · exact row.only q' old same
    · exact absurd (same ▸ mem_map_of_mem row.mem) fresh

theorem Row.charge (row : Row w q) (chain : List CopyWorkQueue) :
    Row (chargeTurn w chain) (if q.key ∈ chain.map (·.key) then charged q else q) := by
  let g : CopyWorkQueue → CopyWorkQueue := fun q =>
    if q.key ∈ chain.map (·.key) then charged q else q
  have keys : ∀ q, (g q).key = q.key := by
    intro q
    by_cases h : q.key ∈ chain.map (·.key)
    · simp only [g, if_pos h, charged]
    · simp only [g, if_neg h]
  have moved : Row (chargeTurn w chain) (g q) := row.map keys rfl
  exact moved

theorem busyWithout_of_backlogged (sound : Sound w) (hf : f ∈ w.workflows) (draining : f.state = .draining)
    (h : Backlogged w key) : busyWithout w f.id key = true := by
  obtain ⟨t, ht, same⟩ := h
  refine any_eq_true.mpr ⟨t, ht, ?_⟩
  have own : t.workflowId ≠ f.id := by
    intro own
    obtain ⟨-, waiting⟩ := mem_filter.mp ht
    have found : w.workflow? f.id = some f := sound.workflow.mpr ⟨hf, rfl⟩
    rw [own, found] at waiting
    simp [draining] at waiting
  simp [own, same]

theorem alignScope_row (row : Row w q)
    (busy : busyWithout w f.id q.key = true) : Row (alignScope f w scope) q := by
  let keys := ((w.tasksOf f).filter (·.state.isBacklog)).map (·.queueKeyAt scope)
  let g : CopyWorkQueue → CopyWorkQueue := fun q =>
    if q.key.scope = scope && q.key ∈ keys then alignQueue w f.id q else q
  have kept : ∀ q, (alignQueue w f.id q).key = q.key := by
    intro q
    unfold alignQueue
    split
    · rfl
    · split
      · rfl
      · rfl
  have keys' : ∀ q, (g q).key = q.key := by
    intro q
    by_cases h : (q.key.scope = scope && q.key ∈ keys) = true
    · simp only [g, if_pos h, kept]
    · simp only [g, if_neg h]
  have same : g q = q := by
    by_cases h : (q.key.scope = scope && q.key ∈ keys) = true
    · simp only [g, if_pos h, alignQueue, if_pos busy]
    · simp only [g, if_neg h]
  have moved : Row (alignScope f w scope) (g q) := row.map keys' rfl
  rwa [same] at moved

theorem alignReadyWorkflow_row (row : Row w q) (sound : Sound w) (hf : f ∈ w.workflows)
    (draining : f.state = .draining) (backlogged : Backlogged w q.key) :
    Row (alignReadyWorkflow w f) q := by
  have busy := busyWithout_of_backlogged sound hf draining backlogged
  rw [alignReadyWorkflow, if_neg (not_not.mpr draining)]
  -- no level touches the tasks or the workflows, so the queue stays busy
  have entered : Row (withControl w) q := row.of_eq rfl
  have tenant : Row (alignScope f (withControl w) .tenant) q := alignScope_row entered busy
  have policy : Row (alignScope f (alignScope f (withControl w) .tenant) .policy) q :=
    alignScope_row tenant busy
  exact alignScope_row policy busy

theorem earlier_asymm (a b : CopyWorkQueue)
    (h : (decide (a.virtualFinish < b.virtualFinish) || decide (a.virtualFinish = b.virtualFinish) &&
      decide (env.keyRank a.key < env.keyRank b.key)) = true) :
    (decide (b.virtualFinish < a.virtualFinish) || decide (b.virtualFinish = a.virtualFinish) &&
      decide (env.keyRank b.key < env.keyRank a.key)) = false := by
  simp only [or_eq_true, and_eq_true, decide_eq_true_eq] at h
  simp only [or_eq_false_iff, and_eq_false_iff, decide_eq_false_iff_not, not_lt]
  rcases h with lt | ⟨eq, lt⟩
  · exact ⟨lt.le, .inl lt.ne'⟩
  · exact ⟨eq.le, .inr lt.le⟩

theorem earlier_trans (a b c : CopyWorkQueue)
    (h : (decide (a.virtualFinish < b.virtualFinish) || decide (a.virtualFinish = b.virtualFinish) &&
      decide (env.keyRank a.key < env.keyRank b.key)) = false)
    (h' : (decide (b.virtualFinish < c.virtualFinish) || decide (b.virtualFinish = c.virtualFinish) &&
      decide (env.keyRank b.key < env.keyRank c.key)) = false) :
    (decide (a.virtualFinish < c.virtualFinish) || decide (a.virtualFinish = c.virtualFinish) &&
      decide (env.keyRank a.key < env.keyRank c.key)) = false := by
  simp only [or_eq_false_iff, and_eq_false_iff, decide_eq_false_iff_not, not_lt] at h h' ⊢
  refine ⟨h'.1.trans h.1, ?_⟩
  by_cases eq : a.virtualFinish = c.virtualFinish
  · have eq' : a.virtualFinish = b.virtualFinish := le_antisymm (eq ▸ h'.1) h.1
    refine .inr ?_
    rcases h.2 with ne | le
    · exact absurd eq' ne
    · rcases h'.2 with ne | le'
      · exact absurd (eq'.symm.trans eq) ne
      · exact le'.trans le
  · exact .inl eq

theorem nextQueue_mem
    (h : nextQueue env w now scope above = some q) : q ∈ w.copyQueues ∧ q.key.scope = scope ∧
      above.all (fun key => q.key.parent = some key) = true := by
  obtain ⟨hq, contends⟩ := mem_filter.mp (orderByFirst_mem h)
  simp only [and_eq_true, decide_eq_true_eq] at contends
  exact ⟨hq, contends.1.1, contends.2⟩

theorem nextQueue_first (h : nextQueue env w now scope above = some q₁) (hq₂ : q₂ ∈ w.copyQueues)
    (scopes : q₁.key.scope = q₂.key.scope) (parents : q₁.key.parent = q₂.key.parent)
    (eligible : Eligible w now q₂.key) : q₁.virtualFinish ≤ q₂.virtualFinish := by
  obtain ⟨-, scope₁, above₁⟩ := nextQueue_mem h
  obtain ⟨t, ht, same⟩ := eligible
  have contender : q₂ ∈ contenders w now scope above := by
    refine mem_filter.mpr ⟨hq₂, ?_⟩
    have level : q₂.key.scope = scope := scopes.symm.trans scope₁
    rw [← parents]
    simp only [and_eq_true, decide_eq_true_eq]
    exact ⟨⟨level, any_eq_true.mpr ⟨t, ht, decide_eq_true (level ▸ same)⟩⟩, above₁⟩
  have first := orderByFirst_first earlier_asymm earlier_trans h q₂ contender
  simp only [or_eq_false_iff, decide_eq_false_iff_not, not_lt] at first
  exact first.1

section

variable (h : servedChain env w now = some chain)

include h

theorem servedChain_eq : ∃ tenant policy resource, chain = [tenant, policy, resource] ∧
      nextQueue env w now .tenant none = some tenant ∧
      nextQueue env w now .policy (some tenant.key) = some policy ∧
      nextQueue env w now .resource (some policy.key) = some resource := by
  obtain ⟨tenant, h₁, h⟩ := bind_eq_some_iff.mp h
  obtain ⟨policy, h₂, h⟩ := bind_eq_some_iff.mp h
  obtain ⟨resource, h₃, h⟩ := bind_eq_some_iff.mp h
  exact ⟨tenant, policy, resource, (Option.some.inj h).symm, h₁, h₂, h₃⟩

theorem nodup_scopes : (chain.map (·.key.scope)).Nodup := by
  obtain ⟨tenant, policy, resource, rfl, h₁, h₂, h₃⟩ := servedChain_eq h
  simp only [map_cons, map_nil, (nextQueue_mem h₁).2.1, (nextQueue_mem h₂).2.1,
    (nextQueue_mem h₃).2.1]
  decide

theorem served_level (row : Row w q) (served : q.key ∈ chain.map (·.key)) :
    ∃ above, nextQueue env w now q.key.scope above = some q := by
  obtain ⟨tenant, policy, resource, rfl, h₁, h₂, h₃⟩ := servedChain_eq h
  simp only [map_cons, map_nil, mem_cons, not_mem_nil, or_false] at served
  rcases served with same | same | same
  · obtain ⟨hq, scope, -⟩ := nextQueue_mem h₁
    rw [same, scope, ← row.only tenant hq same.symm]
    exact ⟨_, h₁⟩
  · obtain ⟨hq, scope, -⟩ := nextQueue_mem h₂
    rw [same, scope, ← row.only policy hq same.symm]
    exact ⟨_, h₂⟩
  · obtain ⟨hq, scope, -⟩ := nextQueue_mem h₃
    rw [same, scope, ← row.only resource hq same.symm]
    exact ⟨_, h₃⟩

end

end

section

variable {env : Env} {s : System} {op : Op} {q q₁ q₂ : CopyWorkQueue} {start rival : ℚ} {n : ℕ}

theorem backlogged_congr (h : Backlogged w key)
    (untouched : Untouched w w') : Backlogged w' key := by
  obtain ⟨t, ht, same⟩ := h
  refine ⟨t, ?_, same⟩
  simp only [backlog, World.workflow?, untouched.tasks, untouched.workflows] at ht ⊢
  exact ht

theorem run_row (env : Env) (row : Row s.world q) (sound : Sound s.world) (lawful : op.Lawful s)
    (backlogged : Backlogged s.world q.key) :
    Row (op.run env s).world (if q.key ∈ op.serves env s then charged q else q) := by
  cases op with
  | enqueue now workflowId taskId req =>
    rw [Op.run]
    cases h : enqueue env s.world now workflowId taskId req with
    | error e => exact row
    | ok pair =>
      obtain ⟨f, enqueued⟩ := enqueue_ok sound h
      obtain ⟨rows, queues⟩ := enqueued.queues
      exact row.insert queues
  | sealCopy now capture own provider continuation receiptOnly =>
    rw [Op.run]
    cases h : sealCurrentCopy s.world now capture own provider continuation receiptOnly with
    | error e => exact row
    | ok pair =>
      rcases sealCurrentCopy_ok h with same | ⟨w₁, f, untouched, hf, draining, quiet⟩
      · exact row.of_eq (congrArg _ same)
      · have sound₁ : Sound w₁ := sound.calm untouched.quiet.toCalm
        have aligned := alignReadyWorkflow_row (row.of_eq untouched.queues) sound₁
          (untouched.workflows ▸ hf) draining (backlogged_congr backlogged untouched)
        exact aligned.of_eq quiet.queues
  | claim now busy locked owner leaseSeconds =>
    rw [Op.run, Op.serves]
    cases h : claim env s.world now busy locked owner leaseSeconds with
    | error e => exact row
    | ok pair =>
      rcases claim_ok sound h with ⟨idle, quiet⟩ | ⟨chain, free, served, quiet⟩
      · have none : q.key ∉ if busy = true then ([] : List CopyQueueKey)
            else ((servedChain env s.world now).getD []).map (·.key) := by
          rcases idle with busy | unserved
          · rw [if_pos busy]
            exact not_mem_nil
          · rw [unserved]
            split <;> exact not_mem_nil
        simp only [if_neg none]
        exact row.of_eq quiet.queues
      · subst free
        simp only [served, getD_some, false_eq_true, if_false]
        exact (row.charge chain).of_eq quiet.queues
  | batch now call =>
    rw [Op.run]
    cases h : batchTransaction env s.world now call with
    | error e => exact row
    | ok world =>
      obtain ⟨t, t₁, w₁, w₂, rows, out, ran⟩ := batchTransaction_ok sound h
      refine row.of_eq ?_
      rw [System.commit, ran.world]
      exact ran.batched.queues.trans ran.prepared.queues
  | settle now c cause =>
    rw [Op.run]
    split
    · exact row.of_eq (quiet_settleOnce sound).queues
    · exact row
  | release now c => exact row.of_eq quiet_releaseCancelledClaim.queues
  | beginResume now key owner =>
    rw [Op.run]
    cases h : beginResume s.world now key owner with
    | error e => exact row
    | ok pair =>
      obtain ⟨world, c⟩ := pair
      rcases beginResume_ok h with ⟨rfl, quiet⟩ | ⟨f, found, ⟨rfl, -, rfl⟩ | ⟨c', rfl, rfl, taken⟩⟩
      · exact row.of_eq quiet.queues
      · exact row.of_eq rfl
      · obtain ⟨now, token, snapshotToken, untouched⟩ := taken.world
        exact row.of_eq untouched.queues
  | verifyResume now c => exact row.of_eq quiet_verifyCopyResume.queues
  | finishRead c =>
    rw [Op.run, System.read]
    split
    · exact row
    · exact row
  | finishResume now call failed =>
    rw [Op.run, System.finish]
    split
    · exact row
    · rename_i p under
      cases h : finishResume s.world now p.seen p.claim.ownerId failed with
      | error e => exact row
      | ok world =>
        rcases finishResume_ok h with rfl | ⟨-, -, rfl⟩
        · exact row
        · exact row.of_eq rfl
  | settleParent key => exact row.of_eq quiet_finishParentSettlement.queues
  | cancel now scope reason terminal =>
    rw [Op.run]
    cases h : cancelCopyWork s.world now scope reason terminal with
    | error e => exact row
    | ok world => exact row.of_eq (quiet_cancelCopyWork h).queues
  | others world => exact row.of_eq (SameWork.queues lawful)

theorem of_mem_serves (h : key ∈ op.serves env s) :
    ∃ now busy locked owner leaseSeconds chain, op = .claim now busy locked owner leaseSeconds ∧
      servedChain env s.world now = some chain ∧ key ∈ chain.map (·.key) := by
  cases op with
  | claim now busy locked owner leaseSeconds =>
    rw [Op.serves] at h
    split at h
    · split at h
      · cases h
      · cases served : servedChain env s.world now with
        | none =>
          rw [served] at h
          cases h
        | some chain =>
          rw [served] at h
          exact ⟨now, busy, locked, owner, leaseSeconds, chain, rfl, served, h⟩
    · cases h
  | _ => cases h

theorem serves_first (row₁ : Row s.world q₁) (row₂ : Row s.world q₂)
    (scopes : q₁.key.scope = q₂.key.scope) (parents : q₁.key.parent = q₂.key.parent)
    (contends : Contends q₂.key s op) (served : q₁.key ∈ op.serves env s) :
    q₁.virtualFinish ≤ q₂.virtualFinish := by
  obtain ⟨now, busy, locked, owner, leaseSeconds, chain, rfl, turn, served⟩ := of_mem_serves served
  obtain ⟨above, level⟩ := served_level turn row₁ served
  exact nextQueue_first level row₂.mem scopes parents contends.2

theorem not_both_served (scopes : key.scope = key'.scope) (apart : key ≠ key')
    (served : key ∈ op.serves env s) : key' ∉ op.serves env s := by
  intro served'
  obtain ⟨now, busy, locked, owner, leaseSeconds, chain, rfl, turn, served⟩ := of_mem_serves served
  obtain ⟨now', _, _, _, _, chain', same, turn', served'⟩ := of_mem_serves served'
  cases same
  obtain rfl : chain = chain' := mem_unique turn turn'
  obtain ⟨q, hq, rfl⟩ := mem_map.mp served
  obtain ⟨q', hq', rfl⟩ := mem_map.mp served'
  exact apart (congrArg _ (inj_on_of_nodup_map (nodup_scopes turn) hq hq' scopes))

structure Span (s : System) (q₁ q₂ : CopyWorkQueue) (start rival : ℚ) (turns rivalTurns : ℕ) : Prop where
  row : Row s.world q₁
  rivalRow : Row s.world q₂
  clock : q₁.virtualFinish = clock start q₁.weight.1 turns
  rivalClock : q₂.virtualFinish = Sched.clock rival q₂.weight.1 rivalTurns
  leads : Leads start rival (q₁.weight.1 : ℚ) q₂.weight.1 turns rivalTurns
  rivalLeads : Leads rival start (q₂.weight.1 : ℚ) q₁.weight.1 rivalTurns turns

theorem weight_pos (q : CopyWorkQueue) : (0 : ℚ) < (q.weight.1 : ℚ) := by
  have := q.weight.2.1
  exact_mod_cast this

theorem Span.symm (h : Span s q₁ q₂ start rival m n) : Span s q₂ q₁ rival start n m :=
  ⟨h.rivalRow, h.row, h.rivalClock, h.clock, h.rivalLeads, h.leads⟩

theorem Span.turn (h : Span s q₁ q₂ start rival m n)
    (first : q₁.virtualFinish ≤ q₂.virtualFinish) (row : Row s'.world (charged q₁))
    (rivalRow : Row s'.world q₂) : Span s' (charged q₁) q₂ start rival (m + 1) n := by
  refine ⟨row, rivalRow, ?_, h.rivalClock, ?_, ?_⟩
  · show q₁.virtualFinish + quantum q₁ = _
    rw [h.clock]
    exact clock_succ.symm
  · rw [h.clock, h.rivalClock] at first
    exact leads_turn first
  · exact h.rivalLeads.rival_turn (weight_pos q₁)

theorem Span.run (env : Env) (h : Span s q₁ q₂ start rival m n) (sound : Sound s.world)
    (scopes : q₁.key.scope = q₂.key.scope) (parents : q₁.key.parent = q₂.key.parent)
    (apart : q₁.key ≠ q₂.key) (lawful : op.Lawful s) (contends : Contends q₁.key s op)
    (rivalContends : Contends q₂.key s op) : ∃ q₁' q₂', q₁'.key = q₁.key ∧ q₂'.key = q₂.key ∧
      q₁'.weight = q₁.weight ∧ q₂'.weight = q₂.weight ∧
      Span (op.run env s) q₁' q₂' start rival
        (m + if q₁.key ∈ op.serves env s then 1 else 0)
        (n + if q₂.key ∈ op.serves env s then 1 else 0) := by
  have row := run_row env h.row sound lawful contends.1
  have rivalRow := run_row env h.rivalRow sound lawful rivalContends.1
  by_cases served : q₁.key ∈ op.serves env s
  · have other := not_both_served scopes apart served
    rw [if_pos served] at row
    rw [if_neg other] at rivalRow
    rw [if_pos served, if_neg other]
    exact ⟨charged q₁, q₂, rfl, rfl, rfl, rfl, h.turn
      (serves_first h.row h.rivalRow scopes parents rivalContends served) row rivalRow⟩
  · rw [if_neg served] at row
    rw [if_neg served]
    by_cases rivalServed : q₂.key ∈ op.serves env s
    · rw [if_pos rivalServed] at rivalRow
      rw [if_pos rivalServed]
      exact ⟨q₁, charged q₂, rfl, rfl, rfl, rfl, (h.symm.turn (serves_first h.rivalRow h.row
        scopes.symm parents.symm contends rivalServed) rivalRow row).symm⟩
    · rw [if_neg rivalServed] at rivalRow
      rw [if_neg rivalServed]
      exact ⟨q₁, q₂, rfl, rfl, rfl, rfl, row, rivalRow, h.clock, h.rivalClock, h.leads, h.rivalLeads⟩

def Contested (key rival : CopyQueueKey) (s : System) (op : Op) : Prop :=
  op.Lawful s ∧ Contends key s op ∧ Contends rival s op

theorem Span.play (h : Span s q₁ q₂ start rival m n)
    (sound : Sound s.world) (scopes : q₁.key.scope = q₂.key.scope)
    (parents : q₁.key.parent = q₂.key.parent) (apart : q₁.key ≠ q₂.key)
    (span : Along (Op.run env) (Contested q₁.key q₂.key) s ops) :
    Leads start rival (q₁.weight.1 : ℚ) q₂.weight.1 (m + turns env q₁.key s ops)
        (n + turns env q₂.key s ops) ∧
      Leads rival start (q₂.weight.1 : ℚ) q₁.weight.1 (n + turns env q₂.key s ops)
        (m + turns env q₁.key s ops) := by
  induction ops generalizing s q₁ q₂ m n with
  | nil => exact ⟨h.leads, h.rivalLeads⟩
  | cons op ops ih =>
    obtain ⟨⟨lawful, contends, rivalContends⟩, rest⟩ := span
    obtain ⟨q₁', q₂', key, key', weight, weight', next⟩ :=
      h.run env sound scopes parents apart lawful contends rivalContends
    have sound' : Sound (op.run env s).world := (run_effect sound lawful).sound sound
    have leads := ih next sound' (by rw [key, key', scopes]) (by rw [key, key', parents])
      (by rw [key, key']; exact apart) (by rw [key, key']; exact rest)
    rw [key, key', weight, weight'] at leads
    rw [turns, turns, ← Nat.add_assoc, ← Nat.add_assoc]
    exact leads

/-- While two siblings both have work to claim, each gets at most one turn beyond the other's share,
less what its clock was ahead at the start. -/
theorem sibling_shares (env : Env) (s : System) (ops : List Op) (q₁ q₂ : CopyWorkQueue)
    (sound : Sound s.world) (row : Row s.world q₁) (rivalRow : Row s.world q₂)
    (scopes : q₁.key.scope = q₂.key.scope) (parents : q₁.key.parent = q₂.key.parent)
    (apart : q₁.key ≠ q₂.key) (span : Along (Op.run env) (Contested q₁.key q₂.key) s ops) :
    (turns env q₁.key s ops : ℚ) / q₁.weight.1 - turns env q₂.key s ops / q₂.weight.1 ≤
        max 0 (1 / q₁.weight.1 - (q₁.virtualFinish - q₂.virtualFinish)) ∧
      (turns env q₂.key s ops : ℚ) / q₂.weight.1 - turns env q₁.key s ops / q₁.weight.1 ≤
        max 0 (1 / q₂.weight.1 - (q₂.virtualFinish - q₁.virtualFinish)) ∧
      (q₁.virtualFinish - q₂.virtualFinish ≤ 1 / q₁.weight.1 →
        q₂.virtualFinish - q₁.virtualFinish ≤ 1 / q₂.weight.1 →
        |(turns env q₁.key s ops : ℚ) / q₁.weight.1 - turns env q₂.key s ops / q₂.weight.1| ≤
          1 / q₁.weight.1 + 1 / q₂.weight.1) := by
  have start : Span s q₁ q₂ q₁.virtualFinish q₂.virtualFinish 0 0 :=
    ⟨row, rivalRow, clock_zero.symm, clock_zero.symm, leads_start, leads_start⟩
  obtain ⟨leads, rivalLeads⟩ := start.play sound scopes parents apart span
  rw [Nat.zero_add, Nat.zero_add] at leads rivalLeads
  exact ⟨leads.share_le, rivalLeads.share_le, share_abs_le leads rivalLeads⟩

end

def deferredCopy : System where
  world := {
    db := {
      snapshots := [{ id := 10, resourceId := 5, jobId := some 1, status := some .inProgress },
        { id := 11, resourceId := 6, jobId := some 1, status := some .inProgress }]
      resources := [{ id := 5, tenantId := 1, type := .userChats, externalId := "a" },
        { id := 6, tenantId := 1, type := .userChats, externalId := "b" }] }
    jobs := [{ id := 1, tenantId := 1, status := .running }], workflows := [
      { id := 30, leaf := ⟨10, none⟩, tenantId := 1, resourceId := 5, jobId := 1, state := .waiting },
      { id := 31, leaf := ⟨11, none⟩, tenantId := 1, resourceId := 6, jobId := 1, state := .waiting }]
    copyTasks := [
      { id := 40, workflowId := 30, tenantId := 1, resourceId := 5
        idempotencyKey := ⟨30, 0, .chatCarry, {}⟩, kind := .chatCarry, lane := .micro },
      { id := 41, workflowId := 31, tenantId := 1, resourceId := 6
        idempotencyKey := ⟨31, 0, .chatCarry, {}⟩, kind := .chatCarry, lane := .micro
        readyAt := seconds 1000 }]
    copyQueues := [{ key := .tenant 1 .micro }, { key := .policy 1 none .micro },
      { key := .resource 1 none 5 .micro }, { key := .resource 1 none 6 .micro }] }

def claims (from' count : Nat) : List Op :=
  (List.range count).map fun n => .claim (seconds (from' + 100 * n)) false [] 7 60

def firstQueue (finish : ℚ) : CopyWorkQueue where
  key := .resource 1 none 5 .micro
  virtualFinish := finish

def secondQueue : CopyWorkQueue where
  key := .resource 1 none 6 .micro

theorem contested_claim (h : (Backlogged s.world key ∧ Eligible s.world now key) ∧
      Backlogged s.world rival ∧ Eligible s.world now rival) :
    Contested key rival s (.claim now busy locked owner leaseSeconds) :=
  ⟨trivial, h.1, h.2⟩

/-- At first both are claimed in turn. -/
theorem sibling_shares_fresh :
    |(turns {} (firstQueue 0).key deferredCopy (claims 1000 3) : ℚ) / (firstQueue 0).weight.1 -
        turns {} secondQueue.key deferredCopy (claims 1000 3) / secondQueue.weight.1| ≤
      1 / (firstQueue 0).weight.1 + 1 / secondQueue.weight.1 := by
  have span : Along (Op.run {}) (Contested (firstQueue 0).key secondQueue.key) deferredCopy
      (claims 1000 3) :=
    ⟨contested_claim (by decide +kernel), contested_claim (by decide +kernel),
      contested_claim (by decide +kernel), trivial⟩
  exact (sibling_shares {} deferredCopy (claims 1000 3) (firstQueue 0) secondQueue
    ⟨by decide, by decide⟩ ⟨by decide, by decide⟩ ⟨by decide, by decide⟩ rfl rfl (by decide) span).2.2
    (by decide +kernel) (by decide +kernel)

/-- The first queue is claimed alone while the second one's task is deferred. Once both can be claimed
the second one is served three times and the first not once. -/
theorem sibling_turns_apart :
    Row (play (Op.run {}) deferredCopy (claims 0 3)).world (firstQueue 3) ∧
    Row (play (Op.run {}) deferredCopy (claims 0 3)).world secondQueue ∧
    Along (Op.run {}) (Contested (firstQueue 3).key secondQueue.key)
      (play (Op.run {}) deferredCopy (claims 0 3)) (claims 1000 3) ∧
    ¬ |(turns {} (firstQueue 3).key (play (Op.run {}) deferredCopy (claims 0 3)) (claims 1000 3) : ℚ) /
          (firstQueue 3).weight.1 -
        turns {} secondQueue.key (play (Op.run {}) deferredCopy (claims 0 3)) (claims 1000 3) /
          secondQueue.weight.1| ≤
      1 / (firstQueue 3).weight.1 + 1 / secondQueue.weight.1 := by
  refine ⟨⟨by decide +kernel, by decide +kernel⟩, ⟨by decide +kernel, by decide +kernel⟩,
    ⟨contested_claim (by decide +kernel), contested_claim (by decide +kernel),
      contested_claim (by decide +kernel), trivial⟩, ?_⟩
  decide +kernel

end TmVault.Copy
