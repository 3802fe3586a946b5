import TmVault.Admission.Scripts
import TmVault.Relational.Table
import TmVault.Relational.Update
import TmVault.Text.Basic

namespace TmVault.Admission

open Relational

inductive AdmissionError
  | identity
  | resourceScope
  | chatPacing
  | limits
  | concurrency
  | batchSize
  | crossesOwners
  | cost
  | pacedCost
  | burst
  | waitBudget
  deriving DecidableEq

def AdmissionError.message : AdmissionError → String
  | .identity => "provider request requires a verified identity and workload"
  | .resourceScope => "invalid provider resource scope"
  | .chatPacing => "chat pacing requires a Teams chat or user chats resource"
  | .limits => "provider admission limits must be positive and finite"
  | .concurrency => "provider concurrency must be a positive integer"
  | .batchSize => "provider batch must contain at most20 subrequests and its outer request"
  | .crossesOwners => "a provider batch cannot cross credential owners"
  | .cost => "invalid provider admission cost"
  | .pacedCost => "paced chat admission requires unit cost"
  | .burst => "provider cost exceeds available burst; split request"
  | .waitBudget => "invalid provider wait budget"

structure ProviderRequestContext where
  (tenantId appId workload : String)
  resource : Option String := none
  cloud : String := "graph.microsoft.com"
  pacedChat : Bool := false

def isChatResource (resource : String) : Bool :=
  let kind := Text.before [':'] resource.toList
  (kind = "chat".toList || kind = "user_chats".toList) && kind.length + 1 < resource.length

def ProviderRequestContext.check (c : ProviderRequestContext) : Except AdmissionError Unit :=
  if [c.tenantId, c.appId, c.workload, c.cloud].any fun v => v.length = 0 || 1024 < v.length then
    .error .identity
  else if c.resource.any (4096 < ·.length) then .error .resourceScope
  else if c.pacedChat && !(c.workload = "teams" && c.resource.any isChatResource) then
    .error .chatPacing
  else .ok ()

abbrev VerifiedContext := { c : ProviderRequestContext // c.check = .ok () }

structure AdmissionLimits where
  rate : ℚ := 200
  burst : ℚ := 400
  globalConcurrency : ℤ := 16
  tenantConcurrency : ℤ := 8
  resourceConcurrency : ℤ := 4
  leaseSeconds : ℚ := 30
  rate_pos : 0 < rate := by decide
  burst_pos : 0 < burst := by decide
  lease_pos : 0 < leaseSeconds := by decide
  concurrency_pos : 1 ≤ globalConcurrency ∧ 1 ≤ tenantConcurrency ∧ 1 ≤ resourceConcurrency := by
    decide

def AdmissionLimits.make (rate burst : ℚ) (globalConcurrency tenantConcurrency resourceConcurrency : ℤ)
    (leaseSeconds : ℚ) : Except AdmissionError AdmissionLimits :=
  if h : 0 < rate ∧ 0 < burst ∧ 0 < leaseSeconds then
    if h' : 1 ≤ globalConcurrency ∧ 1 ≤ tenantConcurrency ∧ 1 ≤ resourceConcurrency then
      .ok ⟨rate, burst, globalConcurrency, tenantConcurrency, resourceConcurrency, leaseSeconds,
        h.1, h.2.1, h.2.2, h'⟩
    else .error .concurrency
  else .error .limits

inductive BucketKey
  | global
  | tenant (cloud tenantId : String)
  | workload (cloud tenantId workload : String)
  | app (cloud tenantId workload appId : String)
  | resource (cloud tenantId workload resource : String)
  | pacedChat (cloud tenantId workload resource : String)
  deriving DecidableEq

inductive SlotKey
  | global
  | tenant (cloud tenantId : String)
  | resource (cloud tenantId workload resource : String)
  deriving DecidableEq

structure GroupKey where
  (cloud tenantId workload : String)
  weight : Nat
  deriving DecidableEq

def keys (limits : AdmissionLimits) (c : ProviderRequestContext) :
    List BucketKey × List (SlotKey × ℤ) :=
  let buckets := [.global, .tenant c.cloud c.tenantId, .workload c.cloud c.tenantId c.workload,
    .app c.cloud c.tenantId c.workload c.appId]
  let slots := [(.global, limits.globalConcurrency),
    (.tenant c.cloud c.tenantId, limits.tenantConcurrency)]
  match c.resource with
  | none | some "" => (buckets, slots)
  | some resource =>
    (buckets ++ .resource c.cloud c.tenantId c.workload resource ::
      (if c.pacedChat then [.pacedChat c.cloud c.tenantId c.workload resource] else []),
    slots ++ [(.resource c.cloud c.tenantId c.workload resource, limits.resourceConcurrency)])

structure Tally where
  costs : Dict BucketKey ℚ := {}
  slotLimits : Dict SlotKey ℤ := {}
  pacedBuckets : List BucketKey := []

def Tally.charge (cost : ℚ) (t : Tally) (key : BucketKey) : Tally :=
  { t with costs := t.costs.set key fun old => old.getD 0 + cost }

def Tally.limit (t : Tally) (slot : SlotKey × ℤ) : Tally :=
  { t with slotLimits := t.slotLimits.set slot.1 fun old => min (old.getD slot.2) slot.2 }

def pacedBucket (c : ProviderRequestContext) (buckets : List BucketKey) : List BucketKey :=
  if c.pacedChat then buckets.getLast?.toList else []

def Tally.add (limits : AdmissionLimits) (context : ProviderRequestContext) (t : Tally)
    (requirement : VerifiedContext × ℚ) : Except AdmissionError Tally :=
  let scope := requirement.1.val
  let cost := requirement.2
  if (scope.tenantId, scope.appId, scope.cloud) ≠ (context.tenantId, context.appId, context.cloud) then
    .error .crossesOwners
  else if cost ≤ 0 then .error .cost
  else if scope.pacedChat && cost ≠ 1 then .error .pacedCost
  else
    let (buckets, slots) := keys limits scope
    let t := { t with pacedBuckets := t.pacedBuckets ++ pacedBucket scope buckets }
    .ok (slots.foldl Tally.limit (buckets.foldl (Tally.charge cost) t))

def Tally.spec (limits : AdmissionLimits) (t : Tally) (e : BucketKey × ℚ) : BucketSpec BucketKey :=
  if e.1 ∈ t.pacedBuckets then ⟨e.1, 1, 1, e.2⟩ else ⟨e.1, limits.rate, limits.burst, e.2⟩

@[simp] theorem map_key_spec (limits : AdmissionLimits) (t : Tally) :
    (t.costs.entries.map (t.spec limits)).map BucketSpec.key = t.costs.keys := by
  rw [List.map_map, Dict.keys]
  congr 1
  funext e
  simp only [Function.comp_apply, Tally.spec]
  split <;> rfl

def fairWeight (claimed : Option ℤ) : Nat :=
  match claimed with
  | some w => if 1 ≤ w ∧ w ≤ 8 then w.toNat else 1
  | none => 1

def prepare (limits : AdmissionLimits) (requirements : List (VerifiedContext × ℚ))
    (waitBudget : ℚ) (claimed : Option ℤ) :
    Except AdmissionError (Request BucketKey SlotKey GroupKey) :=
  match requirements with
  | [] => .error .batchSize
  | (⟨context, _⟩, _) :: _ =>
    if 21 < requirements.length then .error .batchSize
    else do
      let t ← requirements.foldlM (Tally.add limits context) {}
      let buckets := t.costs.entries.map (t.spec limits)
      if buckets.any fun b => b.burst < b.cost then .error .burst
      else if waitBudget < 0 then .error .waitBudget
      else
        let workloads := (requirements.map (·.1.val.workload)).dedup.insertionSort (· ≤ ·)
        let weight := fairWeight claimed
        .ok
          { buckets := buckets
            slots := t.slotLimits.entries.map fun e => ⟨e.1, e.2⟩
            group := ⟨context.cloud, context.tenantId, ",".intercalate workloads, weight⟩
            weight := weight, turn := (t.costs.entries.map Prod.snd).foldl max 0
            lease := limits.leaseSeconds, nodup := by
              rw [map_key_spec]
              exact t.costs.nodup }

open Redis Rate List

universe u v w x

def takeTokens {Bucket : Type u} (b : BucketSpec Bucket) (now : ℚ)
    (slot : Option (Expiring BucketHash)) : Option (Expiring BucketHash) × ℚ :=
  let h := valueD (live now slot) {}
  let tokens := h.balance now b
  if tokens < b.cost then
    (some ⟨{ h with last := some now, tokens := some tokens }, now + 600⟩, (b.cost - tokens) / b.rate)
  else (some ⟨{ h with last := some now, tokens := some (tokens - b.cost) }, now + 600⟩, 0)

variable {rate burst now clock : ℚ} {log : List (ℚ × ℚ)} {slot : Option (Expiring BucketHash)}

/-- The stored bucket and the log: what the bucket holds is what it held when it was last written, or
it is full. -/
inductive Kept (rate burst clock : ℚ) (log : List (ℚ × ℚ)) : Option (Expiring BucketHash) → Prop
  | full {slot : Option (Expiring BucketHash)} (last : (valueD slot {}).last = none)
      (tokens : (valueD slot {}).tokens = none) {t : ℚ} (le : t ≤ clock)
        (fits : Fits rate burst t burst log) : Kept rate burst clock log slot
  | written {e : Expiring BucketHash} {t balance : ℚ} (last : e.value.last = some t)
      (tokens : e.value.tokens = some balance) (le : t ≤ clock) (alive : t + 600 ≤ e.deadline)
      (fits : Fits rate burst t balance log) : Kept rate burst clock log (some e)

theorem Kept.bounded (h : Kept rate burst clock log slot) : Bounded rate burst log := by
  cases h with
  | full last tokens le fits => exact fits.bounded
  | written last tokens le alive fits => exact fits.bounded

theorem Kept.live (h : Kept rate burst clock log slot) (hr : 0 ≤ rate) (long : burst ≤ 600 * rate)
    (later : clock ≤ now) : Kept rate burst now log (live now slot) := by
  cases h with
  | full last tokens le fits =>
    cases found : Redis.live now slot with
    | none => exact .full rfl rfl (le.trans later) fits
    | some e =>
      obtain ⟨rfl, -⟩ := live_eq_some.1 found
      exact .full last tokens (le.trans later) fits
  | @written e t balance last tokens le alive fits =>
    by_cases kept : now ≤ e.deadline
    · rw [live_eq_some.2 ⟨rfl, kept⟩]
      exact .written last tokens (le.trans later) alive fits
    · have gone : Redis.live now (some e) = none := by
        simpa [Redis.live] using kept
      have idle : t + 600 ≤ now := alive.trans (not_le.1 kept).le
      rw [gone]
      refine .full rfl rfl le_rfl (fits.forget hr (le.trans later) (long.trans ?_))
      rw [mul_comm]
      exact mul_le_mul_of_nonneg_left (by linarith) hr

variable {Bucket : Type u} {b : BucketSpec Bucket} {capacity : ℚ} {draws : List (ℚ × ℚ)}

theorem Kept.balance (h : Kept b.rate b.burst now log slot) (hr : 0 ≤ b.rate) :
    Fits b.rate b.burst now ((valueD slot {}).balance now b) log := by
  rw [BucketHash.balance]
  cases h with
  | @full _ last tokens t le fits =>
    rw [last, tokens, Option.getD_none, Option.getD_none, refill, sub_self, max_self, zero_mul,
      add_zero, min_self]
    refine fits.wait hr le (fits.nonneg) le_rfl ?_
    exact le_add_of_nonneg_right (mul_nonneg hr (sub_nonneg.2 le))
  | written last tokens le alive fits =>
    rw [valueD, Option.elim_some, last, tokens]
    exact fits.refill hr le

theorem Kept.store {e : Expiring BucketHash} {balance : ℚ} (last : e.value.last = some now)
    (tokens : e.value.tokens = some balance) (alive : now + 600 ≤ e.deadline)
    (fits : Fits rate burst now balance log) : Kept rate burst now log (some e) :=
  .written last tokens le_rfl alive fits

theorem Kept.cool (h : Kept rate burst now log slot) (alive : now + 600 ≤ deadline) :
    Kept rate burst now log (some ⟨{ valueD slot {} with untilTime := some time }, deadline⟩) := by
  cases h with
  | full last tokens le fits => exact .full last tokens le fits
  | written last tokens le _ fits =>
    exact .written last tokens le ((add_le_add_left le 600).trans alive) fits

theorem le_refresh (b : BucketSpec Bucket) (h : BucketHash) : now + 600 ≤ (h.refresh now b).deadline :=
  add_le_add_right ((le_max_left _ _).trans (Int.le_ceil _)) now

theorem kept_refresh (h : Kept b.rate b.burst now log slot) (hr : 0 ≤ b.rate) :
    Kept b.rate b.burst now log (some ((valueD slot {}).refresh now b)) :=
  .store rfl rfl (le_refresh b _) (h.balance hr)

theorem kept_spend (h : Kept b.rate b.burst now log slot) (hr : 0 ≤ b.rate) (pos : 0 ≤ b.cost)
    (funded : b.cost ≤ (valueD slot {}).balance now b) :
    Kept b.rate b.burst now ((now, b.cost) :: log) (some { (valueD slot {}).refresh now b with
        value := { ((valueD slot {}).refresh now b).value with
          tokens := some ((valueD slot {}).balance now b - b.cost) } }) :=
  .store rfl rfl (le_refresh b _) ((h.balance hr).spend hr pos funded)

theorem touch_buckets [DecidableEq Bucket] {Slot : Type v} {Group : Type w} {Token : Type x}
    {s : Coordinator Bucket Slot Group Token} {key : Bucket} (buckets : List (BucketSpec Bucket)) :
    (s.touch now buckets).buckets key =
      match buckets.find? (·.key = key) with
      | none => s.buckets key
      | some b => some ((valueD (s.buckets key) {}).refresh now b) := rfl

section

variable {Slot : Type v} {Group : Type w} {Token : Type x} [DecidableEq Bucket]
  {requests : Token → Request Bucket Slot Group} {s : Coordinator Bucket Slot Group Token}
  {key : Bucket} {token : Token}

def grantOf (requests : Token → Request Bucket Slot Group) (key : Bucket)
    (e : Timed Bucket Token × Reply) : Option (ℚ × ℚ) :=
  match e.1.script with
  | .grant token =>
    if e.2.isGranted then
      ((requests token).buckets.find? (·.key = key)).map fun b => (e.1.now, b.cost)
    else none
  | _ => none

def grantLog (requests : Token → Request Bucket Slot Group) (key : Bucket)
    (trace : List (Timed Bucket Token × Reply)) : List (ℚ × ℚ) :=
  trace.filterMap (grantOf requests key)

def Metered (requests : Token → Request Bucket Slot Group) (key : Bucket) (rate burst : ℚ) : Prop :=
  ∀ token, ∀ b ∈ (requests token).buckets, b.key = key →
    b.rate = rate ∧ b.burst = burst ∧ 0 < b.cost ∧ b.cost ≤ burst

theorem grantOf_of_not_granted (h : reply.isGranted = false) :
    grantOf requests key (⟨now, .grant token⟩, reply) = none := by
  simp [grantOf, h]

theorem grantOf_of_granted (h : reply.isGranted = true) :
    grantOf requests key (⟨now, .grant token⟩, reply) =
      ((requests token).buckets.find? (·.key = key)).map fun b => (now, b.cost) := by
  simp [grantOf, h]

def drain (key : Bucket) (rate burst : ℚ) (group : Group) : Request Bucket Slot Group where
  buckets := [⟨key, rate, burst, burst⟩]
  slots := []
  group := group
  weight := 1
  turn := burst
  lease := 30
  nodup := nodup_singleton _

theorem grantOf_drain (h : reply.isGranted = true) :
    grantOf (fun _ : Token => (drain key rate burst group : Request Bucket Slot Group)) key
      (⟨now, .grant token⟩, reply) = some (now, burst) := by
  rw [grantOf_of_granted h]
  simp [drain]

variable [DecidableEq Slot] [DecidableEq Group] [DecidableEq Token]
  {trace : List (Timed Bucket Token × Reply)} {calls : List (Timed Bucket Token)}

section

variable (meters : Metered requests key rate burst) (hr : 0 < rate)

include meters hr

theorem kept_grant (h : Kept rate burst now log (live now (s.buckets key)))
    (result : GrantResult now (requests token) token s (s', reply)) :
    Kept rate burst now ((grantOf requests key (⟨now, .grant token⟩, reply)).toList ++ log)
      (s'.buckets key) := by
  cases result with
  | unread thins not_granted =>
    rw [grantOf_of_not_granted not_granted, thins.buckets]
    exact h
  | @refused s₁ _ _ thins₁ thins not_granted =>
    rw [grantOf_of_not_granted not_granted, thins.buckets, touch_buckets, thins₁.buckets]
    cases found : (requests token).buckets.find? (·.key = key) with
    | none => exact h
    | some b =>
      obtain ⟨rfl, rfl, -⟩ := meters token b (mem_of_find?_eq_some found)
        (of_find? found)
      exact kept_refresh h hr.le
  | @granted s₁ s₂ entry score signal thins₁ thins funded free =>
    rw [grantOf_of_granted rfl, Coordinator.commit]
    dsimp only
    rw [thins.buckets, touch_buckets, thins₁.buckets]
    cases found : (requests token).buckets.find? (·.key = key) with
    | none => exact h
    | some b =>
      have hb := mem_of_find?_eq_some found
      have same : b.key = key := of_find? found
      obtain ⟨rfl, rfl, pos, -⟩ := meters token b hb same
      have balance : s₁.balance now b = (valueD (live now (s.buckets key)) {}).balance now b := by
        rw [Coordinator.balance, Coordinator.bucket, thins₁.buckets, same]
        rfl
      have enough := funded b hb hr
      rw [balance] at enough
      dsimp only
      rw [balance]
      exact kept_spend h hr.le pos.le enough

theorem kept_exec (h : Kept rate burst c.now log (live c.now (s.buckets key))) :
    Kept rate burst c.now ((grantOf requests key (c, (c.script.exec requests c.now s).2)).toList ++ log)
      ((c.script.exec requests c.now s).1.buckets key) := by
  obtain ⟨now, script⟩ := c
  cases script with
  | grant token => exact kept_grant meters hr h (grant_result s now (requests token) token)
  | release token => exact h
  | renew token =>
    rw [Script.exec, Coordinator.renew]
    dsimp only
    split
    · exact h
    · exact h
  | cooldown key' seconds =>
    rw [Script.exec, Coordinator.cooldown]
    dsimp only
    by_cases same : key = key'
    · subst same
      rw [Function.update_self]
      refine h.cool (add_le_add_right ?_ now)
      refine le_trans ?_ (Int.le_ceil _)
      have : now ≤ max ((s.evict now).untilTime key) (now + seconds) :=
        (le_add_of_nonneg_right seconds.2).trans (le_max_right _ _)
      linarith
    · rw [Function.update_of_ne same]
      exact h

theorem bounded_play
    (long : burst ≤ 600 * rate) (ordered : InOrder calls) (later : ∀ c ∈ calls, clock ≤ c.now)
    (h : Kept rate burst clock (grantLog requests key trace) (s.buckets key)) :
    Bounded rate burst (grantLog requests key (Concurrency.play (answer requests) (s, trace) calls).2) := by
  induction calls generalizing s trace clock with
  | nil => exact h.bounded
  | cons c calls ih =>
    obtain ⟨after, ordered⟩ := pairwise_cons.1 ordered
    rw [Concurrency.play, foldl_cons, answer_eq]
    refine ih ordered after ?_
    have kept := kept_exec meters hr (h.live hr.le long (later c mem_cons_self))
    rw [grantLog, filterMap_cons]
    cases taken : grantOf requests key (c, (c.script.exec requests c.now s).2) with
    | none | some =>
      rw [taken] at kept
      exact kept

theorem bounded_run (hb : 0 < burst) (long : burst ≤ 600 * rate) (ordered : InOrder calls) :
    Bounded rate burst (grantLog requests key (run requests calls).2) := by
  cases calls with
  | nil => exact (Fits.full hr.le hb.le 0).bounded
  | cons c calls =>
    have fresh : Kept rate burst c.now (grantLog requests key []) none :=
      .full rfl rfl le_rfl (Fits.full hr.le hb.le c.now)
    refine bounded_play meters hr long ordered ?_ fresh
    rw [forall_mem_cons]
    exact ⟨le_rfl, (pairwise_cons.1 ordered).1⟩

end

theorem grant_drain (group : Group) (fresh : s.evict now = {}) (pos : 0 ≤ now) :
    (s.grant now (drain key rate burst group) token).2.isGranted = true ∧
      ∀ later, now + 600 < later →
        (s.grant now (drain key rate burst group) token).1.evict later = {} := by
  have balance : refill rate burst now burst now = burst := by simp [refill]
  simp only [Coordinator.grant, fresh]
  -- the queue, the checks and the choice of the winner, all with nothing stored
  simp [drain, valueD, live, Reply.isGranted, Coordinator.purgeCancelled, Coordinator.dropStale,
    Coordinator.join, Coordinator.waiting, Coordinator.await, Coordinator.touch,
    Coordinator.bucketDenial, Coordinator.slotDenial, Coordinator.untilTime, Coordinator.balance,
    Coordinator.bucket, BucketHash.balance, BucketHash.refresh, balance, Denial.or, not_lt.2 pos, pos,
    Coordinator.pick, Coordinator.eligible, Coordinator.bucketReady, Coordinator.freeSlots,
    Coordinator.commit, Coordinator.evict]
  intro later past
  refine ⟨funext fun k => ?_, by linarith, past, funext fun g => ?_⟩
  · by_cases same : key = k
    · simp [same, past]
    · simp [same]
  · by_cases same : g = group
    · simp [same, past]
    · simp [same]

theorem grantLog_drain (past : 600 < z) (key : Bucket) (token : Token) (group : Group) :
    let requests := fun _ : Token => (drain key rate burst group : Request Bucket Slot Group)
    grantLog requests key (run requests [⟨0, .grant token⟩, ⟨z, .grant token⟩]).2 =
      [(z, burst), (0, burst)] := by
  have first := @grant_drain rate burst 0 Bucket Slot Group Token _ {} key token _ _ _ group rfl le_rfl
  have second := @grant_drain rate burst z Bucket Slot Group Token _ _ key token _ _ _ group
    (first.2 z (by linarith)) (by linarith)
  dsimp only
  rw [run, Concurrency.play, foldl_cons, answer_eq, foldl_cons, answer_eq, foldl_nil, grantLog]
  simp only [Script.exec]
  rw [filterMap_cons_some (grantOf_drain second.1),
    filterMap_cons_some (grantOf_drain first.1), filterMap_nil]

end

def draw (rate capacity : ℚ) (state : Option (Expiring BucketHash) × List (ℚ × ℚ)) (d : ℚ × ℚ) :
    Option (Expiring BucketHash) × List (ℚ × ℚ) :=
  let (slot, wait) := takeTokens (⟨(), rate, capacity, d.2⟩ : BucketSpec Unit) d.1 state.1
  (slot, if wait = 0 then d :: state.2 else state.2)

def Draws (capacity : ℚ) (draws : List (ℚ × ℚ)) : Prop :=
  draws.Pairwise (fun d e => d.1 ≤ e.1) ∧ ∀ d ∈ draws, 0 < d.2 ∧ d.2 ≤ capacity

theorem kept_draw (hr : 0 < rate) (pos : 0 < d.2) (h : Kept rate capacity d.1 log (live d.1 slot)) :
    Kept rate capacity d.1 (draw rate capacity (slot, log) d).2
      (draw rate capacity (slot, log) d).1 := by
  have fits : Fits rate capacity d.1 _ log :=
    @Kept.balance d.1 log _ Unit ⟨(), rate, capacity, d.2⟩ h hr.le
  rw [draw, takeTokens]
  dsimp only
  split
  case isTrue short =>
    rw [if_neg (div_pos (sub_pos.2 short) hr).ne']
    exact .store rfl rfl le_rfl fits
  case isFalse enough =>
    rw [if_pos rfl]
    exact .store rfl rfl le_rfl (fits.spend hr.le pos.le (not_lt.1 enough))

theorem bounded_foldl_draw (hr : 0 < rate) (long : capacity ≤ 600 * rate) (h : Draws capacity draws)
    (later : ∀ d ∈ draws, clock ≤ d.1)
    (kept : Kept rate capacity clock log slot) :
    Bounded rate capacity (draws.foldl (draw rate capacity) (slot, log)).2 := by
  induction draws generalizing slot log clock with
  | nil => exact kept.bounded
  | cons d draws ih =>
    obtain ⟨after, ordered⟩ := pairwise_cons.1 h.1
    obtain ⟨first, costs⟩ := forall_mem_cons.1 h.2
    have next := kept_draw hr first.1 (kept.live hr.le long (later d mem_cons_self))
    exact ih ⟨ordered, costs⟩ after next

theorem bounded_draws (hr : 0 < rate) (hb : 0 < capacity)
    (long : capacity ≤ 600 * rate) (h : Draws capacity draws) :
    Bounded rate capacity (draws.foldl (draw rate capacity) (none, [])).2 := by
  cases draws with
  | nil => exact (Fits.full hr.le hb.le 0).bounded
  | cons d draws =>
    have fresh : Kept rate capacity d.1 [] none :=
      .full rfl rfl le_rfl (Fits.full hr.le hb.le d.1)
    refine bounded_foldl_draw hr long h ?_ fresh
    rw [forall_mem_cons]
    exact ⟨le_rfl, (pairwise_cons.1 h.1).1⟩

theorem exists_not_bounded (hr : 0 < rate) (short : 600 * rate < burst) :
    ∃ z, 600 < z ∧ ¬ Bounded rate burst [(z, burst), (0, burst)] := by
  -- halfway between the time to live of the key and the time in which the bucket fills up
  have fills : 600 < burst / rate := (lt_div_iff₀ hr).2 short
  refine ⟨(600 + burst / rate) / 2, by linarith, fun bounded => ?_⟩
  have twice := bounded 0 ((600 + burst / rate) / 2) (by linarith)
  have inflow : rate * ((600 + burst / rate) / 2) < burst := by
    rw [mul_comm, ← lt_div_iff₀ hr]
    linarith
  rw [spent_cons, spent_cons, if_pos ⟨by linarith, le_rfl⟩, if_pos ⟨le_rfl, by linarith⟩] at twice
  simp only [spent, filter_nil, map_nil, sum_nil, sub_zero] at twice
  linarith

theorem draw_full (fresh : live now slot = none) : draw rate capacity (slot, log) (now, capacity) =
      (some ⟨{ last := some now, tokens := some 0 }, now + 600⟩, (now, capacity) :: log) := by
  have balance : BucketHash.balance {} now (⟨(), rate, capacity, capacity⟩ : BucketSpec Unit) =
      capacity := by
    simp [BucketHash.balance, refill]
  simp [draw, takeTokens, fresh, valueD, balance]

section

variable {Slot : Type v} {Group : Type w} {Token : Type x} [DecidableEq Bucket] [DecidableEq Slot]
  [DecidableEq Group] [DecidableEq Token] [Inhabited Group] [Inhabited Token]

/-- What is granted from a bucket keeps to its rate and burst on every run exactly when the ten minutes
for which its key is kept are enough to fill it. -/
theorem rate_bounded_iff (limits : AdmissionLimits) (key : Bucket) :
    ((∀ requests : Token → Request Bucket Slot Group, Metered requests key limits.rate limits.burst →
        ∀ calls, InOrder calls →
          Bounded limits.rate limits.burst (grantLog requests key (run requests calls).2)) ↔
      limits.burst ≤ 600 * limits.rate) ∧
    ((∀ draws, Draws limits.burst draws → Bounded limits.rate limits.burst
          (draws.foldl (draw limits.rate limits.burst) (none, [])).2) ↔
      limits.burst ≤ 600 * limits.rate) := by
  have hr := limits.rate_pos
  have hb := limits.burst_pos
  refine ⟨⟨fun bounded => ?_, fun long requests meters calls ordered =>
      bounded_run meters hr hb long ordered⟩,
    ⟨fun bounded => ?_, fun long draws h => bounded_draws hr hb long h⟩⟩
  · by_contra short
    obtain ⟨z, past, exceeds⟩ := exists_not_bounded hr (not_le.1 short)
    have meters : Metered (fun _ : Token => (drain key limits.rate limits.burst default :
        Request Bucket Slot Group)) key limits.rate limits.burst := by
      intro token b hb' _
      rw [mem_singleton.1 hb']
      exact ⟨rfl, rfl, hb, le_rfl⟩
    have granted := bounded _ meters [⟨0, .grant default⟩, ⟨z, .grant default⟩]
      (by simp [InOrder]; linarith)
    rw [grantLog_drain past] at granted
    exact exceeds granted
  · by_contra short
    obtain ⟨z, past, exceeds⟩ := exists_not_bounded hr (not_le.1 short)
    refine exceeds ?_
    have granted := bounded [(0, limits.burst), (z, limits.burst)]
      ⟨by simp; linarith, by simp [hb]⟩
    rwa [foldl_cons, draw_full rfl, foldl_cons, draw_full, foldl_nil] at granted
    simpa [live] using past

end

def slowLimits : AdmissionLimits := { rate := 1 / 10, rate_pos := by norm_num }

def annMail : VerifiedContext := ⟨{ tenantId := "t", appId := "a", workload := "mail" }, by decide⟩

/-- Four hundred tokens at once, and four hundred more 601 seconds later, when the key has run out. -/
theorem slow_bucket_exceeds : ∃ r, prepare slowLimits [(annMail, 400)] 1 none = .ok r ∧
    slowLimits.burst + slowLimits.rate * (601 - 0) <
      spent (grantLog (fun _ : Nat => r) .global
        (run (fun _ => r) [⟨0, .grant 0⟩, ⟨601, .grant 1⟩]).2) 0 601 := by
  have exceeds : (prepare slowLimits [(annMail, 400)] 1 none).toOption.any (fun r =>
      decide (slowLimits.burst + slowLimits.rate * (601 - 0) <
        spent (grantLog (fun _ : Nat => r) .global
          (run (fun _ => r) [⟨0, .grant 0⟩, ⟨601, .grant 1⟩]).2) 0 601)) = true := by
    decide +kernel
  obtain ⟨r, prepared, more⟩ := (Option.any_eq_true _ _).1 exceeds
  exact ⟨r, toOption_eq_some.1 prepared, of_decide_eq_true more⟩

end TmVault.Admission
