import Mathlib.Data.Rat.Floor
import TmVault.Concurrency.Runs
import TmVault.Rate.TokenBucket
import TmVault.Redis.Keyspace

/-! The scripts that admit a transmission: rate buckets, cool-downs and slots of every scope it falls
under, and a fair queue of those that wait. The server runs one at a time. -/

namespace TmVault.Admission

open Redis Rate

universe u v w x

structure BucketHash where
  (last tokens untilTime : Option ℚ := none)

structure BucketSpec (Bucket : Type u) where
  key : Bucket
  (rate burst cost : ℚ)

def BucketHash.balance {Bucket : Type u} (h : BucketHash) (now : ℚ) (b : BucketSpec Bucket) : ℚ :=
  refill b.rate b.burst (h.last.getD now) (h.tokens.getD b.burst) now

def BucketHash.refresh {Bucket : Type u} (h : BucketHash) (now : ℚ) (b : BucketSpec Bucket) :
    Expiring BucketHash where
  value := { h with last := some now, tokens := some (h.balance now b) }
  deadline := now + ⌈max 600 (h.untilTime.getD 0 - now + 600)⌉

structure SlotSpec (Slot : Type v) where
  key : Slot
  limit : ℤ

structure Request (Bucket : Type u) (Slot : Type v) (Group : Type w) where
  buckets : List (BucketSpec Bucket)
  slots : List (SlotSpec Slot)
  group : Group
  (weight turn lease : ℚ)
  nodup : (buckets.map BucketSpec.key).Nodup

structure Entry (Bucket : Type u) (Slot : Type v) (Group : Type w) where
  group : Group
  (weight born : ℚ)
  seq : Nat
  buckets : List (BucketSpec Bucket)
  slots : List (SlotSpec Slot)

structure FairClock where
  seq : Nat := 0
  floor : Option ℚ := none

abbrev StreamId := ℤ × Nat

/-- The keys of one namespace. Every write gives its key a time to live, so that a key is absent or
has a deadline. -/
structure Coordinator (Bucket : Type u) (Slot : Type v) (Group : Type w) (Token : Type x) where
  buckets : Bucket → Option (Expiring BucketHash) := fun _ => none
  slots : Slot → Option (Expiring (ZSet Token)) := fun _ => none
  cancelled : Option (Expiring (ZSet Token)) := none
  pending : Option (Expiring (List (Token × Entry Bucket Slot Group))) := none
  expiry : Option (Expiring (ZSet Token)) := none
  clock : Option (Expiring FairClock) := none
  groups : Group → Option (Expiring ℚ) := fun _ => none
  signals : Option (Expiring StreamId) := none

inductive Reason
  | none
  | cooldown
  | rate
  | concurrency

inductive Outcome
  | cancelled
  | denied (wait : ℚ) (reason : Reason) (denied : ℤ)
  | granted

inductive Reply
  | grant (outcome : Outcome) (now : ℚ) (signal : StreamId)
  | released
  | renewed (held : Bool)
  | coolsUntil (time : ℚ)
  | error

section

variable {Bucket : Type u} {Slot : Type v} {Group : Type w} {Token : Type x} [DecidableEq Bucket]
  [DecidableEq Slot] [DecidableEq Group] [DecidableEq Token]

namespace Coordinator

variable (s : Coordinator Bucket Slot Group Token) (now : ℚ)

def evict : Coordinator Bucket Slot Group Token where
  buckets key := live now (s.buckets key)
  slots key := live now (s.slots key)
  cancelled := live now s.cancelled
  pending := live now s.pending
  expiry := live now s.expiry
  clock := live now s.clock
  groups key := live now (s.groups key)
  signals := live now s.signals

def bucket (key : Bucket) : BucketHash := valueD (s.buckets key) {}

def slot (key : Slot) : ZSet Token := valueD (s.slots key) {}

def waiting : List (Token × Entry Bucket Slot Group) := valueD s.pending []

def fairClock : FairClock := valueD s.clock {}

def signal : StreamId := valueD s.signals (0, 0)

def purgeSlot (key : Slot) : Coordinator Bucket Slot Group Token :=
  { s with
    slots := Function.update s.slots key
      ((s.slots key).map fun e => { e with value := e.value.purge now }) }

def purgeCancelled : Coordinator Bucket Slot Group Token :=
  { s with cancelled := s.cancelled.map fun e => { e with value := e.value.purge now } }

def dropStale : Coordinator Bucket Slot Group Token :=
  let stale (token : Token) : Bool :=
    s.expiry.any fun e => (e.value.score token).any (· ≤ now)
  { s with
    pending := s.pending.map fun e => { e with value := e.value.filter fun t => !stale t.1 }
    expiry := s.expiry.map fun e => { e with value := e.value.purge now } }

def await (token : Token) (waiting : List (Token × Entry Bucket Slot Group)) (clock : FairClock) :
    Coordinator Bucket Slot Group Token :=
  { s with
    pending := some ⟨waiting, now + 60⟩
    expiry := some ⟨(valueD s.expiry {}).add (now + 30) token, now + 60⟩
    clock := some ⟨clock, now + 600⟩ }

def join (r : Request Bucket Slot Group) (token : Token) :
    Option (Coordinator Bucket Slot Group Token × Entry Bucket Slot Group) :=
  match s.waiting.find? (·.1 = token) with
  | some (_, entry) => some (s.await now token s.waiting s.fairClock, entry)
  | none =>
    if 512 ≤ s.waiting.length then none
    else
      let seq := s.fairClock.seq + 1
      let entry : Entry Bucket Slot Group :=
        { group := r.group, weight := r.weight, born := now, seq := seq,
          buckets := r.buckets, slots := r.slots }
      some (s.await now token (s.waiting ++ [(token, entry)]) { s.fairClock with seq := seq }, entry)

def balance (b : BucketSpec Bucket) : ℚ := (s.bucket b.key).balance now b

def untilTime (key : Bucket) : ℚ := (s.bucket key).untilTime.getD 0

def touch (buckets : List (BucketSpec Bucket)) : Coordinator Bucket Slot Group Token :=
  { s with
    buckets := fun key =>
      match buckets.find? (·.key = key) with
      | none => s.buckets key
      | some b => some ((s.bucket key).refresh now b) }

end Coordinator

structure Denial where
  wait : ℚ := 0
  reason : Reason := .none
  denied : ℤ := 0

def Denial.or (d : Denial) (wait : ℚ) (reason : Reason) (denied : ℤ) : Denial :=
  if d.wait < wait then ⟨wait, reason, denied⟩ else d

namespace Coordinator

variable (s : Coordinator Bucket Slot Group Token) (now : ℚ)

def bucketDenial : List (BucketSpec Bucket) → ℤ → Denial → Denial
  | [], _, d => d
  | b :: rest, i, d =>
    bucketDenial rest (i + 1) <| (d.or (s.untilTime b.key - now) .cooldown i).or
      (max 0 (b.cost - s.balance now b) / b.rate) .rate i

def slotDenial : List (SlotSpec Slot) → ℤ → Coordinator Bucket Slot Group Token → Denial →
    Coordinator Bucket Slot Group Token × Option Denial
  | [], _, s, d => (s, some d)
  | slot :: rest, i, s, d =>
    let s := s.purgeSlot now slot.key
    if slot.limit ≤ (s.slot slot.key).card then
      match (s.slot slot.key).lowest with
      | none => (s, none)
      | some first =>
        slotDenial rest (i + 1) s (d.or (min (1 / 2) (max (1 / 100) (first - now))) .concurrency (-i))
    else slotDenial rest (i + 1) s d

def freeSlots : List (SlotSpec Slot) → Coordinator Bucket Slot Group Token →
    Coordinator Bucket Slot Group Token × Bool
  | [], s => (s, true)
  | slot :: rest, s =>
    let s := s.purgeSlot now slot.key
    if slot.limit ≤ (s.slot slot.key).card then (s, false) else freeSlots rest s

def bucketReady (b : BucketSpec Bucket) : Bool :=
  s.untilTime b.key ≤ now && b.cost ≤ s.balance now b

def eligible (e : Entry Bucket Slot Group) : Coordinator Bucket Slot Group Token × Bool :=
  if e.buckets.all (s.bucketReady now) then freeSlots now e.slots s else (s, false)

end Coordinator

structure Candidate (Bucket : Type u) (Slot : Type v) (Group : Type w) (Token : Type x) where
  token : Token
  entry : Entry Bucket Slot Group
  score : ℚ
  aged : Bool

def Candidate.beats (c best : Candidate Bucket Slot Group Token) : Bool :=
  (c.aged && !best.aged) ||
    (c.aged == best.aged &&
      ((c.aged && c.entry.seq < best.entry.seq) ||
        (!c.aged && (c.score < best.score ||
          (c.score = best.score && c.entry.seq < best.entry.seq)))))

namespace Coordinator

variable (s : Coordinator Bucket Slot Group Token) (now : ℚ)

def floor : ℚ := s.fairClock.floor.getD 0

def pick (floor : ℚ) :
    List (Token × Entry Bucket Slot Group) → Coordinator Bucket Slot Group Token →
    Option (Candidate Bucket Slot Group Token) →
    Coordinator Bucket Slot Group Token × Option (Candidate Bucket Slot Group Token)
  | [], s, best => (s, best)
  | (token, entry) :: rest, s, best =>
    match s.eligible now entry with
    | (s, false) => pick floor rest s best
    | (s, true) =>
      let c : Candidate Bucket Slot Group Token :=
        { token := token, entry := entry
          score := max floor (valueD (s.groups entry.group) floor), aged := 5 ≤ now - entry.born }
      pick floor rest s (if best.all c.beats then some c else best)

/-- The winner takes its turn of the group's clock, its tokens and its slots. `values` is what the
buckets held when they were read. -/
def commit (r : Request Bucket Slot Group) (token : Token) (entry : Entry Bucket Slot Group)
    (score : ℚ) (values : BucketSpec Bucket → ℚ) : Coordinator Bucket Slot Group Token :=
  { s with
    clock := s.clock.map fun e => { e with value := { e.value with floor := some score } }
    groups := Function.update s.groups entry.group (some ⟨score + r.turn / entry.weight, now + 600⟩)
    pending := s.pending.map fun e => { e with value := e.value.filter (·.1 ≠ token) }
    expiry := s.expiry.map fun e => { e with value := e.value.remove token }
    buckets := fun key =>
      match r.buckets.find? (·.key = key) with
      | none => s.buckets key
      | some b => (s.buckets key).map fun e =>
        { e with value := { e.value with tokens := some (values b - b.cost) } }
    slots := fun key =>
      if key ∈ r.slots.map SlotSpec.key then
        some ⟨(s.slot key).add (now + r.lease) token, now + ⌈r.lease + 60⌉⟩
      else s.slots key }

def grant (r : Request Bucket Slot Group) (token : Token) :
    Coordinator Bucket Slot Group Token × Reply :=
  let s := (s.evict now).purgeCancelled now
  let answer (outcome : Outcome) : Reply := .grant outcome now s.signal
  if s.cancelled.any fun e => (e.value.score token).isSome then (s, answer .cancelled)
  else
    let s := s.dropStale now
    match s.join now r token with
    | none => (s, answer (.denied (1 / 2) .concurrency (-1)))
    | some (s, entry) =>
      match slotDenial now r.slots 1 (s.touch now r.buckets) (s.bucketDenial now r.buckets 1 {}) with
      | (s', none) => (s', .error)
      | (s', some d) =>
        if 0 < d.wait then (s', answer (.denied d.wait d.reason d.denied))
        else
          match pick now s'.floor s'.waiting s' none with
          | (s', none) => (s', answer (.denied (1 / 20) .concurrency (-1)))
          | (s', some winner) =>
            if winner.token = token then
              (s'.commit now r token entry winner.score (s.balance now), answer .granted)
            else (s', answer (.denied (1 / 20) .concurrency (-1)))

def nextStreamId (last : StreamId) : StreamId :=
  if last.1 < ⌊now * 1000⌋ then (⌊now * 1000⌋, 0) else (last.1, last.2 + 1)

def release (r : Request Bucket Slot Group) (token : Token) :
    Coordinator Bucket Slot Group Token × Reply :=
  let s := s.evict now
  let released := r.slots.any fun slot => ((s.slot slot.key).score token).isSome
  let s' : Coordinator Bucket Slot Group Token :=
    { s with
      cancelled := some
        { value := (valueD s.cancelled {}).add (now + r.lease + 60) token
          deadline := now + ⌈r.lease + 120⌉ }
      slots := fun key =>
        if key ∈ r.slots.map SlotSpec.key then
          (s.slots key).map fun e => { e with value := e.value.remove token }
        else s.slots key
      pending := s.pending.map fun e => { e with value := e.value.filter (·.1 ≠ token) }
      expiry := s.expiry.map fun e => { e with value := e.value.remove token }
      signals := if released then some ⟨nextStreamId now s.signal, now + 60⟩ else s.signals }
  (s', .released)

def renew (r : Request Bucket Slot Group) (token : Token) :
    Coordinator Bucket Slot Group Token × Reply :=
  let s := s.evict now
  if r.slots.all fun slot => ((s.slot slot.key).score token).any (now < ·) then
    ({ s with
        slots := fun key =>
          if key ∈ r.slots.map SlotSpec.key then
            some ⟨(s.slot key).add (now + r.lease) token, now + ⌈r.lease + 60⌉⟩
          else s.slots key }, .renewed true)
  else (s, .renewed false)

def cooldown (key : Bucket) (seconds : ℚ) : Coordinator Bucket Slot Group Token × Reply :=
  let s := s.evict now
  let time := max (s.untilTime key) (now + seconds)
  ({ s with
      buckets := Function.update s.buckets key (some
        { value := { s.bucket key with untilTime := some time }
          deadline := now + ⌈time - now + 600⌉ }) }, .coolsUntil time)

end Coordinator

/-- The scripts. A token is drawn for one transmission and is only used for it; `cooldown` takes no
negative time. -/
inductive Script (Bucket : Type u) (Token : Type x)
  | grant (token : Token)
  | release (token : Token)
  | renew (token : Token)
  | cooldown (key : Bucket) (seconds : { q : ℚ // 0 ≤ q })

def Script.exec (requests : Token → Request Bucket Slot Group) (now : ℚ)
    (s : Coordinator Bucket Slot Group Token) :
    Script Bucket Token → Coordinator Bucket Slot Group Token × Reply
  | .grant token => s.grant now (requests token) token
  | .release token => s.release now (requests token) token
  | .renew token => s.renew now (requests token) token
  | .cooldown key seconds => s.cooldown now key seconds

structure Timed (Bucket : Type u) (Token : Type x) where
  now : ℚ
  script : Script Bucket Token

def answer (requests : Token → Request Bucket Slot Group)
    (state : Coordinator Bucket Slot Group Token × List (Timed Bucket Token × Reply))
    (c : Timed Bucket Token) :
    Coordinator Bucket Slot Group Token × List (Timed Bucket Token × Reply) :=
  let (s, reply) := c.script.exec requests c.now state.1
  (s, (c, reply) :: state.2)

theorem answer_eq (requests : Token → Request Bucket Slot Group)
    (s : Coordinator Bucket Slot Group Token) (trace : List (Timed Bucket Token × Reply))
    (c : Timed Bucket Token) : answer requests (s, trace) c =
      ((c.script.exec requests c.now s).1, (c, (c.script.exec requests c.now s).2) :: trace) := rfl

def run (requests : Token → Request Bucket Slot Group) (calls : List (Timed Bucket Token)) :
    Coordinator Bucket Slot Group Token × List (Timed Bucket Token × Reply) :=
  Concurrency.play (answer requests) ({}, []) calls

def InOrder (calls : List (Timed Bucket Token)) : Prop := calls.Pairwise fun c d => c.now ≤ d.now

end

variable {Bucket : Type u} {Slot : Type v} {Group : Type w} {Token : Type x}

def Reply.isGranted : Reply → Bool
  | .grant .granted _ _ => true
  | _ => false

structure Thins (now : ℚ) (s s' : Coordinator Bucket Slot Group Token) : Prop where
  buckets : s'.buckets = s.buckets
  slots : ∀ key, s'.slots key = s.slots key ∨
    s'.slots key = (s.slots key).map fun e => { e with value := e.value.purge now }

variable {now : ℚ} {s s' s'' : Coordinator Bucket Slot Group Token}
  {buckets : List (BucketSpec Bucket)}

theorem Thins.of_eq (buckets : s'.buckets = s.buckets) (slots : s'.slots = s.slots) :
    Thins now s s' :=
  ⟨buckets, fun key => .inl (congrFun slots key)⟩

theorem Thins.refl (s : Coordinator Bucket Slot Group Token) : Thins now s s := .of_eq rfl rfl

theorem Thins.trans (h : Thins now s s') (h' : Thins now s' s'') : Thins now s s'' where
  buckets := h'.buckets.trans h.buckets
  slots key := by
    rcases h'.slots key with same | thinned
    · rw [same]
      exact h.slots key
    · rcases h.slots key with same | thinned'
      · rw [thinned, same]
        exact .inr rfl
      · rw [thinned, thinned', Option.map_map]
        refine .inr (Option.map_congr fun e _ => ?_)
        simp only [Function.comp_apply, ZSet.purge_purge le_rfl]

theorem Thins.slot (h : Thins now s s') (key : Slot) :
    s'.slot key = s.slot key ∨ s'.slot key = (s.slot key).purge now := by
  rcases h.slots key with same | thinned
  · exact .inl (by rw [Coordinator.slot, same, Coordinator.slot])
  · refine .inr ?_
    rw [Coordinator.slot, thinned, Coordinator.slot]
    cases s.slots key <;> rfl

structure Open (now : ℚ) (slot : SlotSpec Slot) (s : Coordinator Bucket Slot Group Token) : Prop where
  purged : (s.slot slot.key).purge now = s.slot slot.key
  room : ((s.slot slot.key).card : ℤ) < slot.limit

theorem Open.thins {slot : SlotSpec Slot} (h : Open now slot s) (t : Thins now s s') :
    Open now slot s' := by
  have same : s'.slot slot.key = s.slot slot.key := by
    rcases t.slot slot.key with same | thinned
    · exact same
    · rw [thinned, h.purged]
  exact ⟨by rw [same, h.purged], by rw [same]; exact h.room⟩

theorem Denial.or_wait (d : Denial) (wait : ℚ) (reason : Reason) (denied : ℤ) :
    (d.or wait reason denied).wait = max d.wait wait := by
  rw [Denial.or]
  split
  case isTrue h => exact (max_eq_right h.le).symm
  case isFalse h => exact (max_eq_left (not_lt.1 h)).symm

section

variable [DecidableEq Slot] {slots : List (SlotSpec Slot)} {i : ℤ}

theorem thins_purgeSlot (key : Slot) : Thins now s (s.purgeSlot now key) where
  buckets := rfl
  slots key' := by
    by_cases h : key' = key
    · subst h
      exact .inr (Function.update_self _ _ _)
    · exact .inl (Function.update_of_ne h _ _)

theorem thins_freeSlots (slots : List (SlotSpec Slot)) :
    Thins now s (Coordinator.freeSlots now slots s).1 := by
  induction slots generalizing s with
  | nil => exact .refl s
  | cons slot rest ih =>
    rw [Coordinator.freeSlots]
    split
    · exact thins_purgeSlot slot.key
    · exact (thins_purgeSlot slot.key).trans ih

theorem thins_eligible (e : Entry Bucket Slot Group) : Thins now s (s.eligible now e).1 := by
  rw [Coordinator.eligible]
  split
  · exact thins_freeSlots e.slots
  · exact .refl s

theorem thins_pick [DecidableEq Token] {floor : ℚ} (waiting : List (Token × Entry Bucket Slot Group))
    (best : Option (Candidate Bucket Slot Group Token)) :
    Thins now s (Coordinator.pick now floor waiting s best).1 := by
  induction waiting generalizing s best with
  | nil => exact .refl s
  | cons entry rest ih =>
    have eligible := @thins_eligible _ _ _ _ now s _ entry.2
    rw [Coordinator.pick]
    split
    case h_1 s' found =>
      rw [found] at eligible
      exact eligible.trans (ih best)
    case h_2 s' found =>
      rw [found] at eligible
      exact eligible.trans (ih _)

theorem slot_purgeSlot (key : Slot) : (s.purgeSlot now key).slot key = (s.slot key).purge now := by
  have purged : (s.purgeSlot now key).slots key =
      (s.slots key).map fun e => { e with value := e.value.purge now } := Function.update_self _ _ _
  rw [Coordinator.slot, purged, Coordinator.slot]
  cases s.slots key <;> rfl

theorem thins_slotDenial {d : Denial} : Thins now s (Coordinator.slotDenial now slots i s d).1 := by
  induction slots generalizing s i d with
  | nil => exact .refl s
  | cons slot rest ih =>
    rw [Coordinator.slotDenial]
    split
    · split
      · exact thins_purgeSlot slot.key
      · exact (thins_purgeSlot slot.key).trans ih
    · exact (thins_purgeSlot slot.key).trans ih

theorem le_slotDenial {d d' : Denial}
    (h : Coordinator.slotDenial now slots i s d = (s', some d')) : d.wait ≤ d'.wait := by
  induction slots generalizing s i d with
  | nil =>
    cases h
    exact le_rfl
  | cons slot rest ih =>
    rw [Coordinator.slotDenial] at h
    split at h
    · split at h
      · cases h
      · have := ih h
        rw [Denial.or_wait] at this
        exact (le_max_left _ _).trans this
    · exact ih h

theorem open_of_slotDenial {d d' : Denial}
    (h : Coordinator.slotDenial now slots i s d = (s', some d')) (free : d'.wait ≤ 0) :
    ∀ slot ∈ slots, Open now slot s' := by
  induction slots generalizing s i d with
  | nil => simp
  | cons slot rest ih =>
    have later {i d}
        (h : Coordinator.slotDenial now rest i (s.purgeSlot now slot.key) d = (s', some d')) :
        Thins now (s.purgeSlot now slot.key) s' := by
      have := @thins_slotDenial _ _ _ _ now (s.purgeSlot now slot.key) _ rest i d
      rwa [h] at this
    rw [Coordinator.slotDenial] at h
    split at h
    case isTrue full =>
      split at h
      · cases h
      case h_2 first _ =>
        have waits := (le_slotDenial h).trans free
        rw [Denial.or_wait, max_le_iff] at waits
        have : (0 : ℚ) < min (1 / 2) (max (1 / 100) (first - now)) :=
          lt_min (by norm_num) (lt_max_of_lt_left (by norm_num))
        exact absurd waits.2 (not_le.2 this)
    case isFalse room =>
      rw [List.forall_mem_cons]
      refine ⟨Open.thins ⟨?_, not_le.1 room⟩ (later h), ih h⟩
      rw [slot_purgeSlot, ZSet.purge_purge le_rfl]

end

theorem le_bucketDenial {i : ℤ} {d : Denial} : d.wait ≤ (s.bucketDenial now buckets i d).wait := by
  induction buckets generalizing i d with
  | nil => exact le_rfl
  | cons b rest ih =>
    refine le_trans ?_ ih
    rw [Denial.or_wait, Denial.or_wait]
    exact (le_max_left _ _).trans (le_max_left _ _)

theorem le_balance_of_bucketDenial {i : ℤ} {d : Denial}
    (free : (s.bucketDenial now buckets i d).wait ≤ 0) :
    ∀ b ∈ buckets, 0 < b.rate → b.cost ≤ s.balance now b := by
  induction buckets generalizing i d with
  | nil => simp
  | cons b rest ih =>
    rw [Coordinator.bucketDenial] at free
    rw [List.forall_mem_cons]
    refine ⟨fun pos => ?_, ih free⟩
    have waits := le_bucketDenial.trans free
    rw [Denial.or_wait, max_le_iff] at waits
    have short := (div_le_iff₀ pos).1 waits.2
    rw [zero_mul] at short
    exact sub_nonpos.1 ((le_max_right _ _).trans short)

theorem thins_join [DecidableEq Token] {r : Request Bucket Slot Group} {token : Token}
    {entry : Entry Bucket Slot Group} (h : s.join now r token = some (s', entry)) :
    Thins now s s' := by
  rw [Coordinator.join] at h
  split at h
  · cases h
    exact .of_eq rfl rfl
  · split at h
    · cases h
    · cases h
      exact .of_eq rfl rfl

variable [DecidableEq Bucket] [DecidableEq Slot] [DecidableEq Group] [DecidableEq Token]
  {r : Request Bucket Slot Group} {token : Token}

/-- How a grant script ends: turned away unread; refused, with its buckets written back; or granted,
when no bucket and no slot makes it wait. -/
inductive GrantResult (now : ℚ) (r : Request Bucket Slot Group) (token : Token)
    (s : Coordinator Bucket Slot Group Token) : Coordinator Bucket Slot Group Token × Reply → Prop
  | unread {s' reply} (thins : Thins now (s.evict now) s') (not_granted : reply.isGranted = false) :
    GrantResult now r token s (s', reply)
  | refused {s₁ s' reply} (thins₁ : Thins now (s.evict now) s₁)
      (thins : Thins now (s₁.touch now r.buckets) s') (not_granted : reply.isGranted = false) :
    GrantResult now r token s (s', reply)
  | granted {s₁ s₂ entry score signal} (thins₁ : Thins now (s.evict now) s₁)
      (thins : Thins now (s₁.touch now r.buckets) s₂)
      (funded : ∀ b ∈ r.buckets, 0 < b.rate → b.cost ≤ s₁.balance now b)
      (free : ∀ slot ∈ r.slots, Open now slot s₂) :
    GrantResult now r token s
      (s₂.commit now r token entry score (s₁.balance now), .grant .granted now signal)

theorem grant_result (s : Coordinator Bucket Slot Group Token) (now : ℚ)
    (r : Request Bucket Slot Group) (token : Token) :
    GrantResult now r token s (s.grant now r token) := by
  have cleared : Thins now (s.evict now) ((s.evict now).purgeCancelled now) := .of_eq rfl rfl
  have stale : Thins now (s.evict now) (((s.evict now).purgeCancelled now).dropStale now) :=
    .of_eq rfl rfl
  rw [Coordinator.grant]
  dsimp only
  split
  · exact .unread cleared rfl
  split
  · exact .unread stale rfl
  case h_2 s₁ entry joined =>
    have thins₁ := stale.trans (thins_join joined)
    have checked := @thins_slotDenial _ _ _ _ now (s₁.touch now r.buckets) _ r.slots 1
      (s₁.bucketDenial now r.buckets 1 {})
    split
    case h_1 s' denial =>
      rw [denial] at checked
      exact .refused thins₁ checked rfl
    case h_2 s' d denial =>
      rw [denial] at checked
      have picked := @thins_pick _ _ _ _ now s' _ _ s'.floor s'.waiting none
      split
      · exact .refused thins₁ checked rfl
      case isFalse free =>
        have free : d.wait ≤ 0 := not_lt.1 free
        split
        case h_1 s₂ pick =>
          rw [pick] at picked
          exact .refused thins₁ (checked.trans picked) rfl
        case h_2 s₂ winner pick =>
          rw [pick] at picked
          split
          · have room := open_of_slotDenial denial free
            exact .granted thins₁ (checked.trans picked)
              (le_balance_of_bucketDenial ((le_slotDenial denial).trans free))
              fun slot hslot => (room slot hslot).thins picked
          · exact .refused thins₁ (checked.trans picked) rfl

end TmVault.Admission
