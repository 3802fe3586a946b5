import Mathlib.Algebra.Order.Ring.Rat
import Mathlib.Data.Rat.Floor
import Mathlib.Tactic.Linarith
import TmVault.Concurrency.Runs
import TmVault.Text.Basic

namespace TmVault.Graph

/-- A rounding of the rationals, as that of the floats: it keeps the whole numbers a float holds. An
infinite sum stands in it for a number no sum passes. -/
structure Rounding where
  fl : ℚ → ℚ
  mono : Monotone fl
  idem : ∀ x, fl (fl x) = fl x
  whole : ∀ n : ℕ, n ≤ 2 ^ 53 → fl n = n

def Rounding.exact : Rounding := ⟨id, monotone_id, fun _ => rfl, fun _ _ => rfl⟩

/-- The digits `int` reads; it refuses more than 4300 of them. -/
def digits (cs : List Char) : Option Int :=
  let kept := cs.filter (· ≠ '_')
  if ((Text.split '_' cs).all fun group => group ≠ [] && group.all Char.isDigit) ∧
      kept.length ≤ 4300 then
    some (kept.foldl (fun n d => 10 * n + (d.toNat - 48)) 0)
  else none

def signed : List Char → Option Int
  | '-' :: cs => (digits cs).map (- ·)
  | '+' :: cs => digits cs
  | cs => digits cs

/-- `int` of a stripped text. -/
def toInt? (cs : List Char) : Option Int := signed (cs.map Text.toAscii)

structure OverflowError

/-- A response, with the seconds to the date its header gives when it gives one, and what the jitter
draws. -/
structure Response where
  statusCode : Nat := 429
  retryAfter : Option String := none
  untilDate : Option ℚ := none
  jitter : ℚ := 0

variable (R : Rounding)

/-- `float` of a whole number: it has to round to less than 2 to the 1024. -/
def toFloat (n : Int) : Except OverflowError ℚ :=
  if n.natAbs < 2 ^ 1024 - 2 ^ 970 then .ok (R.fl n) else .error ⟨⟩

def parseRetryAfter (r : Response) : Except OverflowError (Option ℚ) :=
  match r.retryAfter with
  | none => .ok none
  | some value =>
    let raw := Text.strip Text.isSpace value.toList
    if raw = [] then .ok none
    else match toInt? raw with
      | some n => (toFloat R n).map some
      | none => .ok (r.untilDate.map (· ⊔ 0))

def jittered (base ratio jitter : ℚ) : ℚ :=
  if ratio ≤ 0 then base else R.fl (base * R.fl (1 + jitter)) ⊔ 0

structure BackoffWalker where
  sequence : List Int
  jitterRatio : ℚ := 1 / 5
  index : Nat := 0
  cumulative : ℚ := 0

inductive Reason
  | capAfterRetryAfter (seconds : ℚ) | retryAfter (seconds : ℚ) | capAt (wait : ℚ)
  | backoff (wait : ℚ) | noSleep (statusCode : Nat)

structure PolicyAction where
  shouldSleep : Bool
  sleepSeconds : ℚ
  exhausted : Bool
  reason : Reason

namespace BackoffWalker

variable (w : BackoffWalker) (cap : ℚ) (r : Response)

def next : BackoffWalker × ℚ :=
  match w.sequence[w.index % w.sequence.length]? with
  | none => (w, 0)
  | some base =>
    let wait := jittered R (R.fl base) w.jitterRatio r.jitter
    ({ w with index := w.index + 1, cumulative := R.fl (w.cumulative + wait) }, wait)

/-- What `decide` answers when the walker has just been charged with `wait`. -/
def charged (wait : ℚ) (capped slept : Reason) : PolicyAction :=
  if cap ≤ w.cumulative then ⟨false, 0, true, capped⟩ else ⟨true, wait, false, slept⟩

/-- What `decide` does to the walker of the throttles, and what it answers. -/
def decide : Except OverflowError (BackoffWalker × PolicyAction) :=
  if r.statusCode ∈ [429, 503] then
    (parseRetryAfter R r).map fun
      | some parsed =>
        let w := { w with cumulative := R.fl (w.cumulative + parsed) }
        (w, w.charged cap parsed (.capAfterRetryAfter parsed) (.retryAfter parsed))
      | none =>
        let (w, wait) := w.next R r
        (w, w.charged cap wait (.capAt wait) (.backoff wait))
  else .ok (w, ⟨false, 0, false, .noSleep r.statusCode⟩)

def run (responses : List Response) : Except OverflowError BackoffWalker :=
  responses.foldlM (fun w r => (w.decide R cap r).map (·.1)) w

/-- Every wait of the sequence is at least `δ`, whatever the jitter draws. -/
def Paced (δ : ℕ) : Prop :=
  w.sequence ≠ [] ∧ ∀ base ∈ w.sequence,
    (δ : ℚ) ≤ R.fl base ∧ (δ : ℚ) ≤ R.fl base * R.fl (1 - w.jitterRatio)

/-- A throttled response whose header, when it says how long to wait, says `δ` seconds or more, and no
more than a float holds. -/
structure Throttles (ratio : ℚ) (δ : ℕ) (r : Response) : Prop where
  status : r.statusCode ∈ [429, 503]
  drawn : - ratio ≤ r.jitter
  parsed : ∃ seconds?, parseRetryAfter R r = .ok seconds? ∧ ∀ seconds ∈ seconds?, (δ : ℚ) ≤ seconds

variable {R w r} {δ : ℕ} {responses : List Response}

theorem charged_spec {wait : ℚ} {capped slept : Reason} (le : 0 ≤ wait) :
    0 ≤ (w.charged cap wait capped slept).sleepSeconds ∧
      (cap ≤ w.cumulative → (w.charged cap wait capped slept).exhausted) := by
  rw [charged]
  split <;> simp [*]

theorem le_jittered {base ratio jitter : ℚ} (small : δ ≤ 2 ^ 53) (plain : (δ : ℚ) ≤ base)
    (least : (δ : ℚ) ≤ base * R.fl (1 - ratio)) (drawn : - ratio ≤ jitter) :
    (δ : ℚ) ≤ jittered R base ratio jitter := by
  rw [jittered]
  split
  · exact plain
  · have factor : R.fl (1 - ratio) ≤ R.fl (1 + jitter) := R.mono (by linarith)
    have wait := least.trans (mul_le_mul_of_nonneg_left factor (δ.cast_nonneg.trans plain))
    exact le_sup_of_le_left ((R.whole δ small).symm.trans_le (R.mono wait))

/-- A throttle adds a wait of at least `δ`, and exhausts the walker once the waits reach the cap. -/
theorem Paced.decide_throttled (paced : w.Paced R δ) (small : δ ≤ 2 ^ 53)
    (h : Throttles R w.jitterRatio δ r) : ∃ wait i action, (δ : ℚ) ≤ wait ∧
      w.decide R cap r =
        .ok ({ w with index := i, cumulative := R.fl (w.cumulative + wait) }, action) ∧
      0 ≤ action.sleepSeconds ∧ (cap ≤ R.fl (w.cumulative + wait) → action.exhausted) := by
  obtain ⟨seconds?, parsed, least⟩ := h.parsed
  rw [decide, if_pos h.status, parsed]
  cases seconds? with
  | some seconds =>
    have le := least seconds rfl
    exact ⟨seconds, w.index, _, le, rfl, charged_spec cap (δ.cast_nonneg.trans le)⟩
  | none =>
    have inside : w.index % w.sequence.length < w.sequence.length :=
      Nat.mod_lt _ (List.length_pos_iff.mpr paced.1)
    have base := paced.2 _ (List.getElem_mem inside)
    have le := le_jittered small base.1 base.2 h.drawn
    rw [Except.map, next, List.getElem?_eq_getElem inside]
    exact ⟨_, w.index + 1, _, le, rfl, charged_spec cap (δ.cast_nonneg.trans le)⟩

/-- As long as a float holds the least sum of the waits, the waits of the walker reach it. -/
theorem Paced.run (paced : w.Paced R δ) (spent : ℕ) (start : (spent : ℚ) ≤ w.cumulative)
    (small : spent + δ * responses.length ≤ 2 ^ 53) (step : δ ≤ 2 ^ 53)
    (stored : R.fl w.cumulative = w.cumulative)
    (throttles : ∀ r ∈ responses, Throttles R w.jitterRatio δ r) :
    ∃ w', w.run R cap responses = .ok w' ∧ w'.Paced R δ ∧ w'.jitterRatio = w.jitterRatio ∧
      R.fl w'.cumulative = w'.cumulative ∧
      ((spent + δ * responses.length : ℕ) : ℚ) ≤ w'.cumulative := by
  induction responses generalizing w spent with
  | nil => exact ⟨w, rfl, paced, rfl, stored, start⟩
  | cons r responses ih =>
    rw [List.forall_mem_cons] at throttles
    rw [List.length_cons, mul_add_one, add_comm (δ * _), ← add_assoc] at small ⊢
    obtain ⟨wait, i, action, le, eq, -⟩ := paced.decide_throttled cap step throttles.1
    rw [BackoffWalker.run, List.foldlM_cons, eq]
    refine @ih { w with index := i, cumulative := R.fl (w.cumulative + wait) } paced _ ?_ small
      (R.idem _) throttles.2
    rw [← R.whole _ ((Nat.le_add_right ..).trans small)]
    exact R.mono (by push_cast; linarith)

end BackoffWalker

open BackoffWalker

open Concurrency Function

/-- Where a task in `slot` is suspended. -/
inductive Await
  | shared | sleep (deadline : ℚ) | notify

/-- A `HostThrottle` in its event loop, with the time, the tasks suspended in `slot` and the open
slots. -/
structure HostThrottle where
  max : Nat
  limit : ℚ := max
  inFlight : Nat := 0
  pausedUntil : ℚ := 0
  shared : Bool := false
  (sharedDownUntil nextSync clock : ℚ := 0)
  tasks : Nat → Option Await := fun _ => none
  slots : List Nat := []

namespace HostThrottle

inductive Event
  | slot (task : Nat) | synced (task : Nat) (deadline : Option ℚ) | woke (task : Nat)
  | notified (task : Nat) | cancelled (task : Nat) | exit (task : Nat)
  | throttled (seconds : ℚ) | putFailed | succeeded | tick (now : ℚ)

def make (maxConcurrency : Int) (shared : Bool) : HostThrottle :=
  { max := (1 ⊔ maxConcurrency).toNat, shared }

variable (s : HostThrottle) (task m : Nat)

def await (a : Await) : HostThrottle := { s with tasks := update s.tasks task (some a) }

-- The lock of the condition is free whenever a task runs, so taking it suspends no one.
def enter : HostThrottle :=
  if s.inFlight < ⌊s.limit⌋₊ then
    { s with
      inFlight := s.inFlight + 1, slots := task :: s.slots, tasks := update s.tasks task none }
  else s.await task .notify

def pause : HostThrottle :=
  if s.clock < s.pausedUntil then s.await task (.sleep s.pausedUntil) else s.enter task

def waitPause : HostThrottle :=
  if s.shared && s.sharedDownUntil ≤ s.clock && s.nextSync ≤ s.clock then
    { s with nextSync := s.clock + 1 }.await task .shared
  else s.pause task

def answered : Option ℚ → HostThrottle
  | none => { s with sharedDownUntil := s.clock + 60 }
  | some deadline => { s with pausedUntil := s.pausedUntil ⊔ deadline }

/-- Each event runs to the next suspension. `woke` ends a sleep, `cancelled` meets a task suspended in
`slot`, and `exit` ends the body of an open slot, cancelled or not. -/
def step : Event → HostThrottle
  | .slot task => s.waitPause task
  | .synced task deadline =>
    match s.tasks task with
    | some .shared => (s.answered deadline).pause task
    | _ => s
  | .woke task =>
    match s.tasks task with
    | some (.sleep deadline) =>
      if s.clock < deadline then s
      else if s.pausedUntil ≤ deadline then s.enter task
      else s.pause task
    | _ => s
  | .notified task =>
    match s.tasks task with
    | some .notify => s.waitPause task
    | _ => s
  | .cancelled task => { s with tasks := update s.tasks task none }
  | .exit task =>
    if task ∈ s.slots then { s with inFlight := s.inFlight - 1, slots := s.slots.erase task } else s
  | .throttled seconds =>
    { s with
      limit := if s.pausedUntil ≤ s.clock then 1 ⊔ s.limit / 2 else s.limit
      pausedUntil := s.pausedUntil ⊔ (s.clock + (0 ⊔ seconds)) }
  | .putFailed => { s with sharedDownUntil := s.clock + 60 }
  | .succeeded => { s with limit := s.max ⊓ (s.limit + 1 / s.limit) }
  -- A sleep ends by another clock, so what follows is for a wall clock that is never set back.
  | .tick now => { s with clock := s.clock ⊔ now }

def Within : Prop :=
  (1 ≤ s.limit ∧ s.limit ≤ m) ∧ s.max = m ∧ s.inFlight = s.slots.length

/-- The bounds hold in `s'`, and a slot granted since `s` was granted in its turn. -/
def Keeps (s' : HostThrottle) : Prop := s'.Within m ∧
  (s'.slots.length ≤ s.slots.length ∨ s'.pausedUntil ≤ s'.clock ∧ s.inFlight < s.limit)

variable {s task m} (inv : s.Within m)

include inv

theorem keeps_enter (ended : s.pausedUntil ≤ s.clock) : s.Keeps m (s.enter task) := by
  unfold enter
  split
  · rename_i room
    refine ⟨⟨inv.1, inv.2.1, congrArg (· + 1) inv.2.2⟩, .inr ⟨ended, ?_⟩⟩
    exact (Nat.cast_lt.mpr room).trans_le (Nat.floor_le (zero_le_one.trans inv.1.1))
  · exact ⟨inv, .inl le_rfl⟩

theorem keeps_pause : s.Keeps m (s.pause task) := by
  unfold pause
  split
  · exact ⟨inv, .inl le_rfl⟩
  · rename_i ended
    exact keeps_enter inv (not_lt.mp ended)

theorem keeps_waitPause : s.Keeps m (s.waitPause task) := by
  unfold waitPause
  split
  · exact ⟨inv, .inl le_rfl⟩
  · exact keeps_pause inv

theorem keeps_step {e : Event} : s.Keeps m (s.step e) := by
  obtain ⟨⟨one, top⟩, rfl, counted⟩ := id inv
  cases e with
  | slot => exact keeps_waitPause inv
  | synced task deadline =>
    rw [step]
    split
    · have kept : (s.answered deadline).Within s.max := by cases deadline <;> exact ⟨inv.1, inv.2⟩
      obtain ⟨within, turn⟩ := @keeps_pause _ task _ kept
      refine ⟨within, ?_⟩
      cases deadline <;> exact turn
    · exact ⟨inv, .inl le_rfl⟩
  | woke task =>
    rw [step]
    split
    · split
      · exact ⟨inv, .inl le_rfl⟩
      · rename_i past
        split
        · rename_i known
          exact keeps_enter inv (known.trans (not_lt.mp past))
        · exact keeps_pause inv
    · exact ⟨inv, .inl le_rfl⟩
  | notified task =>
    rw [step]
    split
    · exact keeps_waitPause inv
    · exact ⟨inv, .inl le_rfl⟩
  | exit task =>
    rw [step]
    split
    · rename_i mem
      have fewer := List.length_erase_of_mem mem
      exact ⟨⟨inv.1, rfl, by rw [fewer, ← counted]⟩, .inl (fewer.trans_le (Nat.sub_le _ _))⟩
    · exact ⟨inv, .inl le_rfl⟩
  | throttled seconds =>
    refine ⟨⟨?_, rfl, counted⟩, .inl le_rfl⟩
    rw [step]
    split
    · exact ⟨le_sup_left, sup_le (one.trans top) (by linarith)⟩
    · exact inv.1
  | succeeded =>
    have : 0 ≤ 1 / s.limit := by positivity
    exact ⟨⟨⟨le_inf (one.trans top) (by linarith), inf_le_left⟩, rfl, counted⟩, .inl le_rfl⟩
  | cancelled | putFailed | tick => exact ⟨⟨inv.1, rfl, counted⟩, .inl le_rfl⟩

end HostThrottle

open HostThrottle

theorem slots_granted_in_turn (maxConcurrency : Int) (shared : Bool) (events : List Event) :
    let s := play step (make maxConcurrency shared) events
    (1 ≤ s.limit ∧ s.limit ≤ (1 ⊔ maxConcurrency).toNat) ∧ s.inFlight = s.slots.length ∧
    ∀ e, s.slots.length < (s.step e).slots.length →
      (s.step e).pausedUntil ≤ (s.step e).clock ∧ s.inFlight < s.limit := by
  have start : (make maxConcurrency shared).Within (1 ⊔ maxConcurrency).toNat := by
    refine ⟨⟨Nat.one_le_cast.mpr ?_, le_rfl⟩, rfl, rfl⟩
    omega
  have inv : (play step (make maxConcurrency shared) events).Within (1 ⊔ maxConcurrency).toNat :=
    List.foldlRecOn (motive := (Within · _)) events step start fun _ inv _ _ => (keeps_step inv).1
  exact ⟨inv.1, inv.2.2, fun _ granted => (keeps_step inv).2.resolve_left granted.not_ge⟩

def pausedRun : List Event := [.slot 1, .throttled 5, .exit 1, .slot 2, .tick 5]

theorem paused_slot_granted :
    let s := play step (make 2 false) pausedRun
    (s.step (.woke 2)).slots = [2] ∧ s.inFlight < s.limit := by
  refine ⟨by decide +kernel, ?_⟩
  exact ((slots_granted_in_turn 2 false pausedRun).2.2 (.woke 2) (by decide +kernel)).2

end TmVault.Graph
