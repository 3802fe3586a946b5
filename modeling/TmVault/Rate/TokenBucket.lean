import Mathlib.Algebra.BigOperators.Group.List.Basic
import Mathlib.Tactic.Linarith

/-! A bucket that holds at most `burst` and is refilled at `rate`, and the log of what was taken from
it: pairs of a time and an amount, in any order. -/

namespace TmVault.Rate

def spent (log : List (ℚ × ℚ)) (a z : ℚ) : ℚ :=
  ((log.filter fun e => a ≤ e.1 ∧ e.1 ≤ z).map Prod.snd).sum

def refill (rate burst last tokens now : ℚ) : ℚ := min burst (tokens + max 0 (now - last) * rate)

variable {rate burst now last tokens balance a z : ℚ} {log : List (ℚ × ℚ)}

@[simp] theorem spent_cons :
    spent (e :: log) a z = (if a ≤ e.1 ∧ e.1 ≤ z then e.2 else 0) + spent log a z := by
  rw [spent, spent, List.filter_cons]
  by_cases h : a ≤ e.1 ∧ e.1 ≤ z
  · simp [h]
  · simp [h]

theorem spent_eq_zero (h : ∀ e ∈ log, e.1 < a) : spent log a z = 0 := by
  have none_left : log.filter (fun e => a ≤ e.1 ∧ e.1 ≤ z) = [] := by
    rw [List.filter_eq_nil_iff]
    intro e he
    simpa using fun ha : a ≤ e.1 => absurd ha (not_le.2 (h e he))
  rw [spent, none_left, List.map_nil, List.sum_nil]

/-- The log keeps to the rate: in no span was more taken than a full bucket and what came in. -/
def Bounded (rate burst : ℚ) (log : List (ℚ × ℚ)) : Prop :=
  ∀ a z, a ≤ z → spent log a z ≤ burst + rate * (z - a)

/-- A bucket with `balance` at the time `now`: what has been taken since any time, and what is left,
came out of a full bucket and the inflow since. -/
structure Fits (rate burst now balance : ℚ) (log : List (ℚ × ℚ)) : Prop where
  le_burst : balance ≤ burst
  nonneg : 0 ≤ balance
  past : ∀ e ∈ log, e.1 ≤ now
  since : ∀ a, a ≤ now → spent log a now + balance ≤ burst + rate * (now - a)
  bounded : Bounded rate burst log

theorem Fits.full (hr : 0 ≤ rate) (hb : 0 ≤ burst) (now : ℚ) : Fits rate burst now burst [] where
  le_burst := le_rfl
  nonneg := hb
  past := by simp
  since a ha := by
    have := mul_nonneg hr (sub_nonneg.2 ha)
    simpa [spent] using this
  bounded a z haz := by
    have := mul_nonneg hr (sub_nonneg.2 haz)
    simpa [spent] using add_nonneg hb this

theorem spent_of_past (past : ∀ e ∈ log, e.1 ≤ now) (h : now ≤ z) : spent log a z = spent log a now := by
  rw [spent, spent]
  congr 2
  apply List.filter_congr
  intro e he
  simp [past e he, (past e he).trans h]

theorem Fits.wait (h : Fits rate burst now balance log) (hr : 0 ≤ rate)
    (later : now ≤ now') (nonneg : 0 ≤ balance') (le_burst : balance' ≤ burst)
    (inflow : balance' ≤ balance + rate * (now' - now)) : Fits rate burst now' balance' log where
  le_burst := le_burst
  nonneg := nonneg
  past e he := (h.past e he).trans later
  bounded := h.bounded
  since a ha := by
    rcases le_or_gt a now with old | new
    · have := h.since a old
      rw [spent_of_past h.past later]
      linarith
    · rw [spent_eq_zero fun e he => (h.past e he).trans_lt new, zero_add]
      have := mul_nonneg hr (sub_nonneg.2 ha)
      linarith

section

variable (h : Fits rate burst last tokens log) (hr : 0 ≤ rate) (later : last ≤ now)

include h hr later

theorem Fits.refill : Fits rate burst now (refill rate burst last tokens now) log := by
  have inflow : 0 ≤ max 0 (now - last) * rate := mul_nonneg (le_max_left _ _) hr
  refine h.wait hr later ?_ (min_le_left _ _) ((min_le_right _ _).trans ?_)
  · exact le_min (h.nonneg.trans h.le_burst) (add_nonneg h.nonneg inflow)
  · rw [max_eq_right (sub_nonneg.2 later), mul_comm]

theorem Fits.forget (long : burst ≤ rate * (now - last)) : Fits rate burst now burst log := by
  refine h.wait hr later (h.nonneg.trans h.le_burst) le_rfl ?_
  linarith [h.nonneg]

end

theorem Fits.spend (h : Fits rate burst now balance log) (hr : 0 ≤ rate) (pos : 0 ≤ cost)
    (enough : cost ≤ balance) : Fits rate burst now (balance - cost) ((now, cost) :: log) where
  le_burst := (sub_le_self _ pos).trans h.le_burst
  nonneg := sub_nonneg.2 enough
  past := by
    simpa using h.past
  since a ha := by
    have := h.since a ha
    rw [spent_cons, if_pos ⟨ha, le_rfl⟩]
    linarith
  bounded a z haz := by
    rw [spent_cons]
    split
    case isTrue inside =>
      have := h.since a inside.1
      have grown := mul_le_mul_of_nonneg_left (sub_le_sub_right inside.2 a) hr
      rw [spent_of_past h.past inside.2]
      simp only at this grown
      linarith
    case isFalse =>
      rw [zero_add]
      exact h.bounded a z haz

end TmVault.Rate
