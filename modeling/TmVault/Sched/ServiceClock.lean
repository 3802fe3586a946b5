import Mathlib.Algebra.Order.Field.Basic
import Mathlib.Algebra.Order.Group.MinMax
import Mathlib.Tactic.Linarith
import Mathlib.Tactic.Ring

/-! Service clocks of two rival queues. A turn moves the clock of its queue on by the inverse of the
queue's weight, and goes to one whose clock is not ahead of its rival's. -/

namespace TmVault.Sched

variable {K : Type*} [Field K] {start rival weight rivalWeight : K} {turns rivalTurns : ℕ}

def clock (start weight : K) (turns : ℕ) : K := start + turns / weight

theorem clock_zero : clock start weight 0 = start := by simp [clock]

theorem clock_succ : clock start weight (turns + 1) = clock start weight turns + 1 / weight := by
  rw [clock, clock, Nat.cast_succ, add_div]
  ring

variable [LinearOrder K] [IsStrictOrderedRing K]

theorem clock_le_succ (positive : 0 < weight) :
    clock start weight turns ≤ clock start weight (turns + 1) := by
  rw [clock_succ]
  have quantum : 0 < 1 / weight := one_div_pos.2 positive
  linarith

def Leads (start rival weight rivalWeight : K) (turns rivalTurns : ℕ) : Prop :=
  clock start weight turns - clock rival rivalWeight rivalTurns ≤ max (start - rival) (1 / weight)

omit [IsStrictOrderedRing K] in
theorem leads_start : Leads start rival weight rivalWeight 0 0 := by
  rw [Leads, clock_zero, clock_zero]
  exact le_max_left _ _

theorem leads_turn (first : clock start weight turns ≤ clock rival rivalWeight rivalTurns) :
    Leads start rival weight rivalWeight (turns + 1) rivalTurns := by
  rw [Leads, clock_succ]
  apply le_max_of_le_right
  linarith

theorem Leads.rival_turn (positive : 0 < rivalWeight)
    (h : Leads start rival weight rivalWeight turns rivalTurns) :
    Leads start rival weight rivalWeight turns (rivalTurns + 1) := by
  rw [Leads] at h ⊢
  have later : clock rival rivalWeight rivalTurns ≤ clock rival rivalWeight (rivalTurns + 1) :=
    clock_le_succ positive
  linarith

section

variable (h : Leads start rival weight rivalWeight turns rivalTurns)

include h

theorem Leads.share_le :
    turns / weight - rivalTurns / rivalWeight ≤ max 0 (1 / weight - (start - rival)) := by
  have lead : turns / weight - rivalTurns / rivalWeight ≤
      max (start - rival) (1 / weight) - (start - rival) := by
    rw [Leads, clock, clock] at h
    linarith
  rwa [← max_sub_sub_right, sub_self] at lead

theorem share_abs_le (h' : Leads rival start rivalWeight weight rivalTurns turns)
    (ahead : start - rival ≤ 1 / weight) (behind : rival - start ≤ 1 / rivalWeight) :
    |turns / weight - rivalTurns / rivalWeight| ≤ 1 / weight + 1 / rivalWeight := by
  rw [Leads, max_eq_right ahead, clock, clock] at h
  rw [Leads, max_eq_right behind, clock, clock] at h'
  rw [abs_le]
  constructor
  · linarith
  · linarith

end

end TmVault.Sched
