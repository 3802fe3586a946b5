import Mathlib.Algebra.Order.Ring.Rat
import Mathlib.Data.List.Nodup

namespace TmVault.Redis

open List

universe u

structure Expiring (Value : Type u) where
  value : Value
  deadline : ℚ

def valueD {Value : Type u} (slot : Option (Expiring Value)) (empty : Value) : Value :=
  slot.elim empty Expiring.value

section

variable {Value : Type u} {now : ℚ} {slot : Option (Expiring Value)}

def live (now : ℚ) (slot : Option (Expiring Value)) : Option (Expiring Value) :=
  slot.filter (now ≤ ·.deadline)

theorem live_eq_some : live now slot = some e ↔ slot = some e ∧ now ≤ e.deadline := by
  rw [live, Option.filter_eq_some_iff, decide_eq_true_eq]

end

@[ext]
structure ZSet (Member : Type u) where
  entries : List (Member × ℚ) := []
  nodup : (entries.map Prod.fst).Nodup := by simp

namespace ZSet

variable {Member : Type u} [DecidableEq Member] {z : ZSet Member} {m : Member} {s now : ℚ}
  {p : Member × ℚ → Bool}

def card (z : ZSet Member) : Nat := z.entries.length

def score (z : ZSet Member) (m : Member) : Option ℚ :=
  (z.entries.find? (·.1 = m)).map Prod.snd

def keep (z : ZSet Member) (p : Member × ℚ → Bool) : ZSet Member where
  entries := z.entries.filter p
  nodup := z.nodup.sublist (filter_sublist.map Prod.fst)

def remove (z : ZSet Member) (m : Member) : ZSet Member := z.keep (·.1 ≠ m)

def add (z : ZSet Member) (s : ℚ) (m : Member) : ZSet Member where
  entries := (m, s) :: (z.remove m).entries
  nodup := by
    rw [map_cons, nodup_cons]
    refine ⟨?_, (z.remove m).nodup⟩
    simp [remove, keep]

def purge (z : ZSet Member) (now : ℚ) : ZSet Member := z.keep (now < ·.2)

def lowest (z : ZSet Member) : Option ℚ := (z.entries.map Prod.snd).min?

theorem score_eq_some : z.score m = some s ↔ (m, s) ∈ z.entries := by
  rw [score, Option.map_eq_some_iff]
  constructor
  · rintro ⟨e, he, rfl⟩
    have same : e.1 = m := by simpa using find?_some he
    exact same ▸ mem_of_find?_eq_some he
  · intro h
    obtain ⟨e, he⟩ := Option.isSome_iff_exists.1
      (find?_isSome.2 ⟨(m, s), h, by simp⟩ : (z.entries.find? (·.1 = m)).isSome)
    have same : e.1 = m := by simpa using find?_some he
    have eq := inj_on_of_nodup_map z.nodup (mem_of_find?_eq_some he) h same
    exact ⟨e, he, by rw [eq]⟩

theorem score_keep : (z.keep p).score m = (z.score m).filter fun s => p (m, s) := by
  ext s
  rw [Option.filter_eq_some_iff, score_eq_some, score_eq_some]
  exact mem_filter

@[simp]
theorem score_remove_self : (z.remove m).score m = none := by
  simp [remove, score_keep]

theorem score_remove_of_ne (h : j ≠ m) : (z.remove m).score j = z.score j := by
  rw [remove, score_keep]
  cases z.score j <;> simp [h]

@[simp]
theorem score_add_self : (z.add s m).score m = some s :=
  score_eq_some.2 mem_cons_self

theorem score_add_of_ne (h : j ≠ m) : (z.add s m).score j = z.score j := by
  rw [← score_remove_of_ne (z := z) h]
  simp [score, add, Ne.symm h]

theorem score_purge : (z.purge now).score m = (z.score m).filter (now < ·) := score_keep

omit [DecidableEq Member] in
theorem card_keep_le : (z.keep p).card ≤ z.card := length_filter_le _ _

theorem card_add_le : (z.add s m).card ≤ z.card + 1 := Nat.succ_le_succ card_keep_le

omit [DecidableEq Member] in
theorem purge_purge (h : now ≤ now') : (z.purge now).purge now' = z.purge now' := by
  ext1
  simp only [purge, keep, filter_filter]
  apply filter_congr
  intro e _
  simpa using fun later : now' < e.2 => h.trans_lt later

theorem purge_remove : (z.remove m).purge now = (z.purge now).remove m := by
  ext1
  simp only [purge, remove, keep, filter_filter, Bool.and_comm]

theorem card_purge_add_of_mem (held : z.score m = some old) (h : now < old) :
    ((z.add s m).purge now).card ≤ (z.purge now).card := by
  have mem : (m, old) ∈ (z.purge now).entries :=
    mem_filter.2 ⟨score_eq_some.1 held, by simpa using h⟩
  have rest : ((z.purge now).remove m).card + 1 ≤ (z.purge now).card := by
    have split : (z.purge now).card = _ :=
      length_eq_length_filter_add (l := (z.purge now).entries) (·.1 ≠ m)
    have own : 0 < ((z.purge now).entries.filter fun e => !decide (e.1 ≠ m)).length :=
      length_pos_of_mem (mem_filter.2 ⟨mem, by simp⟩)
    have others : ((z.purge now).remove m).card =
        ((z.purge now).entries.filter fun e => decide (e.1 ≠ m)).length := rfl
    omega
  rw [← purge_remove] at rest
  refine Nat.le_trans ?_ rest
  by_cases h' : now < s
  · simp [card, purge, keep, add, h']
  · simp [card, purge, keep, add, h']

end ZSet

end TmVault.Redis
