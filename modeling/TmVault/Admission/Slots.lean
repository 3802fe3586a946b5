import Mathlib.Data.List.Induction
import TmVault.Admission.Requests

namespace TmVault.Admission

open Redis Relational List

universe u v w x

variable {Bucket : Type u} {Slot : Type v} {Group : Type w} {Token : Type x} [DecidableEq Bucket]
  [DecidableEq Slot] [DecidableEq Group] [DecidableEq Token]
  {requests : Token → Request Bucket Slot Group} {s s' : Coordinator Bucket Slot Group Token}
  {now clock : ℚ} {r : Request Bucket Slot Group} {token t : Token} {key : Slot}

def Request.slotKeys (r : Request Bucket Slot Group) : List Slot := r.slots.map SlotSpec.key

def heldUntil (s : Coordinator Bucket Slot Group Token) (now : ℚ) (key : Slot) (token : Token) :
    Option ℚ :=
  ((s.slot key).score token).filter (now < ·)

structure Leased (requests : Token → Request Bucket Slot Group) (clock : ℚ)
    (s : Coordinator Bucket Slot Group Token) : Prop where
  outlived : ∀ key e t score, s.slots key = some e → e.value.score t = some score →
    score ≤ e.deadline
  leased : ∀ key e t score, s.slots key = some e → e.value.score t = some score →
    score ≤ clock + (requests t).lease

def Together (requests : Token → Request Bucket Slot Group) (clock : ℚ)
    (s : Coordinator Bucket Slot Group Token) : Prop :=
  ∀ t, ∀ k ∈ (requests t).slotKeys, ∀ k' ∈ (requests t).slotKeys, ∀ now, clock ≤ now →
    heldUntil s now k t = heldUntil s now k' t

section

omit [DecidableEq Bucket] [DecidableEq Slot] [DecidableEq Group]

theorem heldUntil_evict (leased : Leased requests clock s) (h : now ≤ now') :
    heldUntil (s.evict now) now' key t = heldUntil s now' key t := by
  rw [heldUntil, heldUntil, Coordinator.slot, Coordinator.slot, Coordinator.evict]
  dsimp only
  cases found : s.slots key with
  | none => rfl
  | some e =>
    by_cases alive : now ≤ e.deadline
    · rw [live_eq_some.2 ⟨rfl, alive⟩]
    · have gone : live now (some e) = none := by simpa [live] using alive
      rw [gone, valueD, valueD, Option.elim_none, Option.elim_some]
      change none = _
      symm
      rw [Option.filter_eq_none_iff]
      intro score hs
      have := leased.outlived key e t score found hs
      simp only [decide_eq_true_eq, not_lt]
      linarith

theorem heldUntil_thins (thins : Thins now s s') (h : now ≤ now') :
    heldUntil s' now' key t = heldUntil s now' key t := by
  rw [heldUntil, heldUntil]
  rcases thins.slot key with same | purged
  · rw [same]
  · rw [purged, ZSet.score_purge, Option.filter_filter]
    congr 1
    funext score
    simpa using fun later : now' < score => h.trans_lt later

section

variable (leased : Leased requests clock s)

include leased

theorem Leased.evict (now : ℚ) : Leased requests clock (s.evict now) where
  outlived key e t score found := leased.outlived key e t score (live_eq_some.1 found).1
  leased key e t score found := leased.leased key e t score (live_eq_some.1 found).1

theorem Leased.later (h : clock ≤ now) : Leased requests now s where
  outlived := leased.outlived
  leased key e t score found hs := by
    have := leased.leased key e t score found hs
    linarith

theorem Leased.of_old (old : ∀ key e t score, s'.slots key = some e → e.value.score t = some score →
      ∃ e', s.slots key = some e' ∧ e'.value.score t = some score ∧ e'.deadline = e.deadline) :
    Leased requests clock s' := by
  refine ⟨fun key e t score found hs => ?_, fun key e t score found hs => ?_⟩
  · obtain ⟨e', found', hs', same⟩ := old key e t score found hs
    exact same ▸ leased.outlived key e' t score found' hs'
  · obtain ⟨e', found', hs', -⟩ := old key e t score found hs
    exact leased.leased key e' t score found' hs'

theorem Leased.thins (thins : Thins now s s') : Leased requests clock s' := by
  refine leased.of_old fun key e t score found hs => ?_
  rcases thins.slots key with same | purged
  · exact ⟨e, same ▸ found, hs, rfl⟩
  · rw [purged, Option.map_eq_some_iff] at found
    obtain ⟨e', found', rfl⟩ := found
    rw [ZSet.score_purge, Option.filter_eq_some_iff] at hs
    exact ⟨e', found', hs.1, rfl⟩

end

end

def stamp (s : Coordinator Bucket Slot Group Token) (now : ℚ) (r : Request Bucket Slot Group)
    (token : Token) (key : Slot) : Option (Expiring (ZSet Token)) :=
  if key ∈ r.slotKeys then some ⟨(s.slot key).add (now + r.lease) token, now + ⌈r.lease + 60⌉⟩
  else s.slots key

def unstamp (s : Coordinator Bucket Slot Group Token) (r : Request Bucket Slot Group)
    (token : Token) (key : Slot) : Option (Expiring (ZSet Token)) :=
  if key ∈ r.slotKeys then (s.slots key).map fun e => { e with value := e.value.remove token }
  else s.slots key

section

omit [DecidableEq Bucket] [DecidableEq Group]

theorem slot_stamp (slots : s'.slots = stamp s now r token) (h : key ∈ r.slotKeys) :
    s'.slot key = (s.slot key).add (now + r.lease) token := by
  rw [Coordinator.slot, slots, stamp, if_pos h]
  rfl

theorem slot_unstamp (slots : s'.slots = unstamp s r token) (h : key ∈ r.slotKeys) :
    s'.slot key = (s.slot key).remove token := by
  rw [Coordinator.slot, slots, unstamp, if_pos h, Coordinator.slot]
  cases s.slots key <;> rfl

omit [DecidableEq Slot] [DecidableEq Token] in
theorem slot_congr (same : s'.slots key = s.slots key) : s'.slot key = s.slot key := by
  rw [Coordinator.slot, same, Coordinator.slot]

/-- A change of the slot sets of one request that gives its token one score and touches no other. -/
theorem Together.change (h : Together requests now s) {change : ZSet Token → ZSet Token}
    (inside : ∀ key ∈ (requests token).slotKeys, s'.slot key = change (s.slot key))
    (outside : ∀ key ∉ (requests token).slotKeys, s'.slots key = s.slots key)
    (own : ∀ z, (change z).score token = score)
    (others : ∀ z, ∀ t ≠ token, (change z).score t = z.score t) : Together requests now s' := by
  intro t k hk k' hk' now' later
  by_cases mine : t = token
  · subst mine
    rw [heldUntil, heldUntil, inside k hk, inside k' hk', own, own]
  · have same : ∀ key, heldUntil s' now' key t = heldUntil s now' key t := by
      intro key
      rw [heldUntil, heldUntil]
      by_cases h : key ∈ (requests token).slotKeys
      · rw [inside key h, others _ t mine]
      · rw [slot_congr (outside key h)]
    rw [same, same]
    exact h t k hk k' hk' now' later

theorem Together.stamp (h : Together requests now s)
    (slots : s'.slots = stamp s now (requests token) token) : Together requests now s' :=
  h.change (fun _ => slot_stamp slots) (fun _ out => by rw [slots, Admission.stamp, if_neg out])
    (fun _ => ZSet.score_add_self) fun _ _ => ZSet.score_add_of_ne

theorem Together.unstamp (h : Together requests now s)
    (slots : s'.slots = unstamp s (requests token) token) : Together requests now s' :=
  h.change (fun _ => slot_unstamp slots) (fun _ out => by rw [slots, Admission.unstamp, if_neg out])
    (fun _ => ZSet.score_remove_self) fun _ _ => ZSet.score_remove_of_ne

theorem Leased.stamp (leased : Leased requests now s)
    (near : ∀ t t', (requests t).lease ≤ (requests t').lease + 60)
    (slots : s'.slots = stamp s now (requests token) token) : Leased requests now s' := by
  have split : ∀ key e t score, s'.slots key = some e → e.value.score t = some score →
      s.slots key = some e ∨ score ≤ now + (requests t).lease ∧
        e.deadline = now + ⌈(requests token).lease + 60⌉ := by
    intro key e t score found hs
    rw [slots, Admission.stamp] at found
    split at found
    · cases found
      refine .inr ⟨?_, rfl⟩
      by_cases own : t = token
      · subst own
        rw [ZSet.score_add_self] at hs
        cases hs
        exact le_rfl
      · rw [ZSet.score_add_of_ne own, Coordinator.slot] at hs
        cases old : s.slots key with
        | none => simp [old, valueD, ZSet.score] at hs
        | some e => exact leased.leased key e t score old (by simpa [old, valueD] using hs)
    · exact .inl found
  refine ⟨fun key e t score found hs => ?_, fun key e t score found hs => ?_⟩
  · rcases split key e t score found hs with old | ⟨given, deadline⟩
    · exact leased.outlived key e t score old hs
    · have rounded := Int.le_ceil ((requests token).lease + 60)
      have := near t token
      rw [deadline]
      linarith
  · rcases split key e t score found hs with old | ⟨given, -⟩
    · exact leased.leased key e t score old hs
    · exact given

theorem Leased.unstamp (leased : Leased requests now s)
    (slots : s'.slots = unstamp s (requests token) token) : Leased requests now s' := by
  refine leased.of_old fun key e t score found hs => ?_
  rw [slots, Admission.unstamp] at found
  split at found
  · obtain ⟨e', found', rfl⟩ := Option.map_eq_some_iff.1 found
    by_cases own : t = token
    · subst own
      rw [ZSet.score_remove_self] at hs
      cases hs
    · exact ⟨e', found', by rwa [ZSet.score_remove_of_ne own] at hs, rfl⟩
  · exact ⟨e, found, hs, rfl⟩

end

structure Slotted (requests : Token → Request Bucket Slot Group) (clock : ℚ)
    (s : Coordinator Bucket Slot Group Token) : Prop where
  leased : Leased requests clock s
  together : Together requests clock s

section

omit [DecidableEq Slot] [DecidableEq Group] [DecidableEq Bucket]

theorem Slotted.evict (h : Slotted requests clock s) (later : clock ≤ now) :
    Slotted requests now (s.evict now) where
  leased := (h.leased.later later).evict now
  together t k hk k' hk' now' later' := by
    rw [heldUntil_evict h.leased later', heldUntil_evict h.leased later']
    exact h.together t k hk k' hk' now' (later.trans later')

theorem Slotted.thins (h : Slotted requests now s) (thins : Thins now s s') :
    Slotted requests now s' where
  leased := h.leased.thins thins
  together t k hk k' hk' now' later' := by
    rw [heldUntil_thins thins later', heldUntil_thins thins later']
    exact h.together t k hk k' hk' now' later'

theorem Slotted.touch [DecidableEq Bucket] (h : Slotted requests now s)
    (buckets : List (BucketSpec Bucket)) :
    Slotted requests now (s.touch now buckets) :=
  ⟨⟨h.leased.outlived, h.leased.leased⟩, h.together⟩

end

theorem slotted_exec (h : Slotted requests clock s)
    (near : ∀ t t', (requests t).lease ≤ (requests t').lease + 60) (later : clock ≤ now)
    (script : Script Bucket Token) : Slotted requests now (script.exec requests now s).1 := by
  have evicted := h.evict later
  cases script with
  | grant token =>
    have result := grant_result s now (requests token) token
    rw [Script.exec]
    generalize s.grant now (requests token) token = final at result
    cases result with
    | unread thins => exact evicted.thins thins
    | refused thins₁ thins => exact ((evicted.thins thins₁).touch _).thins thins
    | granted thins₁ thins =>
      have before := ((evicted.thins thins₁).touch _).thins thins
      exact ⟨before.leased.stamp near rfl, before.together.stamp rfl⟩
  | release token => exact ⟨evicted.leased.unstamp rfl, evicted.together.unstamp rfl⟩
  | renew token =>
    rw [Script.exec, Coordinator.renew]
    split
    · exact ⟨evicted.leased.stamp near rfl, evicted.together.stamp rfl⟩
    · exact evicted
  | cooldown key seconds =>
    exact ⟨⟨evicted.leased.outlived, evicted.leased.leased⟩, evicted.together⟩

def Within (clock : ℚ) (key : Slot) (limit : ℤ) (s : Coordinator Bucket Slot Group Token) : Prop :=
  (((s.slot key).purge clock).card : ℤ) ≤ limit

section

omit [DecidableEq Bucket] [DecidableEq Slot] [DecidableEq Group] [DecidableEq Token]

variable {limit : ℤ}

theorem Within.later (h : Within clock key limit s) (later : clock ≤ now) :
    Within now key limit s := by
  have fewer : ((s.slot key).purge now).card ≤ ((s.slot key).purge clock).card := by
    rw [← ZSet.purge_purge later]
    exact ZSet.card_keep_le
  rw [Within] at *
  omega

theorem Within.evict (h : Within clock key limit s) (nonneg : 0 ≤ limit) (now : ℚ) :
    Within clock key limit (s.evict now) := by
  rw [Within, Coordinator.slot, Coordinator.evict] at *
  dsimp only
  cases found : s.slots key with
  | none => simpa [live, valueD, ZSet.purge, ZSet.keep, ZSet.card] using nonneg
  | some e =>
    by_cases alive : now ≤ e.deadline
    · rw [live_eq_some.2 ⟨rfl, alive⟩, ← found]
      exact h
    · have gone : live now (some e) = none := by simpa [live] using alive
      rw [gone]
      simpa [valueD, ZSet.purge, ZSet.keep, ZSet.card] using nonneg

theorem Within.thins (h : Within now key limit s) (thins : Thins now s s') :
    Within now key limit s' := by
  rw [Within]
  rcases thins.slot key with same | purged
  · rw [same]
    exact h
  · rw [purged, ZSet.purge_purge le_rfl]
    exact h

theorem Within.congr (h : Within clock key limit s) (same : s'.slot key = s.slot key) :
    Within clock key limit s' := by
  rw [Within, same]
  exact h

theorem Within.touch [DecidableEq Bucket] (h : Within now key limit s)
    (buckets : List (BucketSpec Bucket)) : Within now key limit (s.touch now buckets) := h

end

section

omit [DecidableEq Bucket] [DecidableEq Group]

variable {limit : ℤ}

theorem Within.stamp (h : Within now key limit s) (slots : s'.slots = stamp s now r token)
    (room : key ∈ r.slotKeys → ((s.slot key).card : ℤ) < limit) : Within now key limit s' := by
  by_cases mine : key ∈ r.slotKeys
  · have fewer : ((s'.slot key).purge now).card ≤ (s'.slot key).card := ZSet.card_keep_le
    have added : (s'.slot key).card ≤ (s.slot key).card + 1 := by
      rw [slot_stamp slots mine]
      exact ZSet.card_add_le
    have := room mine
    rw [Within]
    omega
  · exact h.congr (slot_congr (by rw [slots, Admission.stamp, if_neg mine]))

theorem Within.restamp (h : Within now key limit s) (slots : s'.slots = Admission.stamp s now r token)
    (held : key ∈ r.slotKeys → ((s.slot key).score token).any (now < ·) = true) :
    Within now key limit s' := by
  by_cases mine : key ∈ r.slotKeys
  · obtain ⟨old, hs, future⟩ := (Option.any_eq_true _ _).1 (held mine)
    have same := ZSet.card_purge_add_of_mem (s := now + r.lease) hs (of_decide_eq_true future)
    rw [Within] at *
    rw [slot_stamp slots mine]
    omega
  · exact h.congr (slot_congr (by rw [slots, Admission.stamp, if_neg mine]))

theorem Within.unstamp (h : Within now key limit s) (slots : s'.slots = unstamp s r token) :
    Within now key limit s' := by
  by_cases mine : key ∈ r.slotKeys
  · have fewer : (((s.slot key).purge now).remove token).card ≤ ((s.slot key).purge now).card :=
      ZSet.card_keep_le
    rw [Within] at *
    rw [slot_unstamp slots mine, ZSet.purge_remove]
    omega
  · exact h.congr (slot_congr (by rw [slots, Admission.unstamp, if_neg mine]))

end

theorem within_exec (h : Within clock key limit s) (nonneg : 0 ≤ limit)
    (limits : ∀ t, ∀ slot ∈ (requests t).slots, slot.key = key → slot.limit ≤ limit)
    (later : clock ≤ now) (script : Script Bucket Token) :
    Within now key limit (script.exec requests now s).1 := by
  have evicted := (h.later later).evict nonneg now
  cases script with
  | grant token =>
    have result := grant_result s now (requests token) token
    rw [Script.exec]
    generalize s.grant now (requests token) token = final at result
    cases result with
    | unread thins => exact evicted.thins thins
    | refused thins₁ thins => exact ((evicted.thins thins₁).touch _).thins thins
    | granted thins₁ thins _ free =>
      refine (((evicted.thins thins₁).touch _).thins thins).stamp rfl fun mine => ?_
      obtain ⟨slot, hslot, rfl⟩ := mem_map.1 mine
      exact (free slot hslot).room.trans_le (limits token slot hslot rfl)
  | release token => exact evicted.unstamp rfl
  | renew token =>
    rw [Script.exec, Coordinator.renew]
    split
    case isTrue held =>
      refine evicted.restamp rfl fun mine => ?_
      obtain ⟨slot, hslot, rfl⟩ := mem_map.1 mine
      exact all_eq_true.1 held slot hslot
    case isFalse => exact evicted
  | cooldown key seconds => exact evicted

theorem run_append (calls : List (Timed Bucket Token)) (c : Timed Bucket Token) :
    run requests (calls ++ [c]) = answer requests (run requests calls) c := by
  rw [run, Concurrency.play, foldl_append, foldl_cons, foldl_nil, run, Concurrency.play]

theorem run_keeps (requests : Token → Request Bucket Slot Group)
    (P : ℚ → Coordinator Bucket Slot Group Token → Prop)
    (keeps : ∀ clock now s, P clock s → clock ≤ now → ∀ script : Script Bucket Token,
      P now (script.exec requests now s).1) (start : ∀ clock, P clock {}) (ordered : InOrder calls)
    (later : ∀ c ∈ calls, c.now ≤ now) : ∃ clock ≤ now, P clock (run requests calls).1 := by
  induction calls using List.reverseRecOn generalizing now with
  | nil => exact ⟨now, le_rfl, start now⟩
  | append_singleton calls c ih =>
    obtain ⟨before, -, apart⟩ := pairwise_append.1 ordered
    have past : ∀ d ∈ calls, d.now ≤ c.now := fun d hd => apart d hd c (mem_singleton_self c)
    obtain ⟨clock, le, kept⟩ := ih before past
    refine ⟨c.now, later c (by simp), ?_⟩
    rw [run_append]
    exact keeps clock c.now _ kept le c.script

def Holds (s : Coordinator Bucket Slot Group Token) (now : ℚ) (key : Slot) (token : Token) : Prop :=
  ∃ score, ((s.evict now).slot key).score token = some score ∧ now < score

def unexpired (s : Coordinator Bucket Slot Group Token) (now : ℚ) (key : Slot) : Nat :=
  (((s.evict now).slot key).purge now).card

omit [DecidableEq Bucket] [DecidableEq Slot] [DecidableEq Group] in
theorem slotted_empty (requests : Token → Request Bucket Slot Group) (clock : ℚ) :
    Slotted requests clock {} where
  leased := ⟨by simp, by simp⟩
  together _ _ _ _ _ _ _ := rfl

omit [DecidableEq Bucket] [DecidableEq Slot] [DecidableEq Group] in
theorem holds_iff (leased : Leased requests clock s) (key : Slot) (token : Token) :
    Holds s now key token ↔ (heldUntil s now key token).isSome := by
  rw [← heldUntil_evict leased (le_refl now), heldUntil, Option.isSome_filter, Option.any_eq_true]
  simp only [Holds, decide_eq_true_eq]

/-- With leases within a minute of each other, a token holds all the slots of its transmission or none,
and a slot set of one limit holds no more tokens than that. -/
theorem slots_whole_and_within (near : ∀ t t', (requests t).lease ≤ (requests t').lease + 60)
    {calls : List (Timed Bucket Token)} (ordered : InOrder calls) {now : ℚ}
    (later : ∀ c ∈ calls, c.now ≤ now) :
    (∀ t, (∀ slot ∈ (requests t).slots, Holds (run requests calls).1 now slot.key t) ∨
      ∀ slot ∈ (requests t).slots, ¬ Holds (run requests calls).1 now slot.key t) ∧
    (∀ key (limit : ℤ), 0 ≤ limit →
      (∀ t, ∀ slot ∈ (requests t).slots, slot.key = key → slot.limit ≤ limit) →
      (unexpired (run requests calls).1 now key : ℤ) ≤ limit) ∧
    ∀ token, ((run requests calls).1.grant now (requests token) token).2.isGranted = true →
      ∀ slot ∈ (requests token).slots,
        (unexpired ((run requests calls).1.grant now (requests token) token).1 now slot.key : ℤ) ≤
          slot.limit := by
  refine ⟨fun t => ?_, fun key limit nonneg limits => ?_, fun token granted slot hslot => ?_⟩
  · obtain ⟨clock, le, slotted⟩ := run_keeps requests (Slotted requests)
      (fun clock now s h later script => slotted_exec h near later script)
      (slotted_empty requests) ordered later
    by_cases some_held : ∃ slot ∈ (requests t).slots, Holds (run requests calls).1 now slot.key t
    · refine .inl fun slot hslot => ?_
      obtain ⟨held, hheld, holds⟩ := some_held
      rw [holds_iff slotted.leased] at holds ⊢
      rw [slotted.together t slot.key (mem_map_of_mem hslot) held.key (mem_map_of_mem hheld) now le]
      exact holds
    · exact .inr fun slot hslot holds => some_held ⟨slot, hslot, holds⟩
  · obtain ⟨clock, le, within⟩ := run_keeps requests (fun clock => Within clock key limit)
      (fun clock now s h later script => within_exec h nonneg limits later script)
      (fun clock => by simpa [Within, Coordinator.slot, valueD, ZSet.purge, ZSet.keep, ZSet.card]
        using nonneg) ordered later
    exact (within.later le).evict nonneg now
  · have result := grant_result (run requests calls).1 now (requests token) token
    generalize (run requests calls).1.grant now (requests token) token = final at result granted
    cases result with
    | unread _ not_granted => exact absurd granted (by rw [not_granted]; decide)
    | refused _ _ not_granted => exact absurd granted (by rw [not_granted]; decide)
    | @granted s₁ s₂ _ _ _ _ _ _ free =>
      have room := (free slot hslot).room
      have before : Within now slot.key slot.limit s₂ := by
        rw [Within, (free slot hslot).purged]
        exact room.le
      refine (before.stamp rfl fun _ => room).evict ?_ now
      omega

def annCalendar : VerifiedContext :=
  ⟨{ tenantId := "ann", appId := "a", workload := "calendar" }, by decide⟩

def bobCalendar : VerifiedContext :=
  ⟨{ tenantId := "bob", appId := "a", workload := "calendar" }, by decide⟩

theorem ann_holds_all : ∃ r, prepare {} [(annCalendar, 1)] 1 none = .ok r ∧
    (∀ slot ∈ r.slots, Holds (run (fun _ : Nat => r) [⟨0, .grant 0⟩]).1 10 slot.key 0) ∧
    (unexpired (run (fun _ : Nat => r) [⟨0, .grant 0⟩]).1 10 SlotKey.global : ℤ) ≤ 16 := by
  have facts : (prepare {} [(annCalendar, 1)] 1 none).toOption.any (fun r =>
      r.slots.any (fun slot =>
        ((((run (fun _ : Nat => r) [⟨0, .grant 0⟩]).1.evict 10).slot slot.key).score 0).any (10 < ·)) &&
      r.slots.all fun slot => slot.key = .global → slot.limit ≤ 16) = true := by
    decide +kernel
  obtain ⟨r, prepared, facts⟩ := (Option.any_eq_true _ _).1 facts
  rw [Bool.and_eq_true] at facts
  obtain ⟨slot, hslot, held⟩ := any_eq_true.1 facts.1
  obtain ⟨score, hs, future⟩ := (Option.any_eq_true _ _).1 held
  obtain ⟨whole, within, -⟩ := @slots_whole_and_within _ _ _ Nat _ _ _ _ (fun _ => r)
    (fun _ _ => by linarith) [⟨0, .grant 0⟩] (pairwise_singleton _ _) 10 (by simp)
  refine ⟨r, toOption_eq_some.1 prepared, ?_, within .global 16 (by decide) fun _ slot hslot => ?_⟩
  · exact (whole 0).resolve_right fun none_held =>
      none_held slot hslot ⟨score, hs, of_decide_eq_true future⟩
  · exact of_decide_eq_true (all_eq_true.1 facts.2 slot hslot)

/-- A token whose lease has run out: the next grant removes it from the set that it shares, and not
from the one that it does not. -/
theorem expired_token_left_behind : ∃ r r', prepare {} [(annCalendar, 1)] 1 none = .ok r ∧
    prepare {} [(bobCalendar, 1)] 1 none = .ok r' ∧
    (.global ∈ r.slotKeys ∧ .tenant "graph.microsoft.com" "ann" ∈ r.slotKeys) ∧
    let s := (run (fun t : Nat => if t = 0 then r else r') [⟨0, .grant 0⟩, ⟨40, .grant 1⟩]).1.evict 40
    (s.slot .global).score 0 = none ∧
      (s.slot (.tenant "graph.microsoft.com" "ann")).score 0 = some 30 := by
  have facts : (prepare {} [(annCalendar, 1)] 1 none).toOption.any (fun r =>
      (prepare {} [(bobCalendar, 1)] 1 none).toOption.any fun r' =>
        decide ((.global ∈ r.slotKeys ∧ .tenant "graph.microsoft.com" "ann" ∈ r.slotKeys) ∧
          let s := (run (fun t : Nat => if t = 0 then r else r')
            [⟨0, .grant 0⟩, ⟨40, .grant 1⟩]).1.evict 40
          (s.slot .global).score 0 = none ∧
            (s.slot (.tenant "graph.microsoft.com" "ann")).score 0 = some 30)) = true := by
    decide +kernel
  obtain ⟨r, prepared, facts⟩ := (Option.any_eq_true _ _).1 facts
  obtain ⟨r', prepared', facts⟩ := (Option.any_eq_true _ _).1 facts
  exact ⟨r, r', toOption_eq_some.1 prepared, toOption_eq_some.1 prepared', of_decide_eq_true facts⟩

end TmVault.Admission
