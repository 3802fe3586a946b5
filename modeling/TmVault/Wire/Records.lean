import Mathlib.Algebra.Ring.Nat
import TmVault.Relational.Table

/-! Byte strings cut into records, each behind its length in four bytes, big-endian. -/

namespace TmVault.Wire

open List

abbrev Bytes := List UInt8

section

def be32 (n : Nat) : Bytes :=
  [.ofNat (n / 2 ^ 24), .ofNat (n / 2 ^ 16), .ofNat (n / 2 ^ 8), .ofNat n]

def unpack32 (bs : Bytes) : Nat := bs.foldl (fun n b => n * 256 + b.toNat) 0

variable {n : Nat} {bs : Bytes}

@[simp] theorem length_be32 : (be32 n).length = 4 := rfl

theorem unpack32_be32 (h : n < 2 ^ 32) : unpack32 (be32 n) = n := by
  simp only [unpack32, be32, foldl_cons, foldl_nil, UInt8.toNat_ofNat']
  omega

theorem be32_injective (hm : m < 2 ^ 32) (hn : n < 2 ^ 32) (h : be32 m = be32 n) : m = n := by
  rw [← unpack32_be32 hm, h, unpack32_be32 hn]

theorem unpack32_four (h : bs.length = 4) : unpack32 bs < 2 ^ 32 ∧ be32 (unpack32 bs) = bs := by
  match bs, h with
  | [a, b, c, d], _ =>
    have ha := a.toNat_lt
    have hb := b.toNat_lt
    have hc := c.toNat_lt
    have hd := d.toNat_lt
    simp only [unpack32, be32, foldl_cons, foldl_nil]
    refine ⟨by omega, ?_⟩
    have byte {x : UInt8} {m : Nat} (hm : m % 256 = x.toNat) : UInt8.ofNat m = x := by
      apply UInt8.toNat_inj.mp
      rw [UInt8.toNat_ofNat', hm]
    rw [byte (x := a) (by omega), byte (x := b) (by omega), byte (x := c) (by omega),
      byte (x := d) (by omega)]

end

def record (body : Bytes) : Bytes := be32 body.length ++ body

def records (bodies : List Bytes) : Bytes := (bodies.map record).flatten

def splitRecord (lo : Nat) (bs : Bytes) : Option (Bytes × Bytes) :=
  let n := unpack32 (bs.take 4)
  if 4 ≤ bs.length ∧ lo ≤ n ∧ 4 + n ≤ bs.length then some ((bs.drop 4).take n, bs.drop (4 + n))
  else none

structure Splits (lo : Nat) (bs : Bytes) (bodies : List Bytes) (tail : Bytes) : Prop where
  eq : bs = records bodies ++ tail
  sized : ∀ body ∈ bodies, lo ≤ body.length ∧ body.length < 2 ^ 32
  stops : splitRecord lo tail = none

section

variable {lo : Nat} {bs body tail : Bytes} {bodies : List Bytes}

theorem splitRecord_record (hlo : lo ≤ body.length) (hhi : body.length < 2 ^ 32) :
    splitRecord lo (record body ++ rest) = some (body, rest) := by
  have size : unpack32 ((record body ++ rest).take 4) = body.length := by
    rw [record, append_assoc, take_left' length_be32, unpack32_be32 hhi]
  have room : 4 + body.length ≤ (record body ++ rest).length := by simp [record]
  simp only [splitRecord, size]
  rw [if_pos ⟨by omega, hlo, room⟩, record, append_assoc, drop_left' length_be32,
    take_left' rfl, ← append_assoc, drop_left' (by simp)]

theorem splitRecord_eq_some : splitRecord lo bs = some (body, rest) ↔
      lo ≤ body.length ∧ body.length < 2 ^ 32 ∧ bs = record body ++ rest := by
  constructor
  · intro h
    simp only [splitRecord] at h
    split at h
    · rename_i fits
      obtain ⟨four, hlo, room⟩ := fits
      cases h
      have head : (bs.take 4).length = 4 := by simp [four]
      obtain ⟨small, packed⟩ := unpack32_four head
      have size : ((bs.drop 4).take (unpack32 (bs.take 4))).length = unpack32 (bs.take 4) := by
        rw [length_take, length_drop]
        omega
      refine ⟨by omega, by omega, ?_⟩
      rw [record, size, packed, append_assoc, ← drop_drop, take_append_drop, take_append_drop]
    · cases h
  · rintro ⟨hlo, hhi, rfl⟩
    exact splitRecord_record hlo hhi

theorem splitRecord_eq_none : splitRecord lo bs = none ↔
    bs.length < 4 ∨ unpack32 (bs.take 4) < lo ∨ bs.length < 4 + unpack32 (bs.take 4) := by
  simp only [splitRecord]
  split
  · rename_i fits
    simp only [reduceCtorEq, false_iff]
    omega
  · rename_i bad
    simp only [true_iff]
    omega

@[simp] theorem records_cons : records (body :: bodies) = record body ++ records bodies := by
  rw [records, records, map_cons, flatten_cons]

theorem Splits.cons (hlo : lo ≤ body.length) (hhi : body.length < 2 ^ 32)
    (h : Splits lo bs bodies tail) : Splits lo (record body ++ bs) (body :: bodies) tail where
  eq := by rw [h.eq, records_cons, append_assoc]
  sized := forall_mem_cons.mpr ⟨⟨hlo, hhi⟩, h.sized⟩
  stops := h.stops

theorem exists_splits (lo : Nat) (bs : Bytes) : ∃ bodies tail, Splits lo bs bodies tail := by
  induction hn : bs.length using Nat.strongRecOn generalizing bs with
  | ind n ih =>
    cases h : splitRecord lo bs with
    | none => exact ⟨[], bs, rfl, fun _ hb => absurd hb not_mem_nil, h⟩
    | some cut =>
      obtain ⟨body, rest⟩ := cut
      obtain ⟨hlo, hhi, rfl⟩ := splitRecord_eq_some.mp h
      have shorter : rest.length < n := by
        rw [← hn, record, append_assoc, length_append, length_append, length_be32]
        omega
      obtain ⟨bodies, tail, splits⟩ := ih rest.length shorter rest rfl
      exact ⟨body :: bodies, tail, splits.cons hlo hhi⟩

end

open Relational

universe u v w

variable {Error : Type u} {Item : Type v} {Value : Type w}

def numbered (f : Nat → Item → Bool → Except Error Value) :
    Nat → List Item → Except Error (List Value)
  | _, [] => .ok []
  | index, item :: items => do
    let value ← f index item items.isEmpty
    let values ← numbered f (index + 1) items
    return value :: values

variable {f : Nat → Item → Bool → Except Error Value} {items : List Item} {values : List Value}
  {item : Item} {index : Nat}

theorem numbered_eq_ok : numbered f index items = .ok values ↔
    values.length = items.length ∧ ∀ k item value, items[k]? = some item → values[k]? = some value →
      f (index + k) item (k + 1 = items.length) = .ok value := by
  induction items generalizing index values with
  | nil =>
    constructor
    · rintro ⟨⟩
      simp
    · rintro ⟨none, -⟩
      rw [List.eq_nil_of_length_eq_zero none]
      rfl
  | cons item items ih =>
    have last : decide (0 + 1 = (item :: items).length) = items.isEmpty := by
      cases items <;> simp
    have position (k : Nat) : index + (k + 1) = index + 1 + k := by omega
    have length (k : Nat) :
        decide (k + 1 + 1 = (item :: items).length) = decide (k + 1 = items.length) := by simp
    constructor
    · intro h
      obtain ⟨value, first, rest, hrest, h⟩ := of_bind₂ h
      cases h
      obtain ⟨size, all⟩ := ih.mp hrest
      refine ⟨by simp [size], fun k a b ha hb => ?_⟩
      cases k with
      | zero =>
        cases ha
        cases hb
        rw [last]
        exact first
      | succ k =>
        rw [position, length]
        exact all k a b ha hb
    · rintro ⟨size, all⟩
      cases values with
      | nil => cases size
      | cons value rest =>
        have first := all 0 item value rfl rfl
        rw [last] at first
        refine bind_eq_ok.mpr ⟨value, first, bind_eq_ok.mpr ⟨rest, ih.mpr ⟨?_, ?_⟩, rfl⟩⟩
        · simpa using size
        · intro k a b ha hb
          have step := all (k + 1) a b ha hb
          rw [position, length] at step
          exact step

theorem foldlM_numbered {Source Byte : Type w} {g : Source → Item}
    {f : Nat → Item → Bool → Except Error (List Byte)} (sources : List Source) (index last : Nat)
    (out : List Byte) (hlast : index + sources.length = last + 1) :
    (sources.zipIdx index).foldlM (fun out entry => do
      let value ← f entry.2 (g entry.1) (entry.2 = last)
      return out ++ value) out =
    (numbered f index (sources.map g)).map (out ++ ·.flatten) := by
  induction sources generalizing index out with
  | nil => simp [numbered, Except.map, pure, Except.pure]
  | cons source sources ih =>
    rw [List.length_cons] at hlast
    have final : decide (index = last) = (sources.map g).isEmpty := by
      cases sources with
      | nil => simpa using hlast
      | cons => simp only [List.length_cons] at hlast; simp; omega
    rw [List.zipIdx_cons, List.foldlM_cons, List.map_cons, numbered, final]
    cases f index (g source) (sources.map g).isEmpty with
    | error e => rfl
    | ok value =>
      have rest := ih (index + 1) (out ++ value) (by omega)
      simp only [bind, Except.bind, pure, Except.pure] at rest ⊢
      rw [rest]
      cases numbered f (index + 1) (sources.map g) with
      | error e => rfl
      | ok rest => simp [Except.map]

end TmVault.Wire
