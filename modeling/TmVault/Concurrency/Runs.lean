import Mathlib.Data.List.Basic
import Mathlib.Order.Basic

namespace TmVault.Concurrency

universe u v

section

variable {State : Type u} {Event : Type v} (step : State → Event → State)

def play (s : State) (events : List Event) : State := events.foldl step s

/-- Each event is one that `P` lets happen in the state it finds. -/
def Along (P : State → Event → Prop) : State → List Event → Prop
  | _, [] => True
  | s, e :: events => P s e ∧ Along P (step s e) events

variable {step} {P Q : State → Event → Prop} {s : State} {events : List Event} {Inv : State → Prop}

theorem Along.mono (weaken : ∀ s e, P s e → Q s e) (h : Along step P s events) :
    Along step Q s events := by
  induction events generalizing s with
  | nil => trivial
  | cons e events ih => exact ⟨weaken s e h.1, ih h.2⟩

theorem Along.weaken (imp : ∀ s e, Inv s → P s e → Q s e)
    (keeps : ∀ s e, Inv s → P s e → Inv (step s e)) (inv : Inv s) (h : Along step P s events) :
    Along step Q s events := by
  induction events generalizing s with
  | nil => trivial
  | cons e events ih => exact ⟨imp s e inv h.1, ih (keeps s e inv h.1) h.2⟩

theorem Along.invariant (keeps : ∀ s e, Inv s → P s e → Inv (step s e))
    (inv : Inv s) (h : Along step P s events) : Inv (play step s events) := by
  induction events generalizing s with
  | nil => exact inv
  | cons e events ih => exact ih (keeps s e inv h.1) h.2

theorem Along.related {R : State → State → Prop} (refl : ∀ s, R s s)
    (trans : ∀ {a b c}, R a b → R b c → R a c)
    (keeps : ∀ s e, Inv s → P s e → Inv (step s e) ∧ R s (step s e)) (inv : Inv s)
    (h : Along step P s events) : R s (play step s events) := by
  induction events generalizing s with
  | nil => exact refl s
  | cons e events ih =>
    obtain ⟨inv', related⟩ := keeps s e inv h.1
    exact trans related (ih inv' h.2)

end

/-! Rows fenced by a stamp that only moves up. A ticket is cut from a row and carries its stamp; it is
good for as long as the row has not moved past it. -/

universe w

/-- What a ticket copies from a row: the stamp, and the data that is fixed while the stamp is. -/
structure Fenced (Stamp : Type u) (Detail : Type v) where
  stamp : Stamp
  detail : Detail

structure Ticket (Key : Type w) (Stamp : Type u) (Detail : Type v) extends Fenced Stamp Detail where
  key : Key

variable {Key : Type w} {Stamp : Type u} {Detail : Type v} [PartialOrder Stamp]

/-- A row moves up in its order, and its data changes only together with its stamp. -/
structure Moves (a b : Fenced Stamp Detail) : Prop where
  stamp_le : a.stamp ≤ b.stamp
  detail_eq : a.stamp = b.stamp → a.detail = b.detail

def Evolves (rows rows' : Key → Option (Fenced Stamp Detail)) : Prop :=
  ∀ k a, rows k = some a → ∃ b, rows' k = some b ∧ Moves a b

def Issued (rows : Key → Option (Fenced Stamp Detail)) (t : Ticket Key Stamp Detail) : Prop :=
  ∃ b, rows t.key = some b ∧ Moves t.toFenced b

def Current (rows : Key → Option (Fenced Stamp Detail)) (t : Ticket Key Stamp Detail) : Prop :=
  ∃ b, rows t.key = some b ∧ t.stamp = b.stamp

variable {a b c : Fenced Stamp Detail} {rows rows' rows'' : Key → Option (Fenced Stamp Detail)}
  {t t' : Ticket Key Stamp Detail}

theorem Moves.refl (a : Fenced Stamp Detail) : Moves a a := ⟨le_rfl, fun _ => rfl⟩

theorem Moves.trans (ab : Moves a b) (bc : Moves b c) : Moves a c where
  stamp_le := ab.stamp_le.trans bc.stamp_le
  detail_eq same := by
    have first : a.stamp = b.stamp := le_antisymm ab.stamp_le (same ▸ bc.stamp_le)
    exact (ab.detail_eq first).trans (bc.detail_eq (first.symm.trans same))

theorem Moves.of_lt (h : a.stamp < b.stamp) : Moves a b := ⟨h.le, fun same => absurd same h.ne⟩

theorem Evolves.refl (rows : Key → Option (Fenced Stamp Detail)) : Evolves rows rows :=
  fun _ a h => ⟨a, h, .refl a⟩

theorem Evolves.trans (h : Evolves rows rows') (h' : Evolves rows' rows'') :
    Evolves rows rows'' := by
  intro k a ha
  obtain ⟨b, hb, ab⟩ := h k a ha
  obtain ⟨c, hc, bc⟩ := h' k b hb
  exact ⟨c, hc, ab.trans bc⟩

theorem Issued.evolves (h : Issued rows t) (e : Evolves rows rows') : Issued rows' t := by
  obtain ⟨b, hb, tb⟩ := h
  obtain ⟨c, hc, bc⟩ := e t.key b hb
  exact ⟨c, hc, tb.trans bc⟩

theorem Issued.unique (h : Issued rows t) (h' : Issued rows t') (current : Current rows t)
    (current' : Current rows t') (same : t.key = t'.key) : t = t' := by
  have detail {t : Ticket Key Stamp Detail} {b : Fenced Stamp Detail} (h : Issued rows t)
      (hb : rows t.key = some b) (stamp : t.stamp = b.stamp) : t.toFenced = b := by
    obtain ⟨c, hc, tc⟩ := h
    rw [hb] at hc
    cases hc
    cases t
    cases b
    exact congrArg₂ Fenced.mk stamp (tc.detail_eq stamp)
  obtain ⟨b, hb, stamp⟩ := current
  obtain ⟨b', hb', stamp'⟩ := current'
  have rowsEq : some b = some b' := by rw [← hb, ← hb', same]
  cases rowsEq
  have fenced : t.toFenced = t'.toFenced := (detail h hb stamp).trans (detail h' hb' stamp').symm
  cases t
  cases t'
  cases same
  cases fenced
  rfl

end TmVault.Concurrency
