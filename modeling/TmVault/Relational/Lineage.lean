import Mathlib.Data.Set.Insert
import Mathlib.Tactic.Simps.Basic

namespace TmVault.Relational

open Set

universe u v w

/-- The natural key of a row of a layered inventory, whether a layer inherits it from the one below,
and the row it hangs on. That row is inheritable and hangs on nothing itself, so visibility takes one
hop. -/
structure Layering (Row : Type u) (Key : Type v) where
  key : Row → Key
  inherits : Row → Prop
  parent : Row → Option Key
  parent_inherits : ∀ {r p}, parent r = some (key p) → inherits p
  parent_root : ∀ {r p}, parent r = some (key p) → parent p = none

namespace Layering

variable {Row : Type u} {Key : Type v} (L : Layering Row Key)

def Owns (rows : Set Row) (k : Key) : Prop := ∃ r ∈ rows, L.key r = k

def Keyed (rows : Set Row) : Prop := ∀ r ∈ rows, ∀ r' ∈ rows, L.key r = L.key r' → r = r'

/-- A base row shows through a layer that neither owns nor hides it, provided what it hangs on is
visible as well. -/
structure Shows (own base : Set Row) (hidden : Set Key) (r : Row) : Prop where
  mem : r ∈ base
  inherits : L.inherits r
  notOwned : ¬ L.Owns own (L.key r)
  notHidden : L.key r ∉ hidden
  parent : ∀ k, L.parent r = some k → L.Owns own k ∨ (L.Owns base k ∧ k ∉ hidden)

def view (own base : Set Row) (hidden : Set Key) : Set Row :=
  {r | r ∈ own ∨ L.Shows own base hidden r}

variable {L} {own base base' taken : Set Row} {hidden : Set Key} {r : Row} {k : Key}

theorem Owns.mono (h : L.Owns own k) (sub : own ⊆ base) : L.Owns base k := by
  obtain ⟨r, hr, rfl⟩ := h
  exact ⟨r, sub hr, rfl⟩

theorem Owns.of_mem (h : r ∈ own) : L.Owns own (L.key r) := ⟨r, h, rfl⟩

theorem owns_union : L.Owns (own ∪ taken) k ↔ L.Owns own k ∨ L.Owns taken k := by
  constructor
  · rintro ⟨r, hr | hr, rfl⟩
    · exact .inl (.of_mem hr)
    · exact .inr (.of_mem hr)
  · rintro (h | h)
    · exact h.mono subset_union_left
    · exact h.mono subset_union_right

@[simp] theorem view_empty_base : L.view own ∅ hidden = own := by
  ext r
  constructor
  · rintro (h | h)
    · exact h
    · exact absurd h.mem (notMem_empty r)
  · exact Or.inl

theorem Shows.of_absorb (shown : ∀ r ∈ taken, L.Shows own base hidden r)
    (h : L.Shows (own ∪ taken) base hidden r) : L.Shows own base hidden r := by
  refine ⟨h.mem, h.inherits, fun ho => h.notOwned (ho.mono subset_union_left), h.notHidden,
    fun k hk => ?_⟩
  rcases h.parent k hk with ho | hb
  · rcases owns_union.mp ho with ho | ⟨p, hp, rfl⟩
    · exact .inl ho
    · exact .inr ⟨.of_mem (shown p hp).mem, (shown p hp).notHidden⟩
  · exact .inr hb

theorem Shows.notMem_absorbed (h : L.Shows (own ∪ taken) base hidden r) : r ∉ taken :=
  fun ht => h.notOwned (.of_mem (.inr ht))

theorem view_absorb (keyed : L.Keyed base) (shown : ∀ r ∈ taken, L.Shows own base hidden r) :
    L.view (own ∪ taken) base hidden = L.view own base hidden := by
  ext r
  constructor
  · rintro ((h | h) | h)
    · exact .inl h
    · exact .inr (shown r h)
    · exact .inr (h.of_absorb shown)
  · rintro (h | h)
    · exact .inl (.inl h)
    · by_cases ht : r ∈ taken
      · exact .inl (.inr ht)
      · refine .inr ⟨h.mem, h.inherits, fun ho => ?_, h.notHidden, fun k hk => ?_⟩
        · rcases owns_union.mp ho with ho | ⟨p, hp, hkey⟩
          · exact h.notOwned ho
          · exact ht (keyed p (shown p hp).mem r h.mem hkey ▸ hp)
        · exact (h.parent k hk).imp_left (·.mono subset_union_left)

/-- A layer moves onto another base without changing its view once every row that shows is in the
new base and the new base's other inheritable rows are hidden. -/
theorem view_rehang (keyed : L.Keyed base') (shared : ∀ r, L.Shows own base hidden r → r ∈ base') :
    L.view own base' (hidden ∪
        {k | ∃ r ∈ base', L.inherits r ∧ L.key r = k ∧ ¬ L.Owns (L.view own base hidden) k}) =
      L.view own base hidden := by
  ext r
  constructor
  · rintro (h | h)
    · exact .inl h
    · have notHidden := h.notHidden
      simp only [mem_union, mem_ofPred_eq, not_or, not_exists, not_and, not_not]
        at notHidden
      obtain ⟨v, hv | hv, hkey⟩ := notHidden.2 r h.mem h.inherits rfl
      · exact absurd ⟨v, hv, hkey⟩ h.notOwned
      · exact .inr (keyed v (shared v hv) r h.mem hkey ▸ hv)
  · rintro (h | h)
    · exact .inl h
    · have visible : ∀ p, L.Shows own base hidden p → L.key p ∉ (hidden ∪
          {k | ∃ r ∈ base', L.inherits r ∧ L.key r = k ∧ ¬ L.Owns (L.view own base hidden) k}) := by
        rintro p hp (hh | ⟨q, -, -, hq, hn⟩)
        · exact hp.notHidden hh
        · exact hn (.of_mem (.inr hp))
      refine .inr ⟨shared r h, h.inherits, h.notOwned, visible r h, fun k hk => ?_⟩
      by_cases ho : L.Owns own k
      · exact .inl ho
      · obtain ⟨⟨p, hp, rfl⟩, hh⟩ := (h.parent k hk).resolve_left ho
        -- the parent hangs on nothing, so it shows and is carried over like any other row
        have shows : L.Shows own base hidden p :=
          ⟨hp, L.parent_inherits hk, ho, hh, fun k' hk' => by
            rw [L.parent_root hk] at hk'
            cases hk'⟩
        exact .inr ⟨.of_mem (shared p shows), visible p shows⟩

theorem Keyed.absorb (keyed : L.Keyed own) (keyedBase : L.Keyed base)
    (shown : ∀ r ∈ taken, L.Shows own base hidden r) : L.Keyed (own ∪ taken) := by
  rintro r (hr | hr) r' (hr' | hr') hkey
  · exact keyed r hr r' hr' hkey
  · exact absurd ⟨r, hr, hkey⟩ (shown r' hr').notOwned
  · exact absurd ⟨r', hr', hkey.symm⟩ (shown r hr).notOwned
  · exact keyedBase r (shown r hr).mem r' (shown r' hr').mem hkey

end Layering

/-- Restore points that own rows, point at another restore point, or overlay one. -/
@[ext] structure Lineage (Node : Type w) (Row : Type u) (Key : Type v) where
  root : Node → Option Node
  base : Node → Option Node
  rows : Node → Set Row
  hidden : Node → Set Key

namespace Lineage

variable {Node : Type w} {Row : Type u} {Key : Type v}

section

variable (L : Layering Row Key) (g : Lineage Node Row Key)

def target (s : Node) : Node := (g.root s).getD s

def baseRows (t : Node) : Set Row := {r | ∃ b, g.base t = some b ∧ r ∈ g.rows b}

def inventory (s : Node) : Set Row :=
  L.view (g.rows (g.target s)) (g.baseRows (g.target s)) (g.hidden (g.target s))

/-- Both kinds of reference are one hop, pointers own nothing and only overlays hide rows. -/
structure Flat : Prop where
  pointer : ∀ {s r}, g.root s = some r → g.root r = none ∧ g.base s = none
  overlay : ∀ {s b}, g.base s = some b → g.root b = none ∧ g.base b = none
  pointer_rows : ∀ {s r}, g.root s = some r → g.rows s = ∅
  full_hidden : ∀ {s}, g.base s = none → g.hidden s = ∅
  keyed : ∀ s, L.Keyed (g.rows s)

end

section

variable [DecidableEq Node] (L : Layering Row Key) (g : Lineage Node Row Key)

/-- The heir `h` of `d` becomes what `d` was and every other pointer at `d` follows it. -/
@[simps] def bequeath (d h : Node) : Lineage Node Row Key where
  root s := if s = h then none else if g.root s = some d then some h else g.root s
  base s := if s = h then g.base d else g.base s
  rows s := if s = h then g.rows d else g.rows s
  hidden s := if s = h then g.hidden d else g.hidden s

@[simps] def absorb (o : Node) (taken : Set Row) : Lineage Node Row Key where
  root := g.root
  base := g.base
  rows s := if s = o then g.rows o ∪ taken else g.rows s
  hidden := g.hidden

@[simps] def detach (o : Node) : Lineage Node Row Key where
  root := g.root
  base s := if s = o then none else g.base s
  rows := g.rows
  hidden s := if s = o then ∅ else g.hidden s

@[simps] def rehang (o b : Node) : Lineage Node Row Key where
  root := g.root
  base s := if s = o then some b else g.base s
  rows := g.rows
  hidden s := if s = o then g.hidden o ∪ {k | ∃ r ∈ g.rows b, L.inherits r ∧ L.key r = k ∧
    ¬ L.Owns (g.inventory L o) k} else g.hidden s

end

section

variable {L : Layering Row Key} {g : Lineage Node Row Key} {d h o b s t : Node} {taken : Set Row}
  {g' : Lineage Node Row Key}

theorem target_of_root (hs : g.root s = some t) : g.target s = t := by
  rw [target, hs, Option.getD_some]

theorem target_of_full (hs : g.root s = none) : g.target s = s := by
  rw [target, hs, Option.getD_none]

theorem baseRows_of_base (ht : g.base t = some b) : g.baseRows t = g.rows b := by
  ext r
  constructor
  · rintro ⟨b', hb', hr⟩
    rw [ht, Option.some_inj] at hb'
    exact hb' ▸ hr
  · exact fun hr => ⟨b, ht, hr⟩

theorem baseRows_of_full (ht : g.base t = none) : g.baseRows t = ∅ := by
  ext r
  constructor
  · rintro ⟨b, hb, -⟩
    rw [ht] at hb
    cases hb
  · exact fun hr => absurd hr (notMem_empty r)

namespace Flat

variable (flat : g.Flat L)

include flat

theorem root_target (s : Node) : g.root (g.target s) = none := by
  cases hs : g.root s with
  | none => rw [target_of_full hs, hs]
  | some r => rw [target_of_root hs, (flat.pointer hs).1]

theorem root_of_overlay (ho : g.base o = some b) : g.root o = none := by
  cases hr : g.root o with
  | none => rfl
  | some r =>
    have := (flat.pointer hr).2
    rw [ho] at this
    cases this

theorem keyed_baseRows (t : Node) : L.Keyed (g.baseRows t) := by
  cases ht : g.base t with
  | none =>
    rw [baseRows_of_full ht]
    exact fun r hr => absurd hr (notMem_empty r)
  | some b =>
    rw [baseRows_of_base ht]
    exact flat.keyed b

theorem base_ne_overlay (ho : g.base o = some b) (hs : g.base s = some t) : t ≠ o := by
  rintro rfl
  have := (flat.overlay hs).2
  rw [ho] at this
  cases this

theorem base_ne_pointer (hh : g.root h = some d) (hs : g.base s = some t) : t ≠ h := by
  rintro rfl
  have := (flat.overlay hs).1
  rw [hh] at this
  cases this

theorem target_ne_pointer (hh : g.root h = some d) (s : Node) : g.target s ≠ h := by
  intro ht
  have := flat.root_target s
  rw [ht, hh] at this
  cases this

end Flat

theorem inventory_congr {s' : Node} (rows : g'.rows (g'.target s') = g.rows (g.target s))
    (base : g'.baseRows (g'.target s') = g.baseRows (g.target s))
    (hidden : g'.hidden (g'.target s') = g.hidden (g.target s)) :
    g'.inventory L s' = g.inventory L s := by
  rw [inventory, inventory, rows, base, hidden]

theorem baseRows_congr {t' : Node} (base : g'.base t' = g.base t)
    (rows : ∀ b, g.base t = some b → g'.rows b = g.rows b) : g'.baseRows t' = g.baseRows t := by
  cases ht : g.base t with
  | none => rw [baseRows_of_full ht, baseRows_of_full (base.trans ht)]
  | some b => rw [baseRows_of_base ht, baseRows_of_base (base.trans ht), rows b ht]

theorem inventory_of_closed (keep : Set Node)
    (root : ∀ s ∈ keep, g'.root s = g.root s) (base : ∀ s ∈ keep, g'.base s = g.base s)
    (rows : ∀ s ∈ keep, g'.rows s = g.rows s) (hidden : ∀ s ∈ keep, g'.hidden s = g.hidden s)
    (root_mem : ∀ s ∈ keep, ∀ r, g.root s = some r → r ∈ keep)
    (base_mem : ∀ s ∈ keep, ∀ b, g.base s = some b → b ∈ keep) (hs : s ∈ keep) :
    g'.inventory L s = g.inventory L s := by
  have target : g'.target s = g.target s := by rw [Lineage.target, Lineage.target, root s hs]
  have ht : g.target s ∈ keep := by
    cases hr : g.root s with
    | none => rwa [target_of_full hr]
    | some r =>
      rw [target_of_root hr]
      exact root_mem s hs r hr
  refine inventory_congr ?_ (baseRows_congr ?_ fun b hb => rows b (base_mem _ ht b hb)) ?_ <;>
    rw [target]
  · exact rows _ ht
  · exact base _ ht
  · exact hidden _ ht

variable [DecidableEq Node]

section

variable (flat : g.Flat L) (hh : g.root h = some d)

include flat hh

theorem target_bequeath (s : Node) :
    (g.bequeath d h).target s = if g.target s = d ∧ s ≠ d then h else g.target s := by
  by_cases hs : s = h
  · subst hs
    have hd : s ≠ d := by
      rintro rfl
      rw [(flat.pointer hh).1] at hh
      cases hh
    simp [target, bequeath, hh, hd]
  · cases hr : g.root s with
    | none => simp [target, bequeath, hs, hr]
    | some r =>
      have hd : r = d → s ≠ d := by
        rintro rfl rfl
        rw [(flat.pointer hr).1] at hr
        cases hr
      by_cases hrd : r = d
      · simp [target, bequeath, hs, hr, hrd, hd hrd]
      · simp [target, bequeath, hs, hr, hrd]

theorem inventory_bequeath (s : Node) : (g.bequeath d h).inventory L s = g.inventory L s := by
  have base : ∀ t t', (g.bequeath d h).base t' = g.base t →
      (g.bequeath d h).baseRows t' = g.baseRows t := by
    intro t t' ht
    refine baseRows_congr ht fun b hb => ?_
    exact if_neg (flat.base_ne_pointer hh hb)
  by_cases hs : g.target s = d ∧ s ≠ d
  · have target : (g.bequeath d h).target s = h := by rw [target_bequeath flat hh, if_pos hs]
    refine inventory_congr ?_ (base _ _ ?_) ?_ <;> rw [target, hs.1] <;> exact if_pos rfl
  · have target : (g.bequeath d h).target s = g.target s := by
      rw [target_bequeath flat hh, if_neg hs]
    refine inventory_congr ?_ (base _ _ ?_) ?_ <;> rw [target] <;>
      exact if_neg (flat.target_ne_pointer hh s)

theorem Flat.bequeath : (g.bequeath d h).Flat L := by
  have root_none : ∀ {t}, g.root t = none → (g.bequeath d h).root t = none := by
    intro t ht
    simp [ht]
  have base_eq : ∀ {t}, t ≠ h → (g.bequeath d h).base t = g.base t := fun ht => if_neg ht
  refine ⟨fun {s r} hs => ?_, fun {s b} hs => ?_, fun {s r} hs => ?_, fun {s} hs => ?_, fun s => ?_⟩
  · have hsh : s ≠ h := by
      rintro rfl
      simp at hs
    by_cases hd : g.root s = some d
    · have hr : h = r := by simpa [hsh, hd] using hs
      subst hr
      exact ⟨by simp, (base_eq hsh).trans (flat.pointer hd).2⟩
    · have hr : g.root s = some r := by simpa [hsh, hd] using hs
      exact ⟨root_none (flat.pointer hr).1, (base_eq hsh).trans (flat.pointer hr).2⟩
  · obtain ⟨t, ht⟩ : ∃ t, g.base t = some b := by
      by_cases hsh : s = h
      · exact ⟨d, by simpa [hsh] using hs⟩
      · exact ⟨s, by simpa [hsh] using hs⟩
    exact ⟨root_none (flat.overlay ht).1,
      (base_eq (flat.base_ne_pointer hh ht)).trans (flat.overlay ht).2⟩
  · by_cases hsh : s = h
    · simp [hsh] at hs
    · have hr : ∃ r', g.root s = some r' := by
        by_cases hd : g.root s = some d
        · exact ⟨d, hd⟩
        · exact ⟨r, by simpa [hsh, hd] using hs⟩
      obtain ⟨r', hr'⟩ := hr
      exact (if_neg hsh).trans (flat.pointer_rows hr')
  · by_cases hsh : s = h
    · simp only [Lineage.bequeath, hsh, if_true] at hs ⊢
      exact flat.full_hidden hs
    · simp only [Lineage.bequeath, hsh, if_false] at hs ⊢
      exact flat.full_hidden hs
  · by_cases hsh : s = h
    · simp only [Lineage.bequeath, hsh, if_true]
      exact flat.keyed d
    · simp only [Lineage.bequeath, hsh, if_false]
      exact flat.keyed s

end

theorem inventory_of_overlay_view (g' : Lineage Node Row Key) (flat : g.Flat L)
    (ho : g.base o = some b) (root : g'.root = g.root)
    (base : ∀ t, t ≠ o → g'.base t = g.base t) (rows : ∀ t, t ≠ o → g'.rows t = g.rows t)
    (hidden : ∀ t, t ≠ o → g'.hidden t = g.hidden t)
    (view : L.view (g'.rows o) (g'.baseRows o) (g'.hidden o) =
      L.view (g.rows o) (g.baseRows o) (g.hidden o)) (s : Node) :
    g'.inventory L s = g.inventory L s := by
  have target : g'.target s = g.target s := by rw [Lineage.target, Lineage.target, root]
  by_cases hs : g.target s = o
  · rw [inventory, inventory, target, hs, view]
  · refine inventory_congr ?_ (baseRows_congr ?_ fun c hc => rows c ?_) ?_
    · rw [target, rows _ hs]
    · rw [target, base _ hs]
    · exact flat.base_ne_overlay ho hc
    · rw [target, hidden _ hs]

section

variable (flat : g.Flat L) (ho : g.base o = some b)

include flat ho

theorem inventory_absorb
    (shown : ∀ r ∈ taken, L.Shows (g.rows o) (g.baseRows o) (g.hidden o) r) (s : Node) :
    (g.absorb o taken).inventory L s = g.inventory L s := by
  refine inventory_of_overlay_view (g.absorb o taken) flat ho rfl (fun _ _ => rfl)
    (fun _ ht => if_neg ht) (fun _ _ => rfl) ?_ s
  have base : (g.absorb o taken).baseRows o = g.baseRows o :=
    baseRows_congr rfl fun c hc => if_neg (flat.base_ne_overlay ho hc)
  have rows : (g.absorb o taken).rows o = g.rows o ∪ taken := if_pos rfl
  rw [base, rows]
  exact Layering.view_absorb (flat.keyed_baseRows o) shown

theorem shows_absorb (shown : ∀ r ∈ taken, L.Shows (g.rows o) (g.rows b) (g.hidden o) r) {r : Row}
    (h : L.Shows ((g.absorb o taken).rows o) ((g.absorb o taken).baseRows o)
      ((g.absorb o taken).hidden o) r) :
    L.Shows (g.rows o) (g.rows b) (g.hidden o) r ∧ r ∉ taken := by
  have rows : (g.absorb o taken).rows o = g.rows o ∪ taken := if_pos rfl
  have base : (g.absorb o taken).rows b = g.rows b := if_neg (flat.base_ne_overlay ho ho)
  rw [baseRows_of_base (show (g.absorb o taken).base o = some b from ho), rows, base] at h
  exact ⟨h.of_absorb shown, h.notMem_absorbed⟩

theorem Flat.absorb (shown : ∀ r ∈ taken, L.Shows (g.rows o) (g.baseRows o) (g.hidden o) r) :
    (g.absorb o taken).Flat L := by
  refine ⟨flat.pointer, flat.overlay, fun {s r} hs => ?_, flat.full_hidden, fun s => ?_⟩
  · have hso : s ≠ o := by
      rintro rfl
      have := flat.root_of_overlay ho
      rw [show g.root s = some r from hs] at this
      cases this
    exact (if_neg hso).trans (flat.pointer_rows hs)
  · by_cases hs : s = o
    · simp only [Lineage.absorb, hs, if_true]
      exact (flat.keyed o).absorb (flat.keyed_baseRows o) shown
    · simp only [Lineage.absorb, hs, if_false]
      exact flat.keyed s

theorem inventory_detach
    (none_shown : ∀ r, ¬ L.Shows (g.rows o) (g.baseRows o) (g.hidden o) r) (s : Node) :
    (g.detach o).inventory L s = g.inventory L s := by
  refine inventory_of_overlay_view (g.detach o) flat ho rfl (fun _ ht => if_neg ht)
    (fun _ _ => rfl) (fun _ ht => if_neg ht) ?_ s
  rw [baseRows_of_full (show (g.detach o).base o = none from if_pos rfl), Layering.view_empty_base]
  ext r
  exact ⟨.inl, fun h => h.resolve_right (none_shown r)⟩

end

theorem Flat.detach (flat : g.Flat L) : (g.detach o).Flat L := by
  have base_none : ∀ {t}, g.base t = none → (g.detach o).base t = none := by
    intro t ht
    simp [ht]
  have base_some : ∀ {s t}, (g.detach o).base s = some t → g.base s = some t := by
    intro s t hs
    by_cases hso : s = o
    · simp [hso] at hs
    · simpa [hso] using hs
  refine ⟨fun hs => ⟨(flat.pointer hs).1, base_none (flat.pointer hs).2⟩,
    fun hs => ⟨(flat.overlay (base_some hs)).1, base_none (flat.overlay (base_some hs)).2⟩,
    flat.pointer_rows, fun {s} hs => ?_, flat.keyed⟩
  by_cases hso : s = o
  · exact if_pos hso
  · refine (if_neg hso).trans (flat.full_hidden ?_)
    simpa [hso] using hs

theorem inventory_rehang {b' : Node} (flat : g.Flat L) (ho : g.base o = some b)
    (shared : ∀ r, L.Shows (g.rows o) (g.baseRows o) (g.hidden o) r → r ∈ g.rows b') (s : Node) :
    (g.rehang L o b').inventory L s = g.inventory L s := by
  refine inventory_of_overlay_view (g.rehang L o b') flat ho rfl (fun _ ht => if_neg ht)
    (fun _ _ => rfl) (fun _ ht => if_neg ht) ?_ s
  have hidden : (g.rehang L o b').hidden o = _ := if_pos rfl
  rw [baseRows_of_base (show (g.rehang L o b').base o = some b' from if_pos rfl), hidden,
    inventory, target_of_full (flat.root_of_overlay ho)]
  exact Layering.view_rehang (flat.keyed b') shared

theorem Flat.rehang {b' : Node} (flat : g.Flat L) (ho : g.base o = some b) (hne : b' ≠ o)
    (root : g.root b' = none) (base : g.base b' = none) : (g.rehang L o b').Flat L := by
  have base_of_ne : ∀ {t}, t ≠ o → (g.rehang L o b').base t = g.base t := fun ht => if_neg ht
  refine ⟨fun {s r} hs => ⟨(flat.pointer hs).1, ?_⟩, fun {s t} hs => ?_, flat.pointer_rows,
    fun {s} hs => ?_, flat.keyed⟩
  · refine (base_of_ne ?_).trans (flat.pointer hs).2
    rintro rfl
    exact absurd ((flat.root_of_overlay ho).symm.trans hs) (by simp)
  · by_cases hso : s = o
    · have ht : b' = t := by simpa [Lineage.rehang, hso] using hs
      subst ht
      exact ⟨root, (base_of_ne hne).trans base⟩
    · have ht : g.base s = some t := by simpa [Lineage.rehang, hso] using hs
      exact ⟨(flat.overlay ht).1,
        (base_of_ne (flat.base_ne_overlay ho ht)).trans (flat.overlay ht).2⟩
  · by_cases hso : s = o
    · simp [Lineage.rehang, hso] at hs
    · refine (if_neg hso).trans (flat.full_hidden ?_)
      simpa [Lineage.rehang, hso] using hs

end

end Lineage

end TmVault.Relational
