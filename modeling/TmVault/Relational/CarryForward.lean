import TmVault.Relational.Lineage

namespace TmVault.Relational.Layering

universe u v

variable {Row : Type u} {Key : Type v} (L : Layering Row Key)

def Stratified : Prop := ∀ r p, L.key r = L.key p → (L.parent r = none ↔ L.parent p = none)

section

variable {L} {own base cls : Set Row} {hidden : Set Key} {r : Row}

theorem mem_view_inter (keys : ∀ r p, L.key r = L.key p → (r ∈ cls ↔ p ∈ cls))
    (parents : ∀ r p, r ∈ cls → L.parent r = some (L.key p) → p ∈ cls) (hr : r ∈ cls) :
    r ∈ L.view (own ∩ cls) (base ∩ cls) hidden ↔ r ∈ L.view own base hidden := by
  have owns : ∀ {rows : Set Row} {k}, (∀ p, L.key p = k → p ∈ cls) →
      (L.Owns (rows ∩ cls) k ↔ L.Owns rows k) := by
    intro rows k hk
    constructor
    · exact fun h => h.mono Set.inter_subset_left
    · rintro ⟨p, hp, hkey⟩
      exact ⟨p, ⟨hp, hk p hkey⟩, hkey⟩
  have self : ∀ p, L.key p = L.key r → p ∈ cls := fun p hp => (keys p r hp).mpr hr
  have above : ∀ k, L.parent r = some k → ∀ p, L.key p = k → p ∈ cls := by
    rintro k hk p rfl
    exact parents r p hr hk
  constructor
  · rintro (h | h)
    · exact .inl h.1
    · exact .inr ⟨h.mem.1, h.inherits, fun ho => h.notOwned ((owns self).mpr ho), h.notHidden,
        fun k hk => (h.parent k hk).imp (owns (above k hk)).mp
          (And.imp_left (owns (above k hk)).mp)⟩
  · rintro (h | h)
    · exact .inl ⟨h, hr⟩
    · exact .inr ⟨⟨h.mem, hr⟩, h.inherits, fun ho => h.notOwned ((owns self).mp ho), h.notHidden,
        fun k hk => (h.parent k hk).imp (owns (above k hk)).mpr
          (And.imp_left (owns (above k hk)).mpr)⟩

end

section

variable (drop : Row → Prop) (own : Set Row)

def carryRoots (inventory : Set Row) : Set Row :=
  own ∪ {r | r ∈ inventory ∧ L.parent r = none ∧ ¬ drop r ∧ ¬ L.Owns own (L.key r)}

def carry (inventory : Set Row) : Set Row :=
  L.carryRoots drop own inventory ∪
    {r | r ∈ inventory ∧ (∃ k, L.parent r = some k ∧ L.Owns (L.carryRoots drop own inventory) k) ∧
      ¬ L.Owns (L.carryRoots drop own inventory) (L.key r)}

def overlayHides (base shown : Set Row) : Set Key :=
  {k | ∃ b ∈ base, L.key b = k ∧ ¬ L.Owns own (L.key b) ∧
    (b ∉ shown ∨ (L.parent b = none ∧ drop b))}

def overlayRows (prior base : Set Row) (hidden : Set Key) : Set Row :=
  own ∪ {r | r ∈ prior ∧ (∃ k, L.parent r = some k ∧ L.Owns (L.view own base hidden) k) ∧
    ¬ L.Owns own (L.key r)}

end

variable {L} {drop : Row → Prop} {own prior base shown inventory : Set Row} {r : Row} {k : Key}

theorem carry_self (h : r ∈ own) : r ∈ L.carry drop own inventory := .inl (.inl h)

theorem owns_root (h : L.Owns own k) {c : Row} (hc : L.parent c = some k) :
    ∃ p ∈ own, L.key p = k ∧ L.parent p = none := by
  obtain ⟨p, hp, rfl⟩ := h
  exact ⟨p, hp, rfl, L.parent_root hc⟩

theorem owns_carryRoots_child (stratified : L.Stratified) (hr : L.parent r ≠ none) :
    L.Owns (L.carryRoots drop own inventory) (L.key r) ↔ L.Owns own (L.key r) := by
  constructor
  · rintro ⟨p, hp | ⟨-, root, -⟩, hkey⟩
    · exact ⟨p, hp, hkey⟩
    · exact absurd ((stratified p r hkey).mp root) hr
  · exact fun h => h.mono Set.subset_union_left

variable (keyed : L.Keyed base) (inherits : ∀ b ∈ base, L.inherits b) (sub : shown ⊆ base)
  (apart : ∀ b ∈ shown, ¬ L.Owns prior (L.key b)) {hidden : Set Key} {own' : Set Row}

include keyed in
theorem notMem_overlayHides (hr : r ∈ shown) (hb : r ∈ base)
    (kept : ¬ (L.parent r = none ∧ drop r)) : L.key r ∉ L.overlayHides drop own base shown := by
  rintro ⟨b, hb', hkey, -, hidden⟩
  obtain rfl := keyed b hb' r hb hkey
  exact hidden.elim (· hr) kept

theorem shown_of_notMem_overlayHides (hb : r ∈ base) (hr : ¬ L.Owns own (L.key r))
    (h : L.key r ∉ L.overlayHides drop own base shown) :
    r ∈ shown ∧ ¬ (L.parent r = none ∧ drop r) := by
  by_contra hn
  refine h ⟨r, hb, rfl, hr, ?_⟩
  by_cases hs : r ∈ shown
  · exact .inr (by simpa [hs] using hn)
  · exact .inl hs

include keyed inherits sub apart

theorem root_mem_view_iff (root : L.parent r = none) (hown : own' = L.carryRoots drop own prior) :
    r ∈ L.view own' base (L.overlayHides drop own' base shown) ↔
      r ∈ L.carryRoots drop own (prior ∪ shown) := by
  subst hown
  constructor
  · rintro ((h | ⟨hp, hrest⟩) | h)
    · exact .inl h
    · exact .inr ⟨.inl hp, hrest⟩
    · obtain ⟨hs, kept⟩ := shown_of_notMem_overlayHides h.mem h.notOwned h.notHidden
      exact .inr ⟨.inr hs, root, fun hd => kept ⟨root, hd⟩,
        fun ho => h.notOwned (ho.mono Set.subset_union_left)⟩
  · rintro (h | ⟨hp | hs, -, kept, fresh⟩)
    · exact .inl (.inl h)
    · exact .inl (.inr ⟨hp, root, kept, fresh⟩)
    · refine .inr ⟨sub hs, inherits r (sub hs), ?_, ?_, fun k hk => ?_⟩
      · rintro ⟨p, hp | ⟨hp, -⟩, hkey⟩
        · exact fresh ⟨p, hp, hkey⟩
        · exact apart r hs ⟨p, hp, hkey⟩
      · exact notMem_overlayHides keyed hs (sub hs) fun hd => kept hd.2
      · exact absurd (root.symm.trans hk) nofun

theorem owns_view_iff {c : Row} (hc : L.parent c = some k)
    (hown : own' = L.carryRoots drop own prior) :
    L.Owns (L.view own' base (L.overlayHides drop own' base shown)) k ↔
      L.Owns (L.carryRoots drop own (prior ∪ shown)) k := by
  constructor
  · intro h
    obtain ⟨p, hp, hkey, root⟩ := owns_root h hc
    exact ⟨p, (root_mem_view_iff keyed inherits sub apart root hown).mp hp, hkey⟩
  · intro h
    obtain ⟨p, hp, hkey, root⟩ := owns_root h hc
    exact ⟨p, (root_mem_view_iff keyed inherits sub apart root hown).mpr hp, hkey⟩

omit keyed inherits sub apart in
theorem overlayRows_root (root : L.parent r = none) :
    r ∈ L.overlayRows own prior base hidden ↔ r ∈ own := by
  constructor
  · rintro (h | ⟨-, ⟨k, hk, -⟩, -⟩)
    · exact h
    · exact absurd (root.symm.trans hk) nofun
  · exact Or.inl

omit keyed inherits sub apart in
theorem owns_overlayRows_root (stratified : L.Stratified) (root : L.parent r = none) :
    L.Owns (L.overlayRows own prior base hidden) (L.key r) ↔ L.Owns own (L.key r) := by
  constructor
  · rintro ⟨p, hp, hkey⟩
    exact ⟨p, (overlayRows_root ((stratified p r hkey).mpr root)).mp hp, hkey⟩
  · exact fun h => h.mono Set.subset_union_left

omit keyed inherits sub apart in
theorem root_mem_view_overlayRows (stratified : L.Stratified) (root : L.parent r = none) :
    r ∈ L.view (L.overlayRows own prior base hidden) base hidden ↔ r ∈ L.view own base hidden := by
  have parent : ∀ k, L.parent r ≠ some k := fun k hk => absurd (root.symm.trans hk) nofun
  constructor
  · rintro (h | h)
    · exact .inl ((overlayRows_root root).mp h)
    · refine .inr ⟨h.mem, h.inherits, ?_, h.notHidden, fun k hk => absurd hk (parent k)⟩
      exact fun ho => h.notOwned ((owns_overlayRows_root stratified root).mpr ho)
  · rintro (h | h)
    · exact .inl (.inl h)
    · refine .inr ⟨h.mem, h.inherits, ?_, h.notHidden, fun k hk => absurd hk (parent k)⟩
      exact fun ho => h.notOwned ((owns_overlayRows_root stratified root).mp ho)

omit keyed inherits sub apart in
theorem root_mem_carry (root : L.parent r = none) :
    r ∈ L.carry drop own inventory ↔ r ∈ L.carryRoots drop own inventory := by
  constructor
  · rintro (h | ⟨-, ⟨k, hk, -⟩, -⟩)
    · exact h
    · exact absurd (root.symm.trans hk) nofun
  · exact Or.inl

theorem child_mem_view_iff (stratified : L.Stratified) (hk : L.parent r = some k)
    (hown : own' = L.carryRoots drop own prior)
    (hhidden : hidden = L.overlayHides drop own' base shown) :
    r ∈ L.view (L.overlayRows own' prior base hidden) base hidden ↔
      r ∈ L.carry drop own (prior ∪ shown) := by
  have child : L.parent r ≠ none := by
    rw [hk]
    exact nofun
  have held : L.Owns (L.view own' base hidden) k ↔
      L.Owns (L.carryRoots drop own (prior ∪ shown)) k := by
    rw [hhidden]
    exact owns_view_iff keyed inherits sub apart hk hown
  have fresh : L.Owns own' (L.key r) ↔ L.Owns own (L.key r) := by
    rw [hown]
    exact owns_carryRoots_child stratified child
  have fresh' : L.Owns (L.carryRoots drop own (prior ∪ shown)) (L.key r) ↔ L.Owns own (L.key r) :=
    owns_carryRoots_child stratified child
  constructor
  · rintro ((h | ⟨hp, ⟨k', hk', ho⟩, hn⟩) | h)
    · rw [hown] at h
      rcases h with h | ⟨-, root, -⟩
      · exact carry_self h
      · exact absurd root child
    · cases hk.symm.trans hk'
      exact .inr ⟨.inl hp, ⟨k, hk, held.mp ho⟩, fun h => hn (fresh.mpr (fresh'.mp h))⟩
    · have notOwned : ¬ L.Owns own' (L.key r) := fun ho => h.notOwned (ho.mono Set.subset_union_left)
      have hs := (shown_of_notMem_overlayHides h.mem notOwned (hhidden ▸ h.notHidden)).1
      refine .inr ⟨.inr hs, ⟨k, hk, held.mp ?_⟩, fun ho => notOwned (fresh.mpr (fresh'.mp ho))⟩
      -- the root is the overlay's own or shows through as well
      rcases h.parent k hk with ho | ⟨hb, hn⟩
      · obtain ⟨p, hp, hkey, root⟩ := owns_root ho hk
        exact ⟨p, .inl ((overlayRows_root root).mp hp), hkey⟩
      · by_cases ho : L.Owns own' k
        · exact ho.mono fun p hp => .inl hp
        · obtain ⟨p, hp, hkey, root⟩ := owns_root hb hk
          subst hkey
          exact ⟨p, .inr ⟨hp, inherits p hp, ho, hn, fun k' hk' =>
            absurd (root.symm.trans hk') nofun⟩, rfl⟩
  · rintro (h | ⟨hp | hs, ⟨k', hk', ho⟩, hn⟩)
    · rcases h with h | ⟨-, root, -⟩
      · exact .inl (.inl (hown ▸ .inl h))
      · exact absurd root child
    · cases hk.symm.trans hk'
      exact .inl (.inr ⟨hp, ⟨k, hk, held.mpr ho⟩, fun h => hn (fresh'.mpr (fresh.mp h))⟩)
    · cases hk.symm.trans hk'
      refine .inr ⟨sub hs, inherits r (sub hs), ?_, ?_, fun k' hk'' => ?_⟩
      · rintro ⟨p, hp | ⟨hp, -⟩, hkey⟩
        · exact hn (fresh'.mpr (fresh.mp ⟨p, hp, hkey⟩))
        · exact apart r hs ⟨p, hp, hkey⟩
      · rw [hhidden]
        exact notMem_overlayHides keyed hs (sub hs) fun h => child h.1
      · cases hk.symm.trans hk''
        obtain ⟨p, hp | hp, hkey⟩ := held.mpr ho
        · exact .inl ⟨p, .inl hp, hkey⟩
        · exact .inr ⟨⟨p, hp.mem, hkey⟩, hkey ▸ hp.notHidden⟩

theorem view_overlayRows (stratified : L.Stratified) (hown : own' = L.carryRoots drop own prior)
    (hhidden : hidden = L.overlayHides drop own' base shown) :
    L.view (L.overlayRows own' prior base hidden) base hidden =
      L.carry drop own (prior ∪ shown) := by
  ext r
  cases hk : L.parent r with
  | some k => exact child_mem_view_iff keyed inherits sub apart stratified hk hown hhidden
  | none =>
    rw [root_mem_view_overlayRows stratified hk, root_mem_carry hk, hhidden]
    exact root_mem_view_iff keyed inherits sub apart hk hown

end TmVault.Relational.Layering
