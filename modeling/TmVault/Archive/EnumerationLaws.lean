import TmVault.Archive.Enumeration

namespace TmVault.Archive.Enumeration

open Relational Store List
open Option hiding or or_assoc

variable {s s' : Census} {key k : ScopeKey} {r r' row : Scope} {generation : Nat} {p : Page}
  {url : String} {f : Scope → Scope} {m : Membership}

theorem scope?_map (keeps : ∀ r, (f r).key = r.key) :
    (s.scopes.map f).find? (·.key = k) = (s.scope? k).map f := by
  rw [find?_map, Census.scope?]
  congr 2
  funext r
  simp [keeps]

theorem scope?_setScope (keeps : ∀ r, (f r).key = r.key) :
    (s.setScope key f).scope? k = (s.scope? k).map fun r => if r.key = key then f r else r :=
  find?_updateKey fun r _ => keeps r

theorem scope?_append : (s.scopes ++ [row]).find? (·.key = k) =
    (s.scope? k).or (if row.key = k then some row else none) := by
  rw [find?_append, Census.scope?]
  by_cases h : row.key = k <;> simp [h]

theorem key_of_scope? (h : s.scope? k = some r) : r.key = k := of_find? h

theorem mem_of_scope? (h : s.scope? k = some r) : r ∈ s.scopes := mem_of_find?_eq_some h

theorem currentScope_ok (h : currentScope s key generation = .ok row) :
    s.scope? key = some row ∧ row.generation = generation := by
  obtain ⟨found, current⟩ := filter_eq_some_iff.mp (orFail_eq_ok.mp h)
  exact ⟨found, by simpa using current⟩

def Sound (r : Scope) : Prop :=
  r.key.phase = .root → r.gap = some .locationCap → r.state = .unresolved

structure Moves (r r' : Scope) : Prop where
  key : r'.key = r.key
  generation : r.generation ≤ r'.generation
  excluded : r.state = .excluded → r'.state = .excluded ∨ r.generation < r'.generation
  sound : Sound r → Sound r'
  capped : Sound r → r.key.phase = .root → r.gap = some .locationCap → r'.gap = some .locationCap

theorem Moves.refl (r : Scope) : Moves r r := ⟨rfl, le_rfl, Or.inl, id, fun _ _ => id⟩

theorem Moves.trans (h : Moves r r') (h' : Moves r' r'') : Moves r r'' where
  key := h'.key.trans h.key
  generation := h.generation.trans h'.generation
  excluded gone := by
    rcases h.excluded gone with gone' | newer
    · exact (h'.excluded gone').imp_right h.generation.trans_lt
    · exact .inr (newer.trans_le h'.generation)
  sound sound := h'.sound (h.sound sound)
  capped sound root gap := h'.capped (h.sound sound) (h.key ▸ root) (h.capped sound root gap)

structure Grows (s s' : Census) : Prop where
  moves : ∀ k r, s.scope? k = some r → ∃ r', s'.scope? k = some r' ∧ Moves r r'
  fresh : ∀ k r', s.scope? k = none → s'.scope? k = some r' → Sound r'
  tops : (∀ r ∈ s.scopes, r.key.phase = .root → r.parent = none) →
    ∀ r' ∈ s'.scopes, r'.key.phase = .root → r'.parent = none

theorem Grows.of_eq (h : s'.scopes = s.scopes) : Grows s s' := by
  have same : ∀ k, s'.scope? k = s.scope? k := fun k => by rw [Census.scope?, Census.scope?, h]
  exact ⟨fun k r hr => ⟨r, (same k).trans hr, .refl r⟩,
    fun k r' none some => absurd ((same k).symm.trans some) (by simp [none]), fun tops => h ▸ tops⟩

def AllSound (s : Census) : Prop := ∀ k r, s.scope? k = some r → Sound r

theorem Grows.sound (grows : Grows s s') (sound : AllSound s) : AllSound s' := by
  intro k r' hr'
  cases hk : s.scope? k with
  | none => exact grows.fresh k r' hk hr'
  | some r =>
    obtain ⟨moved, found, move⟩ := grows.moves k r hk
    obtain rfl : r' = moved := mem_unique hr' found
    exact move.sound (sound k r hk)

theorem Grows.trans (h : Grows s s') (h' : Grows s' s'') : Grows s s'' where
  moves k r hr := by
    obtain ⟨r', hr', move⟩ := h.moves k r hr
    obtain ⟨r'', hr'', move'⟩ := h'.moves k r' hr'
    exact ⟨r'', hr'', move.trans move'⟩
  fresh k r'' missing hr'' := by
    cases hk : s'.scope? k with
    | none => exact h'.fresh k r'' hk hr''
    | some r' =>
      obtain ⟨moved, found, move⟩ := h'.moves k r' hk
      obtain rfl : r'' = moved := mem_unique hr'' found
      exact move.sound (h.fresh k r' missing hk)
  tops tops := h'.tops (h.tops tops)

theorem Grows.map (keeps : ∀ r, (f r).key = r.key)
    (parent : ∀ r, r.key.phase = .root → (f r).parent = r.parent) (hs : s'.scopes = s.scopes.map f)
    (moves : ∀ k r, s.scope? k = some r → Moves r (f r)) : Grows s s' := by
  have found : ∀ k, s'.scope? k = (s.scope? k).map f := fun k => by
    rw [Census.scope?, hs]
    exact scope?_map keeps
  refine ⟨fun k r hr => ⟨f r, by rw [found, hr]; rfl, moves k r hr⟩, fun k r' hnone hr' => ?_, ?_⟩
  · rw [found, hnone] at hr'
    cases hr'
  · intro tops r' hr' root
    rw [hs] at hr'
    obtain ⟨r, hr, rfl⟩ := mem_map.mp hr'
    have root' : r.key.phase = .root := keeps r ▸ root
    exact (parent r root').trans (tops r hr root')

theorem Grows.setScope (keeps : ∀ r, (f r).key = r.key)
    (parent : key.phase = .root → ∀ r, (f r).parent = r.parent)
    (moves : ∀ r, s.scope? key = some r → Moves r (f r)) : Grows s (s.setScope key f) := by
  refine Grows.map (f := fun r => if r.key = key then f r else r) (fun r => ?_) (fun r root => ?_) rfl
    fun k r hr => ?_
  · split
    · exact keeps r
    · rfl
  · split
    · rename_i hk
      exact parent (hk ▸ root) r
    · rfl
  · split
    · rename_i hk
      exact moves r (by rw [← hk, key_of_scope? hr]; exact hr)
    · exact .refl r

theorem Grows.append (missing : s.scope? row.key = none) (sound : Sound row)
    (top : row.key.phase = .root → row.parent = none) (hs : s'.scopes = s.scopes ++ [row]) :
    Grows s s' := by
  have found : ∀ k, s'.scope? k = (s.scope? k).or (if row.key = k then some row else none) :=
    fun k => by rw [Census.scope?, hs]; exact scope?_append
  refine ⟨fun k r hr => ⟨r, by rw [found, hr]; rfl, .refl r⟩, fun k r' hnone hr' => ?_, ?_⟩
  · rw [found, hnone, none_or] at hr'
    split at hr'
    · obtain rfl := Option.some.inj hr'
      exact sound
    · cases hr'
  · intro tops r' hr' root
    rw [hs] at hr'
    rcases mem_append.mp hr' with old | new
    · exact tops r' old root
    · obtain rfl := mem_singleton.mp new
      exact top root

def Capped (s : Census) (route : String) : Prop :=
  ∃ r, s.scope? (rootKey route) = some r ∧ r.gap = some .locationCap

def Member (s : Census) (key : ScopeKey) (generation : Nat) (route id : String) (c : Entry) : Prop :=
  ∃ m ∈ s.memberships, m.key = (key, generation, ⟨route, id, .items⟩) ∧
    (c.childFolderCount ≠ some 0 → m.children = some ⟨route, id, .children⟩)

structure Recorded (s : Census) (receipt : PageReceipt) : Prop where
  items : receipt.scope.phase = .items → ∀ e ∈ receipt.page.value, ∃ id, e.id = some id ∧
    ∃ i ∈ s.items, i.key = (receipt.scope, receipt.generation, id)
  folders : receipt.scope.phase ≠ .items → ∀ c ∈ receipt.page.value, ∃ id route, c.id = some id ∧
    c.route = some route ∧ (Capped s route ∨ Member s receipt.scope receipt.generation route id c)

def Known (s : Census) (m : Membership) : Prop :=
  ∃ r, s.scope? m.parent = some r ∧ m.generation ≤ r.generation

def Lost (s : Census) (m : Membership) : Prop :=
  ∀ r, s.scope? m.parent = some r → r.state = .excluded ∨ m.generation < r.generation

structure Kept (s : Census) : Prop where
  sound : ∀ k r, s.scope? k = some r → Sound r
  tops : ∀ r ∈ s.scopes, r.key.phase = .root → r.parent = none
  known : ∀ m ∈ s.memberships, Known s m
  lost : ∀ m ∈ s.memberships, m.excluded = true → Lost s m
  shape : ∀ m ∈ s.memberships, ∀ k, m.children = some k →
    k = ⟨m.target.base, m.target.folderId, .children⟩
  recorded : ∀ receipt ∈ s.receipts, Recorded s receipt

theorem Kept.empty : Kept {} where
  sound k r h := by cases h
  tops r h := by cases h
  known m h := by cases h
  lost m h := by cases h
  shape m h := by cases h
  recorded receipt h := by cases h

theorem Capped.grows (sound : AllSound s)
    (grows : Grows s s') (h : Capped s route) : Capped s' route := by
  obtain ⟨r, hr, gap⟩ := h
  obtain ⟨r', hr', move⟩ := grows.moves _ r hr
  have root : r.key.phase = .root := by rw [key_of_scope? hr]; rfl
  exact ⟨r', hr', move.capped (sound _ r hr) root gap⟩

theorem Known.grows (grows : Grows s s') (h : Known s m) : Known s' m := by
  obtain ⟨r, hr, le⟩ := h
  obtain ⟨r', hr', move⟩ := grows.moves _ r hr
  exact ⟨r', hr', le.trans move.generation⟩

theorem Lost.grows (grows : Grows s s') (known : Known s m) (h : Lost s m) : Lost s' m := by
  obtain ⟨r, hr, le⟩ := known
  obtain ⟨r', hr', move⟩ := grows.moves _ r hr
  intro found hfound
  obtain rfl : r' = found := mem_unique hr' hfound
  rcases h r hr with gone | newer
  · exact (move.excluded gone).imp_right le.trans_lt
  · exact .inr (newer.trans_le move.generation)

structure Retains (s s' : Census) : Prop where
  members : ∀ m ∈ s.memberships, ∃ m' ∈ s'.memberships, m'.key = m.key ∧ m'.children = m.children
  origin : ∀ m' ∈ s'.memberships, (∃ m ∈ s.memberships, m'.key = m.key ∧ m'.children = m.children ∧
      (m'.excluded = true → m.excluded = true ∨ Lost s' m')) ∨
    m'.excluded = false ∧ Known s' m' ∧ ∀ k, m'.children = some k →
      k = ⟨m'.target.base, m'.target.folderId, .children⟩
  items : ∀ i ∈ s.items, ∃ i' ∈ s'.items, i'.key = i.key

theorem Recorded.grows (sound : AllSound s) (grows : Grows s s') (retains : Retains s s')
    (same : receipt'.scope = receipt.scope ∧ receipt'.generation = receipt.generation ∧
      receipt'.page = receipt.page) (h : Recorded s receipt) : Recorded s' receipt' := by
  obtain ⟨hscope, hgeneration, hpage⟩ := same
  constructor
  · intro phase e he
    rw [hscope] at phase
    rw [hpage] at he
    obtain ⟨id, hid, i, hi, hkey⟩ := h.items phase e he
    obtain ⟨i', hi', hkey'⟩ := retains.items i hi
    exact ⟨id, hid, i', hi', by rw [hkey', hkey, hscope, hgeneration]⟩
  · intro phase c hc
    rw [hscope] at phase
    rw [hpage] at hc
    obtain ⟨id, route, hid, hroute, capped | ⟨m, hm, hkey, children⟩⟩ := h.folders phase c hc
    · exact ⟨id, route, hid, hroute, .inl (capped.grows sound grows)⟩
    · obtain ⟨m', hm', hkey', hchildren⟩ := retains.members m hm
      refine ⟨id, route, hid, hroute, .inr ⟨m', hm', ?_, fun h => hchildren.trans (children h)⟩⟩
      rw [hkey', hkey, hscope, hgeneration]

theorem Kept.grows (kept : Kept s) (grows : Grows s s') (retains : Retains s s')
    (receipts : ∀ receipt' ∈ s'.receipts, (∃ receipt ∈ s.receipts, receipt'.scope = receipt.scope ∧
      receipt'.generation = receipt.generation ∧ receipt'.page = receipt.page) ∨
      Recorded s' receipt') : Kept s' where
  sound := grows.sound kept.sound
  tops := grows.tops kept.tops
  known m' hm' := by
    rcases retains.origin m' hm' with ⟨m, hm, hkey, -⟩ | ⟨-, known, -⟩
    · obtain ⟨hparent, hgeneration, -⟩ : m'.parent = m.parent ∧ m'.generation = m.generation ∧ _ := by
        simpa [Membership.key] using hkey
      have := (kept.known m hm).grows grows
      rwa [Known, ← hparent, ← hgeneration] at this
    · exact known
  lost m' hm' excluded := by
    rcases retains.origin m' hm' with ⟨m, hm, hkey, -, before⟩ | ⟨shown, -⟩
    · obtain ⟨hparent, hgeneration, -⟩ : m'.parent = m.parent ∧ m'.generation = m.generation ∧ _ := by
        simpa [Membership.key] using hkey
      rcases before excluded with excluded | lost
      · have := (kept.lost m hm excluded).grows grows (kept.known m hm)
        rwa [Lost, ← hparent, ← hgeneration] at this
      · exact lost
    · exact absurd excluded (by simp [shown])
  shape m' hm' k hk := by
    rcases retains.origin m' hm' with ⟨m, hm, hkey, hchildren, -⟩ | ⟨-, -, shape⟩
    · have target : m'.target = m.target := by simp_all [Membership.key]
      rw [target]
      exact kept.shape m hm k (hchildren ▸ hk)
    · exact shape k hk
  recorded receipt' h := by
    rcases receipts receipt' h with ⟨receipt, hreceipt, same⟩ | recorded
    · exact (kept.recorded receipt hreceipt).grows kept.sound grows retains same
    · exact recorded

theorem Retains.of_eq (hm : s'.memberships = s.memberships)
    (items : ∀ i ∈ s.items, ∃ i' ∈ s'.items, i'.key = i.key) : Retains s s' where
  members m h := ⟨m, hm ▸ h, rfl, rfl⟩
  origin m h := .inl ⟨m, hm ▸ h, rfl, rfl, Or.inl⟩
  items := items

theorem Kept.of_scopes (kept : Kept s) (grows : Grows s s') (hm : s'.memberships = s.memberships)
    (hr : s'.receipts = s.receipts) (hi : s'.items = s.items) : Kept s' :=
  kept.grows grows (.of_eq hm fun i h => ⟨i, hi ▸ h, rfl⟩)
    fun receipt h => .inl ⟨receipt, hr ▸ h, rfl, rfl, rfl⟩

theorem Kept.setScope (kept : Kept s) (found : s.scope? key = some row)
    (keeps : ∀ r, (f r).key = r.key) (parent : ∀ r, (f r).parent = r.parent)
    (move : Moves row (f row)) : Kept (s.setScope key f) := by
  refine kept.of_scopes (Grows.setScope keeps (fun _ => parent) fun r hr => ?_) rfl rfl rfl
  rwa [mem_unique hr found]

theorem location_grows (base : String) : Grows s (location cfg s base).1 := by
  unfold location
  split
  · exact .of_eq rfl
  · rename_i missing
    refine Grows.append missing (fun _ gap => ?_) (fun _ => rfl) rfl
    by_cases capped : cfg.locationCap ≤
      s.scopes.countP fun r => r.key.phase = .root && r.state ≠ .excluded
    · exact if_pos capped
    · have none : none = some Gap.locationCap := (if_neg capped).symm.trans gap
      cases none

theorem location_capped (h : (location cfg s base).2 = false) :
    Capped (location cfg s base).1 base := by
  unfold location at h ⊢
  split at h
  · rename_i r hr
    exact ⟨r, hr, by simpa using h⟩
  · rename_i missing
    refine ⟨_, scope?_append.trans (by rw [missing, none_or, if_pos rfl]), ?_⟩
    have capped : cfg.locationCap ≤
        s.scopes.countP fun r => r.key.phase = .root && r.state ≠ .excluded := by simpa using h
    exact if_pos capped

structure Adds (s s' : Census) : Prop where
  grows : Grows s s'
  memberships : s'.memberships = s.memberships
  receipts : s'.receipts = s.receipts
  items : s'.items = s.items
  standing : ∀ k r, s.scope? k = some r → r.state ≠ .excluded → s'.scope? k = some r

theorem Adds.refl (s : Census) : Adds s s := ⟨.of_eq rfl, rfl, rfl, rfl, fun _ _ h _ => h⟩

theorem Adds.trans (h : Adds s s') (h' : Adds s' s'') : Adds s s'' where
  grows := h.grows.trans h'.grows
  memberships := h'.memberships.trans h.memberships
  receipts := h'.receipts.trans h.receipts
  items := h'.items.trans h.items
  standing k r hr shown := h'.standing k r (h.standing k r hr shown) shown

theorem Kept.adds (kept : Kept s) (h : Adds s s') : Kept s' :=
  kept.of_scopes h.grows h.memberships h.receipts h.items

theorem location_adds (base : String) : Adds s (location cfg s base).1 := by
  have grows : Grows s (location cfg s base).1 := location_grows base
  unfold location at grows ⊢
  split at grows
  · exact .refl s
  · exact ⟨grows, rfl, rfl, rfl, fun k r hr _ => scope?_append.trans (by rw [hr]; rfl)⟩

theorem Kept.addLocation (kept : Kept s) (base : String) : Kept (addLocation cfg s base) :=
  kept.adds (location_adds base)

theorem Moves.of_state (h : r.state ≠ .excluded)
    (settled : r.state = .unresolved → r.gap ≠ some .locationCap) (key : r'.key = r.key)
    (generation : r'.generation = r.generation) (hg : r'.gap = r.gap) : Moves r r' where
  key := key
  generation := generation.ge
  excluded gone := absurd gone h
  sound sound root gap := by
    rw [key] at root
    rw [hg] at gap
    exact absurd gap (settled (sound root gap))
  capped _ _ gap := hg.trans gap

theorem Kept.recover (kept : Kept s) : Kept (recover s) := by
  refine kept.grows (Grows.map (fun r => ?_) (fun r _ => ?_) rfl fun k r hr => ?_)
    (.of_eq rfl fun i hi => ⟨_, mem_map_of_mem hi, ?_⟩)
    fun receipt h => .inl ⟨receipt, h, rfl, rfl, rfl⟩
  · split <;> rfl
  · split <;> rfl
  · split
    · rename_i reading
      exact .of_state (by simp [reading]) (by simp [reading]) rfl rfl rfl
    · exact .refl r
  · split <;> rfl

theorem Kept.claimScope (kept : Kept s) (key : ScopeKey) : Kept (claimScope s key) := by
  refine kept.of_scopes (Grows.setScope (fun r => ?_) (fun _ r => ?_) fun r hr => ?_) rfl rfl rfl
  · split <;> rfl
  · split <;> rfl
  · split
    · rename_i pending
      exact .of_state (by simp [pending]) (by simp [pending]) rfl rfl rfl
    · exact .refl r

theorem Kept.repair (kept : Kept s) (now : Time) (chosen : List ScopeKey) :
    Kept (repair s now chosen) := by
  refine kept.of_scopes (Grows.map (fun r => ?_) (fun r _ => ?_) rfl fun k r hr => ?_) rfl rfl rfl
  · split <;> rfl
  · split <;> rfl
  · split
    · rename_i repaired
      obtain ⟨-, repairable, -⟩ := repaired
      simp only [Scope.repairable, Bool.and_eq_true, decide_eq_true_eq] at repairable
      obtain ⟨⟨⟨unresolved, -⟩, gap⟩, -⟩ := repairable
      have gap' : r.gap ≠ some .locationCap := fun h => by simp [h] at gap
      exact .of_state (by simp [unresolved]) (fun _ => gap') rfl rfl rfl
    · exact .refl r

theorem Kept.setItem (kept : Kept s) (key : ScopeKey × Nat × String) (state : ItemState) :
    Kept (setItem s key state) := by
  refine kept.grows (.of_eq rfl) (.of_eq rfl fun i hi => ⟨_, mem_map_of_mem hi, ?_⟩)
    fun receipt h => .inl ⟨receipt, h, rfl, rfl, rfl⟩
  split <;> rfl

theorem Moves.fail (h : r.state ≠ .excluded)
    (cap : Sound r → r.key.phase = .root → r.gap = some .locationCap → gap = .locationCap)
    (key : r'.key = r.key) (generation : r'.generation = r.generation) (hs : r'.state = .unresolved)
    (hg : r'.gap = some gap) : Moves r r' where
  key := key
  generation := generation.ge
  excluded gone := absurd gone h
  sound _ _ _ := hs
  capped sound root capped := hg.trans (congrArg some (cap sound root capped))

theorem Kept.failScope (kept : Kept s)
    (orderly : ∀ r, s.scope? key = some r → r.generation = generation → r.state ≠ .excluded ∧
      (key.phase = .root → r.gap = some .locationCap → gap = .locationCap))
    (h : failScope s key generation gap notBefore = .ok s') : Kept s' := by
  obtain ⟨row, hrow, h⟩ := of_bind h
  obtain ⟨found, current⟩ := currentScope_ok hrow
  cases h
  obtain ⟨shown, cap⟩ := orderly row found current
  exact kept.setScope found (fun _ => rfl) (fun _ => rfl)
    (.fail shown (fun _ root => cap (key_of_scope? found ▸ root)) rfl rfl rfl rfl)

theorem Kept.recount (kept : Kept s)
    (orderly : ∀ r, s.scope? key = some r → r.generation = generation → result.gap.isSome →
      key.phase ≠ .root ∧ r.state ≠ .excluded)
    (h : recount s key generation result = .ok s') : Kept s' := by
  obtain ⟨row, hrow, h⟩ := of_bind h
  obtain ⟨found, current⟩ := currentScope_ok hrow
  cases h
  refine kept.setScope found (fun r => ?_) (fun r => ?_) ?_
  · cases result.gap <;> rfl
  · cases result.gap <;> rfl
  · cases hg : result.gap with
    | none => exact ⟨rfl, le_rfl, Or.inl, id, fun _ _ => id⟩
    | some gap =>
      obtain ⟨nonroot, shown⟩ := orderly row found current (by rw [hg]; rfl)
      exact .fail shown (fun _ root => absurd (key_of_scope? found ▸ root) nonroot) rfl rfl rfl rfl

theorem Kept.explainHidden (kept : Kept s) (h : explainHidden s key generation = .ok s') :
    Kept s' := by
  obtain ⟨row, -, h⟩ := of_bind h
  cases h
  refine kept.of_scopes (Grows.setScope (fun r => ?_) (fun _ r => ?_) fun r hr => ?_) rfl rfl rfl
  · split <;> rfl
  · split <;> rfl
  · split
    · rename_i short
      exact ⟨rfl, le_rfl, fun gone => absurd gone (by simp [short.1]), fun _ _ gap => (by cases gap),
        fun _ _ gap => absurd gap (by simp [short.2])⟩
    · exact .refl r

theorem descend_below {keys : List ScopeKey} (h : k ∈ descend s n keys) :
    ∃ r ∈ s.scopes, r.key = k ∧ r.parent.isSome := by
  induction n generalizing keys with
  | zero => cases h
  | succ n ih =>
    rcases mem_append.mp h with h | h
    · obtain ⟨r, hr, rfl⟩ := mem_map.mp h
      obtain ⟨hr, below⟩ := mem_filter.mp hr
      refine ⟨r, hr, rfl, ?_⟩
      cases hp : r.parent with
      | none => simp [hp] at below
      | some parent => rfl
    · exact ih h

theorem Kept.not_root (kept : Kept s) (h : k ∈ descendants s key) : k.phase ≠ .root := by
  intro root
  obtain ⟨r, hr, rfl, below⟩ := descend_below h
  rw [kept.tops r hr root] at below
  cases below

section

@[simp] theorem excludeIn_key : (r.excludeIn below).key = r.key := by
  unfold Scope.excludeIn
  split <;> rfl

@[simp] theorem excludeIn_parent : (r.excludeIn below).parent = r.parent := by
  unfold Scope.excludeIn
  split <;> rfl

@[simp] theorem excludeIn_generation : (r.excludeIn below).generation = r.generation := by
  unfold Scope.excludeIn
  split <;> rfl

@[simp] theorem excludeIn_gap : (r.excludeIn below).gap = r.gap := by
  unfold Scope.excludeIn
  split <;> rfl

end

theorem scope?_excludeBelow : (excludeBelow s key).scope? k =
    (s.scope? k).map (Scope.excludeIn (descendants s key)) :=
  scope?_map fun _ => excludeIn_key

theorem excludeBelow_grows (kept : Kept s) : Grows s (excludeBelow s key) := by
  refine Grows.map (f := Scope.excludeIn (descendants s key)) (fun _ => excludeIn_key)
    (fun _ _ => excludeIn_parent) rfl fun k r hr => ?_
  unfold Scope.excludeIn
  split
  · rename_i below
    exact ⟨rfl, le_rfl, fun _ => .inl rfl, fun _ root => absurd root (kept.not_root below),
      fun _ _ => id⟩
  · exact .refl r

theorem lost_of_restart (kept : Kept s) (hm : m ∈ s.memberships)
    (h : m.parent ∈ key :: descendants s key) (url : String) :
    Lost ((excludeBelow s key).setScope key (Scope.again url)) m := by
  obtain ⟨r, hr, le⟩ := kept.known m hm
  intro r' hr'
  rw [scope?_setScope (f := Scope.again url) fun _ => rfl, scope?_excludeBelow, hr, map_some,
    map_some, Option.some.injEq, excludeIn_key] at hr'
  have hk : r.key = m.parent := key_of_scope? hr
  by_cases again : r.key = key
  · right
    rw [← hr', if_pos again]
    simpa [Scope.again] using Nat.lt_succ_of_le le
  · left
    have below : r.key ∈ descendants s key := (mem_cons.mp (hk ▸ h)).resolve_left again
    rw [← hr', if_neg again, Scope.excludeIn, if_pos below]

theorem Kept.restart (kept : Kept s)
    (orderly : ∀ r, s.scope? key = some r → r.generation = generation →
      (key.phase = .root → r.gap ≠ some .locationCap) ∧ (r.state = .excluded → r.restartCount = 0))
    (h : restart s key generation = .ok (s', b)) : Kept s' := by
  obtain ⟨row, hrow, h⟩ := of_bind h
  obtain ⟨found, current⟩ := currentScope_ok hrow
  split at h
  · rename_i exhausted
    cases h
    obtain ⟨uncapped, first⟩ := orderly row found current
    have shown : row.state ≠ .excluded := fun gone => by
      have := first gone
      omega
    exact kept.setScope found (fun _ => rfl) (fun _ => rfl) (.fail shown
      (fun _ root gap => absurd gap (uncapped (key_of_scope? found ▸ root))) rfl rfl rfl rfl)
  · cases h
    refine kept.grows ((excludeBelow_grows kept).trans (Grows.setScope (f := Scope.again key.url)
      (fun _ => rfl) (fun _ _ => rfl) fun r hr => ?_))
      ⟨fun m hm => ?_, fun m' hm' => ?_, fun i hi => ⟨i, hi, rfl⟩⟩ fun receipt' h => .inl ?_
    · have hk := key_of_scope? hr
      rw [scope?_excludeBelow, found] at hr
      have gap : r.gap = row.gap := by rw [← Option.some.inj hr, excludeIn_gap]
      exact ⟨rfl, Nat.le_succ _, fun _ => .inr (Nat.lt_succ_self _), fun _ _ gap => (by cases gap),
        fun _ root capped => absurd (gap ▸ capped) ((orderly row found current).1 (hk ▸ root))⟩
    · refine ⟨_, mem_map_of_mem hm, ?_⟩
      split <;> exact ⟨rfl, rfl⟩
    · obtain ⟨m, hm, rfl⟩ := mem_map.mp hm'
      refine .inl ⟨m, hm, ?_⟩
      split
      · rename_i below
        have lost : Lost _ m := lost_of_restart kept hm below key.url
        exact ⟨rfl, rfl, fun _ => .inr lost⟩
      · exact ⟨rfl, rfl, Or.inl⟩
    · obtain ⟨receipt, hreceipt, rfl⟩ := mem_map.mp h
      refine ⟨receipt, hreceipt, ?_⟩
      split <;> exact ⟨rfl, rfl, rfl⟩

theorem reach_adds (nonroot : k.phase ≠ .root) : Adds s (reach row path declared s k) := by
  unfold reach
  split
  · rename_i missing
    refine ⟨Grows.append missing (fun root => absurd root nonroot) (fun root => absurd root nonroot) rfl,
      rfl, rfl, rfl, fun j r hr _ => scope?_append.trans (by rw [hr]; rfl)⟩
  · have keeps : ∀ r : Scope, (if r.state = .excluded then
        { r with state := .pending, generation := r.generation + 1, pageOrdinal := 0,
                 observedCount := 0, terminalPage := false, nextUrl := some k.url,
                 parent := some row.key, parentGeneration := some row.generation,
                 declaredCount := declared } else r).key = r.key := fun r => by split <;> rfl
    refine ⟨Grows.setScope keeps (fun root => absurd root nonroot) fun r hr => ?_, rfl, rfl, rfl,
      fun j r hr shown => ?_⟩
    · have back : r.key.phase ≠ .root := key_of_scope? hr ▸ nonroot
      split
      · exact ⟨rfl, Nat.le_succ _, fun _ => .inr (Nat.lt_succ_self _), fun _ root => absurd root back,
          fun _ root => absurd root back⟩
      · exact .refl r
    · rw [scope?_setScope keeps, hr, map_some, if_neg shown, ite_self]

variable {acc : Census × List (ScopeKey × Membership)}

theorem listFolder_ok (h : listFolder cfg row acc child = .ok acc') :
    Adds acc.1 acc'.1 ∧ ∃ id route, child.id = some id ∧ child.route = some route ∧
      (Capped acc'.1 route ∧ acc'.2 = acc.2 ∨
        acc'.2 = upsert ⟨route, id, .items⟩ (fun _ => membershipOf row route id child) acc.2) := by
  obtain ⟨id, hid, route, hroute, h⟩ := of_bind₂ h
  rw [orFail_eq_ok] at hid hroute
  have located : Adds acc.1 (location cfg acc.1 route).1 := location_adds route
  cases within : (location cfg acc.1 route).2 with
  | false =>
    simp only [within, Bool.not_false, if_true] at h
    cases h
    exact ⟨located, id, route, hid, hroute, .inl ⟨location_capped within, rfl⟩⟩
  | true =>
    simp only [within, Bool.not_true, Bool.false_eq_true, if_false] at h
    cases h
    refine ⟨located.trans ?_, id, route, hid, hroute, .inr rfl⟩
    have reached : ∀ {s path declared}, Adds s (reach row path declared s ⟨route, id, .items⟩) :=
      reach_adds (by simp)
    split
    · exact reached
    · exact reached.trans (reach_adds (by simp))

/-- The page up to a child: each child before it is left out or has a membership, of it or of another
entry for the same folder. -/
structure Listing (row : Scope) (s : Census) (done : List Entry)
    (acc : Census × List (ScopeKey × Membership)) : Prop where
  adds : Adds s acc.1
  listed : ∀ c ∈ done, ∃ id route, c.id = some id ∧ c.route = some route ∧
    (Capped acc.1 route ∨ ∃ m, (⟨route, id, .items⟩, m) ∈ acc.2)
  members : ∀ e ∈ acc.2, ∃ d ∈ done, ∃ id route, d.id = some id ∧ d.route = some route ∧
    e = (⟨route, id, .items⟩, membershipOf row route id d)

theorem Listing.next (sound : AllSound s)
    (h : Listing row s done acc) (hstep : listFolder cfg row acc child = .ok acc') :
    Listing row s (done ++ [child]) acc' := by
  obtain ⟨adds, id, route, hid, hroute, effect⟩ := listFolder_ok hstep
  have sound' := h.adds.grows.sound sound
  have stays : ∀ k m, (k, m) ∈ acc.2 → ∃ m', (k, m') ∈ acc'.2 := by
    intro k m hm
    rcases effect with ⟨-, same⟩ | set
    · exact ⟨m, same ▸ hm⟩
    · rw [set]
      rcases mem_upsert_of_mem hm with hm | ⟨hk, replaced⟩
      · exact ⟨m, hm⟩
      · have target : k = ⟨route, id, .items⟩ := hk
        subst target
        exact ⟨_, replaced⟩
  refine ⟨h.adds.trans adds, fun c hc => ?_, fun e he => ?_⟩
  · rcases mem_append.mp hc with hc | hc
    · obtain ⟨id', route', hid', hroute', capped | ⟨m, hm⟩⟩ := h.listed c hc
      · exact ⟨id', route', hid', hroute', .inl (capped.grows sound' adds.grows)⟩
      · exact ⟨id', route', hid', hroute', .inr (stays _ m hm)⟩
    · obtain rfl := mem_singleton.mp hc
      refine ⟨id, route, hid, hroute, ?_⟩
      rcases effect with ⟨capped, -⟩ | set
      · exact .inl capped
      · have present : ∃ old : Option Membership, (⟨route, id, .items⟩, membershipOf row route id c) ∈
            upsert (⟨route, id, .items⟩ : ScopeKey) (fun _ => membershipOf row route id c) acc.2 :=
          exists_mem_upsert
        obtain ⟨-, hm⟩ := present
        exact .inr ⟨_, set ▸ hm⟩
  · have here : child ∈ done ++ [child] := mem_append_right done (mem_singleton_self child)
    have before : e ∈ acc.2 → ∃ d ∈ done ++ [child], ∃ id route, d.id = some id ∧
        d.route = some route ∧ e = (⟨route, id, .items⟩, membershipOf row route id d) := fun he => by
      obtain ⟨d, hd, rest⟩ := h.members e he
      exact ⟨d, mem_append_left _ hd, rest⟩
    rcases effect with ⟨-, same⟩ | set
    · exact before (same ▸ he)
    · rw [set] at he
      rcases of_mem_upsert he with he | rfl | ⟨v, -, rfl⟩
      · exact before he
      · exact ⟨child, here, id, route, hid, hroute, rfl⟩
      · exact ⟨child, here, id, route, hid, hroute, rfl⟩

theorem listFolders_ok (sound : AllSound s)
    (h : children.foldlM (listFolder cfg row) (s, []) = .ok acc') : Listing row s children acc' := by
  have start : Listing row s [] (s, []) :=
    ⟨.refl s, fun c hc => (by cases hc), fun e he => (by cases he)⟩
  obtain ⟨done, rfl, listing⟩ := foldlM_ok
    (fun acc rest => ∃ done, children = done ++ rest ∧ Listing row s done acc)
    (fun ⟨done, split, listing⟩ hstep =>
      ⟨done ++ [_], by rw [split, append_assoc]; rfl, listing.next sound hstep⟩)
    ⟨[], rfl, start⟩ h
  rwa [append_nil]

section

variable {base : String} {ids : List (String × Entry)} {items vs : List Listed}
  {itemKey : ScopeKey × Nat × String}

@[simp] theorem keys_insertItem : itemKey ∈ (insertItem items v).map Listed.key ↔
    itemKey ∈ items.map Listed.key ∨ itemKey = v.key := by
  unfold insertItem
  split
  · rename_i present
    rw [map_updateKey fun r _ => by split <;> rfl]
    exact ⟨Or.inl, fun h => h.elim id fun h => h ▸ present⟩
  · simp

@[simp] theorem keys_insertItems : itemKey ∈ (vs.foldl insertItem items).map Listed.key ↔
    itemKey ∈ items.map Listed.key ∨ itemKey ∈ vs.map Listed.key := by
  induction vs generalizing items with
  | nil => simp
  | cons v vs ih => rw [foldl_cons, ih, keys_insertItem, map_cons, mem_cons, or_assoc]

@[simp] theorem key_itemAfter (old : Option Listed) : (itemAfter value old).key = value.key := by
  unfold itemAfter
  split
  · split <;> rfl
  · rfl

theorem uniqueItems_keys {id : String} {unique : List (String × Listed)}
    (keys : ∀ e ∈ unique, e.2.key = (row.key, row.generation, e.1))
    (h : id ∈ unique.map Prod.fst ∨ id ∈ ids.map Prod.fst) : (row.key, row.generation, id) ∈
      ((uniqueItems row base unique ids).map Prod.snd).map Listed.key := by
  induction ids generalizing unique with
  | nil =>
    obtain ⟨e, he, rfl⟩ := mem_map.mp (h.resolve_right (by simp))
    exact mem_map.mpr ⟨e.2, mem_map_of_mem he, keys e he⟩
  | cons x ids ih =>
    refine ih (fun e he => ?_) ?_
    · rcases of_mem_upsert he with he | rfl | ⟨v, -, rfl⟩
      · exact keys e he
      · exact key_itemAfter none
      · exact key_itemAfter (some v)
    · rw [mem_keys_upsert]
      rcases h with present | present
      · exact .inl (.inr present)
      · rcases mem_cons.mp present with h | h
        · exact .inl (.inl h)
        · exact .inr h

end

def Steady (s : Census) (key : ScopeKey) (generation : Nat) (p : Page) : Prop :=
  ∀ c ∈ p.value, c.childFolderCount ≠ some 0 → ∀ id route, c.id = some id → c.route = some route →
    (∀ d ∈ p.value, d.id = some id → d.route = some route → d.childFolderCount ≠ some 0) ∧
    ∀ m ∈ s.memberships, m.key = (key, generation, ⟨route, id, .items⟩) → m.children ≠ none

def receiptOf (key : ScopeKey) (generation : Nat) (url : String) (p : Page) : PageReceipt :=
  { scope := key, generation, url, page := p }

theorem page_ok (h : page cfg s key generation p url = .ok (s', accepted)) :
    (∃ receipt, s.receipt? key generation url = some receipt ∧ receipt.page = p ∧ s' = s) ∨
    ∃ row, s.receipt? key generation url = none ∧ s.scope? key = some row ∧
      row.generation = generation ∧ row.state = .reading ∧
      ((location cfg s p.base).2 = false ∧ accepted = false ∧
          s' = (location cfg s p.base).1.setScope key (·.fail .locationCap) ∨
        ∃ s₂ inserted, listPage cfg row p (location cfg s p.base).1 = .ok (s₂, inserted) ∧
          s' = Census.setScope { s₂ with receipts := s₂.receipts ++ [receiptOf key generation url p] }
            key (·.turn p.nextLink inserted)) := by
  obtain ⟨-, -, -, -, row, hrow, h⟩ := of_bind₃ h
  obtain ⟨found, current⟩ := currentScope_ok hrow
  cases hreceipt : s.receipt? key generation url with
  | some receipt =>
    simp only [hreceipt] at h
    obtain ⟨_, same, h⟩ := of_bind h
    cases h
    exact .inl ⟨receipt, rfl, by simpa [failIf_eq_ok] using same, rfl⟩
  | none =>
    simp only [hreceipt] at h
    obtain ⟨cursor, h⟩ := of_failIf h
    obtain ⟨-, -, h⟩ := of_bind h
    have reading : row.state = .reading := by
      have := cursor
      simp only [Bool.or_eq_false_iff, decide_eq_false_iff_not, not_not] at this
      exact this.1
    refine .inr ⟨row, rfl, found, current, reading, ?_⟩
    cases within : (location cfg s p.base).2 with
    | false =>
      simp only [within, Bool.not_false, if_true] at h
      cases h
      exact .inl ⟨rfl, rfl, rfl⟩
    | true =>
      simp only [within, Bool.not_true, Bool.false_eq_true, if_false] at h
      obtain ⟨⟨s₂, inserted⟩, listed, h⟩ := of_bind h
      cases h
      exact .inr ⟨s₂, inserted, listed, rfl⟩

theorem ids_of_mapM {entries : List Entry} {ids : List (String × Entry)} {e : Entry}
    (h : entries.mapM (fun e => orFail Refusal.pageError (e.id.map (·, e))) = .ok ids)
    (he : e ∈ entries) : ∃ id, e.id = some id ∧ id ∈ ids.map Prod.fst := by
  induction entries generalizing ids with
  | nil => cases he
  | cons x entries ih =>
    rw [mapM_cons] at h
    obtain ⟨y, hy, h⟩ := of_orFail h
    obtain ⟨ys, hys, h⟩ := of_bind h
    cases h
    obtain ⟨id, hid, rfl⟩ := map_eq_some_iff.mp hy
    rcases mem_cons.mp he with rfl | he
    · exact ⟨id, hid, mem_cons_self⟩
    · obtain ⟨id', hid', mem⟩ := ih hys he
      exact ⟨id', hid', mem_cons_of_mem _ mem⟩

theorem listPage_items (phase : row.key.phase = .items)
    (h : listPage cfg row p s = .ok (s₂, inserted)) :
    (s₂.scopes = s.scopes ∧ s₂.memberships = s.memberships ∧ s₂.receipts = s.receipts) ∧
      (∀ i ∈ s.items, ∃ i' ∈ s₂.items, i'.key = i.key) ∧
      ∀ e ∈ p.value, ∃ id, e.id = some id ∧ ∃ i ∈ s₂.items, i.key = (row.key, row.generation, id) := by
  rw [listPage, if_pos phase] at h
  obtain ⟨ids, hids, h⟩ := of_bind h
  cases h
  refine ⟨⟨rfl, rfl, rfl⟩, fun i hi => ?_, fun e he => ?_⟩
  · exact mem_map.mp (keys_insertItems.mpr (.inl (mem_map_of_mem hi)))
  · obtain ⟨id, hid, mem⟩ := ids_of_mapM hids he
    have listed : (row.key, row.generation, id) ∈
        ((uniqueItems row p.base [] ids).map Prod.snd).map Listed.key :=
      uniqueItems_keys (fun e he => by cases he) (.inr mem)
    exact ⟨id, hid, mem_map.mp (keys_insertItems.mpr (.inr listed))⟩

theorem listPage_folders (sound : AllSound s)
    (phase : row.key.phase ≠ .items) (h : listPage cfg row p s = .ok (s₂, inserted)) :
    ∃ acc, Listing row s p.value acc ∧ s₂ = { acc.1 with
      memberships := insertAllIgnore Membership.key acc.1.memberships (acc.2.map Prod.snd) } := by
  rw [listPage, if_neg phase] at h
  obtain ⟨acc, hacc, h⟩ := of_bind h
  cases h
  exact ⟨acc, listFolders_ok sound hacc, rfl⟩

@[simp] theorem turn_key : (row.turn nextLink inserted).key = row.key := by
  unfold Scope.turn
  dsimp only
  split
  · rfl
  · split <;> rfl

theorem turn_parent : (row.turn nextLink inserted).parent = row.parent := by
  unfold Scope.turn
  dsimp only
  split
  · rfl
  · split <;> rfl

theorem turn_moves (reading : row.state = .reading) : Moves row (row.turn nextLink inserted) := by
  have shown : row.state ≠ .excluded := by simp [reading]
  have open' : row.state = .unresolved → row.gap ≠ some .locationCap := by simp [reading]
  unfold Scope.turn
  dsimp only
  split
  · exact .of_state shown open' rfl rfl rfl
  · split
    · refine .fail shown (fun sound root gap => ?_) rfl rfl rfl rfl
      exact absurd gap (open' (sound root gap))
    · exact .of_state shown open' rfl rfl rfl

theorem Kept.listItems (kept : Kept s) (phase : row.key.phase = .items)
    (h : listPage cfg row p s = .ok (s₂, inserted)) :
    Kept { s₂ with receipts := s₂.receipts ++ [receiptOf row.key row.generation url p] } := by
  obtain ⟨⟨scopes, memberships, receipts⟩, items, listed⟩ := listPage_items phase h
  refine kept.grows (.of_eq scopes) (.of_eq memberships items) fun receipt hreceipt => ?_
  rcases mem_append.mp hreceipt with old | new
  · exact .inl ⟨receipt, receipts ▸ old, rfl, rfl, rfl⟩
  · obtain rfl := mem_singleton.mp new
    exact .inr ⟨fun _ => listed, fun other => absurd phase other⟩

theorem member_of_listing {acc : Census × List (ScopeKey × Membership)} {c : Entry}
    {id route : String} (kept : Kept s) (steady : Steady s row.key row.generation p)
    (listing : Listing row s p.value acc) (hc : c ∈ p.value) (hid : c.id = some id)
    (hroute : c.route = some route) (hm : (⟨route, id, .items⟩, m) ∈ acc.2) :
    ∃ m' ∈ insertAllIgnore Membership.key acc.1.memberships (acc.2.map Prod.snd),
      m'.key = (row.key, row.generation, ⟨route, id, .items⟩) ∧
      (c.childFolderCount ≠ some 0 → m'.children = some ⟨route, id, .children⟩) := by
  have target : m.key = (row.key, row.generation, ⟨route, id, .items⟩) := by
    obtain ⟨d, -, id', route', -, -, he⟩ := listing.members _ hm
    obtain ⟨hk, rfl⟩ := Prod.mk.injEq .. ▸ he
    exact congrArg (row.key, row.generation, ·) hk.symm
  have present : m.key ∈ (insertAllIgnore Membership.key acc.1.memberships
      (acc.2.map Prod.snd)).map Membership.key :=
    keys_insertAllIgnore.mpr (.inr (mem_map_of_mem (mem_map_of_mem hm)))
  obtain ⟨m', hm', hkey⟩ := mem_map.mp present
  refine ⟨m', hm', hkey.trans target, fun some => ?_⟩
  obtain ⟨inPage, before⟩ := steady c hc some id route hid hroute
  rcases mem_of_mem_insertAllIgnore hm' with old | ⟨new, -⟩
  · rw [listing.adds.memberships] at old
    cases hchildren : m'.children with
    | none => exact absurd hchildren (before m' old (hkey.trans target))
    | some k =>
      have htarget : m'.target = ⟨route, id, .items⟩ :=
        congrArg (fun key => key.2.2) (hkey.trans target)
      rw [kept.shape m' old k hchildren, htarget]
  · obtain ⟨e, he, rfl⟩ := mem_map.mp new
    obtain ⟨d, hd, id', route', hid', hroute', rfl⟩ := listing.members e he
    have htarget : (⟨route', id', .items⟩ : ScopeKey) = ⟨route, id, .items⟩ :=
      congrArg (fun key => key.2.2) (hkey.trans target)
    obtain ⟨rfl, rfl⟩ : route' = route ∧ id' = id := by simpa using htarget
    exact if_neg (inPage d hd hid' hroute')

theorem Kept.listFolders (kept : Kept s) (found : s.scope? row.key = some row)
    (reading : row.state = .reading) (phase : row.key.phase ≠ .items)
    (steady : Steady s row.key row.generation p) (h : listPage cfg row p s = .ok (s₂, inserted)) :
    Kept { s₂ with receipts := s₂.receipts ++ [receiptOf row.key row.generation url p] } := by
  obtain ⟨acc, listing, rfl⟩ := listPage_folders kept.sound phase h
  have adds := listing.adds
  have standing := adds.standing row.key row found (by simp [reading])
  refine kept.grows (adds.grows.trans (.of_eq rfl)) ⟨fun m hm => ?_, fun m' hm' => ?_, fun i hi => ?_⟩
    fun receipt hreceipt => ?_
  · exact ⟨m, subset_insertAllIgnore _ (adds.memberships ▸ hm), rfl, rfl⟩
  · rcases mem_of_mem_insertAllIgnore hm' with old | ⟨new, -⟩
    · exact .inl ⟨m', adds.memberships ▸ old, rfl, rfl, Or.inl⟩
    · obtain ⟨e, he, rfl⟩ := mem_map.mp new
      obtain ⟨d, -, id, route, -, -, rfl⟩ := listing.members e he
      refine .inr ⟨rfl, ⟨row, standing, le_rfl⟩, fun k hk => ?_⟩
      have hk : (if d.childFolderCount = some 0 then none else some _) = some k := hk
      split at hk
      · cases hk
      · exact (Option.some.inj hk).symm
  · exact ⟨i, adds.items ▸ hi, rfl⟩
  · rcases mem_append.mp hreceipt with old | new
    · exact .inl ⟨receipt, adds.receipts ▸ old, rfl, rfl, rfl⟩
    · obtain rfl := mem_singleton.mp new
      refine .inr ⟨fun items => absurd items phase, fun _ c hc => ?_⟩
      obtain ⟨id, route, hid, hroute, capped | ⟨m, hm⟩⟩ := listing.listed c hc
      · exact ⟨id, route, hid, hroute, .inl capped⟩
      · exact ⟨id, route, hid, hroute,
          .inr (member_of_listing kept steady listing hc hid hroute hm)⟩

theorem Kept.page (kept : Kept s) (steady : Steady s key generation p)
    (h : page cfg s key generation p url = .ok (s', accepted)) : Kept s' := by
  rcases page_ok h with ⟨_, -, -, rfl⟩ | ⟨row, -, found, rfl, reading, effect⟩
  · exact kept
  have located : Adds s (location cfg s p.base).1 := location_adds p.base
  have kept₁ := kept.adds located
  have standing := located.standing key row found (by simp [reading])
  obtain rfl := key_of_scope? found
  rcases effect with ⟨-, -, rfl⟩ | ⟨s₂, inserted, listed, rfl⟩
  · exact kept₁.setScope standing (fun _ => rfl) (fun _ => rfl)
      (.fail (by simp [reading]) (fun _ _ _ => rfl) rfl rfl rfl rfl)
  · have steady₁ : Steady (location cfg s p.base).1 row.key row.generation p := by
      rwa [Steady, located.memberships]
    have kept₂ : Kept { s₂ with receipts := s₂.receipts ++ [receiptOf row.key row.generation url p] } ∧
        s₂.scope? row.key = some row := by
      by_cases phase : row.key.phase = .items
      · refine ⟨kept₁.listItems phase listed, ?_⟩
        rw [Census.scope?, (listPage_items phase listed).1.1]
        exact standing
      · refine ⟨kept₁.listFolders standing reading phase steady₁ listed, ?_⟩
        obtain ⟨acc, listing, rfl⟩ := listPage_folders kept₁.sound phase listed
        exact listing.adds.standing row.key row standing (by simp [reading])
    exact kept₂.1.setScope kept₂.2 (fun _ => turn_key) (fun _ => turn_parent) (turn_moves reading)

end TmVault.Archive.Enumeration
