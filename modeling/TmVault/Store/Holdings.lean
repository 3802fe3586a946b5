import TmVault.Store.Effective

namespace TmVault.Store.Db

open Relational List

def held (db : Db) (sid : Uuid) : Set Payload :=
  {p | ∃ i ∈ db.items, i.snapshotId = sid ∧ i.toPayload = p}

def shown (db : Db) (sid : Uuid) : Set Payload :=
  {p | ∃ i ∈ db.snapshotItemsEffective sid, i.toPayload = p}

variable {db : Db} {sid target base : Uuid} {k : ItemKey} {p : Payload}

theorem owns_iff_held : db.owns sid k = true ↔ ∃ p ∈ db.held sid, p.key = k := by
  rw [owns_iff]
  constructor
  · rintro ⟨i, hi, hs, hk⟩
    exact ⟨i.toPayload, ⟨i, hi, hs, rfl⟩, hk⟩
  · rintro ⟨p, ⟨i, hi, hs, rfl⟩, hk⟩
    exact ⟨i, hi, hs, hk⟩

theorem mem_items_copyInto (distinct : (rows.map (·.key)).Nodup) :
    i ∈ (db.copyInto target rows).items ↔ i ∈ db.items ∨
      (i ∈ relabel target db.nextUuid rows ∧ ¬ db.owns i.snapshotId i.key = true) := by
  rw [← uniqueKey_mem_items]
  exact mem_insertAllIgnore (nodup_relabel distinct)

theorem held_copyInto (distinct : (rows.map (·.key)).Nodup) :
    (db.copyInto target rows).held target = db.held target ∪
      {p | (∃ j ∈ rows, j.toPayload = p) ∧ ¬ db.owns target p.key = true} := by
  ext p
  constructor
  · rintro ⟨i, hi, hs, rfl⟩
    rcases (mem_items_copyInto distinct).mp hi with hi | ⟨hi, fresh⟩
    · exact .inl ⟨i, hi, hs, rfl⟩
    · exact .inr ⟨(of_mem_relabel hi).2, hs ▸ fresh⟩
  · rintro (⟨i, hi, hs, rfl⟩ | ⟨⟨j, hj, rfl⟩, fresh⟩)
    · exact ⟨i, (mem_items_copyInto distinct).mpr (.inl hi), hs, rfl⟩
    · obtain ⟨i, hi, hp⟩ := exists_mem_relabel target db.nextUuid hj
      have hs := (of_mem_relabel hi).1
      refine ⟨i, (mem_items_copyInto distinct).mpr (.inr ⟨hi, ?_⟩), hs, hp⟩
      rw [hs, hp]
      exact fresh

theorem mem_effective_copyInto (ht : db.resolveTarget sid ≠ some target)
    (hb : db.resolveBase sid ≠ some target) :
    i ∈ (db.copyInto target rows).snapshotItemsEffective sid ↔
      i ∈ db.snapshotItemsEffective sid := by
  have target' : (db.copyInto target rows).resolveTarget sid = db.resolveTarget sid := rfl
  have base' : (db.copyInto target rows).resolveBase sid = db.resolveBase sid := rfl
  rw [mem_effective, mem_effective, target', base']
  constructor
  · rintro ⟨hi, t, hres, rfl | ⟨b, hbase, hinh⟩⟩
    · have ne : i.snapshotId ≠ target := fun h => ht (h ▸ hres)
      exact ⟨(mem_items_copyInto_of_ne ne).mp hi, _, hres, .inl rfl⟩
    · have ne : b ≠ target := fun h => hb (h ▸ hbase)
      have ne' : t ≠ target := fun h => ht (h ▸ hres)
      rw [inherited_copyInto_of_ne ne' ne] at hinh
      have hs := (inherited_iff.mp hinh).1
      exact ⟨(mem_items_copyInto_of_ne (hs ▸ ne)).mp hi, t, hres, .inr ⟨b, hbase, hinh⟩⟩
  · rintro ⟨hi, t, hres, rfl | ⟨b, hbase, hinh⟩⟩
    · have ne : i.snapshotId ≠ target := fun h => ht (h ▸ hres)
      exact ⟨(mem_items_copyInto_of_ne ne).mpr hi, _, hres, .inl rfl⟩
    · have ne : b ≠ target := fun h => hb (h ▸ hbase)
      have ne' : t ≠ target := fun h => ht (h ▸ hres)
      have hs := (inherited_iff.mp hinh).1
      rw [← inherited_copyInto_of_ne ne' ne] at hinh
      exact ⟨(mem_items_copyInto_of_ne (hs ▸ ne)).mpr hi, t, hres, .inr ⟨b, hbase, hinh⟩⟩

theorem effective_congr {db' : Db} (items : db'.items = db.items)
    (target : db'.resolveTarget sid = db.resolveTarget sid)
    (base : db'.resolveBase sid = db.resolveBase sid)
    (removed : ∀ t, db.resolveTarget sid = some t → ∀ k, db'.removed t k = db.removed t k) :
    db'.snapshotItemsEffective sid = db.snapshotItemsEffective sid := by
  rw [snapshotItemsEffective, snapshotItemsEffective, target, base, items]
  cases ht : db.resolveTarget sid with
  | none => rfl
  | some t =>
    cases db.resolveBase sid with
    | none => rfl
    | some b =>
      have owns : ∀ s k, db'.owns s k = db.owns s k := fun s k => by rw [Db.owns, Db.owns, items]
      refine congrArg (_ ++ ·) (filter_congr fun i _ => ?_)
      simp only [inherited, parentVisible, owns, removed t ht]

theorem effective_setWhere (hid : ∀ s, (f s).id = s.id)
    (hs : sid ≠ target) (ht : db.resolveTarget sid ≠ some target) :
    (db.setWhere [target] f).snapshotItemsEffective sid = db.snapshotItemsEffective sid := by
  have other : ∀ s, s ≠ target → (db.setWhere [target] f).snapshot? s = db.snapshot? s := by
    intro s hs
    rw [snapshot?_setWhere hid]
    simp [hs]
  have resolved : (db.setWhere [target] f).resolveTarget sid = db.resolveTarget sid :=
    congrArg (Option.map _) (other sid hs)
  refine effective_congr rfl resolved ?_ fun _ _ _ => rfl
  rw [resolveBase, resolved, resolveBase]
  cases hres : db.resolveTarget sid with
  | none => rfl
  | some t =>
    have ne : t ≠ target := fun h => ht (h ▸ hres)
    exact congrArg (Option.bind · _) (other t ne)

theorem eq_of_key {l : List SnapshotItem} (nodup : (l.map (·.key)).Nodup) {i j : SnapshotItem}
    (hi : i ∈ l) (hj : j ∈ l) (h : i.key = j.key) : i = j :=
  inj_on_of_nodup_map nodup hi hj h

theorem eq_of_owner_key (nodup : db.Keyed)
    (hi : i ∈ db.items) (hj : j ∈ db.items) (owner : i.snapshotId = j.snapshotId)
    (h : i.key = j.key) : i = j := by
  refine inj_on_of_nodup_map nodup hi hj ?_
  obtain ⟨ht, he⟩ := Prod.mk.inj h
  rw [SnapshotItem.uniqueKey, SnapshotItem.uniqueKey, owner, ht, he]

theorem nodup_keys_held (nodup : db.Keyed) (sid : Uuid) :
    ((db.items.filter (·.snapshotId = sid)).map (·.key)).Nodup :=
  nodup_keys_filter nodup _ fun _ hi => of_decide_eq_true hi

theorem perm_of_same_items {l l' : List SnapshotItem} (nodup : (l.map (·.key)).Nodup)
    (nodup' : (l'.map (·.key)).Nodup) (read : Payload → Payload) (key : ∀ p, (read p).key = p.key)
    (same : ∀ q, (∃ i ∈ l, read i.toPayload = q) ↔ ∃ i ∈ l', read i.toPayload = q) :
    (l.map fun i => read i.toPayload).Perm (l'.map fun i => read i.toPayload) := by
  have distinct : ∀ {l : List SnapshotItem}, (l.map (·.key)).Nodup →
      (l.map fun i => read i.toPayload).Nodup := by
    intro l nodup
    apply List.Nodup.of_map Payload.key
    rw [map_map]
    rwa [map_congr_left fun i _ => key i.toPayload]
  refine (perm_ext_iff_of_nodup (distinct nodup) (distinct nodup')).mpr fun q => ?_
  rw [mem_map, mem_map]
  exact same q

theorem removed_addRemovals {keys : List ItemKey} :
    (db.addRemovals target keys).removed sid k = true ↔
      db.removed sid k = true ∨ (sid = target ∧ k ∈ keys) := by
  rw [← hidden_lineage, hidden_addRemovals]
  by_cases h : sid = target
  · subst h
    simp [hidden_lineage]
  · simp [h, hidden_lineage]

theorem shown_overlay (h : db.snapshot? sid = some s)
    (root : s.reuseChainRootId = none) (hbase : s.overlayBaseId = some base) :
    p ∈ db.shown sid ↔ p ∈ db.held sid ∨
      ∃ b ∈ db.items, db.inherited sid base b = true ∧ b.toPayload = p := by
  rw [shown, Set.mem_ofPred_eq, effective_of_root h root, hbase]
  simp [held, or_and_right, exists_or, and_assoc]

end TmVault.Store.Db
