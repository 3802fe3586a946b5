import TmVault.Relational.Lineage
import TmVault.Store.Schema
import TmVault.Text.Basic

namespace TmVault.Store

open Relational

abbrev ItemKey := ItemType × String

def Payload.key (p : Payload) : ItemKey := (p.itemType, p.externalId)

def OverlayRemoval.key (r : OverlayRemoval) : ItemKey := (r.itemType, r.externalId)

def Payload.parentExternalIdOrHead (p : Payload) : String :=
  p.parentExternalId.getD (Text.splitPartFirst "::" p.externalId)

def Payload.parentKey (p : Payload) : Option ItemKey :=
  match p.itemType with
  | .emailAttachment => some (.email, p.parentExternalIdOrHead)
  | .archiveAttachment => some (.archiveItem, p.parentExternalIdOrHead)
  | _ => none

theorem Payload.parentKey_cases {p : Payload} {k : ItemKey} (h : p.parentKey = some k) :
    k.1 = .email ∨ k.1 = .archiveItem := by
  rw [parentKey] at h
  split at h
  · cases h
    exact .inl rfl
  · cases h
    exact .inr rfl
  · cases h

def layering : Layering Payload ItemKey where
  key := Payload.key
  inherits p := p.itemType ∈ ItemType.overlayTypes
  parent := Payload.parentKey
  parent_inherits h := by
    rcases Payload.parentKey_cases h with h | h <;>
      simp only [Payload.key] at h <;> rw [h] <;> decide
  parent_root h := by
    rcases Payload.parentKey_cases h with h | h <;>
      simp only [Payload.key] at h <;> simp [Payload.parentKey, h]

namespace Db

variable (db : Db)

def snapshot? (sid : Uuid) : Option Snapshot := db.snapshots.find? (·.id = sid)

def resolveTarget (sid : Uuid) : Option Uuid :=
  (db.snapshot? sid).map fun s => s.reuseChainRootId.getD s.id

def resolveBase (sid : Uuid) : Option Uuid :=
  (db.resolveTarget sid).bind fun t => (db.snapshot? t).bind (·.overlayBaseId)

def owns (sid : Uuid) (k : ItemKey) : Bool :=
  db.items.any fun o => o.snapshotId = sid && o.key = k

def removed (sid : Uuid) (k : ItemKey) : Bool :=
  db.removals.any fun r => r.snapshotId = sid && r.key = k

def parentVisible (target base : Uuid) (p : Payload) : Bool :=
  match p.parentKey with
  | none => true
  | some k => db.owns target k || (db.owns base k && !db.removed target k)

def inherited (target base : Uuid) (b : SnapshotItem) : Bool :=
  b.snapshotId = base && b.itemType ∈ ItemType.overlayTypes && !db.owns target b.key &&
    !db.removed target b.key && db.parentVisible target base b.toPayload

/-- A snapshot's inventory: the rows of the target it resolves to and, when the target is an
overlay, the rows of its base that show through. -/
def snapshotItemsEffective (sid : Uuid) : List SnapshotItem :=
  match db.resolveTarget sid with
  | none => []
  | some target =>
    db.items.filter (·.snapshotId = target) ++
      match db.resolveBase sid with
      | none => []
      | some base => db.items.filter (db.inherited target base)

variable {db} {sid target base : Uuid} {k : ItemKey} {s : Snapshot} {p : Payload}

theorem owns_iff : db.owns sid k ↔ ∃ o ∈ db.items, o.snapshotId = sid ∧ o.key = k := by
  simp [owns]

theorem removed_iff : db.removed sid k ↔ ∃ r ∈ db.removals, r.snapshotId = sid ∧ r.key = k := by
  simp [removed]

theorem parentVisible_iff : db.parentVisible target base p ↔
    ∀ k, p.parentKey = some k →
      db.owns target k = true ∨ (db.owns base k = true ∧ ¬ db.removed target k = true) := by
  rw [parentVisible]
  split <;> simp_all

theorem inherited_iff : db.inherited target base b ↔
    b.snapshotId = base ∧ b.itemType ∈ ItemType.overlayTypes ∧ ¬ db.owns target b.key = true ∧
      ¬ db.removed target b.key = true ∧ db.parentVisible target base b.toPayload = true := by
  simp [inherited, and_assoc]

theorem mem_effective : i ∈ db.snapshotItemsEffective sid ↔
    i ∈ db.items ∧ ∃ t, db.resolveTarget sid = some t ∧
      (i.snapshotId = t ∨ ∃ b, db.resolveBase sid = some b ∧ db.inherited t b i = true) := by
  rw [snapshotItemsEffective]
  cases ht : db.resolveTarget sid with
  | none => simp
  | some t =>
    cases hb : db.resolveBase sid with
    | none => simp
    | some b => simp [← and_or_left]

/-- Who points at whom, who overlays whom, and the captured rows each snapshot owns. Sparse item types
are rebuilt from the union of earlier snapshots and stay out of it. -/
def lineage (db : Db) : Lineage Uuid Payload ItemKey where
  root s := (db.snapshot? s).bind (·.reuseChainRootId)
  base s := (db.snapshot? s).bind (·.overlayBaseId)
  rows s := {p | ¬ p.itemType.sparse ∧ ∃ i ∈ db.items, i.snapshotId = s ∧ i.toPayload = p}
  hidden s := {k | ∃ r ∈ db.removals, r.snapshotId = s ∧ r.key = k}

section

variable (h : db.snapshot? sid = some s)

include h

theorem snapshot?_id : s.id = sid := by
  simpa using List.find?_some h

theorem resolveTarget_eq : db.resolveTarget sid = some (db.lineage.target sid) := by
  simp [resolveTarget, Lineage.target, lineage, h, snapshot?_id h]

theorem resolveBase_eq : db.resolveBase sid = db.lineage.base (db.lineage.target sid) := by
  rw [resolveBase, resolveTarget_eq h]
  rfl

theorem effective_of_root
    (root : s.reuseChainRootId = none) : db.snapshotItemsEffective sid =
      db.items.filter (·.snapshotId = sid) ++
        match s.overlayBaseId with
        | none => []
        | some b => db.items.filter (db.inherited sid b) := by
  have target : db.resolveTarget sid = some sid := by
    rw [resolveTarget, h, Option.map_some, root, Option.getD_none, snapshot?_id h]
  rw [snapshotItemsEffective, resolveBase, target, Option.bind_some, h, Option.bind_some]

end

theorem owns_lineage (h : ¬ k.1.sparse) :
    layering.Owns (db.lineage.rows sid) k ↔ db.owns sid k = true := by
  rw [owns_iff]
  constructor
  · rintro ⟨p, ⟨-, i, hi, hs, rfl⟩, hk⟩
    exact ⟨i, hi, hs, hk⟩
  · rintro ⟨i, hi, hs, rfl⟩
    exact ⟨i.toPayload, ⟨h, i, hi, hs, rfl⟩, rfl⟩

theorem hidden_lineage : k ∈ db.lineage.hidden sid ↔ db.removed sid k = true := removed_iff.symm

theorem parentKey_not_sparse (h : p.parentKey = some k) : ¬ k.1.sparse := by
  rcases Payload.parentKey_cases h with h | h <;> rw [h] <;> decide

theorem shows_lineage :
    layering.Shows (db.lineage.rows target) (db.lineage.rows base) (db.lineage.hidden target) p ↔
      ∃ b ∈ db.items, db.inherited target base b = true ∧ b.toPayload = p := by
  constructor
  · intro h
    obtain ⟨dense, b, hb, hs, rfl⟩ := h.mem
    refine ⟨b, hb, inherited_iff.mpr ⟨hs, h.inherits, ?_, ?_, ?_⟩, rfl⟩
    · exact fun ho => h.notOwned ((owns_lineage dense).mpr ho)
    · exact fun hr => h.notHidden (hidden_lineage.mpr hr)
    · refine parentVisible_iff.mpr fun k hk => ?_
      have dense := parentKey_not_sparse hk
      exact (h.parent k hk).imp (owns_lineage dense).mp
        (And.imp (owns_lineage dense).mp (mt hidden_lineage.mpr))
  · rintro ⟨b, hb, hi, rfl⟩
    obtain ⟨hs, inherits, notOwned, notRemoved, visible⟩ := inherited_iff.mp hi
    have dense := ItemType.not_sparse_of_overlay inherits
    refine ⟨⟨dense, b, hb, hs, rfl⟩, inherits, ?_, ?_, fun k hk => ?_⟩
    · exact fun ho => notOwned ((owns_lineage dense).mp ho)
    · exact fun hr => notRemoved (hidden_lineage.mp hr)
    · have dense := parentKey_not_sparse hk
      exact (parentVisible_iff.mp visible k hk).imp (owns_lineage dense).mpr
        (And.imp (owns_lineage dense).mpr (mt hidden_lineage.mp))

/-- What `snapshot_items_effective` returns, read as captured items of dense types, is the
inventory of the lineage. -/
theorem effective_lineage (h : db.snapshot? sid = some s) (dense : ¬ p.itemType.sparse) :
    (∃ i ∈ db.snapshotItemsEffective sid, i.toPayload = p) ↔
      p ∈ db.lineage.inventory layering sid := by
  rw [snapshotItemsEffective, resolveTarget_eq h, resolveBase_eq h, Lineage.inventory]
  have own : p ∈ db.lineage.rows (db.lineage.target sid) ↔
      ∃ i ∈ db.items, i.snapshotId = db.lineage.target sid ∧ i.toPayload = p :=
    ⟨And.right, And.intro dense⟩
  cases hb : db.lineage.base (db.lineage.target sid) with
  | none =>
    rw [Lineage.baseRows_of_full hb, Layering.view_empty_base, own]
    simp [and_assoc]
  | some b =>
    rw [Lineage.baseRows_of_base hb]
    simp only [Layering.view, Set.mem_ofPred_eq, shows_lineage, own]
    simp [or_and_right, exists_or, and_assoc]

end Db

open List

inductive StoreError
  | reuseColumns (id : Uuid)
  | reuseParent (parent : Option Uuid) (id : Uuid)
  | reuseRoot (root : Option Uuid) (id : Uuid)
  | pointerAndOverlay (id : Uuid)
  | overlayBase (base : Uuid) (id : Uuid)
  | uniqueViolation
  | foreignKeyRestrict
  | inventoryChanged (what : String) (id : Uuid) (before after : Nat)

abbrev Tx := Except StoreError

def sqlLt : Option Time → Option Time → Bool
  | some a, some b => a < b
  | _, _ => false

namespace Db

def validateSnapshotReuseTarget (db : Db) (new : Snapshot) : Tx Unit :=
  if new.reuseOfSnapshotId = none ∧ new.reuseChainRootId = none then
    pure ()
  else if new.reuseOfSnapshotId = none ∨ new.reuseChainRootId = none then
    throw (.reuseColumns new.id)
  else if !db.snapshots.any fun p =>
      some p.id = new.reuseOfSnapshotId && p.resourceId = new.resourceId &&
        (p.status = some .completed ||
          (p.status = some .partialRun && new.extraData.archiveReusedPartialPrior)) &&
        sqlLt p.takenAt new.takenAt then
    throw (.reuseParent new.reuseOfSnapshotId new.id)
  else if !db.snapshots.any fun r =>
      some r.id = new.reuseChainRootId && r.resourceId = new.resourceId &&
        r.reuseOfSnapshotId = none then
    throw (.reuseRoot new.reuseChainRootId new.id)
  else
    pure ()

def validateSnapshotOverlayBase (db : Db) (new : Snapshot) : Tx Unit :=
  match new.overlayBaseId with
  | none => pure ()
  | some base =>
    if new.reuseOfSnapshotId ≠ none then
      throw (.pointerAndOverlay new.id)
    else if !db.snapshots.any fun b =>
        b.id = base && b.id ≠ new.id && b.resourceId = new.resourceId &&
          b.overlayBaseId = none && b.reuseOfSnapshotId = none then
      throw (.overlayBase base new.id)
    else
      pure ()

theorem validateSnapshotOverlayBase_ok {db : Db} {new : Snapshot} {base : Uuid}
    (hb : new.overlayBaseId = some base) (h : db.validateSnapshotOverlayBase new = .ok ()) :
    ∃ b ∈ db.snapshots, b.id = base ∧ base ≠ new.id ∧ b.reuseOfSnapshotId = none := by
  simp only [validateSnapshotOverlayBase, hb] at h
  split at h
  · cases h
  · split at h
    · cases h
    · rename_i found
      simp only [Bool.not_eq_true', Bool.not_eq_false, any_eq_true, Bool.and_eq_true,
        decide_eq_true_eq] at found
      obtain ⟨b, hb, ⟨⟨⟨hid, hne⟩, -⟩, -⟩, hreuse⟩ := found
      exact ⟨b, hb, hid, hid ▸ hne, hreuse⟩

def setWhere (db : Db) (ids : List Uuid) (f : Snapshot → Snapshot) : Db :=
  { db with snapshots := db.snapshots.map fun s => if s.id ∈ ids then f s else s }

def validateReuseColumns (db : Db) (new : Snapshot) : Tx Unit := do
  db.validateSnapshotOverlayBase new
  db.validateSnapshotReuseTarget new

def updateWhere (trigger : Db → Snapshot → Tx Unit) (ids : List Uuid)
    (f : Snapshot → Snapshot) (db : Db) : Tx Db :=
  ids.foldlM (fun db sid =>
    match db.snapshot? sid with
    | none => pure db
    | some s => do
      trigger db (f s)
      pure (db.setWhere [sid] f)) db

end Db

def SnapshotItem.uniqueKey (i : SnapshotItem) : Uuid × String × ItemType :=
  (i.snapshotId, i.externalId, i.itemType)

abbrev Db.Keyed (db : Db) : Prop := (db.items.map SnapshotItem.uniqueKey).Nodup

def relabel (target : Uuid) : Uuid → List SnapshotItem → List SnapshotItem
  | _, [] => []
  | next, i :: is => { i with id := next, snapshotId := target } :: relabel target (next + 1) is

namespace Db

def copyInto (db : Db) (target : Uuid) (rows : List SnapshotItem) : Db :=
  { db with
    items := insertAllIgnore SnapshotItem.uniqueKey db.items (relabel target db.nextUuid rows)
    nextUuid := db.nextUuid + rows.length }

def addRemovals (db : Db) (target : Uuid) (keys : List ItemKey) : Db :=
  { db with
    removals := insertAllIgnore id db.removals
      (keys.map fun k => { snapshotId := target, itemType := k.1, externalId := k.2 }) }

section

variable {db : Db} {ids : List Uuid} {sid : Uuid} {f : Snapshot → Snapshot}
  {trigger : Db → Snapshot → Tx Unit}

theorem snapshot?_setWhere (hid : ∀ s, (f s).id = s.id) : (db.setWhere ids f).snapshot? sid =
      (db.snapshot? sid).map fun s => if sid ∈ ids then f s else s := by
  have hkey : ((fun s : Snapshot => decide (s.id = sid)) ∘ fun s => if s.id ∈ ids then f s else s) =
      fun s => decide (s.id = sid) := by
    funext s
    by_cases h : s.id ∈ ids <;> simp [h, hid]
  rw [snapshot?, setWhere, find?_map, hkey]
  cases h : db.snapshots.find? (·.id = sid) with
  | none => simp [snapshot?, h]
  | some s => simp [snapshot?, h, snapshot?_id (show db.snapshot? sid = some s from h)]

theorem ids_setWhere (hid : ∀ s, (f s).id = s.id) :
    (db.setWhere ids f).snapshots.map (·.id) = db.snapshots.map (·.id) := by
  rw [setWhere, map_map]
  apply map_congr_left
  intro s _
  by_cases h : s.id ∈ ids <;> simp [h, hid]

theorem setWhere_absent (h : db.snapshot? sid = none) : db.setWhere [sid] f = db := by
  have absent : ∀ s ∈ db.snapshots, (if s.id ∈ [sid] then f s else s) = s := by
    intro s hs
    have : s.id ≠ sid := by simpa using find?_eq_none.mp h s hs
    simp [this]
  rw [setWhere, map_congr_left absent, map_id']

theorem setWhere_cons (hid : ∀ s, (f s).id = s.id) (fresh : sid ∉ ids) :
    (db.setWhere [sid] f).setWhere ids f = db.setWhere (sid :: ids) f := by
  simp only [setWhere, map_map]
  congr 1
  apply map_congr_left
  intro s _
  by_cases h : s.id = sid
  · simp [h, hid, fresh]
  · simp [h]

theorem updateWhere_ok (hid : ∀ s, (f s).id = s.id)
    (nodup : ids.Nodup) (h : updateWhere trigger ids f db = .ok db') : db' = db.setWhere ids f := by
  induction ids generalizing db with
  | nil =>
    cases h
    simp [setWhere]
  | cons sid ids ih =>
    rw [nodup_cons] at nodup
    rw [updateWhere, foldlM_cons] at h
    rw [← setWhere_cons hid nodup.1]
    cases hs : db.snapshot? sid with
    | none =>
      simp only [hs] at h
      rw [setWhere_absent hs]
      exact ih nodup.2 h
    | some s =>
      simp only [hs] at h
      cases ht : trigger db (f s) with
      | error e =>
        rw [ht] at h
        cases h
      | ok =>
        rw [ht] at h
        exact ih nodup.2 h

theorem updateWhere_trigger
    (hs : db.snapshot? sid = some s) (h : updateWhere trigger [sid] f db = .ok db') :
    trigger db (f s) = .ok () := by
  simp only [updateWhere, foldlM_cons, hs] at h
  obtain ⟨_, h, -⟩ := of_bind h
  obtain ⟨⟨⟩, ok, -⟩ := of_bind h
  exact ok

section

variable (hid : ∀ s, (f s).id = s.id)

include hid

theorem lineage_setWhere (root : ∀ s, (f s).reuseChainRootId = s.reuseChainRootId)
    (base : ∀ s, (f s).overlayBaseId = s.overlayBaseId) :
    (db.setWhere ids f).lineage = db.lineage := by
  apply Lineage.ext
  · funext s
    simp only [lineage, snapshot?_setWhere hid]
    cases db.snapshot? s with
    | none => rfl
    | some s' => by_cases h : s ∈ ids <;> simp [h, root]
  · funext s
    simp only [lineage, snapshot?_setWhere hid]
    cases db.snapshot? s with
    | none => rfl
    | some s' => by_cases h : s ∈ ids <;> simp [h, base]
  · rfl
  · rfl

theorem root_setWhere (s : Uuid) : (db.setWhere ids f).lineage.root s =
      if s ∈ ids then (db.snapshot? s).bind fun x => (f x).reuseChainRootId
      else db.lineage.root s := by
  simp only [lineage, snapshot?_setWhere hid]
  cases db.snapshot? s <;> by_cases h : s ∈ ids <;> simp [h]

theorem base_setWhere (s : Uuid) : (db.setWhere ids f).lineage.base s =
      if s ∈ ids then (db.snapshot? s).bind fun x => (f x).overlayBaseId
      else db.lineage.base s := by
  simp only [lineage, snapshot?_setWhere hid]
  cases db.snapshot? s <;> by_cases h : s ∈ ids <;> simp [h]

end

end

end Db

section

variable {target next : Uuid} {rows : List SnapshotItem} {i : SnapshotItem}

theorem of_mem_relabel (h : i ∈ relabel target next rows) :
    i.snapshotId = target ∧ ∃ j ∈ rows, j.toPayload = i.toPayload := by
  induction rows generalizing next with
  | nil => cases h
  | cons j rows ih =>
    rcases mem_cons.mp h with rfl | h
    · exact ⟨rfl, j, mem_cons_self, rfl⟩
    · obtain ⟨hs, j', hj', hp⟩ := ih h
      exact ⟨hs, j', mem_cons_of_mem j hj', hp⟩

theorem exists_mem_relabel (target next : Uuid) (h : i ∈ rows) :
    ∃ j ∈ relabel target next rows, j.toPayload = i.toPayload := by
  induction rows generalizing next with
  | nil => cases h
  | cons j rows ih =>
    rcases mem_cons.mp h with rfl | h
    · exact ⟨_, mem_cons_self, rfl⟩
    · obtain ⟨j', hj', hp⟩ := ih (next + 1) h
      exact ⟨j', mem_cons_of_mem _ hj', hp⟩

theorem uniqueKey_relabel : (relabel target next rows).map SnapshotItem.uniqueKey =
      (rows.map (·.key)).map fun k => (target, k.2, k.1) := by
  induction rows generalizing next with
  | nil => rfl
  | cons i rows ih =>
    rw [relabel, map_cons, ih]
    rfl

theorem nodup_relabel (distinct : (rows.map (·.key)).Nodup) :
    ((relabel target next rows).map SnapshotItem.uniqueKey).Nodup := by
  rw [uniqueKey_relabel]
  refine distinct.map ?_
  rintro ⟨t, e⟩ ⟨t', e'⟩ h
  simp_all

end

namespace Db

section

variable {db : Db} {target : Uuid} {rows : List SnapshotItem} {keys : List ItemKey}
  {i : SnapshotItem}

theorem uniqueKey_mem_items :
    i.uniqueKey ∈ db.items.map SnapshotItem.uniqueKey ↔ db.owns i.snapshotId i.key = true := by
  simp [owns_iff, SnapshotItem.uniqueKey, Payload.key, and_comm]

theorem rows_copyInto (distinct : (rows.map (·.key)).Nodup) (s : Uuid) :
    (db.copyInto target rows).lineage.rows s =
      if s = target then
        db.lineage.rows target ∪ {p | ¬ p.itemType.sparse ∧ (∃ j ∈ rows, j.toPayload = p) ∧
          ¬ db.owns target p.key = true}
      else db.lineage.rows s := by
  have mem : ∀ i, i ∈ (db.copyInto target rows).items ↔ i ∈ db.items ∨
      (i ∈ relabel target db.nextUuid rows ∧ ¬ db.owns i.snapshotId i.key = true) := by
    intro i
    rw [← uniqueKey_mem_items]
    exact mem_insertAllIgnore (nodup_relabel distinct)
  split
  case isTrue h =>
    subst h
    ext p
    constructor
    · rintro ⟨dense, i, hi, hs, rfl⟩
      rcases (mem i).mp hi with hi | ⟨hi, fresh⟩
      · exact .inl ⟨dense, i, hi, hs, rfl⟩
      · exact .inr ⟨dense, (of_mem_relabel hi).2, hs ▸ fresh⟩
    · rintro (⟨dense, i, hi, hs, rfl⟩ | ⟨dense, ⟨j, hj, rfl⟩, fresh⟩)
      · exact ⟨dense, i, (mem i).mpr (.inl hi), hs, rfl⟩
      · obtain ⟨i, hi, hp⟩ := exists_mem_relabel s db.nextUuid hj
        have hs := (of_mem_relabel hi).1
        refine ⟨dense, i, (mem i).mpr (.inr ⟨hi, ?_⟩), hs, hp⟩
        rw [hs, hp]
        exact fresh
  case isFalse h =>
    ext p
    constructor
    · rintro ⟨dense, i, hi, hs, rfl⟩
      rcases (mem i).mp hi with hi | ⟨hi, -⟩
      · exact ⟨dense, i, hi, hs, rfl⟩
      · exact absurd (hs.symm.trans (of_mem_relabel hi).1) h
    · rintro ⟨dense, i, hi, hs, rfl⟩
      exact ⟨dense, i, (mem i).mpr (.inl hi), hs, rfl⟩

theorem mem_items_copyInto_of_ne (h : i.snapshotId ≠ target) :
    i ∈ (db.copyInto target rows).items ↔ i ∈ db.items := by
  constructor
  · intro hi
    rcases mem_of_mem_insertAllIgnore hi with hi | ⟨hi, -⟩
    · exact hi
    · exact absurd (of_mem_relabel hi).1 h
  · exact subset_insertAllIgnore _

theorem owns_copyInto_of_ne (h : s ≠ target) :
    (db.copyInto target rows).owns s k = db.owns s k := by
  rw [Bool.eq_iff_iff, owns_iff, owns_iff]
  apply exists_congr
  intro i
  constructor
  · rintro ⟨hi, rfl, hk⟩
    exact ⟨(mem_items_copyInto_of_ne h).mp hi, rfl, hk⟩
  · rintro ⟨hi, rfl, hk⟩
    exact ⟨(mem_items_copyInto_of_ne h).mpr hi, rfl, hk⟩

theorem inherited_copyInto_of_ne (hs : s ≠ target) (hb : b ≠ target)
    (i : SnapshotItem) : (db.copyInto target rows).inherited s b i = db.inherited s b i := by
  simp only [inherited, parentVisible, owns_copyInto_of_ne hs, owns_copyInto_of_ne hb]
  rfl

theorem mem_effective_copyInto_of_ne
    (h : db.snapshot? sid = some s) (root : s.reuseChainRootId = none) (hs : sid ≠ target)
    (hb : ∀ b ∈ s.overlayBaseId, b ≠ target) :
    i ∈ (db.copyInto target rows).snapshotItemsEffective sid ↔ i ∈ db.snapshotItemsEffective sid := by
  have h' : (db.copyInto target rows).snapshot? sid = some s := h
  rw [effective_of_root h root, effective_of_root h' root, mem_append, mem_append]
  apply or_congr
  · simp only [mem_filter, decide_eq_true_eq]
    apply and_congr_left
    rintro rfl
    exact mem_items_copyInto_of_ne hs
  · cases hbase : s.overlayBaseId with
    | none => exact Iff.rfl
    | some b =>
      have hb := hb b hbase
      simp only [mem_filter, inherited_copyInto_of_ne hs hb]
      apply and_congr_left
      intro hi
      exact mem_items_copyInto_of_ne ((inherited_iff.mp hi).1 ▸ hb)

section

variable (nodup : db.Keyed)

include nodup

theorem nodup_keys_filter (p : SnapshotItem → Bool) (same : ∀ i, p i = true → i.snapshotId = b) :
    ((db.items.filter p).map (·.key)).Nodup := by
  have nodup : ((db.items.filter p).map SnapshotItem.uniqueKey).Nodup :=
    nodup.sublist (filter_sublist.map _)
  apply List.Nodup.of_map fun k : ItemKey => (b, k.2, k.1)
  rw [map_map]
  rw [map_congr_left] at nodup
  · exact nodup
  · intro i hi
    simp [SnapshotItem.uniqueKey, Payload.key, same i (mem_filter.mp hi).2]

theorem nodup_keys_inventory : ((db.snapshotItemsEffective sid).map (·.key)).Nodup := by
  rw [snapshotItemsEffective]
  cases ht : db.resolveTarget sid with
  | none => exact nodup_nil
  | some t =>
    have own := nodup_keys_filter nodup (fun i => decide (i.snapshotId = t))
      fun i hi => of_decide_eq_true hi
    cases hb : db.resolveBase sid with
    | none => simpa using own
    | some b =>
      rw [map_append, nodup_append]
      refine ⟨own, nodup_keys_filter nodup _ fun i hi => (inherited_iff.mp hi).1, ?_⟩
      rintro k hk k' hk' rfl
      obtain ⟨i, hi, rfl⟩ := mem_map.mp hk
      obtain ⟨j, hj, hkey⟩ := mem_map.mp hk'
      rw [mem_filter] at hi hj
      exact (inherited_iff.mp hj.2).2.2.1
        (owns_iff.mpr ⟨i, hi.1, of_decide_eq_true hi.2, hkey.symm⟩)

theorem nodup_copyInto : (db.copyInto target rows).Keyed :=
  nodup_insertAllIgnore nodup

end

theorem hidden_addRemovals (s : Uuid) : (db.addRemovals target keys).lineage.hidden s =
      if s = target then db.lineage.hidden target ∪ {k | k ∈ keys} else db.lineage.hidden s := by
  have mem : ∀ r, r ∈ (db.addRemovals target keys).removals ↔
      r ∈ db.removals ∨ (r.snapshotId = target ∧ r.key ∈ keys) := by
    intro r
    rw [addRemovals, mem_insertAllIgnore_id]
    apply or_congr_right
    constructor
    · intro h
      obtain ⟨k, hk, rfl⟩ := mem_map.mp h
      exact ⟨rfl, hk⟩
    · rintro ⟨rfl, hk⟩
      exact mem_map.mpr ⟨r.key, hk, rfl⟩
  ext k
  by_cases h : s = target
  · subst h
    simp only [lineage, if_true, Set.mem_union, Set.mem_ofPred_eq, mem]
    constructor
    · rintro ⟨r, hr | ⟨-, hr⟩, hs, rfl⟩
      · exact .inl ⟨r, hr, hs, rfl⟩
      · exact .inr hr
    · rintro (⟨r, hr, hs, rfl⟩ | hk)
      · exact ⟨r, .inl hr, hs, rfl⟩
      · exact ⟨⟨s, k.1, k.2⟩, .inr ⟨rfl, hk⟩, rfl, rfl⟩
  · simp only [lineage, if_neg h, Set.mem_ofPred_eq, mem]
    constructor
    · rintro ⟨r, hr | ⟨ht, -⟩, hs, rfl⟩
      · exact ⟨r, hr, hs, rfl⟩
      · exact absurd (hs.symm.trans ht) h
    · rintro ⟨r, hr, hs, rfl⟩
      exact ⟨r, .inl hr, hs, rfl⟩

end

variable {db : Db}

theorem snapshot?_eq_some (nodup : (db.snapshots.map (·.id)).Nodup)
    : db.snapshot? sid = some s ↔ s ∈ db.snapshots ∧ s.id = sid :=
  find?_key_eq_some nodup

/-- What the schema and the writers promise of every database: primary and unique keys, and a
lineage of one-hop pointers and overlays. -/
structure Wf (db : Db) : Prop where
  snapshot_ids : (db.snapshots.map (·.id)).Nodup
  item_keys : (db.items.map SnapshotItem.uniqueKey).Nodup
  flat : db.lineage.Flat layering

structure TablesWf (db : Db) : Prop where
  snapshot_ids : (db.snapshots.map (·.id)).Nodup
  item_keys : (db.items.map SnapshotItem.uniqueKey).Nodup
  pointer : ∀ s ∈ db.snapshots, ∀ r ∈ s.reuseChainRootId, s.overlayBaseId = none ∧
    ∀ t ∈ db.snapshots, t.id = r → t.reuseChainRootId = none
  overlay : ∀ s ∈ db.snapshots, ∀ b ∈ s.overlayBaseId, ∀ t ∈ db.snapshots, t.id = b →
    t.reuseChainRootId = none ∧ t.overlayBaseId = none
  pointer_rows : ∀ s ∈ db.snapshots, s.reuseChainRootId ≠ none →
    ∀ i ∈ db.items, i.snapshotId = s.id → i.itemType.sparse
  removals : ∀ r ∈ db.removals, ∃ s ∈ db.snapshots, s.id = r.snapshotId ∧ s.overlayBaseId ≠ none

theorem keyed_lineage (nodup : db.Keyed) (s : Uuid) :
    layering.Keyed (db.lineage.rows s) := by
  rintro p ⟨-, i, hi, hs, rfl⟩ p' ⟨-, i', hi', hs', rfl⟩ hk
  have : i.uniqueKey = i'.uniqueKey := by
    have hk : (i.itemType, i.externalId) = (i'.itemType, i'.externalId) := hk
    simp_all [SnapshotItem.uniqueKey]
  rw [inj_on_of_nodup_map nodup hi hi' this]

theorem TablesWf.not_removed (h : db.TablesWf)
    (ht : db.snapshot? sid = some t) (plain : t.overlayBaseId = none) (k : ItemKey) :
    db.removed sid k = false := by
  rw [← Bool.not_eq_true, removed_iff]
  rintro ⟨r, hr, hrs, -⟩
  obtain ⟨x, hx, hid, overlay⟩ := h.removals r hr
  cases ht.symm.trans ((snapshot?_eq_some h.snapshot_ids).mpr ⟨hx, hid.trans hrs⟩)
  exact overlay plain

theorem TablesWf.wf (h : db.TablesWf) : db.Wf := by
  have found : ∀ {sid s}, db.snapshot? sid = some s → s ∈ db.snapshots ∧ s.id = sid :=
    fun hs => (snapshot?_eq_some h.snapshot_ids).mp hs
  have bind_none : ∀ {sid} {f : Snapshot → Option Uuid},
      (∀ t ∈ db.snapshots, t.id = sid → f t = none) → (db.snapshot? sid).bind f = none := by
    intro sid f hf
    cases hs : db.snapshot? sid with
    | none => rfl
    | some s => exact hf s (found hs).1 (found hs).2
  refine ⟨h.snapshot_ids, h.item_keys, fun {s r} hs => ?_, fun {s b} hs => ?_, fun {s r} hs => ?_,
    fun {s} hs => ?_, keyed_lineage h.item_keys⟩
  · obtain ⟨x, hx, hr⟩ := Option.bind_eq_some_iff.mp hs
    obtain ⟨base, flat⟩ := h.pointer x (found hx).1 r hr
    exact ⟨bind_none flat, by simp [lineage, hx, base]⟩
  · obtain ⟨x, hx, hb⟩ := Option.bind_eq_some_iff.mp hs
    have flat := h.overlay x (found hx).1 b hb
    exact ⟨bind_none fun t ht hid => (flat t ht hid).1, bind_none fun t ht hid => (flat t ht hid).2⟩
  · obtain ⟨x, hx, hr⟩ := Option.bind_eq_some_iff.mp hs
    refine Set.eq_empty_iff_forall_notMem.mpr ?_
    rintro p ⟨dense, i, hi, hsid, rfl⟩
    refine dense (h.pointer_rows x (found hx).1 (by simp [hr]) i hi ?_)
    rw [hsid, (found hx).2]
  · refine Set.eq_empty_iff_forall_notMem.mpr ?_
    rintro k ⟨r, hr, rfl, -⟩
    obtain ⟨x, hx, hid, hb⟩ := h.removals r hr
    have hx' := (snapshot?_eq_some h.snapshot_ids).mpr ⟨hx, hid⟩
    exact hb (by simpa [lineage, hx'] using hs)

instance (db : Db) : Decidable db.TablesWf :=
  decidable_of_iff (_ ∧ _ ∧ _ ∧ _ ∧ _ ∧ _)
    ⟨fun ⟨a, b, c, d, e, f⟩ => ⟨a, b, c, d, e, f⟩, fun ⟨a, b, c, d, e, f⟩ => ⟨a, b, c, d, e, f⟩⟩

end Db

end TmVault.Store
