import Mathlib.Algebra.Ring.Int.Defs
import TmVault.Store.Effective

namespace TmVault.Retention

open Relational Store

def takenBefore (a b : Snapshot) : Bool :=
  match a.takenAt, b.takenAt with
  | some x, some y => x < y
  | some _, none => true
  | none, _ => false

def heirCandidates (db : Db) (doomedId : Uuid) (doomedIds : List Uuid) : List Snapshot :=
  db.snapshots.filter fun s =>
    s.reuseChainRootId = some doomedId && s.id ≠ doomedId && s.id ∉ doomedIds &&
      s.status = some .completed

def copyChatInventories (db : Db) (heir doomedId : Uuid) : Db :=
  { db with
    chatInventories := insertAllIgnore (fun c => (c.snapshotId, c.chatId)) db.chatInventories
      ((db.chatInventories.filter (·.snapshotId = doomedId)).map fun c =>
        { c with snapshotId := heir, uploadedBytes := 0 }) }

def markChatInventoryFormat (db : Db) (heir doomedId : Uuid) : Db :=
  if (db.snapshot? doomedId).any fun d => d.extraData.chatInventoryFormat = some "1" then
    db.setWhere [heir] fun h =>
      { h with extraData := { h.extraData with chatInventoryFormat := some "1" } }
  else db

def sumSizes (rows : List SnapshotItem) : Int := (rows.map fun i => i.contentSize.getD 0).sum

def promote (db : Db) (now : Time) (d h : Snapshot) : Snapshot :=
  let rows := db.items.filter (·.snapshotId = h.id)
  { h with
    reuseOfSnapshotId := none, reuseChainRootId := none, itemCount := some rows.length
    bytesTotal := some (sumSizes rows), deltaToken := h.deltaToken.or d.deltaToken
    deltaTokensJson := if h.deltaTokensJson.getD [] = [] then d.deltaTokensJson else h.deltaTokensJson
    extraData := { h.extraData with
      reuseRehydratedFrom := some d.id, reuseRehydratedAt := some now } }

def restateCounts (db : Db) (sid : Uuid) : Db :=
  db.setWhere [sid] fun s =>
    let rows := db.snapshotItemsEffective s.id
    let primary := rows.filter fun e =>
      s.extraData.chatInventoryFormat ≠ some "1" ||
        e.itemType ∉ [ItemType.chatAttachment, ItemType.chatHostedContent]
    { s with itemCount := some primary.length, bytesTotal := some (sumSizes rows) }

def repoint (doomedId heir : Uuid) (s : Snapshot) : Snapshot :=
  { s with
    reuseOfSnapshotId :=
      if s.reuseOfSnapshotId = some doomedId then some heir else s.reuseOfSnapshotId
    reuseChainRootId := some heir }

def repointed (db : Db) (doomedId heir : Uuid) : List Uuid :=
  (db.snapshots.filter fun s => s.reuseChainRootId = some doomedId && s.id ≠ heir).map (·.id)

/-- `_rehydrate_reuse_heir` once the heir is chosen: it takes the doomed snapshot's rows and
becomes full, and the other pointers move to it. -/
def rehydrateInto (now : Time) (doomedId heir : Uuid) (db : Db) : Tx Db := do
  let db := db.copyInto heir (db.items.filter (·.snapshotId = doomedId))
  let db := copyChatInventories db heir doomedId
  let db := markChatInventoryFormat db heir doomedId
  let db ← match db.snapshot? doomedId with
    | none => pure db
    | some d => Db.updateWhere Db.validateReuseColumns [heir] (promote db now d) db
  let db := restateCounts db heir
  Db.updateWhere Db.validateReuseColumns (repointed db doomedId heir) (repoint doomedId heir) db

def rehydrateReuseHeir (now : Time) (doomedId : Uuid) (doomedIds : List Uuid) (db : Db) :
    Tx (Db × Option Uuid) :=
  match orderByFirst takenBefore (heirCandidates db doomedId doomedIds) with
  | none => pure (db, none)
  | some heir => do
    let db ← rehydrateInto now doomedId heir.id db
    pure (db, some heir.id)

section

variable (md5 : List Payload → String)

def inventoryFingerprint (db : Db) (sid : Uuid) : Nat × String :=
  let rows := (db.snapshotItemsEffective sid).map (·.toPayload)
  (rows.length, md5 (rows.insertionSort fun a b =>
    a.itemType.name < b.itemType.name ∨
      (a.itemType.name = b.itemType.name ∧ a.externalId ≤ b.externalId)))

def assertInventoryKept (db : Db) (sid : Uuid) (before : Nat × String) (what : String) : Tx Unit :=
  let after := inventoryFingerprint md5 db sid
  if after ≠ before then throw (.inventoryChanged what sid before.1 after.1) else pure ()

def differs (db : Db) (differingFrom : Option Uuid) (e : SnapshotItem) : Bool :=
  match differingFrom with
  | none => true
  | some h => !db.items.any fun i => i.snapshotId = h && i.toPayload = e.toPayload

/-- The base rows `_copy_base_rows` makes the overlay own: all that show, or those the snapshot
`differingFrom` lacks or holds differently. -/
def baseRowsToCopy (db : Db) (overlay base : Uuid) (differingFrom : Option Uuid) :
    List SnapshotItem :=
  (db.snapshotItemsEffective overlay).filter fun e =>
    e.snapshotId = base && differs db differingFrom e

def copyBaseRows (db : Db) (overlay base : Uuid) (differingFrom : Option Uuid) : Db :=
  db.copyInto overlay (baseRowsToCopy db overlay base differingFrom)

def keysToHide (db : Db) (overlay newBase : Uuid) : List ItemKey :=
  (db.items.filter fun h =>
    h.snapshotId = newBase && h.itemType ∈ ItemType.overlayTypes &&
      !(db.snapshotItemsEffective overlay).any fun e => e.key = h.key).map (·.key)

def onBase (base : Uuid) (s : Snapshot) : Snapshot := { s with overlayBaseId := some base }

def materialised (doomedId : Uuid) (s : Snapshot) : Snapshot :=
  { s with
    overlayBaseId := none
    extraData := { s.extraData with overlayMaterialisedFrom := some doomedId } }

def rebaseOverlay (oldBase newBase : Uuid) (db : Db) (overlay : Uuid) : Tx Db := do
  let before := inventoryFingerprint md5 db overlay
  let db := copyBaseRows db overlay oldBase (some newBase)
  let db := db.addRemovals overlay (keysToHide db overlay newBase)
  let db ← Db.updateWhere Db.validateSnapshotOverlayBase [overlay] (onBase newBase) db
  assertInventoryKept md5 db overlay before "rebase"
  pure db

def handOver (doomedId base heir : Uuid) (db : Db) : Tx Db := do
  let before := inventoryFingerprint md5 db doomedId
  let db := db.addRemovals heir ((db.removals.filter (·.snapshotId = doomedId)).map (·.key))
  let db ← Db.updateWhere Db.validateSnapshotOverlayBase [heir] (onBase base) db
  assertInventoryKept md5 db heir before "overlay hand-over"
  pure (restateCounts db heir)

def materialise (doomedId heir : Uuid) (db : Db) : Tx Db := do
  let before := inventoryFingerprint md5 db heir
  let db := copyBaseRows db heir doomedId none
  let db := { db with removals := db.removals.filter (·.snapshotId ≠ heir) }
  let db ← Db.updateWhere Db.validateSnapshotOverlayBase [heir] (materialised doomedId) db
  assertInventoryKept md5 db heir before "overlay materialisation"
  pure (restateCounts db heir)

def survivingOverlays (db : Db) (doomedId : Uuid) (doomedIds : List Uuid) : List Uuid :=
  ((db.snapshots.filter fun s => s.overlayBaseId = some doomedId && s.id ∉ doomedIds).insertionSort
    fun a b => takenBefore a b ∨ (¬ takenBefore b a ∧ a.id ≤ b.id)).map (·.id)

def rehydrateOverlayDependents (doomedId : Uuid) (pointerHeir : Option Uuid)
    (doomedIds : List Uuid) (db : Db) : Tx Db :=
  match db.snapshot? doomedId with
  | none => pure db
  | some doomed =>
    match doomed.overlayBaseId, pointerHeir with
    | some base, some heir => handOver md5 doomedId base heir db
    | some _, none => pure db
    | none, some heir =>
      (survivingOverlays db doomedId doomedIds).foldlM (rebaseOverlay md5 doomedId heir) db
    | none, none =>
      match survivingOverlays db doomedId doomedIds with
      | [] => pure db
      | heir :: survivors => do
        let db ← materialise md5 doomedId heir db
        survivors.foldlM (rebaseOverlay md5 doomedId heir) db

def rehydrate (now : Time) (doomedIds : List Uuid) (db : Db) (sid : Uuid) : Tx Db := do
  let (db, heir) ← rehydrateReuseHeir now sid doomedIds db
  rehydrateOverlayDependents md5 sid heir doomedIds db

end

open List Db

variable {db db' : Db} {d h o b : Uuid} {md5 : List Payload → String}
  {g : Lineage Uuid Payload ItemKey}

structure Kept (db db' : Db) : Prop where
  wf : db'.Wf
  ids : db'.snapshots.map (·.id) = db.snapshots.map (·.id)
  inventory : ∀ s, db'.lineage.inventory layering s = db.lineage.inventory layering s

namespace Kept

theorem refl (wf : db.Wf) : Kept db db := ⟨wf, rfl, fun _ => rfl⟩

theorem trans (h : Kept db db') (h' : Kept db' db'') : Kept db db'' :=
  ⟨h'.wf, h'.ids.trans h.ids, fun s => (h'.inventory s).trans (h.inventory s)⟩

end Kept

theorem exists_snapshot_of_base (ho : db.lineage.base o = some b) :
    ∃ s, db.snapshot? o = some s ∧ s.overlayBaseId = some b :=
  Option.bind_eq_some_iff.mp ho

theorem differs_iff : differs db differing e = true ↔ ∀ h, differing = some h →
      ¬ ∃ i ∈ db.items, i.snapshotId = h ∧ i.toPayload = e.toPayload := by
  cases differing <;> simp [differs]

section

variable (wf : db.Wf) (ho : db.lineage.base o = some b) {b' : Uuid}

include wf ho

theorem base_ne : b ≠ o := wf.flat.base_ne_overlay ho ho

theorem effective_overlay : db.snapshotItemsEffective o =
    db.items.filter (·.snapshotId = o) ++ db.items.filter (db.inherited o b) := by
  obtain ⟨s, hs, -⟩ := exists_snapshot_of_base ho
  have target : db.lineage.target o = o := Lineage.target_of_full (wf.flat.root_of_overlay ho)
  rw [snapshotItemsEffective, resolveTarget_eq hs, resolveBase_eq hs, target, ho]

theorem baseRowsToCopy_eq (differing : Option Uuid) : baseRowsToCopy db o b differing =
      db.items.filter fun e => db.inherited o b e && differs db differing e := by
  have own : ∀ e : SnapshotItem, ¬ (e.snapshotId = o ∧ e.snapshotId = b) :=
    fun e he => base_ne wf ho (he.2.symm.trans he.1)
  have base : ∀ e, db.inherited o b e = true → e.snapshotId = b :=
    fun e he => (inherited_iff.mp he).1
  rw [baseRowsToCopy, effective_overlay wf ho, filter_append, filter_filter,
    filter_filter, filter_eq_nil_iff.mpr, nil_append]
  · apply filter_congr
    intro e _
    cases hi : db.inherited o b e with
    | false => simp
    | true => simp [base e hi]
  · intro e _ he
    simp only [Bool.and_eq_true, decide_eq_true_eq] at he
    exact own e ⟨he.2, he.1.1⟩

theorem lineage_copyBaseRows (differing : Option Uuid) :
    (copyBaseRows db o b differing).lineage = db.lineage.absorb o
      {p | layering.Shows (db.lineage.rows o) (db.lineage.rows b) (db.lineage.hidden o) p ∧
        ∀ h, differing = some h → p ∉ db.lineage.rows h} := by
  have distinct : ((baseRowsToCopy db o b differing).map (·.key)).Nodup := by
    rw [baseRowsToCopy_eq wf ho]
    apply nodup_keys_filter wf.item_keys
    intro e he
    rw [Bool.and_eq_true] at he
    exact (inherited_iff.mp he.1).1
  apply Lineage.ext
  · rfl
  · rfl
  · funext s
    rw [copyBaseRows, rows_copyInto distinct, Lineage.absorb]
    apply if_congr Iff.rfl _ rfl
    congr 1
    ext p
    simp only [Set.mem_ofPred_eq, shows_lineage, baseRowsToCopy_eq wf ho, mem_filter,
      Bool.and_eq_true, differs_iff]
    constructor
    · rintro ⟨dense, ⟨e, ⟨he, hi, hd⟩, rfl⟩, -⟩
      exact ⟨⟨e, he, hi, rfl⟩, fun h hh hr => hd h hh hr.2⟩
    · rintro ⟨⟨e, he, hi, rfl⟩, hd⟩
      have dense := ItemType.not_sparse_of_overlay (inherited_iff.mp hi).2.1
      exact ⟨dense, ⟨e, ⟨he, hi, fun h hh hr => hd h hh ⟨dense, hr⟩⟩, rfl⟩,
        (inherited_iff.mp hi).2.2.1⟩
  · rfl

omit wf in
theorem copied_shows
    (hp : p ∈ {p | layering.Shows (db.lineage.rows o) (db.lineage.rows b) (db.lineage.hidden o) p ∧
      ∀ h, differing = some h → p ∉ db.lineage.rows h}) :
    layering.Shows (db.lineage.rows o) (db.lineage.baseRows o) (db.lineage.hidden o) p := by
  rw [Lineage.baseRows_of_base ho]
  exact hp.1

theorem kept_copyBaseRows (differing : Option Uuid) : Kept db (copyBaseRows db o b differing) where
  wf := {
    snapshot_ids := wf.snapshot_ids, item_keys := nodup_insertAllIgnore wf.item_keys, flat := by
      rw [lineage_copyBaseRows wf ho]
      exact wf.flat.absorb ho fun _ hp => copied_shows ho hp }
  ids := rfl
  inventory s := by
    rw [lineage_copyBaseRows wf ho]
    exact Lineage.inventory_absorb wf.flat ho (fun _ hp => copied_shows ho hp) s

omit wf in
theorem lineage_rehang (b' : Uuid) :
    ((db.addRemovals o (keysToHide db o b')).setWhere [o] (onBase b')).lineage =
      db.lineage.rehang layering o b' := by
  obtain ⟨s, hs, -⟩ := exists_snapshot_of_base ho
  have hs' : (db.addRemovals o (keysToHide db o b')).snapshot? o = some s := hs
  apply Lineage.ext
  · funext t
    rw [root_setWhere (f := onBase b') fun _ => rfl]
    exact ite_self _
  · funext t
    rw [base_setWhere (f := onBase b') fun _ => rfl, Lineage.rehang]
    by_cases ht : t = o
    · simp [ht, hs', onBase]
    · simp only [ht, mem_singleton, if_false]
      rfl
  · rfl
  · funext t
    change (db.addRemovals o (keysToHide db o b')).lineage.hidden t = _
    rw [hidden_addRemovals, Lineage.rehang]
    apply if_congr Iff.rfl _ rfl
    congr 1
    ext k
    simp only [keysToHide, Set.mem_ofPred_eq, mem_map, mem_filter, Bool.and_eq_true,
      decide_eq_true_eq, Bool.not_eq_true', any_eq_false]
    constructor
    · rintro ⟨i, ⟨hi, ⟨hb, inherits⟩, unseen⟩, rfl⟩
      have dense := ItemType.not_sparse_of_overlay inherits
      refine ⟨i.toPayload, ⟨dense, i, hi, hb, rfl⟩, inherits, rfl, ?_⟩
      rintro ⟨p, hp, hk⟩
      have dense' : ¬ p.itemType.sparse := by
        rw [show p.itemType = i.itemType from congrArg Prod.fst hk]
        exact dense
      obtain ⟨e, he, rfl⟩ := (effective_lineage hs dense').mpr hp
      exact unseen e he hk
    · rintro ⟨p, ⟨dense, i, hi, hb, rfl⟩, inherits, rfl, unseen⟩
      refine ⟨i, ⟨hi, ⟨hb, inherits⟩, fun e he hk => unseen ⟨e.toPayload, ?_, hk⟩⟩, rfl⟩
      have dense' : ¬ e.itemType.sparse := by
        rw [show e.itemType = i.itemType from congrArg Prod.fst hk]
        exact dense
      exact (effective_lineage hs dense').mp ⟨e, he, rfl⟩

theorem kept_rehang (hne : b' ≠ o) (root : db.lineage.root b' = none)
    (base : db.lineage.base b' = none)
    (shared : ∀ r, layering.Shows (db.lineage.rows o) (db.lineage.baseRows o) (db.lineage.hidden o) r →
      r ∈ db.lineage.rows b') :
    Kept db ((db.addRemovals o (keysToHide db o b')).setWhere [o] (onBase b')) where
  wf := {
    snapshot_ids := by
      rw [ids_setWhere (f := onBase b') fun _ => rfl]
      exact wf.snapshot_ids
    item_keys := wf.item_keys, flat := by
      rw [lineage_rehang ho]
      exact wf.flat.rehang ho hne root base }
  ids := ids_setWhere (f := onBase b') fun _ => rfl
  inventory s := by
    rw [lineage_rehang ho]
    exact Lineage.inventory_rehang wf.flat ho shared s

theorem shared_copyBaseRows (hne : b' ≠ o) (r : Payload)
    (hr : layering.Shows ((copyBaseRows db o b (some b')).lineage.rows o)
      ((copyBaseRows db o b (some b')).lineage.baseRows o)
      ((copyBaseRows db o b (some b')).lineage.hidden o) r) :
    r ∈ (copyBaseRows db o b (some b')).lineage.rows b' := by
  rw [lineage_copyBaseRows wf ho] at hr ⊢
  obtain ⟨shows, notTaken⟩ := Lineage.shows_absorb wf.flat ho (fun _ hp => hp.1) hr
  have rows : r ∈ db.lineage.rows b' := by
    by_contra absent
    apply notTaken
    refine ⟨shows, fun h hh => ?_⟩
    cases hh
    exact absent
  simpa [hne] using rows

theorem rebaseOverlay_kept (hne : b' ≠ o) (root : db.lineage.root b' = none)
    (base : db.lineage.base b' = none) (h : rebaseOverlay md5 b b' db o = .ok db') :
    Kept db db' ∧ db'.lineage.root = db.lineage.root ∧
      ∀ s, s ≠ o → db'.lineage.base s = db.lineage.base s := by
  obtain ⟨db₂, h₂, -, -, h⟩ := of_bind₂ h
  cases h
  rw [updateWhere_ok (f := onBase b') (fun _ => rfl) (nodup_singleton o) h₂]
  have copied := kept_copyBaseRows wf ho (some b')
  have ho₁ : (copyBaseRows db o b (some b')).lineage.base o = some b := ho
  refine ⟨copied.trans (kept_rehang copied.wf ho₁ hne root base (shared_copyBaseRows wf ho hne)),
    ?_, fun s hs => ?_⟩
  · rw [lineage_rehang ho₁]
    rfl
  · rw [lineage_rehang ho₁]
    exact if_neg hs

end

theorem rebaseAll_kept {b' : Uuid} {overlays : List Uuid} (wf : db.Wf)
    (root : db.lineage.root b' = none) (base : db.lineage.base b' = none)
    (nodup : overlays.Nodup) (onOld : ∀ o ∈ overlays, db.lineage.base o = some b)
    (h : overlays.foldlM (rebaseOverlay md5 b b') db = .ok db') : Kept db db' := by
  refine (foldlM_ok (fun db₁ os => Kept db db₁ ∧ db₁.lineage.root b' = none ∧
    db₁.lineage.base b' = none ∧ os.Nodup ∧ ∀ o ∈ os, db₁.lineage.base o = some b) ?_
    ⟨.refl wf, root, base, nodup, onOld⟩ h).1
  rintro db₁ db₂ o os ⟨kept, root, base, nodup, onOld⟩ h
  rw [nodup_cons] at nodup
  have ho := onOld o mem_cons_self
  have hne : b' ≠ o := by
    rintro rfl
    rw [base] at ho
    cases ho
  obtain ⟨step, root', base'⟩ := rebaseOverlay_kept kept.wf ho hne root base h
  refine ⟨kept.trans step, root' ▸ root, (base' b' hne).trans base, nodup.2, fun o' ho' => ?_⟩
  have hne' : o' ≠ o := fun he => nodup.1 (he ▸ ho')
  exact (base' o' hne').trans (onOld o' (mem_cons_of_mem o ho'))

theorem lineage_detach : ({ db with removals := db.removals.filter (·.snapshotId ≠ o) }.setWhere [o]
    (materialised d)).lineage = db.lineage.detach o := by
  apply Lineage.ext
  · funext t
    rw [root_setWhere (f := materialised d) fun _ => rfl]
    exact ite_self _
  · funext t
    rw [base_setWhere (f := materialised d) fun _ => rfl, Lineage.detach]
    by_cases ht : t = o
    · simp only [ht, mem_singleton, if_true]
      cases { db with removals := db.removals.filter (·.snapshotId ≠ o) }.snapshot? o <;> rfl
    · simp only [ht, mem_singleton, if_false]
      rfl
  · rfl
  · funext t
    ext k
    by_cases ht : t = o
    · simp only [Db.lineage, Lineage.detach, setWhere, ht, if_true, Set.mem_ofPred_eq,
        mem_filter, decide_eq_true_eq, Set.mem_empty_iff_false, iff_false]
      rintro ⟨r, ⟨-, hne⟩, hs, -⟩
      exact hne hs
    · simp only [Db.lineage, Lineage.detach, setWhere, ht, if_false, Set.mem_ofPred_eq,
        mem_filter, decide_eq_true_eq]
      constructor
      · rintro ⟨r, ⟨hr, -⟩, hs, hk⟩
        exact ⟨r, hr, hs, hk⟩
      · rintro ⟨r, hr, hs, hk⟩
        exact ⟨r, ⟨hr, fun ho => ht (hs.symm.trans ho)⟩, hs, hk⟩

theorem lineage_restateCounts : (restateCounts db h).lineage = db.lineage :=
  lineage_setWhere (fun _ => rfl) (fun _ => rfl) fun _ => rfl

theorem ids_restateCounts : (restateCounts db h).snapshots.map (·.id) = db.snapshots.map (·.id) :=
  ids_setWhere fun _ => rfl

theorem kept_restateCounts (wf : db.Wf) : Kept db (restateCounts db h) where
  wf := {
    snapshot_ids := by
      rw [ids_restateCounts]
      exact wf.snapshot_ids
    item_keys := wf.item_keys, flat := by
      rw [lineage_restateCounts]
      exact wf.flat }
  ids := ids_restateCounts
  inventory s := by rw [lineage_restateCounts]

theorem materialise_kept (wf : db.Wf) (ho : db.lineage.base o = some b)
    (h : materialise md5 b o db = .ok db') :
    Kept db db' ∧ db'.lineage.root = db.lineage.root ∧ db'.lineage.base o = none ∧
      ∀ s, s ≠ o → db'.lineage.base s = db.lineage.base s := by
  obtain ⟨db₂, h₂, -, -, h⟩ := of_bind₂ h
  cases h
  have copied := kept_copyBaseRows wf ho none
  have ho₁ : (copyBaseRows db o b none).lineage.base o = some b := ho
  have none_shown : ∀ r, ¬ layering.Shows ((copyBaseRows db o b none).lineage.rows o)
      ((copyBaseRows db o b none).lineage.baseRows o)
      ((copyBaseRows db o b none).lineage.hidden o) r := by
    intro r hr
    rw [lineage_copyBaseRows wf ho] at hr
    obtain ⟨shows, notTaken⟩ := Lineage.shows_absorb wf.flat ho (fun _ hp => hp.1) hr
    exact notTaken ⟨shows, fun h hh => by cases hh⟩
  have hdb₂ := updateWhere_ok (f := materialised b) (fun _ => rfl) (nodup_singleton o) h₂
  have lineage₂ : db₂.lineage = (copyBaseRows db o b none).lineage.detach o :=
    hdb₂ ▸ lineage_detach
  have detached : Kept (copyBaseRows db o b none) db₂ := by
    refine ⟨⟨?_, ?_, ?_⟩, ?_, fun s => ?_⟩
    · rw [hdb₂, ids_setWhere (f := materialised b) fun _ => rfl]
      exact wf.snapshot_ids
    · rw [hdb₂]
      exact copied.wf.item_keys
    · rw [lineage₂]
      exact copied.wf.flat.detach
    · rw [hdb₂]
      exact ids_setWhere (f := materialised b) fun _ => rfl
    · rw [lineage₂]
      exact Lineage.inventory_detach copied.wf.flat ho₁ none_shown s
  refine ⟨(copied.trans detached).trans (kept_restateCounts detached.wf), ?_, ?_, fun s hs => ?_⟩
  · rw [lineage_restateCounts, lineage₂]
    rfl
  · rw [lineage_restateCounts, lineage₂]
    exact if_pos rfl
  · rw [lineage_restateCounts, lineage₂]
    exact if_neg hs

def promoted (g : Lineage Uuid Payload ItemKey) (d h : Uuid) : Lineage Uuid Payload ItemKey :=
  { g.bequeath d h with base := g.base, hidden := g.hidden }

theorem lineage_copyChatInventories : (copyChatInventories db h d).lineage = db.lineage := rfl

theorem lineage_markChatInventoryFormat :
    (markChatInventoryFormat db h d).lineage = db.lineage := by
  rw [markChatInventoryFormat]
  split
  · exact lineage_setWhere (fun _ => rfl) (fun _ => rfl) fun _ => rfl
  · rfl

theorem ids_markChatInventoryFormat :
    (markChatInventoryFormat db h d).snapshots.map (·.id) = db.snapshots.map (·.id) := by
  rw [markChatInventoryFormat]
  split
  · exact ids_setWhere fun _ => rfl
  · rfl

theorem items_markChatInventoryFormat : (markChatInventoryFormat db h d).items = db.items := by
  rw [markChatInventoryFormat]
  split <;> rfl

theorem rows_copyInto_heir (wf : db.Wf) (hh : db.lineage.root h = some d) (s : Uuid) :
    (db.copyInto h (db.items.filter (·.snapshotId = d))).lineage.rows s =
      if s = h then db.lineage.rows d else db.lineage.rows s := by
  have distinct := nodup_keys_filter wf.item_keys (fun i => decide (i.snapshotId = d))
    fun i hi => of_decide_eq_true hi
  rw [rows_copyInto distinct]
  apply if_congr Iff.rfl _ rfl
  rw [wf.flat.pointer_rows hh, Set.empty_union]
  ext p
  simp only [Set.mem_ofPred_eq, mem_filter, decide_eq_true_eq, Db.lineage]
  constructor
  · rintro ⟨dense, ⟨j, ⟨hj, hs⟩, rfl⟩, -⟩
    exact ⟨dense, j, hj, hs, rfl⟩
  · rintro ⟨dense, j, hj, hs, rfl⟩
    refine ⟨dense, ⟨j, ⟨hj, hs⟩, rfl⟩, fun ho => ?_⟩
    obtain ⟨p, hp, -⟩ := (owns_lineage dense).mpr ho
    rw [wf.flat.pointer_rows hh] at hp
    exact hp

theorem mem_repointed (nodup : (db.snapshots.map (·.id)).Nodup) :
    s ∈ repointed db d h ↔ db.lineage.root s = some d ∧ s ≠ h := by
  simp only [repointed, mem_map, mem_filter, Bool.and_eq_true, decide_eq_true_eq,
    Db.lineage, Option.bind_eq_some_iff, snapshot?_eq_some nodup]
  constructor
  · rintro ⟨x, ⟨hx, hr, hne⟩, rfl⟩
    exact ⟨⟨x, ⟨hx, rfl⟩, hr⟩, hne⟩
  · rintro ⟨⟨x, ⟨hx, rfl⟩, hr⟩, hne⟩
    exact ⟨x, ⟨hx, hr, hne⟩, rfl⟩

theorem nodup_repointed (nodup : (db.snapshots.map (·.id)).Nodup) : (repointed db d h).Nodup :=
  nodup.sublist (filter_sublist.map _)

theorem exists_snapshot_of_ids
    (ids : db'.snapshots.map (·.id) = db.snapshots.map (·.id)) (hx : db.snapshot? s = some x) :
    ∃ x', db'.snapshot? s = some x' := by
  rw [← Option.isSome_iff_exists, snapshot?, find?_isSome]
  have mem : s ∈ db'.snapshots.map (·.id) := by
    rw [ids]
    exact mem_map.mpr ⟨x, mem_of_find?_eq_some hx, snapshot?_id hx⟩
  obtain ⟨x', hx', hid⟩ := mem_map.mp mem
  exact ⟨x', hx', by simpa using hid⟩

theorem lineage_promote : (db.setWhere [h] (promote db now x)).lineage =
      { db.lineage with root := fun s => if s = h then none else db.lineage.root s } := by
  apply Lineage.ext
  · funext s
    rw [root_setWhere (f := promote db now x) fun _ => rfl]
    by_cases hs : s = h
    · simp only [hs, mem_singleton, if_true]
      cases db.snapshot? h <;> rfl
    · simp only [hs, mem_singleton, if_false]
  · funext s
    rw [base_setWhere (f := promote db now x) fun _ => rfl]
    exact ite_self _
  · rfl
  · rfl

theorem lineage_repoint (nodup : (db.snapshots.map (·.id)).Nodup) :
    (db.setWhere (repointed db d h) (repoint d h)).lineage =
      { db.lineage with
        root := fun s => if db.lineage.root s = some d ∧ s ≠ h then some h else db.lineage.root s } := by
  apply Lineage.ext
  · funext s
    rw [root_setWhere (f := repoint d h) fun _ => rfl]
    apply if_ctx_congr (mem_repointed nodup) _ fun _ => rfl
    rintro ⟨hr, -⟩
    obtain ⟨x, hx, -⟩ := Option.bind_eq_some_iff.mp hr
    rw [hx]
    rfl
  · funext s
    rw [base_setWhere (f := repoint d h) fun _ => rfl]
    exact ite_self _
  · rfl
  · rfl

theorem rehydrateInto_lineage (wf : db.Wf)
    (hh : db.lineage.root h = some d) (hd : db.snapshot? d = some x)
    (hok : rehydrateInto now d h db = .ok db') : db'.lineage = promoted db.lineage d h ∧
      db'.snapshots.map (·.id) = db.snapshots.map (·.id) ∧
      db'.Keyed := by
  rw [rehydrateInto] at hok
  set db₃ := markChatInventoryFormat
    (copyChatInventories (db.copyInto h (db.items.filter (·.snapshotId = d))) h d) h d with hdb₃
  have ids₃ : db₃.snapshots.map (·.id) = db.snapshots.map (·.id) := ids_markChatInventoryFormat
  have items₃ : (db₃.items.map SnapshotItem.uniqueKey).Nodup := by
    rw [hdb₃, items_markChatInventoryFormat]
    exact nodup_insertAllIgnore wf.item_keys
  have lineage₃ : db₃.lineage =
      { db.lineage with rows := fun s => if s = h then db.lineage.rows d else db.lineage.rows s } := by
    rw [hdb₃, lineage_markChatInventoryFormat, lineage_copyChatInventories]
    exact Lineage.ext rfl rfl (funext (rows_copyInto_heir wf hh)) rfl
  obtain ⟨x₃, hx₃⟩ := exists_snapshot_of_ids ids₃ hd
  simp only [hx₃] at hok
  obtain ⟨db₄, h₄, hok⟩ := of_bind hok
  have hdb₄ := updateWhere_ok (f := promote db₃ now x₃) (fun _ => rfl)
    (nodup_singleton h) h₄
  have ids₄ : (restateCounts db₄ h).snapshots.map (·.id) = db.snapshots.map (·.id) := by
    rw [ids_restateCounts, hdb₄, ids_setWhere (f := promote db₃ now x₃) fun _ => rfl, ids₃]
  have nodup₄ : ((restateCounts db₄ h).snapshots.map (·.id)).Nodup := ids₄ ▸ wf.snapshot_ids
  have hdb' := updateWhere_ok (f := repoint d h) (fun _ => rfl) (nodup_repointed nodup₄) hok
  refine ⟨?_, ?_, ?_⟩
  · rw [hdb', lineage_repoint nodup₄, lineage_restateCounts, hdb₄, lineage_promote, lineage₃]
    apply Lineage.ext
    · funext s
      by_cases hs : s = h <;> simp [promoted, hs]
    · rfl
    · rfl
    · rfl
  · rw [hdb', ids_setWhere (f := repoint d h) fun _ => rfl, ids₄]
  · rw [hdb', setWhere, restateCounts, setWhere, hdb₄]
    exact items₃

theorem promoted_full (flat : g.Flat layering)
    (hh : g.root h = some d) (hd : g.base d = none) : promoted g d h = g.bequeath d h := by
  have base : g.base h = none := (flat.pointer hh).2
  apply Lineage.ext
  · rfl
  · funext s
    by_cases hs : s = h
    · simp [promoted, hs, hd, base]
    · simp [promoted, hs]
  · rfl
  · funext s
    by_cases hs : s = h
    · simp [promoted, hs, flat.full_hidden hd, flat.full_hidden base]
    · simp [promoted, hs]

theorem handOver_lineage (flat : g.Flat layering)
    (hh : g.root h = some d) (hd : g.base d = some b) (hdb : db.lineage = promoted g d h)
    (hx : db.snapshot? h = some x) :
    ((db.addRemovals h ((db.removals.filter (·.snapshotId = d)).map (·.key))).setWhere [h]
      (onBase b)).lineage = g.bequeath d h := by
  apply Lineage.ext
  · funext s
    rw [root_setWhere (f := onBase b) fun _ => rfl]
    refine (ite_self _).trans ?_
    exact congrFun (congrArg Lineage.root hdb) s
  · funext s
    rw [base_setWhere (f := onBase b) fun _ => rfl]
    by_cases hs : s = h
    · have hx' : (db.addRemovals h ((db.removals.filter (·.snapshotId = d)).map (·.key))).snapshot? h =
        some x := hx
      simp [hs, hx', onBase, hd]
    · simp only [mem_singleton, hs, if_false, Lineage.bequeath]
      exact congrFun (congrArg Lineage.base hdb) s
  · funext s
    exact congrFun (congrArg Lineage.rows hdb) s
  · funext s
    change (db.addRemovals h _).lineage.hidden s = _
    have hidden : ∀ t, db.lineage.hidden t = g.hidden t :=
      fun t => congrFun (congrArg Lineage.hidden hdb) t
    rw [hidden_addRemovals, hidden, hidden, flat.full_hidden (flat.pointer hh).2,
      Set.empty_union, Lineage.bequeath]
    apply if_congr Iff.rfl _ rfl
    rw [← hidden]
    ext k
    simp [Db.lineage, and_assoc]

theorem base_of_survivingOverlays (wf : db.Wf)
    (ho : o ∈ survivingOverlays db d doomed) : db.lineage.base o = some d := by
  obtain ⟨x, hx, rfl⟩ := mem_map.mp ho
  rw [mem_insertionSort, mem_filter, Bool.and_eq_true, decide_eq_true_eq] at hx
  exact Option.bind_eq_some_iff.mpr ⟨x, (snapshot?_eq_some wf.snapshot_ids).mpr ⟨hx.1, rfl⟩, hx.2.1⟩

theorem nodup_survivingOverlays (d : Uuid) (doomed : List Uuid) (wf : db.Wf) :
    (survivingOverlays db d doomed).Nodup := by
  rw [survivingOverlays, ((perm_insertionSort _ _).map _).nodup_iff]
  exact wf.snapshot_ids.sublist (filter_sublist.map _)

theorem overlayDependents_kept_of_no_heir (wf : db.Wf)
    (hok : rehydrateOverlayDependents md5 d none doomed db = .ok db') : Kept db db' := by
  rw [rehydrateOverlayDependents] at hok
  split at hok
  · cases hok
    exact .refl wf
  · split at hok
    case h_1 | h_3 => simp_all
    case h_2 =>
      cases hok
      exact .refl wf
    case h_4 =>
      split at hok
      case h_1 =>
        cases hok
        exact .refl wf
      case h_2 o overlays hsplit =>
        have nodup := nodup_survivingOverlays d doomed wf
        have onOld : ∀ o ∈ survivingOverlays db d doomed, db.lineage.base o = some d :=
          fun o => base_of_survivingOverlays wf
        rw [hsplit] at nodup onOld
        obtain ⟨db₁, h₁, hok⟩ := of_bind hok
        have ho := onOld o mem_cons_self
        obtain ⟨kept, root, base, others⟩ := materialise_kept wf ho h₁
        rw [nodup_cons] at nodup
        refine kept.trans (rebaseAll_kept kept.wf ?_ base nodup.2 (fun o' ho' => ?_) hok)
        · rw [root]
          exact wf.flat.root_of_overlay ho
        · rw [others o' fun he => nodup.1 (he ▸ ho')]
          exact onOld o' (mem_cons_of_mem o ho')

theorem overlayDependents_kept_of_heir (wf : db.Wf)
    (hh : db.lineage.root h = some d) (hd : db.snapshot? d = some x)
    (lineage₁ : db₁.lineage = promoted db.lineage d h)
    (ids₁ : db₁.snapshots.map (·.id) = db.snapshots.map (·.id))
    (items₁ : db₁.Keyed)
    (hok : rehydrateOverlayDependents md5 d (some h) doomed db₁ = .ok db') : Kept db db' := by
  obtain ⟨x₁, hx₁⟩ := exists_snapshot_of_ids ids₁ hd
  have base₁ : db.lineage.base d = x₁.overlayBaseId := by
    calc db.lineage.base d
        = db₁.lineage.base d := by rw [lineage₁]; rfl
      _ = (db₁.snapshot? d).bind (·.overlayBaseId) := rfl
      _ = x₁.overlayBaseId := by rw [hx₁, Option.bind_some]
  rw [rehydrateOverlayDependents, hx₁] at hok
  cases hb : x₁.overlayBaseId with
  | none =>
    simp only [hb] at hok
    rw [hb] at base₁
    have full : db₁.lineage = db.lineage.bequeath d h :=
      lineage₁.trans (promoted_full wf.flat hh base₁)
    have kept : Kept db db₁ := by
      refine ⟨⟨ids₁ ▸ wf.snapshot_ids, items₁, ?_⟩, ids₁, fun s => ?_⟩
      · rw [full]
        exact wf.flat.bequeath hh
      · rw [full]
        exact Lineage.inventory_bequeath wf.flat hh s
    refine kept.trans (rebaseAll_kept kept.wf ?_ ?_ (nodup_survivingOverlays d doomed kept.wf)
      (fun o => base_of_survivingOverlays kept.wf) hok)
    · rw [full]
      exact if_pos rfl
    · rw [full]
      exact (if_pos rfl).trans base₁
  | some b =>
    simp only [hb] at hok
    rw [hb] at base₁
    obtain ⟨y, hy, -⟩ := Option.bind_eq_some_iff.mp hh
    obtain ⟨y₁, hy₁⟩ := exists_snapshot_of_ids ids₁ hy
    obtain ⟨db₂, h₂, -, -, hok⟩ := of_bind₂ hok
    cases hok
    have hdb₂ := updateWhere_ok (f := onBase b) (fun _ => rfl) (nodup_singleton h) h₂
    have lineage₂ : db₂.lineage = db.lineage.bequeath d h :=
      hdb₂ ▸ handOver_lineage wf.flat hh base₁ lineage₁ hy₁
    have ids₂ : db₂.snapshots.map (·.id) = db.snapshots.map (·.id) := by
      rw [hdb₂, ids_setWhere (f := onBase b) fun _ => rfl]
      exact ids₁
    have kept : Kept db db₂ := by
      refine ⟨⟨ids₂ ▸ wf.snapshot_ids, hdb₂ ▸ items₁, ?_⟩, ids₂, fun s => ?_⟩
      · rw [lineage₂]
        exact wf.flat.bequeath hh
      · rw [lineage₂]
        exact Lineage.inventory_bequeath wf.flat hh s
    exact kept.trans (kept_restateCounts kept.wf)

theorem root_of_heirCandidates (wf : db.Wf)
    (hx : x ∈ heirCandidates db d doomed) : db.lineage.root x.id = some d := by
  simp only [heirCandidates, mem_filter, Bool.and_eq_true, decide_eq_true_eq] at hx
  exact Option.bind_eq_some_iff.mpr
    ⟨x, (snapshot?_eq_some wf.snapshot_ids).mpr ⟨hx.1, rfl⟩, hx.2.1.1.1⟩

theorem rehydrate_kept (wf : db.Wf) (hd : db.snapshot? d = some x)
    (hok : rehydrate md5 now doomed db d = .ok db') : Kept db db' := by
  obtain ⟨⟨db₁, heir⟩, h₁, hok⟩ := of_bind hok
  rw [rehydrateReuseHeir] at h₁
  cases hheir : orderByFirst takenBefore (heirCandidates db d doomed) with
  | none =>
    rw [hheir] at h₁
    cases h₁
    exact overlayDependents_kept_of_no_heir wf hok
  | some y =>
    rw [hheir] at h₁
    obtain ⟨db₂, h₂, h₁⟩ := of_bind h₁
    cases h₁
    have hh := root_of_heirCandidates wf (orderByFirst_mem hheir)
    obtain ⟨lineage₁, ids₁, items₁⟩ := rehydrateInto_lineage wf hh hd h₂
    exact overlayDependents_kept_of_heir wf hh hd lineage₁ ids₁ items₁ hok

end TmVault.Retention
