import TmVault.Retention.Rehydrate

namespace TmVault.Retention

open Relational Store List Db

def terminalStatuses : List SnapshotStatus :=
  [.completed, .failed, .partialRun, .pendingDeletion, .skipped]

def hasLiveDependent (db : Db) (sid : Uuid) : Bool :=
  db.snapshots.any fun d =>
    (d.overlayBaseId = some sid || d.reuseChainRootId = some sid) && d.id ≠ sid &&
      d.status.any (· ∉ terminalStatuses)

def deletable (db : Db) (now : Time) (s : Snapshot) : Bool :=
  s.id ∉ db.pinned &&
    s.status.any (· ∈ terminalStatuses) &&
    s.leaseExpiresAt.all (· ≤ now) &&
    s.hcDrainStatus.getD .notApplicable ≠ .pending &&
    !db.partitions.any (fun p => p.snapshotId = s.id &&
      p.status ∈ [PartitionStatus.queued, .claimed, .inProgress]) &&
    -- a row whose counters read empty while items exist is kept for the next pass
    !(s.itemCount.getD 0 = 0 && s.bytesTotal.getD 0 = 0 &&
      db.items.any fun i => i.snapshotId = s.id) &&
    !hasLiveDependent db s.id

def lockedRows (db : Db) (now : Time) (snapIds : List Uuid) : List Uuid :=
  ((db.snapshots.filter fun s => s.id ∈ snapIds && deletable db now s).insertionSort fun a b =>
    (a.overlayBaseId ≠ none ∧ b.overlayBaseId = none) ∨
      ((a.overlayBaseId = none ↔ b.overlayBaseId = none) ∧ a.id ≤ b.id)).map (·.id)

def inUnion (s : Snapshot) : Bool :=
  s.status.any (· ∉ [SnapshotStatus.failed, .pendingDeletion])

inductive FoldTarget
  | nothing
  | keepSnapshot
  | into (keeper : Uuid) (window : List Uuid)

def sparseFoldTarget (db : Db) (sid : Uuid) (doomed : List Uuid) : FoldTarget :=
  match db.snapshot? sid with
  | none => .nothing
  | some d =>
    if inUnion d && db.items.any fun i => i.snapshotId = sid && i.itemType ∈ ItemType.sparseTypes then
      let later := db.snapshots.filter fun s =>
        s.resourceId = d.resourceId && sqlLt d.createdAt s.createdAt && inUnion s
      match orderByFirst (fun a b => sqlLt a.createdAt b.createdAt ||
          (a.createdAt = b.createdAt && a.id < b.id)) (later.filter (·.id ∉ doomed)) with
      | none => .keepSnapshot
      | some keeper =>
        if keeper.status ∈ [some SnapshotStatus.completed, some .partialRun] then
          .into keeper.id ((later.filter fun s => !sqlLt keeper.createdAt s.createdAt).map (·.id))
        else .keepSnapshot
    else .nothing

/-- The first loop of `_delete_snapshots`: a snapshot whose sparse rows have no keeper leaves the
doomed set. -/
def planFolds (db : Db) (ids : List Uuid) : List Uuid × List (Uuid × Uuid × List Uuid) :=
  ids.foldl (fun (doomed, folds) sid =>
    match sparseFoldTarget db sid doomed with
    | .nothing => (doomed, folds)
    | .keepSnapshot => (doomed.filter (· ≠ sid), folds)
    | .into keeper window => (doomed, folds ++ [(sid, keeper, window)])) (ids, [])

def sparseRows (db : Db) (sid : Uuid) : List SnapshotItem :=
  db.items.filter fun i => i.snapshotId = sid && i.itemType ∈ ItemType.sparseTypes

def superseded (db : Db) (window : List Uuid) (i : SnapshotItem) : Bool :=
  db.items.any fun l => l.snapshotId ∈ window && l.externalId = i.externalId

def foldRow (db : Db) (keeper : Uuid) (window : List Uuid) (batch : List SnapshotItem)
    (i : SnapshotItem) : Option SnapshotItem :=
  if i ∈ batch then
    if superseded db window i then none else some { i with snapshotId := keeper }
  else some i

/-- One statement of `_fold_sparse_rows`: rows of the batch that nothing in the window supersedes move
to the keeper, the others go. Returns the sizes of the batch and its moved part. -/
def foldBatch (sid keeper : Uuid) (window : List Uuid) (n : Nat) (db : Db) :
    Tx (Db × Nat × List SnapshotItem) :=
  let batch := (sparseRows db sid).take n
  let items := db.items.filterMap (foldRow db keeper window batch)
  if (items.map SnapshotItem.uniqueKey).Nodup then
    pure ({ db with items := items }, batch.length, batch.filter fun i => !superseded db window i)
  else
    throw .uniqueViolation

def foldBatchSize : Nat := 5000

def foldLoop (sid keeper : Uuid) (window : List Uuid) (n : Nat) :
    Nat → List SnapshotItem → Db → Tx (Db × List SnapshotItem)
  | 0, moved, db => pure (db, moved)
  | fuel + 1, moved, db => do
    let (db, seen, more) ← foldBatch sid keeper window n db
    if seen < n then pure (db, moved ++ more)
    else foldLoop sid keeper window n fuel (moved ++ more) db

/-- `_fold_sparse_rows`. Each full batch takes `n` rows out of `sid`, so the rows of the table bound
the batches. -/
def foldSparseRows (db : Db) (fold : Uuid × Uuid × List Uuid) : Tx Db := do
  let (sid, keeper, window) := fold
  let (db, moved) ← foldLoop sid keeper window foldBatchSize (db.items.length + 1) [] db
  if moved = [] then pure db
  else pure (db.setWhere [keeper] fun s =>
    { s with
      itemCount := some (s.itemCount.getD 0 + moved.length)
      bytesTotal := some (s.bytesTotal.getD 0 + sumSizes moved) })

def restricts (ids : List Uuid) (s : Snapshot) : Bool :=
  s.id ∉ ids && [s.reuseOfSnapshotId, s.reuseChainRootId, s.overlayBaseId].any (·.any (· ∈ ids))

def deleteRows (auditEvents ids : List Uuid) (db : Db) : Tx Db :=
  if db.snapshots.any (restricts ids) then
    throw .foreignKeyRestrict
  else
    pure { db with
      items := db.items.filter (·.snapshotId ∉ ids), snapshots := db.snapshots.filter (·.id ∉ ids)
      removals := db.removals.filter (·.snapshotId ∉ ids)
      chatInventories := db.chatInventories.filter (·.snapshotId ∉ ids)
      partitions := db.partitions.filter (·.snapshotId ∉ ids)
      auditEvents := db.auditEvents ++ ids.filter (· ∈ auditEvents) }

section

variable (md5 : List Payload → String) (now : Time)

def deleteLocked (auditEvents locked : List Uuid) (db : Db) : Tx (Db × Nat) := do
  let (doomed, folds) := planFolds db locked
  let ids := locked.filter (· ∈ doomed)
  if ids = [] then pure (db, 0)
  else do
    let db ← ids.foldlM (rehydrate md5 now doomed) db
    let db ← folds.foldlM foldSparseRows db
    let db' ← deleteRows auditEvents ids db
    pure (db', (db.snapshots.filter (·.id ∈ ids)).length)

def deleteSnapshots (auditEvents snapIds : List Uuid) (db : Db) : Tx (Db × Nat) :=
  if snapIds = [] then pure (db, 0)
  else deleteLocked md5 now auditEvents (lockedRows db now snapIds) db

end

def commit (db : Db) : Tx (Db × Nat) → Db
  | .ok (db', _) => db'
  | .error _ => db

section

variable {db db' : Db} {sid keeper : Uuid} {window : List Uuid} {n : Nat}
  {batch : List SnapshotItem}

structure FoldKept (db db' : Db) : Prop where
  lineage : db'.lineage = db.lineage
  ids : db'.snapshots.map (·.id) = db.snapshots.map (·.id)
  item_keys : db.Keyed → db'.Keyed

theorem FoldKept.refl (db : Db) : FoldKept db db := ⟨rfl, rfl, id⟩

theorem FoldKept.trans (h : FoldKept db db') (h' : FoldKept db' db'') : FoldKept db db'' :=
  ⟨h'.lineage.trans h.lineage, h'.ids.trans h.ids, fun k => h'.item_keys (h.item_keys k)⟩

theorem FoldKept.kept (wf : db.Wf) (h : FoldKept db db') : Kept db db' :=
  ⟨⟨h.ids ▸ wf.snapshot_ids, h.item_keys wf.item_keys, h.lineage ▸ wf.flat⟩, h.ids,
    fun s => by rw [h.lineage]⟩

theorem sparse_of_mem_batch (h : i ∈ (sparseRows db sid).take n) :
    i.snapshotId = sid ∧ i.itemType.sparse := by
  have := (mem_filter.mp (mem_of_mem_take h)).2
  simpa [ItemType.sparse] using this

theorem foldRow_payload
    (h : foldRow db keeper window batch i = some j) : j.toPayload = i.toPayload := by
  rw [foldRow] at h
  split at h
  · split at h
    · cases h
    · cases h
      rfl
  · cases h
    rfl

theorem foldRow_of_not_mem (h : i ∉ batch) : foldRow db keeper window batch i = some i := if_neg h

theorem foldBatch_kept (h : foldBatch sid keeper window n db = .ok (db', r)) : FoldKept db db' := by
  rw [foldBatch] at h
  split at h
  · rename_i nodup
    cases h
    refine ⟨Lineage.ext rfl rfl ?_ rfl, rfl, fun _ => nodup⟩
    funext s
    ext p
    constructor
    · rintro ⟨dense, j, hj, hs, rfl⟩
      obtain ⟨i, hi, hij⟩ := mem_filterMap.mp hj
      have notBatch : i ∉ (sparseRows db sid).take n := by
        intro hb
        rw [foldRow_payload hij] at dense
        exact dense (sparse_of_mem_batch hb).2
      rw [foldRow_of_not_mem notBatch] at hij
      cases hij
      exact ⟨dense, j, hi, hs, rfl⟩
    · rintro ⟨dense, i, hi, hs, rfl⟩
      have notBatch : i ∉ (sparseRows db sid).take n :=
        fun hb => dense (sparse_of_mem_batch hb).2
      exact ⟨dense, i, mem_filterMap.mpr ⟨i, hi, foldRow_of_not_mem notBatch⟩, hs, rfl⟩
  · cases h

theorem foldLoop_kept
    (h : foldLoop sid keeper window n fuel moved db = .ok (db', r)) : FoldKept db db' := by
  induction fuel generalizing moved db with
  | zero =>
    cases h
    exact .refl _
  | succ fuel ih =>
    rw [foldLoop] at h
    obtain ⟨⟨db₁, seen, more⟩, h₁, h⟩ := of_bind h
    have kept := foldBatch_kept h₁
    simp only at h
    split at h
    · cases h
      exact kept
    · exact kept.trans (ih h)

theorem foldSparseRows_kept (h : foldSparseRows db fold = .ok db') : FoldKept db db' := by
  obtain ⟨sid, keeper, window⟩ := fold
  obtain ⟨⟨db₁, moved⟩, h₁, h⟩ := of_bind h
  have kept := foldLoop_kept h₁
  simp only at h
  split at h
  · cases h
    exact kept
  · cases h
    refine kept.trans ⟨?_, ?_, id⟩
    · exact lineage_setWhere (fun _ => rfl) (fun _ => rfl) fun _ => rfl
    · exact ids_setWhere fun _ => rfl

end

section

variable {db db' : Db} {audit ids : List Uuid} {s : Uuid}

section

variable (h : deleteRows audit ids db = .ok db')

include h

theorem deleteRows_ok : (∀ s ∈ db.snapshots, restricts ids s = false) ∧
      db'.snapshots = db.snapshots.filter (·.id ∉ ids) ∧
      db'.items = db.items.filter (·.snapshotId ∉ ids) ∧
      db'.removals = db.removals.filter (·.snapshotId ∉ ids) := by
  rw [deleteRows] at h
  split at h
  · cases h
  · rename_i free
    cases h
    refine ⟨fun s hs => ?_, rfl, rfl, rfl⟩
    simpa using fun hr => free (any_eq_true.mpr ⟨s, hs, hr⟩)

theorem snapshot?_deleteRows (s : Uuid) :
    db'.snapshot? s = if s ∈ ids then none else db.snapshot? s := by
  rw [snapshot?, (deleteRows_ok h).2.1, find?_filter]
  split
  case isTrue hs =>
    rw [find?_eq_none]
    rintro x - hx
    simp only [decide_eq_true_eq] at hx
    exact hx.1 (hx.2 ▸ hs)
  case isFalse hs =>
    apply congrArg (List.find? · db.snapshots)
    funext x
    by_cases hx : x.id = s
    · simp [hx, hs]
    · simp [hx]

theorem rows_deleteRows (hs : s ∉ ids) : db'.lineage.rows s = db.lineage.rows s := by
  ext p
  simp only [lineage, (deleteRows_ok h).2.2.1, mem_filter, decide_eq_true_eq, Set.mem_ofPred_eq]
  constructor
  · rintro ⟨dense, i, ⟨hi, -⟩, hsid, rfl⟩
    exact ⟨dense, i, hi, hsid, rfl⟩
  · rintro ⟨dense, i, hi, hsid, rfl⟩
    exact ⟨dense, i, ⟨hi, hsid ▸ hs⟩, hsid, rfl⟩

theorem hidden_deleteRows (hs : s ∉ ids) : db'.lineage.hidden s = db.lineage.hidden s := by
  ext k
  simp only [lineage, (deleteRows_ok h).2.2.2, mem_filter, decide_eq_true_eq, Set.mem_ofPred_eq]
  constructor
  · rintro ⟨r, ⟨hr, -⟩, hsid, hk⟩
    exact ⟨r, hr, hsid, hk⟩
  · rintro ⟨r, hr, hsid, hk⟩
    exact ⟨r, ⟨hr, hsid ▸ hs⟩, hsid, hk⟩

theorem references_survive (hs : s ∉ ids) (hx : db.snapshot? s = some x) :
    (∀ r, x.reuseChainRootId = some r → r ∉ ids) ∧ ∀ b, x.overlayBaseId = some b → b ∉ ids := by
  have free := (deleteRows_ok h).1 x (mem_of_find?_eq_some hx)
  rw [← snapshot?_id hx] at hs
  simp only [restricts, hs, not_false_eq_true, decide_true, Bool.true_and] at free
  constructor <;> intro r hr hmem <;> simp [hr, hmem] at free

theorem inventory_deleteRows (hs : s ∉ ids) :
    db'.lineage.inventory layering s = db.lineage.inventory layering s := by
  have found : ∀ t, t ∉ ids → db'.snapshot? t = db.snapshot? t := fun t ht => by
    rw [snapshot?_deleteRows h, if_neg ht]
  apply Lineage.inventory_of_closed {s | s ∉ ids}
  · intro t ht
    simp only [lineage, found t ht]
  · intro t ht
    simp only [lineage, found t ht]
  · exact fun t ht => rows_deleteRows h ht
  · exact fun t ht => hidden_deleteRows h ht
  · intro t ht r hr
    obtain ⟨x, hx, hr⟩ := Option.bind_eq_some_iff.mp hr
    exact (references_survive h ht hx).1 r hr
  · intro t ht b hb
    obtain ⟨x, hx, hb⟩ := Option.bind_eq_some_iff.mp hb
    exact (references_survive h ht hx).2 b hb
  · exact hs

theorem links_deleteRows : (db'.lineage.root s = some t → db.lineage.root s = some t ∧ s ∉ ids) ∧
      (db'.lineage.base s = some t → db.lineage.base s = some t ∧ s ∉ ids) := by
  simp only [lineage, snapshot?_deleteRows h]
  split <;> simp_all

end

theorem deleteRows_wf (wf : db.Wf) (h : deleteRows audit ids db = .ok db') : db'.Wf where
  snapshot_ids := by
    rw [(deleteRows_ok h).2.1]
    exact wf.snapshot_ids.sublist (filter_sublist.map _)
  item_keys := by
    rw [(deleteRows_ok h).2.2.1]
    exact wf.item_keys.sublist (filter_sublist.map _)
  flat := by
    have root_none : ∀ {s}, db.lineage.root s = none → db'.lineage.root s = none := by
      intro s hs
      cases hr : db'.lineage.root s with
      | none => rfl
      | some r => exact ((links_deleteRows h).1 hr).1.symm.trans hs
    have base_none : ∀ {s}, db.lineage.base s = none → db'.lineage.base s = none := by
      intro s hs
      cases hb : db'.lineage.base s with
      | none => rfl
      | some b => exact ((links_deleteRows h).2 hb).1.symm.trans hs
    have rows : ∀ s, db'.lineage.rows s ⊆ db.lineage.rows s := by
      rintro s p ⟨dense, i, hi, hs, rfl⟩
      rw [(deleteRows_ok h).2.2.1] at hi
      exact ⟨dense, i, mem_of_mem_filter hi, hs, rfl⟩
    refine ⟨fun hs => ?_, fun hs => ?_, fun hs => ?_, fun {s} hs => ?_, fun s r hr r' hr' => ?_⟩
    · obtain ⟨hs, -⟩ := (links_deleteRows h).1 hs
      exact ⟨root_none (wf.flat.pointer hs).1, base_none (wf.flat.pointer hs).2⟩
    · obtain ⟨hs, -⟩ := (links_deleteRows h).2 hs
      exact ⟨root_none (wf.flat.overlay hs).1, base_none (wf.flat.overlay hs).2⟩
    · obtain ⟨hs, -⟩ := (links_deleteRows h).1 hs
      exact Set.subset_eq_empty (rows _) (wf.flat.pointer_rows hs)
    · ext k
      simp only [Set.mem_empty_iff_false, iff_false]
      rintro ⟨r, hr, rfl, -⟩
      rw [(deleteRows_ok h).2.2.2, mem_filter, decide_eq_true_eq] at hr
      have full : db.lineage.base r.snapshotId = none := by
        simpa [lineage, snapshot?_deleteRows h, hr.2] using hs
      have := wf.flat.full_hidden full
      exact Set.eq_empty_iff_forall_notMem.mp this r.key ⟨r, hr.1, rfl, rfl⟩
    · exact wf.flat.keyed s r (rows s hr) r' (rows s hr')

end

variable {md5 : List Payload → String} {now : Time} {db db' : Db} {audit locked : List Uuid}
  {snapIds : List Uuid}

theorem rehydrateAll_kept {doomed ids : List Uuid} (wf : db.Wf)
    (found : ∀ d ∈ ids, ∃ x, db.snapshot? d = some x)
    (h : ids.foldlM (rehydrate md5 now doomed) db = .ok db') : Kept db db' := by
  refine (foldlM_ok (fun db₁ is => Kept db db₁ ∧ ∀ d ∈ is, ∃ x, db.snapshot? d = some x) ?_
    ⟨.refl wf, found⟩ h).1
  rintro db₁ db₂ d is ⟨kept, found⟩ h
  obtain ⟨x, hx⟩ := found d mem_cons_self
  obtain ⟨x₁, hx₁⟩ := exists_snapshot_of_ids kept.ids hx
  exact ⟨kept.trans (rehydrate_kept kept.wf hx₁ h), fun d' hd' => found d' (mem_cons_of_mem d hd')⟩

theorem foldAll_kept {folds : List (Uuid × Uuid × List Uuid)} (wf : db.Wf)
    (h : folds.foldlM foldSparseRows db = .ok db') : Kept db db' := by
  refine foldlM_ok (fun db₁ _ => Kept db db₁) ?_ (.refl wf) h
  intro db₁ db₂ _ _ kept h
  exact kept.trans ((foldSparseRows_kept h).kept kept.wf)

/-- What retention may do to a database: lose snapshots out of `gone`, and leave every other with
the inventory it had. -/
structure Pruned (gone : Set Uuid) (db db' : Db) : Prop where
  wf : db'.Wf
  known : ∀ s ∈ db'.snapshots, ∃ x, db.snapshot? s.id = some x
  spared : ∀ s ∈ db.snapshots, s.id ∉ gone → ∃ x, db'.snapshot? s.id = some x
  inventory : ∀ s ∈ db'.snapshots,
    db'.lineage.inventory layering s.id = db.lineage.inventory layering s.id

namespace Pruned

variable {gone : Set Uuid}

theorem of_kept (wf : db.Wf) (h : Kept db db') : Pruned gone db db' where
  wf := h.wf
  known _ hs :=
    exists_snapshot_of_ids h.ids.symm ((snapshot?_eq_some h.wf.snapshot_ids).mpr ⟨hs, rfl⟩)
  spared _ hs _ :=
    exists_snapshot_of_ids h.ids ((snapshot?_eq_some wf.snapshot_ids).mpr ⟨hs, rfl⟩)
  inventory s _ := h.inventory s.id

theorem refl (wf : db.Wf) : Pruned gone db db := of_kept wf (.refl wf)

theorem mono (h : Pruned gone db db') (sub : gone ⊆ gone') : Pruned gone' db db' :=
  { h with spared := fun s hs hg => h.spared s hs fun hs => hg (sub hs) }

theorem trans (h : Pruned gone db db') (h' : Pruned gone db' db'') : Pruned gone db db'' where
  wf := h'.wf
  known s hs := by
    obtain ⟨x, hx⟩ := h'.known s hs
    obtain ⟨mem, hid⟩ := (snapshot?_eq_some h.wf.snapshot_ids).mp hx
    exact hid ▸ h.known x mem
  spared s hs hg := by
    obtain ⟨x, hx⟩ := h.spared s hs hg
    obtain ⟨mem, hid⟩ := (snapshot?_eq_some h.wf.snapshot_ids).mp hx
    exact hid ▸ h'.spared x mem (hid ▸ hg)
  inventory s hs := by
    obtain ⟨x, hx⟩ := h'.known s hs
    obtain ⟨mem, hid⟩ := (snapshot?_eq_some h.wf.snapshot_ids).mp hx
    rw [h'.inventory s hs, ← hid]
    exact h.inventory x mem

end Pruned

theorem deleteRows_pruned (wf : db.Wf) (h : deleteRows audit ids db = .ok db') :
    Pruned {x | x ∈ ids} db db' where
  wf := deleteRows_wf wf h
  known s hs := by
    rw [(deleteRows_ok h).2.1] at hs
    exact ⟨s, (snapshot?_eq_some wf.snapshot_ids).mpr ⟨mem_of_mem_filter hs, rfl⟩⟩
  spared s hs hg := by
    have hg : s.id ∉ ids := hg
    refine ⟨s, ?_⟩
    rw [snapshot?_deleteRows h, if_neg hg]
    exact (snapshot?_eq_some wf.snapshot_ids).mpr ⟨hs, rfl⟩
  inventory s hs := by
    rw [(deleteRows_ok h).2.1, mem_filter, decide_eq_true_eq] at hs
    exact inventory_deleteRows h hs.2

theorem deleteLocked_pruned (wf : db.Wf) (found : ∀ d ∈ locked, ∃ x, db.snapshot? d = some x)
    (h : deleteLocked md5 now audit locked db = .ok (db', n)) : Pruned {x | x ∈ locked} db db' := by
  rw [deleteLocked] at h
  simp only at h
  split at h
  · cases h
    exact .refl wf
  · obtain ⟨db₁, h₁, db₂, h₂, db₃, h₃, h⟩ := of_bind₃ h
    cases h
    have swept := rehydrateAll_kept wf (fun d hd => found d (mem_of_mem_filter hd)) h₁
    have kept := swept.trans (foldAll_kept swept.wf h₂)
    exact (Pruned.of_kept wf kept).trans
      ((deleteRows_pruned kept.wf h₃).mono fun x hx => mem_of_mem_filter hx)

theorem mem_lockedRows (wf : db.Wf)
    (hd : d ∈ lockedRows db now snapIds) : ∃ x, db.snapshot? d = some x := by
  obtain ⟨x, hx, rfl⟩ := mem_map.mp hd
  rw [mem_insertionSort] at hx
  exact ⟨x, (snapshot?_eq_some wf.snapshot_ids).mpr ⟨mem_of_mem_filter hx, rfl⟩⟩

theorem lockedRows_subset : lockedRows db now snapIds ⊆ snapIds := by
  intro d hd
  obtain ⟨x, hx, rfl⟩ := mem_map.mp hd
  rw [mem_insertionSort, mem_filter, Bool.and_eq_true] at hx
  exact of_decide_eq_true hx.2.1

theorem commit_pruned (md5 : List Payload → String) (now : Time) (audit snapIds : List Uuid)
    (wf : db.Wf) (order : locked.Perm (lockedRows db now snapIds)) :
    Pruned {x | x ∈ snapIds} db (commit db (deleteLocked md5 now audit locked db)) := by
  cases h : deleteLocked md5 now audit locked db with
  | error e => exact .refl wf
  | ok r =>
    refine (deleteLocked_pruned wf (fun d hd => mem_lockedRows wf (order.mem_iff.mp hd)) h).mono ?_
    exact fun x hx => lockedRows_subset (order.mem_iff.mp hx)

/-- A pass over any set of snapshots, in any order, leaves every snapshot that survives it with the
captured items it had, sparse item types aside. -/
theorem effective_inventory_survives_delete (md5 : List Payload → String) (now : Time)
    (audit snapIds locked : List Uuid) (db : Db) (wf : db.TablesWf)
    (order : locked.Perm (lockedRows db now snapIds)) :
    let db' := commit db (deleteLocked md5 now audit locked db)
    ∀ s ∈ db'.snapshots, ∀ p : Payload, ¬ p.itemType.sparse →
      ((∃ i ∈ db'.snapshotItemsEffective s.id, i.toPayload = p) ↔
        ∃ i ∈ db.snapshotItemsEffective s.id, i.toPayload = p) := by
  intro db' s hs p dense
  have pruned := commit_pruned md5 now audit snapIds wf.wf order
  obtain ⟨x, hx⟩ := pruned.known s hs
  have hs' : db'.snapshot? s.id = some s :=
    (snapshot?_eq_some pruned.wf.snapshot_ids).mpr ⟨hs, rfl⟩
  rw [effective_lineage hs' dense, effective_lineage hx dense, pruned.inventory s hs]

/-- A doomed full snapshot with two pointers and two overlays, one of the overlays doomed as well
and itself pointed at. -/
def sharedHistory : Db where
  snapshots :=
    let snap (id : Uuid) : Snapshot :=
      { id := id, resourceId := 0, status := some .completed, startedAt := some id,
        createdAt := some id, itemCount := some 1 }
    [snap 1, { snap 2 with reuseOfSnapshotId := some 1, reuseChainRootId := some 1 },
      { snap 3 with reuseOfSnapshotId := some 1, reuseChainRootId := some 1 },
      { snap 4 with overlayBaseId := some 1 },
      { snap 5 with reuseOfSnapshotId := some 4, reuseChainRootId := some 4 },
      { snap 6 with overlayBaseId := some 1 }]
  items :=
    [{ id := 10, snapshotId := 1, itemType := .email, externalId := "a" },
      { id := 11, snapshotId := 1, itemType := .emailAttachment, externalId := "a::1" },
      { id := 12, snapshotId := 1, itemType := .email, externalId := "b" },
      { id := 13, snapshotId := 1, itemType := .file, externalId := "f" },
      { id := 14, snapshotId := 4, itemType := .email, externalId := "c" }]
  removals := [{ snapshotId := 4, itemType := .email, externalId := "a" }]
  nextUuid := 20

theorem sharedHistory_survives_delete :
    (deleteLocked (fun _ => "") 10 [] [4, 1] sharedHistory).toOption.map Prod.snd = some 2 ∧
      let db' := commit sharedHistory (deleteLocked (fun _ => "") 10 [] [4, 1] sharedHistory)
      ∀ s ∈ db'.snapshots, ∀ p : Payload, ¬ p.itemType.sparse →
        ((∃ i ∈ db'.snapshotItemsEffective s.id, i.toPayload = p) ↔
          ∃ i ∈ sharedHistory.snapshotItemsEffective s.id, i.toPayload = p) :=
  ⟨by decide +kernel, effective_inventory_survives_delete (fun _ => "") 10 [] [1, 4] [4, 1]
    sharedHistory (by decide +kernel) (by decide +kernel)⟩

end TmVault.Retention
