import TmVault.Store.Effective

namespace TmVault.Cleanup

open Relational Store List Db

def references (s : Snapshot) : List Uuid :=
  [s.reuseChainRootId, s.reuseOfSnapshotId, s.overlayBaseId].reduceOption

def resolveProtectedReuseRoots (db : Db) (doomed : List Uuid) : List Uuid :=
  (((db.snapshots.filter (·.id ∉ doomed)).flatMap references).filter (· ∈ doomed)).dedup

def held (now : Time) (s : Snapshot) : Snapshot :=
  { s with
    status := if s.status = some .inProgress then some .failed else s.status
    extraData := { s.extraData with
      cancelledAt := none, reuseProtected := true, reuseProtectedAt := some now
      reuseProtectedCancelledAt := s.extraData.cancelledAt.or s.extraData.reuseProtectedCancelledAt
      cancelPhase := some "reuse_protected_hold" } }

def holdProtectedReuseRoots (now : Time) (ids : List Uuid) (db : Db) : Db :=
  db.setWhere ids (held now)

def claimed (s : Snapshot) : Snapshot :=
  { s with
    status := some .pendingDeletion, leaseOwnerId := none, leaseExpiresAt := none
    leaseToken := s.leaseToken + 1 }

def claimable (db : Db) (now : Time) (eligible : List Uuid) : List Uuid :=
  (db.snapshots.filter fun s =>
    s.id ∈ eligible && s.leaseExpiresAt.all (· < now) && s.id ∉ db.pinned).map (·.id)

def reset (s : Snapshot) : Snapshot :=
  { s with status := some .failed, bytesTotal := some 0, itemCount := some 0 }

def reapRows (deleteDbRows : Bool) (ids : List Uuid) (db : Db) : Db :=
  let db := if deleteDbRows then
      { db with
        chatInventories := db.chatInventories.filter (·.snapshotId ∉ ids)
        items := db.items.filter (·.snapshotId ∉ ids) }
    else db
  db.setWhere ids reset

def teardownTargets (db : Db) (jobId : Uuid) : List Uuid :=
  (db.snapshots.filter fun s =>
    s.jobId = some jobId && s.id ∉ db.pinned &&
      s.status ∈ [some SnapshotStatus.inProgress, some .completed]).map (·.id)

/-- The row side of `cleanup_cancelled_snapshots`; `guards` is `copy_work_guards_enabled()`. The
blob deletes in the middle write none of these tables. -/
def cleanupCancelledSnapshots (guards deleteDbRows : Bool) (now : Time) (jobId : Uuid) (db : Db) :
    Db :=
  let ids := teardownTargets db jobId
  let roots := resolveProtectedReuseRoots db ids
  let db := holdProtectedReuseRoots now roots db
  let eligible := ids.filter (· ∉ roots)
  if guards && eligible ≠ [] then
    let won := claimable db now eligible
    let db := db.setWhere won claimed
    reapRows deleteDbRows ((roots ++ won).filter (· ∉ roots)) db
  else
    reapRows deleteDbRows (ids.filter (· ∉ roots)) db

def sweepReapable (db : Db) (doomed blocked : List Uuid) : List Uuid :=
  doomed.filter fun s => s ∉ resolveProtectedReuseRoots db doomed && s ∉ blocked

/-- Hold the protected snapshots, then reap the doomed ones neither protected nor spared (blocked in
the sweep, not claimed in the job teardown). -/
def teardown (now : Time) (doomed spared : List Uuid) (db : Db) : Db :=
  let roots := resolveProtectedReuseRoots db doomed
  reapRows true (sweepReapable db doomed spared) (holdProtectedReuseRoots now roots db)

section

variable (db : Db) {ids : List Uuid}

theorem effective_setWhere (hid : ∀ s, (f s).id = s.id)
    (root : ∀ s, (f s).reuseChainRootId = s.reuseChainRootId)
    (base : ∀ s, (f s).overlayBaseId = s.overlayBaseId) (sid : Uuid) :
    (db.setWhere ids f).snapshotItemsEffective sid = db.snapshotItemsEffective sid := by
  have target : ∀ t, (db.setWhere ids f).resolveTarget t = db.resolveTarget t := by
    intro t
    rw [resolveTarget, resolveTarget, snapshot?_setWhere hid, Option.map_map]
    apply congrArg (Option.map · (db.snapshot? t))
    funext x
    by_cases ht : t ∈ ids <;> simp [ht, root, hid]
  have overlay : ∀ t, (db.setWhere ids f).resolveBase t = db.resolveBase t := by
    intro t
    rw [resolveBase, resolveBase, target]
    apply congrArg (Option.bind (db.resolveTarget t))
    funext u
    exact congrFun (congrArg Lineage.base (lineage_setWhere hid root base)) u
  rw [snapshotItemsEffective, snapshotItemsEffective, target, overlay]
  rfl

end

def withoutRows (ids : List Uuid) (db : Db) : Db :=
  { db with items := db.items.filter (·.snapshotId ∉ ids) }

variable {db : Db} {ids : List Uuid} {sid : Uuid}

theorem effective_reapRows (ids : List Uuid) (db : Db) (sid : Uuid) :
    (reapRows true ids db).snapshotItemsEffective sid =
      (withoutRows ids db).snapshotItemsEffective sid :=
  effective_setWhere (withoutRows ids db) (f := reset) (fun _ => rfl) (fun _ => rfl) (fun _ => rfl) sid

theorem owns_withoutRows (h : t ∈ ids → ∀ i ∈ db.items, i.snapshotId ≠ t) (k : ItemKey) :
    (withoutRows ids db).owns t k = db.owns t k := by
  rw [Bool.eq_iff_iff, owns_iff, owns_iff]
  constructor
  · rintro ⟨i, hi, hs, hk⟩
    exact ⟨i, mem_of_mem_filter hi, hs, hk⟩
  · rintro ⟨i, hi, rfl, hk⟩
    refine ⟨i, mem_filter.mpr ⟨hi, ?_⟩, rfl, hk⟩
    simpa using fun ht => h ht i hi rfl

theorem inherited_withoutRows (ht : t ∈ ids → ∀ i ∈ db.items, i.snapshotId ≠ t)
    (hb : b ∉ ids) : (withoutRows ids db).inherited t b = db.inherited t b := by
  funext i
  have parent : (withoutRows ids db).parentVisible t b i.toPayload =
      db.parentVisible t b i.toPayload := by
    rw [parentVisible, parentVisible]
    cases i.toPayload.parentKey with
    | none => rfl
    | some k =>
      simp only [owns_withoutRows ht, owns_withoutRows fun h => absurd h hb]
      rfl
  rw [inherited, inherited, parent, owns_withoutRows ht]
  rfl

theorem filter_withoutRows (h : ∀ i ∈ db.items, p i = true → i.snapshotId ∉ ids) :
    (withoutRows ids db).items.filter p = db.items.filter p := by
  rw [withoutRows, filter_filter]
  apply filter_congr
  intro i hi
  cases hp : p i with
  | false => simp
  | true => simp [h i hi hp]

def readsFrom (db : Db) (sid : Uuid) : List Uuid :=
  (db.resolveTarget sid).toList ++ (db.resolveBase sid).toList

theorem snapshotId_mem_readsFrom (h : i ∈ db.snapshotItemsEffective sid) :
    i.snapshotId ∈ readsFrom db sid := by
  obtain ⟨-, t, ht, rfl | ⟨b, hb, hi⟩⟩ := mem_effective.mp h
  · simp [readsFrom, ht]
  · simp [readsFrom, hb, (inherited_iff.mp hi).1]

theorem effective_withoutRows :
    (withoutRows ids db).snapshotItemsEffective sid = db.snapshotItemsEffective sid ↔
      ∀ i ∈ db.snapshotItemsEffective sid, i.snapshotId ∉ ids := by
  constructor
  · intro h i hi
    rw [← h] at hi
    have := (mem_effective.mp hi).1
    simpa using (mem_filter.mp this).2
  · intro h
    cases ht : db.resolveTarget sid with
    | none =>
      have ht' : (withoutRows ids db).resolveTarget sid = none := ht
      rw [snapshotItemsEffective, snapshotItemsEffective, ht, ht']
    | some t =>
      have own : ∀ i ∈ db.items, i.snapshotId = t → i.snapshotId ∉ ids :=
        fun i hi hs => h i (mem_effective.mpr ⟨hi, t, ht, .inl hs⟩)
      have ht' : (withoutRows ids db).resolveTarget sid = some t := ht
      have rows : (withoutRows ids db).items.filter (·.snapshotId = t) =
          db.items.filter (·.snapshotId = t) :=
        filter_withoutRows fun i hi hs => own i hi (of_decide_eq_true hs)
      cases hb : db.resolveBase sid with
      | none =>
        have hb' : (withoutRows ids db).resolveBase sid = none := hb
        rw [snapshotItemsEffective, snapshotItemsEffective, ht, ht', hb, hb']
        simp only [rows]
      | some b =>
        have hb' : (withoutRows ids db).resolveBase sid = some b := hb
        have base : ∀ i ∈ db.items, db.inherited t b i = true → i.snapshotId ∉ ids :=
          fun i hi hinh => h i (mem_effective.mpr ⟨hi, t, ht, .inr ⟨b, hb, hinh⟩⟩)
        have inherited : (withoutRows ids db).items.filter ((withoutRows ids db).inherited t b) =
            db.items.filter (db.inherited t b) := by
          by_cases hmem : b ∈ ids
          · -- a reaped base showed nothing before and shows nothing now
            rw [filter_eq_nil_iff.mpr, filter_eq_nil_iff.mpr]
            · intro i hi hinh
              exact base i hi hinh ((inherited_iff.mp hinh).1 ▸ hmem)
            · intro i hi hinh
              have := (mem_filter.mp hi).2
              rw [(inherited_iff.mp hinh).1] at this
              simp [hmem] at this
          · rw [inherited_withoutRows (fun htm i hi hs => own i hi hs (hs ▸ htm)) hmem]
            exact filter_withoutRows base
        rw [snapshotItemsEffective, snapshotItemsEffective, ht, ht', hb, hb']
        simp only [rows, inherited]

@[simp] theorem mem_resolveProtectedReuseRoots : x ∈ resolveProtectedReuseRoots db doomed ↔
      x ∈ doomed ∧ ∃ live ∈ db.snapshots, live.id ∉ doomed ∧ x ∈ references live := by
  simp only [resolveProtectedReuseRoots, mem_dedup, mem_filter, mem_flatMap,
    decide_eq_true_eq, and_assoc]
  exact and_comm

@[simp] theorem mem_sweepReapable : x ∈ sweepReapable db doomed spared ↔
      x ∈ doomed ∧ x ∉ spared ∧
        ¬ ∃ live ∈ db.snapshots, live.id ∉ doomed ∧ x ∈ references live := by
  simp only [sweepReapable, mem_filter, Bool.and_eq_true, decide_eq_true_eq,
    mem_resolveProtectedReuseRoots]
  constructor
  · rintro ⟨hd, hn, hs⟩
    exact ⟨hd, hs, fun hl => hn ⟨hd, hl⟩⟩
  · rintro ⟨hd, hs, hn⟩
    exact ⟨hd, fun h => hn h.2, hs⟩

theorem effective_teardown (now : Time) (doomed spared : List Uuid) :
    (teardown now doomed spared db).snapshotItemsEffective sid =
      (withoutRows (sweepReapable db doomed spared) db).snapshotItemsEffective sid := by
  rw [teardown, effective_reapRows]
  exact effective_setWhere (withoutRows (sweepReapable db doomed spared) db) (f := held now)
    (fun _ => rfl) (fun _ => rfl) (fun _ => rfl) sid

/-- A snapshot outside the reaped set keeps its inventory exactly when each one it reads from is not
doomed, spared, referred to by a live snapshot, or gives it no row. -/
theorem teardown_keeps_inventories_iff (now : Time) (doomed spared : List Uuid) (db : Db) :
    (∀ s ∈ db.snapshots, s.id ∉ sweepReapable db doomed spared →
        (teardown now doomed spared db).snapshotItemsEffective s.id =
          db.snapshotItemsEffective s.id) ↔
      ∀ s ∈ db.snapshots, s.id ∉ sweepReapable db doomed spared →
        ∀ x ∈ readsFrom db s.id, x ∈ doomed → x ∉ spared →
          (∃ live ∈ db.snapshots, live.id ∉ doomed ∧ x ∈ references live) ∨
            ∀ i ∈ db.snapshotItemsEffective s.id, i.snapshotId ≠ x := by
  apply forall₂_congr
  intro s _
  apply imp_congr_right
  intro _
  rw [effective_teardown, effective_withoutRows]
  constructor
  · intro h x _ hdoomed hspared
    by_contra hx
    rw [not_or] at hx
    obtain ⟨i, hi, rfl⟩ : ∃ i ∈ db.snapshotItemsEffective s.id, i.snapshotId = x := by
      simpa using hx.2
    exact h i hi (mem_sweepReapable.mpr ⟨hdoomed, hspared, hx.1⟩)
  · intro h i hi hmem
    obtain ⟨hdoomed, hspared, dead⟩ := mem_sweepReapable.mp hmem
    rcases h i.snapshotId (snapshotId_mem_readsFrom hi) hdoomed hspared with live | none_shown
    · exact dead live
    · exact none_shown i hi rfl

/-- A job's teardown shows what a teardown of its targets shows that spares those it did not claim. -/
theorem effective_cleanupCancelledSnapshots (guards : Bool) (now : Time) (jobId : Uuid) (db : Db) :
    ∃ spared, ∀ sid, (cleanupCancelledSnapshots guards true now jobId db).snapshotItemsEffective sid =
      (teardown now (teardownTargets db jobId) spared db).snapshotItemsEffective sid := by
  unfold cleanupCancelledSnapshots
  generalize teardownTargets db jobId = ids
  dsimp only
  split
  · generalize claim : claimable _ now _ = won
    refine ⟨ids.filter (· ∉ won), fun sid => ?_⟩
    have reaped : ∀ x, x ∈ sweepReapable db ids (ids.filter (· ∉ won)) ↔ x ∈ won := by
      grind [sweepReapable, claimable]
    rw [effective_teardown, effective_reapRows]
    refine (effective_setWhere (withoutRows _ (holdProtectedReuseRoots now _ db)) (f := claimed)
      (fun _ => rfl) (fun _ => rfl) (fun _ => rfl) sid).trans ((effective_setWhere (withoutRows _ db)
        (f := held now) (fun _ => rfl) (fun _ => rfl) (fun _ => rfl) sid).trans ?_)
    grind [withoutRows, claimable]
  · exact ⟨[], fun sid => by simp [teardown, sweepReapable]⟩

/-- A live pointer at a doomed overlay whose base is doomed as well: the overlay is held for the
pointer, its base is not. -/
def pointedOverlay : Db where
  snapshots :=
    [{ id := 1, resourceId := 0, jobId := some 7, status := some .completed },
      { id := 2, resourceId := 0, jobId := some 7, status := some .completed,
        overlayBaseId := some 1 },
      { id := 3, resourceId := 0, status := some .completed, reuseOfSnapshotId := some 2,
        reuseChainRootId := some 2 }]
  items :=
    [{ id := 10, snapshotId := 1, itemType := .email, externalId := "a" },
      { id := 11, snapshotId := 2, itemType := .email, externalId := "b" }]

theorem pointedOverlay_loses_rows : sweepReapable pointedOverlay [1, 2] [] = [1] ∧
      ((pointedOverlay.snapshotItemsEffective 3).map (·.externalId) = ["b", "a"]) ∧
      (((teardown 9 [1, 2] [] pointedOverlay).snapshotItemsEffective 3).map (·.externalId) = ["b"]) ∧
      (((teardown 9 [1, 2] [] pointedOverlay).snapshotItemsEffective 2).map (·.externalId) = ["b"]) ∧
      cleanupCancelledSnapshots false true 9 7 pointedOverlay = teardown 9 [1, 2] [] pointedOverlay := by
  decide +kernel

end TmVault.Cleanup
