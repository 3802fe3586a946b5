import TmVault.Retention.Delete

namespace TmVault.Retention

open Relational Store List Db

/-- What the triggers ask of a pointer at `root`. -/
structure Parented (db : Db) (s : Snapshot) (root : Uuid) : Prop where
  pointer : s.overlayBaseId = none
  parent : ∃ p ∈ db.snapshots, some p.id = s.reuseOfSnapshotId ∧ p.resourceId = s.resourceId ∧
    (p.status = some .completed ∨
      p.status = some .partialRun ∧ s.extraData.archiveReusedPartialPrior = true) ∧
    sqlLt p.takenAt s.takenAt = true
  full : ∃ r ∈ db.snapshots, r.id = root ∧ r.resourceId = s.resourceId ∧ r.reuseOfSnapshotId = none

theorem valid_iff_parented {db : Db} (root : s.reuseChainRootId = some r) :
    db.validateReuseColumns s = .ok () ↔ Parented db s r := by
  rw [validateReuseColumns, bind_eq_ok]
  constructor
  · rintro ⟨_, base, reuse⟩
    simp only [validateSnapshotReuseTarget, root] at reuse
    split at reuse
    · simp_all
    split at reuse
    · cases reuse
    split at reuse
    · cases reuse
    split at reuse
    · cases reuse
    rename_i columns parent full
    simp only [Bool.not_eq_true', Bool.not_eq_false, any_eq_true, Bool.and_eq_true,
      Bool.or_eq_true, decide_eq_true_eq, Option.some.injEq, and_assoc] at parent full
    refine ⟨?_, parent, full⟩
    obtain ⟨p, -, id, -⟩ := parent
    cases overlay : s.overlayBaseId with
    | none => rfl
    | some b => simp [validateSnapshotOverlayBase, overlay, ← id] at base
  · rintro ⟨pointer, parent, full⟩
    refine ⟨(), by rw [validateSnapshotOverlayBase, pointer]; rfl, ?_⟩
    obtain ⟨p, hp, id, rest⟩ := parent
    obtain ⟨x, hx, rooted⟩ := full
    rw [validateSnapshotReuseTarget]
    split
    · rfl
    split
    · simp_all
    split
    · rename_i none
      simp only [Bool.not_eq_true', any_eq_false] at none
      exact absurd (by simpa [id, and_assoc] using rest) (none p hp)
    split
    · rename_i none
      simp only [Bool.not_eq_true', any_eq_false] at none
      exact absurd (by simpa [root, and_assoc] using rooted) (none x hx)
    · rfl

/-- The rows agree on what the trigger reads of a parent. -/
def Alike (x y : Snapshot) : Prop :=
  y.id = x.id ∧ y.resourceId = x.resourceId ∧ y.status = x.status ∧ y.takenAt = x.takenAt

theorem Alike.trans (h : Alike x y) (h' : Alike y z) : Alike x z :=
  ⟨h'.1.trans h.1, h'.2.1.trans h.2.1, h'.2.2.1.trans h.2.2.1, h'.2.2.2.trans h.2.2.2⟩

/-- Between two writes of the surgery: the rows still answer for the parents they were, and the heir
is full. -/
structure Rehung (db db' : Db) (heir : Snapshot) : Prop where
  alike : ∀ x ∈ db.snapshots, ∃ y ∈ db'.snapshots, Alike x y
  full : ∃ y ∈ db'.snapshots, Alike heir y ∧ y.reuseOfSnapshotId = none

theorem Rehung.setWhere {f : Snapshot → Snapshot} (h : Rehung db db' heir)
    (keeps : ∀ s, Alike s (f s)) (other : heir.id ≠ sid) : Rehung db (db'.setWhere [sid] f) heir := by
  constructor
  · intro x hx
    obtain ⟨y, hy, alike⟩ := h.alike x hx
    refine ⟨_, mem_map_of_mem hy, ?_⟩
    split
    · exact alike.trans (keeps y)
    · exact alike
  · obtain ⟨y, hy, alike, full⟩ := h.full
    refine ⟨_, mem_map_of_mem hy, ?_⟩
    rw [if_neg (by simpa [alike.1] using other)]
    exact ⟨alike, full⟩

theorem validate_repoint (h : Rehung db db' heir) (parented : Parented db s d)
    (resource : heir.resourceId = s.resourceId) (completed : heir.status = some .completed)
    (later : s.reuseOfSnapshotId = some d → sqlLt heir.takenAt s.takenAt = true) :
    db'.validateReuseColumns (repoint d heir.id s) = .ok () := by
  obtain ⟨pointer, ⟨p, hp, id, parentResource, status, before⟩, -⟩ := parented
  obtain ⟨y, hy, heirAlike, full⟩ := h.full
  obtain ⟨z, hz, alike⟩ := h.alike p hp
  refine (valid_iff_parented rfl).mpr ⟨pointer, ?_, y, hy, heirAlike.1, heirAlike.2.1.trans resource, full⟩
  by_cases direct : s.reuseOfSnapshotId = some d
  · refine ⟨y, hy, ?_, heirAlike.2.1.trans resource, .inl (heirAlike.2.2.1.trans completed), ?_⟩
    · simp [repoint, direct, heirAlike.1]
    · rw [heirAlike.2.2.2]
      exact later direct
  · refine ⟨z, hz, ?_, alike.2.1.trans parentResource, alike.2.2.1 ▸ status, ?_⟩
    · simp [repoint, direct, alike.1, id]
    · rw [alike.2.2.2]
      exact before

/-- The other dependents' rows pass one after the other, each untouched until its turn. -/
theorem repoint_passes (db : Db) (nodup : ids.Nodup) (other : heir.id ∉ ids)
    (rows : ∀ sid ∈ ids, ∀ s, db'.snapshot? sid = some s → Parented db s d ∧
      heir.resourceId = s.resourceId ∧
      (s.reuseOfSnapshotId = some d → sqlLt heir.takenAt s.takenAt = true))
    (completed : heir.status = some .completed) (h : Rehung db db' heir) :
    ∃ db'', updateWhere validateReuseColumns ids (repoint d heir.id) db' = .ok db'' := by
  induction ids generalizing db' with
  | nil => exact ⟨db', rfl⟩
  | cons sid ids ih =>
    obtain ⟨fresh, nodup⟩ := nodup_cons.mp nodup
    rw [updateWhere, foldlM_cons]
    cases found : db'.snapshot? sid with
    | none =>
      exact ih nodup (fun h => other (.tail _ h)) (fun t ht => rows t (.tail _ ht)) h
    | some s =>
      obtain ⟨parented, resource, later⟩ := rows sid mem_cons_self s found
      have passes := validate_repoint h parented resource completed later
      simp only [passes]
      refine ih nodup (fun h => other (.tail _ h)) (fun t ht x hx => ?_)
        (h.setWhere (fun s => ⟨rfl, rfl, rfl, rfl⟩) fun same => other (same ▸ mem_cons_self))
      have apart : t ∉ [sid] := fun same => fresh (mem_singleton.mp same ▸ ht)
      rw [snapshot?_setWhere (f := repoint d heir.id) fun _ => rfl] at hx
      refine rows t (.tail _ ht) x ?_
      simpa [apart] using hx

/-- Only the heir's row changes, as the trigger reads it. -/
structure Touched (heir : Uuid) (db db' : Db) : Prop where
  ids : db'.snapshots.map (·.id) = db.snapshots.map (·.id)
  others : ∀ sid, sid ≠ heir → db'.snapshot? sid = db.snapshot? sid
  own : ∀ x, db.snapshot? heir = some x → ∃ y, db'.snapshot? heir = some y ∧ Alike x y ∧
    y.overlayBaseId = x.overlayBaseId ∧ (x.reuseOfSnapshotId = none → y.reuseOfSnapshotId = none)

theorem touched_setWhere {f : Snapshot → Snapshot} (db : Db)
    (keeps : ∀ s, Alike s (f s) ∧ (f s).overlayBaseId = s.overlayBaseId ∧
      (s.reuseOfSnapshotId = none → (f s).reuseOfSnapshotId = none)) :
    Touched heir db (db.setWhere [heir] f) := by
  refine ⟨ids_setWhere fun s => (keeps s).1.1, fun sid ne => ?_, fun x hx => ?_⟩
  · rw [snapshot?_setWhere fun s => (keeps s).1.1]
    simp [ne]
  · rw [snapshot?_setWhere fun s => (keeps s).1.1, hx]
    exact ⟨_, rfl, by simpa using keeps x⟩

theorem touched_markChatInventoryFormat : Touched heir db (markChatInventoryFormat db heir d) := by
  rw [markChatInventoryFormat]
  split
  · exact touched_setWhere db fun _ => ⟨⟨rfl, rfl, rfl, rfl⟩, rfl, id⟩
  · exact ⟨rfl, fun _ _ => rfl, fun x hx => ⟨x, hx, ⟨rfl, rfl, rfl, rfl⟩, rfl, id⟩⟩

theorem rehydrateInto_passes (now : Time) (unique : (db.snapshots.map (·.id)).Nodup)
    (valid : ∀ s ∈ db.snapshots, db.validateReuseColumns s = .ok ())
    (hh : heir ∈ heirCandidates db d doomed)
    (later : ∀ s ∈ db.snapshots, s.id ≠ heir.id → s.reuseChainRootId = some d →
      s.reuseOfSnapshotId = some d → sqlLt heir.takenAt s.takenAt = true) :
    ∃ db', rehydrateInto now d heir.id db = .ok db' := by
  simp only [heirCandidates, mem_filter, Bool.and_eq_true, decide_eq_true_eq] at hh
  obtain ⟨mem, ⟨⟨rooted, apart⟩, -⟩, completed⟩ := hh
  have parented := (valid_iff_parented rooted).mp (valid heir mem)
  obtain ⟨root, hroot, rootId, rootResource, -⟩ := parented.full
  have lookup {s : Snapshot} (hs : s ∈ db.snapshots) : db.snapshot? s.id = some s :=
    (snapshot?_eq_some unique).mpr ⟨hs, rfl⟩
  have mem_of {sid : Uuid} {s : Snapshot} (hs : db.snapshot? sid = some s) :=
    (snapshot?_eq_some unique).mp hs
  -- the copies and the marker, then the promotion, then the counts: only the heir's row changes
  set copied := copyChatInventories (db.copyInto heir.id (db.items.filter (·.snapshotId = d))) heir.id d
    with hcopied
  set marked := markChatInventoryFormat copied heir.id d with hmarked
  have touched : Touched heir.id copied marked := touched_markChatInventoryFormat
  obtain ⟨y, hy, alike, bare, -⟩ := touched.own heir (lookup mem)
  have hd : marked.snapshot? d = some root :=
    (touched.others d (Ne.symm apart)).trans (rootId ▸ lookup hroot)
  have passes : marked.validateReuseColumns (promote marked now root y) = .ok () := by
    simp [validateReuseColumns, validateSnapshotOverlayBase, promote, bare, parented.pointer,
      validateSnapshotReuseTarget]
    rfl
  set promoted := marked.setWhere [heir.id] (promote marked now root) with hpromoted
  have promotes : Touched heir.id marked promoted :=
    touched_setWhere marked fun _ => ⟨⟨rfl, rfl, rfl, rfl⟩, rfl, fun _ => rfl⟩
  have counts : Touched heir.id promoted (restateCounts promoted heir.id) :=
    touched_setWhere promoted fun _ => ⟨⟨rfl, rfl, rfl, rfl⟩, rfl, id⟩
  have full : promoted.snapshot? heir.id = some (promote marked now root y) := by
    rw [hpromoted, snapshot?_setWhere (f := promote marked now root) fun _ => rfl, hy]
    simp
  obtain ⟨z, hz, sameAs, -, isFull⟩ := counts.own _ full
  have own : Alike heir z := alike.trans sameAs
  have others (sid : Uuid) (ne : sid ≠ heir.id) :
      (restateCounts promoted heir.id).snapshot? sid = db.snapshot? sid :=
    ((counts.others sid ne).trans (promotes.others sid ne)).trans (touched.others sid ne)
  have nodup : ((restateCounts promoted heir.id).snapshots.map (·.id)).Nodup := by
    rw [counts.ids, promotes.ids, touched.ids]
    exact unique
  have reached : rehydrateInto now d heir.id db = updateWhere validateReuseColumns
      (repointed (restateCounts promoted heir.id) d heir.id) (repoint d heir.id)
      (restateCounts promoted heir.id) := by
    simp only [rehydrateInto, ← hcopied, ← hmarked, hd, updateWhere, foldlM_cons, hy, passes]
    rfl
  rw [reached]
  refine repoint_passes db (nodup_repointed nodup) (fun own => ?_) (fun sid hsid s hs => ?_) completed
    ⟨fun x hx => ?_, z, mem_of_find?_eq_some hz, own, isFull rfl⟩
  · exact ((mem_repointed nodup).mp own).2 rfl
  · obtain ⟨sRoot, ne⟩ := (mem_repointed nodup).mp hsid
    have pointed : s.reuseChainRootId = some d := by
      simpa [lineage, hs] using sRoot
    obtain ⟨hmem, id⟩ := mem_of ((others sid ne).symm.trans hs)
    have sParented := (valid_iff_parented pointed).mp (valid s hmem)
    obtain ⟨root', hroot', id', resource', -⟩ := sParented.full
    obtain rfl : root' = root :=
      inj_on_of_nodup_map unique hroot' hroot (id'.trans rootId.symm)
    exact ⟨sParented, rootResource.symm.trans resource', later s hmem (id ▸ ne) pointed⟩
  · by_cases same : x.id = heir.id
    · obtain rfl : x = heir := inj_on_of_nodup_map unique hx mem same
      exact ⟨z, mem_of_find?_eq_some hz, own⟩
    · have found := (others x.id same).trans (lookup hx)
      exact ⟨x, mem_of_find?_eq_some found, rfl, rfl, rfl, rfl⟩

/-- The trigger passes every write of the surgery if the heir comes before each other dependent that
points straight at the doomed snapshot. -/
theorem rehydrate_passes_trigger (now : Time) (d : Uuid) (doomed : List Uuid) (db : Db)
    (unique : (db.snapshots.map (·.id)).Nodup)
    (valid : ∀ s ∈ db.snapshots, db.validateReuseColumns s = .ok ())
    (first : ∀ heir ∈ orderByFirst takenBefore (heirCandidates db d doomed), ∀ s ∈ db.snapshots,
      s.id ≠ heir.id → s.reuseChainRootId = some d → s.reuseOfSnapshotId = some d →
        sqlLt heir.takenAt s.takenAt = true) :
    ∃ result, rehydrateReuseHeir now d doomed db = .ok result := by
  rw [rehydrateReuseHeir]
  split
  · exact ⟨_, rfl⟩
  · rename_i heir chosen
    obtain ⟨db', into⟩ := rehydrateInto_passes now unique valid (orderByFirst_mem chosen)
      (first heir chosen)
    exact ⟨_, bind_eq_ok.mpr ⟨db', into, rfl⟩⟩

/-- A full snapshot and two pointers at it. -/
def reuseChain : Db where
  snapshots := [
    { id := 1, resourceId := 5, status := some .completed, createdAt := some 10 },
    { id := 2, resourceId := 5, status := some .completed, createdAt := some 20
      reuseOfSnapshotId := some 1, reuseChainRootId := some 1 },
    { id := 3, resourceId := 5, status := some .completed, createdAt := some 30
      reuseOfSnapshotId := some 2, reuseChainRootId := some 1 }]

theorem reuseChain_valid : (reuseChain.snapshots.map (·.id)).Nodup ∧
    ∀ s ∈ reuseChain.snapshots, reuseChain.validateReuseColumns s = .ok () :=
  ⟨by decide, forall_mem_cons.mpr ⟨rfl, forall_mem_cons.mpr ⟨rfl,
    forall_mem_singleton.mpr rfl⟩⟩⟩

theorem reuseChain_root_rehydrated : ∃ result, rehydrateReuseHeir 40 1 [1] reuseChain = .ok result :=
  rehydrate_passes_trigger 40 1 [1] reuseChain reuseChain_valid.1 reuseChain_valid.2 (by decide)

/-- The root and the first pointer are doomed: the pointer is moved to the heir, which is later. -/
theorem doomed_pointer_rejected : ((reuseChain.snapshots.map (·.id)).Nodup ∧
      ∀ s ∈ reuseChain.snapshots, reuseChain.validateReuseColumns s = .ok ()) ∧
    rehydrateReuseHeir 40 1 [1, 2] reuseChain = .error (.reuseParent (some 3) 2) ∧
    ∀ md5, deleteSnapshots md5 40 [1, 2] [1, 2] reuseChain = .error (.reuseParent (some 3) 2) :=
  ⟨reuseChain_valid, rfl, fun _ => rfl⟩

end TmVault.Retention
