import TmVault.Mail.Overlay

namespace TmVault.Mail

open Relational Store List Db

variable {db db' : Db} {args : CarryArgs} {now : Time} {tsid rid : Uuid} {jid : Option Uuid}
  {limits : OverlayLimits} {result : OverlayResult} {rows : List SnapshotItem}

theorem require_ok {α : Type} {reason : Refusal} {o : Option α} {a : α}
    (h : require reason o = .ok a) : o = some a := by
  cases o with
  | none => cases h
  | some b =>
    cases h
    rfl

theorem mapError_ok {ε ε' α : Type} {f : ε → ε'} {x : Except ε α} {a : α}
    (h : x.mapError f = .ok a) : x = .ok a := by
  cases x with
  | error e => cases h
  | ok b =>
    cases h
    rfl

/-- What the schema promises the build on top of the table keys: row ids are unique, and the two
reuse columns are set together. -/
structure Ready (db : Db) : Prop where
  wf : db.TablesWf
  ids : (db.items.map (·.id)).Nodup
  columns : ∀ s ∈ db.snapshots, s.reuseOfSnapshotId = none → s.reuseChainRootId = none

instance (db : Db) : Decidable (Ready db) :=
  decidable_of_iff (_ ∧ _ ∧ _) ⟨fun ⟨a, b, c⟩ => ⟨a, b, c⟩, fun ⟨a, b, c⟩ => ⟨a, b, c⟩⟩

theorem mailPrior_spec {p : Snapshot} (h : mailPrior db rid tsid jid = some p) :
    p ∈ db.snapshots ∧ p.id ≠ tsid ∧ p.reuseChainRootId = none := by
  have hp := mem_filter.mp (argmax_mem h)
  simp only [isMailPrior, Bool.and_eq_true, decide_eq_true_eq] at hp
  grind

theorem based_ok {ε : Type} {g : StoreError → ε} {f : Snapshot → Snapshot} {t : Snapshot}
    {base : Uuid} (ht : db.snapshot? tsid = some t)
    (h : (updateWhere validateSnapshotOverlayBase [tsid] f db).mapError g = .ok db')
    (same : ∀ s, (f s).id = s.id) (onto : (f t).overlayBaseId = some base) :
    base ≠ tsid ∧ (∃ b ∈ db.snapshots, b.id = base ∧ b.reuseOfSnapshotId = none) ∧
      db' = db.setWhere [tsid] f := by
  have h := mapError_ok h
  obtain ⟨b, hb, hid, other, reuse⟩ :=
    validateSnapshotOverlayBase_ok onto (updateWhere_trigger ht h)
  rw [same, snapshot?_id ht] at other
  exact ⟨other, ⟨b, hb, hid, reuse⟩, updateWhere_ok same (nodup_singleton tsid) h⟩

theorem Ready.root_of_base (ready : Ready db) (hs : s ∈ db.snapshots)
    (h : ∃ b ∈ db.snapshots, b.id = s.overlayBaseId.getD s.id ∧ b.reuseOfSnapshotId = none) :
    s.reuseChainRootId = none := by
  cases hroot : s.reuseChainRootId with
  | none => rfl
  | some r =>
    -- a pointer is no overlay, and the trigger refuses it as a base
    obtain ⟨b, hb, hid, reuse⟩ := h
    rw [(ready.wf.pointer s hs r hroot).1, Option.getD_none] at hid
    obtain rfl := inj_on_of_nodup_map ready.wf.snapshot_ids hb hs hid
    exact hroot.symm.trans (ready.columns b hb reuse)

theorem buildMailOverlay_ok (ready : Ready db)
    (h : buildMailOverlay args now tsid limits rid jid db = .ok (db', result)) :
    ∃ p base, mailPrior db rid tsid jid = some p ∧
      Based (db.setWhere [tsid] (Retention.onBase base)) tsid p base ∧
      db' = (layOverlay args now tsid p.id base p.overlayBaseId.isSome
        (db.setWhere [tsid] (Retention.onBase base))).setWhere [tsid] (marked base p.id) := by
  have found : ∀ {sid s}, db.snapshot? sid = some s ↔ s ∈ db.snapshots ∧ s.id = sid :=
    snapshot?_eq_some ready.wf.snapshot_ids
  obtain ⟨t, htarget, p, hprior, b, _, h⟩ := of_bind₃ h
  obtain ⟨targetTime, _, baseTime, _, _, _, h⟩ := of_bind₃ h
  obtain ⟨based, hbased, _, _, h⟩ := of_bind₂ h
  cases h
  set base := p.overlayBaseId.getD p.id with hbase
  obtain ⟨ht, full⟩ := Option.filter_eq_some_iff.mp (require_ok htarget)
  simp only [inProgressFull, Bool.and_eq_true, decide_eq_true_eq] at full
  obtain ⟨hp, prior_ne, root⟩ := mailPrior_spec (require_ok hprior)
  obtain ⟨base_ne, -, rfl⟩ := based_ok ht hbased (fun _ => rfl) rfl
  have hprior' : db.snapshot? p.id = some p := found.mpr ⟨hp, rfl⟩
  refine ⟨p, base, require_ok hprior, ?_, rfl⟩
  exact {
    keys := ready.wf.item_keys, ids := ready.ids, target := by
      refine ⟨Retention.onBase base t, ?_, ready.columns t (found.mp ht).1 full.1.1.2, rfl⟩
      rw [snapshot?_setWhere (f := Retention.onBase base) fun _ => rfl, ht]
      simp
    bare := by
      refine Set.eq_empty_iff_forall_notMem.mpr fun k hidden => ?_
      have removed : db.removed tsid k = true := hidden_lineage.mp hidden
      rw [ready.wf.not_removed ht full.1.2 k] at removed
      cases removed
    prior := by
      rw [snapshot?_setWhere (f := Retention.onBase base) fun _ => rfl, hprior']
      simp [prior_ne]
    root := root, base_eq := rfl, prior_ne := prior_ne, base_ne := base_ne, apart := by
      intro overlay same
      obtain ⟨b', hb'⟩ := Option.ne_none_iff_exists'.mp overlay
      have base_full := (ready.wf.overlay p hp b' hb' p hp (by rw [← same, hbase, hb']; rfl)).2
      exact overlay base_full }

def carriedMail (rows : List SnapshotItem) : List Payload :=
  (rows.filter (·.itemType ∈ mailTypes)).map fun i => carried i.toPayload

theorem nodup_carriedMail (h : (rows.map (·.key)).Nodup) : (carriedMail rows).Nodup := by
  apply List.Nodup.of_map Payload.key
  rw [carriedMail, map_map]
  exact h.sublist (filter_sublist.map _)

theorem mem_carriedMail {r : Payload} : r ∈ carriedMail rows ↔
      r ∈ Set.image carried {q | q.itemType ∈ mailTypes ∧ ∃ i ∈ rows, i.toPayload = q} := by
  simp only [carriedMail, mem_map, mem_filter, decide_eq_true_eq, Set.mem_image, Set.mem_ofPred_eq]
  constructor
  · rintro ⟨i, ⟨hi, hmail⟩, rfl⟩
    exact ⟨i.toPayload, ⟨hmail, i, hi, rfl⟩, rfl⟩
  · rintro ⟨-, ⟨hmail, i, hi, rfl⟩, rfl⟩
    exact ⟨i, ⟨hi, hmail⟩, rfl⟩

theorem mailInventory_setWhere {f : Snapshot → Snapshot} {p : Snapshot}
    (hs : db.snapshot? p.id = some p) (hs' : (db.setWhere [tsid] f).snapshot? p.id = some p)
    (root : p.reuseChainRootId = none) :
    mailInventory (db.setWhere [tsid] f) p.id = mailInventory db p.id := by
  have same : (db.setWhere [tsid] f).snapshotItemsEffective p.id =
      db.snapshotItemsEffective p.id :=
    (effective_of_root hs' root).trans (effective_of_root hs root).symm
  rw [mailInventory, same]
  rfl

theorem mailInventory_eq_view {t : Snapshot} {base : Uuid} (ht : db.snapshot? tsid = some t)
    (root : t.reuseChainRootId = none) (hbase : t.overlayBaseId = some base) :
    mailInventory db tsid =
      layering.view (mailRows db tsid) (mailRows db base) (db.lineage.hidden tsid) := by
  ext q
  constructor
  · exact fun h => (mem_effective_overlay ht root hbase h.1).mp h.2
  · intro h
    have hq : q.itemType ∈ mailTypes := h.elim (·.2) fun h => h.mem.2
    exact ⟨hq, (mem_effective_overlay ht root hbase hq).mpr h⟩

theorem mailInventory_buildMailOverlay (ready : Ready db)
    (h : buildMailOverlay args now tsid limits rid jid db = .ok (db', result)) :
    ∃ p, mailPrior db rid tsid jid = some p ∧ (∀ b ∈ p.overlayBaseId, b ≠ tsid) ∧
      db'.Keyed ∧
      (∃ t, db'.snapshot? tsid = some t ∧ t.reuseChainRootId = none) ∧
      mailInventory db' tsid =
        layering.carry (Drops args) (mailRows db tsid) (mailInventory db p.id) := by
  obtain ⟨p, base, hprior, based, rfl⟩ := buildMailOverlay_ok ready h
  obtain ⟨t, ht, root, hbase⟩ := based.target
  set db₀ := db.setWhere [tsid] (Retention.onBase base)
  set laid := layOverlay args now tsid p.id base p.overlayBaseId.isSome db₀ with hlaid
  have hmarked : (laid.setWhere [tsid] (marked base p.id)).snapshot? tsid =
      some (marked base p.id t) := by
    have ht' : laid.snapshot? tsid = some t := by
      rw [snapshot?, hlaid, snapshots_layOverlay]
      exact ht
    rw [snapshot?_setWhere (f := marked base p.id) fun _ => rfl, ht', Option.map_some,
      if_pos (mem_singleton_self tsid)]
  have prior : db.snapshot? p.id = some p :=
    (snapshot?_eq_some ready.wf.snapshot_ids).mpr ⟨(mailPrior_spec hprior).1, rfl⟩
  refine ⟨p, hprior, ?_, nodup_layOverlay based.keys _ _, ⟨_, hmarked, root⟩, ?_⟩
  · intro b hb
    have hbase : base = b := by
      rw [← based.base_eq, hb, Option.getD_some]
    exact hbase ▸ based.base_ne
  · rw [mailInventory_eq_view hmarked root hbase,
      ← mailInventory_setWhere prior based.prior based.root]
    exact view_layOverlay based

/-- The mail an overlay shows is the mail the full copy would have left, row for row, up to what the
copy writes into every row: a version and a deletion flag, and no chat version. -/
theorem overlay_matches_full_copy (now' : Time) (ready : Ready db)
    (folders : args.keepFolderIds = none ∨ args.keepFids ≠ [])
    (h : buildMailOverlay args now tsid limits rid jid db = .ok (db', result)) :
    (carriedMail (db'.snapshotItemsEffective tsid)).Perm
      (carriedMail ((carryForwardMail args now' tsid rid jid db).items.filter
        (·.snapshotId = tsid))) := by
  obtain ⟨p, hprior, base_ne, keys', ⟨t, ht, root⟩, inventory⟩ :=
    mailInventory_buildMailOverlay ready h
  obtain ⟨hp, prior_ne, prior_root⟩ := mailPrior_spec hprior
  have hs : db.snapshot? p.id = some p :=
    (snapshot?_eq_some ready.wf.snapshot_ids).mpr ⟨hp, rfl⟩
  have full : carryForwardMail args now' tsid rid jid db =
      copyAttachments now' tsid p.id (copyEmails args now' tsid p.id db) := by
    rw [carryForwardMail, hprior, if_neg]
    rcases folders with folders | folders <;> simp [folders]
  rw [full]
  refine (perm_ext_iff_of_nodup ?_ ?_).mpr fun r => ?_
  · exact nodup_carriedMail (nodup_keys_inventory keys')
  · apply nodup_carriedMail
    exact nodup_keys_filter (nodup_copyInto (nodup_copyInto ready.wf.item_keys)) _
      fun i hi => of_decide_eq_true hi
  · have shown : {q : Payload | q.itemType ∈ mailTypes ∧
        ∃ i ∈ db'.snapshotItemsEffective tsid, i.toPayload = q} = mailInventory db' tsid := rfl
    have held : {q : Payload | q.itemType ∈ mailTypes ∧ ∃ i ∈ (copyAttachments now' tsid p.id
        (copyEmails args now' tsid p.id db)).items.filter (·.snapshotId = tsid), i.toPayload = q} =
        mailRows (copyAttachments now' tsid p.id (copyEmails args now' tsid p.id db)) tsid := by
      ext q
      rw [mem_mailRows]
      simp [and_assoc]
    rw [mem_carriedMail, mem_carriedMail, shown, held, inventory,
      image_mailRows_copy ready.wf.item_keys hs prior_root prior_ne base_ne]

def changedMailbox : Db where
  snapshots :=
    [{ id := 1, resourceId := 0, jobId := some 7, status := some .completed, createdAt := some 10 },
      { id := 2, resourceId := 0, jobId := some 8, status := some .completed, createdAt := some 20,
        overlayBaseId := some 1 },
      { id := 3, resourceId := 0, jobId := some 9, createdAt := some 30 }]
  items :=
    [{ id := 10, snapshotId := 1, itemType := .email, externalId := "a" },
      { id := 11, snapshotId := 1, itemType := .emailAttachment, externalId := "a::1" },
      { id := 12, snapshotId := 1, itemType := .email, externalId := "b" },
      { id := 13, snapshotId := 1, itemType := .email, externalId := "c" },
      { id := 14, snapshotId := 1, itemType := .emailAttachment, externalId := "d::1" },
      { id := 15, snapshotId := 2, itemType := .email, externalId := "d" },
      { id := 16, snapshotId := 2, itemType := .emailAttachment, externalId := "d::2" },
      { id := 17, snapshotId := 3, itemType := .email, externalId := "a", contentHash := some "new" }]
  removals := [{ snapshotId := 2, itemType := .email, externalId := "b" }]
  nextUuid := 20

theorem changedMailbox_matches :
    ∃ db' result, buildMailOverlay { tombstonedIds := ["c"] } 40 3 { maxRatio := 2 } 0 (some 9)
        changedMailbox = .ok (db', result) ∧ result = ⟨2, 3, 2, 5, 1⟩ ∧
      (carriedMail (db'.snapshotItemsEffective 3)).Perm
        (carriedMail ((carryForwardMail { tombstonedIds := ["c"] } 50 3 0 (some 9)
          changedMailbox).items.filter (·.snapshotId = 3))) := by
  have figures : (buildMailOverlay { tombstonedIds := ["c"] } 40 3 { maxRatio := 2 } 0 (some 9)
    changedMailbox).toOption.map Prod.snd = some ⟨2, 3, 2, 5, 1⟩ := by decide +kernel
  obtain ⟨r, built, same⟩ := Option.map_eq_some_iff.mp figures
  have built := toOption_eq_some.mp built
  exact ⟨r.1, r.2, built, same, overlay_matches_full_copy 50 (by decide +kernel) (.inl rfl) built⟩

def versionlessMailbox : Db where
  snapshots :=
    [{ id := 1, resourceId := 0, jobId := some 7, status := some .completed, createdAt := some 10 },
      { id := 3, resourceId := 0, jobId := some 9, createdAt := some 30 }]
  items := [{ id := 10, snapshotId := 1, itemType := .email, externalId := "a", backupVersion := none }]
  nextUuid := 20

theorem versionlessMailbox_differs :
    (buildMailOverlay {} 40 3 {} 0 (some 9) versionlessMailbox).toOption.map (fun r =>
        (r.1.snapshotItemsEffective 3).map fun i => (i.externalId, i.backupVersion)) =
      some [("a", none)] ∧
    ((carryForwardMail {} 40 3 0 (some 9) versionlessMailbox).items.filter
        (·.snapshotId = 3)).map (fun i => (i.externalId, i.backupVersion)) = [("a", some 1)] := by
  decide +kernel

end TmVault.Mail
