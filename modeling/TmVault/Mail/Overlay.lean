import TmVault.Relational.CarryForward
import TmVault.Retention.Rehydrate

namespace TmVault.Mail

open Relational Store

def mailTypes : List ItemType := [.email, .emailAttachment]

structure CarryArgs where
  (excludedPaths tombstonedIds : List String := [])
  keepFolderIds : Option (List String) := none
  excludePathless : Bool := false

namespace CarryArgs

variable (args : CarryArgs)

def exclPaths : List String := args.excludedPaths.filter (· ≠ "")

def exclIds : List String := args.tombstonedIds.filter (· ≠ "")

def keepFids : List String := (args.keepFolderIds.getD []).filter (· ≠ "")

def dropped (p : Payload) : Bool :=
  p.metadata.sourceMailbox.getD "primary" ≠ "primary" ||
    p.folderPath.getD "" ∈ args.exclPaths ||
    p.externalId ∈ args.exclIds ||
    (args.keepFolderIds.isSome && !p.metadata.rawParentFolderId.any (· ∈ args.keepFids)) ||
    (args.excludePathless && p.folderPath.getD "" = "")

end CarryArgs

def isMailPrior (db : Db) (rid tsid : Uuid) (jid : Option Uuid) (s : Snapshot) : Bool :=
  s.resourceId = rid && s.id ≠ tsid &&
    s.status.any (· ∈ [SnapshotStatus.completed, .partialRun]) &&
    s.jobId ≠ jid &&
    s.reuseOfSnapshotId = none && s.reuseChainRootId = none &&
    !s.extraData.mailCarryForwardFailed && !s.extraData.mailDeltaOnly &&
    !s.extraData.mailCarryForwardPending && s.extraData.cancelledAt = none &&
    sqlLt s.createdAt ((db.snapshot? tsid).bind (·.createdAt)) &&
    (s.extraData.mailUnionCarryClaimed ||
      !db.partitions.any fun p => p.snapshotId = s.id && p.mailCarryForward) &&
    (s.overlayBaseId.isSome ||
      db.items.any fun i => i.snapshotId = s.id && i.itemType ∈ mailTypes)

def mailPrior (db : Db) (rid tsid : Uuid) (jid : Option Uuid) : Option Snapshot :=
  (db.snapshots.filter (isMailPrior db rid tsid jid)).argmax fun s => s.createdAt.getD 0

section

variable (args : CarryArgs) (now : Time) (tsid prior : Uuid)

def carried (p : Payload) : Payload :=
  { p with
    backupVersion := some (p.backupVersion.getD 1), isDeleted := some (p.isDeleted.getD false)
    chatVersionId := none }

def carriedRow (now : Time) (i : SnapshotItem) : SnapshotItem :=
  { i with toPayload := carried i.toPayload, createdAt := some now }

def copyEmails (db : Db) : Db :=
  db.copyInto tsid (((db.snapshotItemsEffective prior).filter fun s =>
    s.itemType = .email && !args.dropped s.toPayload && !db.owns tsid s.key).map (carriedRow now))

def copyAttachments (db : Db) : Db :=
  db.copyInto tsid (((db.snapshotItemsEffective prior).filter fun s =>
    s.itemType = .emailAttachment && db.owns tsid (.email, s.parentExternalIdOrHead) &&
      !db.owns tsid s.key).map (carriedRow now))

def carryForwardMail (rid : Uuid) (jid : Option Uuid) (db : Db) : Db :=
  -- a whitelist that names no folder carries nothing
  if args.keepFolderIds.isSome && args.keepFids = [] then db
  else match mailPrior db rid tsid jid with
    | none => db
    | some p => copyAttachments now tsid p.id (copyEmails args now tsid p.id db)

end

inductive Refusal
  | targetNotInProgress | noPrior | baseNotRestorable (base : Uuid) | baseTooOld (base : Uuid)
  | tooManyChanges (own removed baseRows : Nat) | missingCreatedAt | store (e : StoreError)

structure OverlayResult where
  (carried own removed baseRows : Nat)
  base : Uuid
  deriving DecidableEq

structure OverlayLimits where
  maxAge : Int := 604800000000
  maxRatio : Rat := 1 / 4

section

variable (args : CarryArgs) (now : Time) (tsid prior base : Uuid)

def layEmails (db : Db) : Db :=
  db.copyInto tsid ((db.items.filter fun s =>
    s.snapshotId = prior && s.itemType = .email && !args.dropped s.toPayload &&
      !db.owns tsid s.key).map fun i => { i with createdAt := some now })

def keysToRemove (fromOverlay : Bool) (db : Db) : List ItemKey :=
  (db.items.filter fun b =>
    b.snapshotId = base && b.itemType ∈ mailTypes && !db.owns tsid b.key &&
      ((fromOverlay && !(db.snapshotItemsEffective prior).any fun e =>
          e.snapshotId = base && e.id = b.id) ||
        (b.itemType = .email && args.dropped b.toPayload))).map (·.key)

def layAttachments (db : Db) : Db :=
  db.copyInto tsid ((db.items.filter fun s =>
    s.snapshotId = prior && s.itemType = .emailAttachment && !db.owns tsid s.key &&
      (db.snapshotItemsEffective tsid).any fun e =>
        e.itemType = .email && e.externalId = s.parentExternalIdOrHead).map
    fun i => { i with createdAt := some now })

def layOverlay (fromOverlay : Bool) (db : Db) : Db :=
  let db := if fromOverlay then layEmails args now tsid prior db else db
  let db := db.addRemovals tsid (keysToRemove args tsid prior base fromOverlay db)
  if fromOverlay then layAttachments now tsid prior db else db

def inProgressFull (s : Snapshot) : Bool :=
  s.status = some .inProgress && s.reuseOfSnapshotId = none && s.overlayBaseId = none &&
    s.extraData.cancelledAt = none

def restorableBase (s : Snapshot) : Bool :=
  s.status.any (· ∈ [SnapshotStatus.completed, .partialRun]) && s.extraData.cancelledAt = none

def marked (base prior : Uuid) (s : Snapshot) : Snapshot :=
  { s with extraData := { s.extraData with
      mailOverlayBase := some base, mailOverlayPrior := some prior } }

def mailRowCount (db : Db) (sid : Uuid) : Nat :=
  (db.items.filter fun i => i.snapshotId = sid && i.itemType ∈ mailTypes).length

def require {α : Type} (reason : Refusal) : Option α → Except Refusal α
  | some a => .ok a
  | none => .error reason

def refuseIf (condition : Bool) (reason : Refusal) : Except Refusal Unit :=
  if condition then .error reason else .ok ()

def tooOld (limits : OverlayLimits) (target base : Time) : Bool :=
  limits.maxAge < (target : Int) - base

def exceeds (limits : OverlayLimits) (own removed baseRows : Nat) : Bool :=
  limits.maxRatio * baseRows < ((own + removed : Nat) : Rat)

/-- The new database and its figures, or why the full copy must run. -/
def buildMailOverlay (limits : OverlayLimits) (rid : Uuid) (jid : Option Uuid) (db : Db) :
    Except Refusal (Db × OverlayResult) := do
  let target ← require .targetNotInProgress ((db.snapshot? tsid).filter inProgressFull)
  let p ← require .noPrior (mailPrior db rid tsid jid)
  let baseId := p.overlayBaseId.getD p.id
  let base ← require (.baseNotRestorable baseId) ((db.snapshot? baseId).filter restorableBase)
  let targetTime ← require .missingCreatedAt target.createdAt
  let baseTime ← require .missingCreatedAt base.createdAt
  refuseIf (tooOld limits targetTime baseTime) (.baseTooOld baseId)
  let based ← (Db.updateWhere Db.validateSnapshotOverlayBase [tsid] (Retention.onBase baseId)
    db).mapError .store
  let laid := layOverlay args now tsid p.id baseId p.overlayBaseId.isSome based
  let own := mailRowCount laid tsid
  let removed := (laid.removals.filter (·.snapshotId = tsid)).length
  let baseRows := mailRowCount laid baseId
  refuseIf (exceeds limits own removed baseRows) (.tooManyChanges own removed baseRows)
  pure (laid.setWhere [tsid] (marked baseId p.id),
    ⟨laid.items.length - db.items.length, own, removed, baseRows, baseId⟩)

end

open List Set
open Bool hiding and_assoc false_and false_or true_and

section

def mailRows (db : Db) (sid : Uuid) : Set Payload :=
  db.lineage.rows sid ∩ {p | p.itemType ∈ mailTypes}

variable {db : Db} {sid base : Uuid} {p q : Payload}

theorem mail_cases (h : t ∈ mailTypes) : t = .email ∨ t = .emailAttachment := by
  simpa [mailTypes] using h

theorem mail_not_sparse (h : t ∈ mailTypes) : ¬ t.sparse := by
  rcases mail_cases h with rfl | rfl <;> decide

theorem mail_inherits (h : p.itemType ∈ mailTypes) : layering.inherits p := by
  change p.itemType ∈ ItemType.overlayTypes
  rcases mail_cases h with h | h <;> rw [h] <;> decide

theorem itemType_of_key (h : p.key = q.key) : p.itemType = q.itemType := congrArg Prod.fst h

theorem parentKey_mail (hp : p.itemType ∈ mailTypes) (h : p.parentKey = some k) :
    p.itemType = .emailAttachment ∧ k = (.email, p.parentExternalIdOrHead) := by
  rcases mail_cases hp with ht | ht
  · simp [Payload.parentKey, ht] at h
  · simp only [Payload.parentKey, ht, Option.some_inj] at h
    exact ⟨ht, h.symm⟩

theorem parentKey_email (h : p.itemType = .email) : p.parentKey = none := by
  rw [Payload.parentKey, h]

theorem parentKey_attachment (h : p.itemType = .emailAttachment) :
    p.parentKey = some (.email, p.parentExternalIdOrHead) := by
  rw [Payload.parentKey, h]

theorem stratified : layering.Stratified := by
  intro r p h
  have ht := itemType_of_key h
  change r.parentKey = none ↔ p.parentKey = none
  rw [Payload.parentKey, Payload.parentKey, ht]
  split <;> simp

@[simp] theorem mem_mailRows : p ∈ mailRows db sid ↔
    p.itemType ∈ mailTypes ∧ ∃ i ∈ db.items, i.snapshotId = sid ∧ i.toPayload = p := by
  constructor
  · exact fun h => ⟨h.2, h.1.2⟩
  · exact fun h => ⟨⟨mail_not_sparse h.1, h.2⟩, h.1⟩

theorem owns_mailRows (h : k.1 ∈ mailTypes) :
    layering.Owns (mailRows db sid) k ↔ db.owns sid k = true := by
  rw [← Db.owns_lineage (mail_not_sparse h)]
  constructor
  · exact fun ho => ho.mono inter_subset_left
  · rintro ⟨p, hp, rfl⟩
    exact ⟨p, ⟨hp, h⟩, rfl⟩

theorem mem_view_mailRows {hidden : Set ItemKey} (hp : p.itemType ∈ mailTypes) :
    p ∈ layering.view (mailRows db sid) (mailRows db base) hidden ↔
      p ∈ layering.view (db.lineage.rows sid) (db.lineage.rows base) hidden := by
  apply Layering.mem_view_inter
  · intro r q h
    change r.itemType ∈ mailTypes ↔ q.itemType ∈ mailTypes
    rw [itemType_of_key h]
  · intro r q hr h
    have ht : q.key = (.email, r.parentExternalIdOrHead) := (parentKey_mail hr h).2
    change q.itemType ∈ mailTypes
    rw [show q.itemType = .email from congrArg Prod.fst ht]
    decide
  · exact hp

theorem mailRows_copyInto (distinct : (rows.map (·.key)).Nodup) :
    mailRows (db.copyInto target rows) target = mailRows db target ∪
      {p | p.itemType ∈ mailTypes ∧ (∃ j ∈ rows, j.toPayload = p) ∧
        ¬ db.owns target p.key = true} := by
  ext p
  rw [mailRows, Db.rows_copyInto distinct, if_pos rfl]
  constructor
  · rintro ⟨h | h, hp⟩
    · exact .inl ⟨h, hp⟩
    · exact .inr ⟨hp, h.2⟩
  · rintro (h | h)
    · exact ⟨.inl h.1, h.2⟩
    · exact ⟨.inr ⟨mail_not_sparse h.1, h.2⟩, h.1⟩

theorem mailRows_copyInto_of_ne (h : sid ≠ target) :
    mailRows (db.copyInto target rows) sid = mailRows db sid := by
  ext p
  rw [mem_mailRows, mem_mailRows]
  apply and_congr_right
  intro _
  apply exists_congr
  intro i
  constructor
  · rintro ⟨hi, rfl, hp⟩
    exact ⟨(Db.mem_items_copyInto_of_ne h).mp hi, rfl, hp⟩
  · rintro ⟨hi, rfl, hp⟩
    exact ⟨(Db.mem_items_copyInto_of_ne h).mpr hi, rfl, hp⟩

theorem mem_effective_overlay {s : Snapshot} (hs : db.snapshot? sid = some s)
    (root : s.reuseChainRootId = none) (hb : s.overlayBaseId = some base)
    (hp : p.itemType ∈ mailTypes) : (∃ i ∈ db.snapshotItemsEffective sid, i.toPayload = p) ↔
      p ∈ layering.view (mailRows db sid) (mailRows db base) (db.lineage.hidden sid) := by
  have hroot : db.lineage.root sid = none := by simp [Db.lineage, hs, root]
  have hbase : db.lineage.base sid = some base := by simp [Db.lineage, hs, hb]
  rw [Db.effective_lineage hs (mail_not_sparse hp), Lineage.inventory,
    Lineage.target_of_full hroot, Lineage.baseRows_of_base hbase, mem_view_mailRows hp]

theorem mem_effective_full (hs : db.snapshot? sid = some s)
    (root : s.reuseChainRootId = none) (hb : s.overlayBaseId = none) (hp : p.itemType ∈ mailTypes) :
    (∃ i ∈ db.snapshotItemsEffective sid, i.toPayload = p) ↔ p ∈ mailRows db sid := by
  rw [Db.effective_of_root hs root, hb, mem_mailRows]
  simp [hp, and_assoc]

end

section

variable {db : Db} {args : CarryArgs} {tsid prior base : Uuid} {p : Payload}

def Drops (args : CarryArgs) (p : Payload) : Prop := args.dropped p = true

theorem email_of_root (hp : p.itemType ∈ mailTypes) (root : layering.parent p = none) :
    p.itemType = .email := by
  rcases mail_cases hp with ht | ht
  · exact ht
  · exact absurd ((parentKey_attachment ht).symm.trans root) nofun

theorem nodup_stamped (nodup : db.Keyed) (prior : Uuid) {select : SnapshotItem → Bool}
    (same : ∀ i, select i = true → i.snapshotId = prior) :
    (((db.items.filter select).map fun i => { i with createdAt := some now }).map (·.key)).Nodup := by
  rw [map_map]
  exact Db.nodup_keys_filter nodup _ same

theorem mailRows_layEmails (nodup : db.Keyed) :
    mailRows (layEmails args now tsid prior db) tsid =
      layering.carryRoots (Drops args) (mailRows db tsid) (mailRows db prior) := by
  rw [layEmails, mailRows_copyInto (nodup_stamped nodup prior fun i hi => by simp_all),
    Layering.carryRoots]
  congr 1
  ext p
  simp only [mem_ofPred_eq, mem_map, mem_filter, and_eq_true, decide_eq_true_eq, not_eq_true']
  constructor
  · rintro ⟨hp, ⟨j, ⟨i, ⟨hi, ⟨⟨hs, ht⟩, hd⟩, ho⟩, rfl⟩, rfl⟩, -⟩
    refine ⟨mem_mailRows.mpr ⟨hp, i, hi, hs, rfl⟩, parentKey_email ht, ?_, ?_⟩
    · exact fun h => absurd (hd.symm.trans h) nofun
    · rw [owns_mailRows hp]
      exact fun h => absurd (ho.symm.trans h) nofun
  · rintro ⟨hm, root, kept, fresh⟩
    obtain ⟨hp, i, hi, hs, rfl⟩ := mem_mailRows.mp hm
    rw [owns_mailRows hp] at fresh
    refine ⟨hp, ⟨_, ⟨i, ⟨hi, ⟨⟨hs, email_of_root hp root⟩, ?_⟩, ?_⟩, rfl⟩, rfl⟩, fresh⟩
    · exact eq_false_iff.mpr kept
    · exact eq_false_iff.mpr fresh

def shownRows (db : Db) (prior base : Uuid) : Set Payload :=
  {q | q.itemType ∈ mailTypes ∧
    layering.Shows (db.lineage.rows prior) (db.lineage.rows base) (db.lineage.hidden prior) q}

section

theorem shownRows_subset : shownRows db prior base ⊆ mailRows db base := fun _ h => ⟨h.2.mem, h.1⟩

theorem shownRows_apart (hq : p ∈ shownRows db prior base) :
    ¬ layering.Owns (mailRows db prior) (layering.key p) :=
  fun ho => hq.2.notOwned (ho.mono inter_subset_left)

theorem mem_shownRows (nodup : db.Keyed)
    (hb : b ∈ db.items) (hbase : b.snapshotId = base) (hmail : b.itemType ∈ mailTypes) :
    b.toPayload ∈ shownRows db prior base ↔ db.inherited prior base b = true := by
  rw [shownRows, mem_ofPred_eq, and_iff_right hmail, Db.shows_lineage]
  constructor
  · rintro ⟨i, hi, hinh, hpay⟩
    have same : i.uniqueKey = b.uniqueKey := by
      rw [SnapshotItem.uniqueKey, SnapshotItem.uniqueKey, (Db.inherited_iff.mp hinh).1, hbase, hpay]
    rwa [← inj_on_of_nodup_map nodup hi hb same]
  · exact fun h => ⟨b, hb, h, rfl⟩

theorem any_effective_iff (ids : (db.items.map (·.id)).Nodup) (hs : db.snapshot? prior = some s)
    (root : s.reuseChainRootId = none) (hbase : s.overlayBaseId = some base)
    (prior_ne : prior ≠ tsid) (base_ne : base ≠ tsid) (apart : base ≠ prior)
    (hb : b ∈ db.items) (hsid : b.snapshotId = base) :
    (((db.copyInto tsid rows).snapshotItemsEffective prior).any fun e =>
        e.snapshotId = base && e.id = b.id) = true ↔ db.inherited prior base b = true := by
  have hs' : (db.copyInto tsid rows).snapshot? prior = some s := hs
  simp only [Db.effective_of_root hs' root, hbase, any_eq_true, mem_append,
    mem_filter, and_eq_true, decide_eq_true_eq, Db.inherited_copyInto_of_ne prior_ne base_ne]
  constructor
  · rintro ⟨e, ⟨-, own⟩ | ⟨he, inherited⟩, hsid', hid⟩
    · exact absurd (hsid'.symm.trans own) apart
    · have he' := (Db.mem_items_copyInto_of_ne (hsid' ▸ base_ne)).mp he
      rwa [← inj_on_of_nodup_map ids he' hb hid]
  · intro h
    exact ⟨b, .inr ⟨(Db.mem_items_copyInto_of_ne (hsid ▸ base_ne)).mpr hb, h⟩, hsid, rfl⟩

theorem mem_keysToRemove_overlay (nodup : db.Keyed)
    (ids : (db.items.map (·.id)).Nodup) (hs : db.snapshot? prior = some s)
    (root : s.reuseChainRootId = none) (hbase : s.overlayBaseId = some base)
    (prior_ne : prior ≠ tsid) (base_ne : base ≠ tsid) (apart : base ≠ prior) :
    k ∈ keysToRemove args tsid prior base true (db.copyInto tsid rows) ↔
      k ∈ layering.overlayHides (Drops args) (mailRows (db.copyInto tsid rows) tsid)
        (mailRows db base) (shownRows db prior base) := by
  simp only [keysToRemove, mem_map, mem_filter, and_eq_true, or_eq_true,
    decide_eq_true_eq, not_eq_true', true_and]
  constructor
  · rintro ⟨b, ⟨hb, ⟨⟨hsid, hmail⟩, hfresh⟩, hgone⟩, rfl⟩
    have hb' := (Db.mem_items_copyInto_of_ne (hsid ▸ base_ne)).mp hb
    refine ⟨b.toPayload, mem_mailRows.mpr ⟨hmail, b, hb', hsid, rfl⟩, rfl, ?_, ?_⟩
    · rw [owns_mailRows hmail]
      exact eq_false_iff.mp hfresh
    · rcases hgone with hgone | ⟨ht, hd⟩
      · rw [mem_shownRows nodup hb' hsid hmail,
          ← any_effective_iff ids hs root hbase prior_ne base_ne apart hb' hsid]
        exact .inl (eq_false_iff.mp hgone)
      · exact .inr ⟨parentKey_email ht, hd⟩
  · rintro ⟨q, hq, rfl, hfresh, hgone⟩
    obtain ⟨hmail, b, hb, hsid, rfl⟩ := mem_mailRows.mp hq
    rw [owns_mailRows hmail] at hfresh
    refine ⟨b, ⟨(Db.mem_items_copyInto_of_ne (hsid ▸ base_ne)).mpr hb, ⟨⟨hsid, hmail⟩, ?_⟩, ?_⟩, rfl⟩
    · exact eq_false_iff.mpr hfresh
    · rcases hgone with hgone | ⟨hroot, hd⟩
      · rw [mem_shownRows nodup hb hsid hmail,
          ← any_effective_iff ids hs root hbase prior_ne base_ne apart hb hsid] at hgone
        exact .inl (eq_false_iff.mpr hgone)
      · exact .inr ⟨email_of_root hmail hroot, hd⟩

theorem mailRows_layAttachments (nodup : db.Keyed)
    (ht : db.snapshot? tsid = some s) (root : s.reuseChainRootId = none)
    (hbase : s.overlayBaseId = some base) : mailRows (layAttachments now tsid prior db) tsid =
      layering.overlayRows (mailRows db tsid) (mailRows db prior) (mailRows db base)
        (db.lineage.hidden tsid) := by
  have email : ItemType.email ∈ mailTypes := by decide
  have shown : ∀ e : String, ((db.snapshotItemsEffective tsid).any fun i =>
      i.itemType = .email && i.externalId = e) = true ↔
        layering.Owns (layering.view (mailRows db tsid) (mailRows db base) (db.lineage.hidden tsid))
          (.email, e) := by
    intro e
    simp only [any_eq_true, and_eq_true, decide_eq_true_eq]
    constructor
    · rintro ⟨i, hi, ht', rfl⟩
      have hmail : i.itemType ∈ mailTypes := ht' ▸ email
      exact ⟨i.toPayload, (mem_effective_overlay ht root hbase hmail).mp ⟨i, hi, rfl⟩,
        Prod.ext ht' rfl⟩
    · rintro ⟨q, hq, hkey⟩
      have ht' : q.itemType = .email := congrArg Prod.fst hkey
      obtain ⟨i, hi, rfl⟩ := (mem_effective_overlay ht root hbase (ht' ▸ email)).mpr hq
      exact ⟨i, hi, ht', congrArg Prod.snd hkey⟩
  rw [layAttachments, mailRows_copyInto (nodup_stamped nodup prior fun i hi => by simp_all),
    Layering.overlayRows]
  congr 1
  ext p
  simp only [mem_ofPred_eq, mem_map, mem_filter, and_eq_true, decide_eq_true_eq,
    not_eq_true', shown]
  constructor
  · rintro ⟨hp, ⟨j, ⟨i, ⟨hi, ⟨⟨hs, ht'⟩, ho⟩, hshown⟩, rfl⟩, rfl⟩, -⟩
    refine ⟨mem_mailRows.mpr ⟨hp, i, hi, hs, rfl⟩, ⟨_, parentKey_attachment ht', hshown⟩, ?_⟩
    rw [owns_mailRows hp]
    exact eq_false_iff.mp ho
  · rintro ⟨hm, ⟨k, hk, hshown⟩, fresh⟩
    obtain ⟨hp, i, hi, hs, rfl⟩ := mem_mailRows.mp hm
    obtain ⟨ht', rfl⟩ := parentKey_mail hp hk
    rw [owns_mailRows hp] at fresh
    exact ⟨hp, ⟨_, ⟨i, ⟨hi, ⟨⟨hs, ht'⟩, eq_false_iff.mpr fresh⟩, hshown⟩, rfl⟩, rfl⟩, fresh⟩

end

theorem mem_keysToRemove_full : k ∈ keysToRemove args tsid prior base false db ↔
      k ∈ layering.overlayHides (Drops args) (mailRows db tsid) (mailRows db base)
        (mailRows db base) := by
  simp only [keysToRemove, mem_map, mem_filter, and_eq_true, or_eq_true,
    decide_eq_true_eq, not_eq_true', false_eq_true, false_and, false_or]
  constructor
  · rintro ⟨b, ⟨hb, ⟨⟨hsid, hmail⟩, hfresh⟩, ht, hd⟩, rfl⟩
    refine ⟨b.toPayload, mem_mailRows.mpr ⟨hmail, b, hb, hsid, rfl⟩, rfl, ?_,
      .inr ⟨parentKey_email ht, hd⟩⟩
    rw [owns_mailRows hmail]
    exact eq_false_iff.mp hfresh
  · rintro ⟨q, hq, rfl, hfresh, hgone⟩
    obtain ⟨hroot, hd⟩ := hgone.resolve_left (· hq)
    obtain ⟨hmail, b, hb, hsid, rfl⟩ := mem_mailRows.mp hq
    rw [owns_mailRows hmail] at hfresh
    exact ⟨b, ⟨hb, ⟨⟨hsid, hmail⟩, eq_false_iff.mpr hfresh⟩, email_of_root hmail hroot, hd⟩, rfl⟩

end

section

structure Based (db : Db) (tsid : Uuid) (p : Snapshot) (base : Uuid) : Prop where
  keys : db.Keyed
  ids : (db.items.map (·.id)).Nodup
  target : ∃ t, db.snapshot? tsid = some t ∧ t.reuseChainRootId = none ∧ t.overlayBaseId = some base
  bare : db.lineage.hidden tsid = ∅
  prior : db.snapshot? p.id = some p
  root : p.reuseChainRootId = none
  base_eq : p.overlayBaseId.getD p.id = base
  prior_ne : p.id ≠ tsid
  base_ne : base ≠ tsid
  apart : p.overlayBaseId ≠ none → base ≠ p.id

def mailInventory (db : Db) (sid : Uuid) : Set Payload :=
  {q | q.itemType ∈ mailTypes ∧ ∃ i ∈ db.snapshotItemsEffective sid, i.toPayload = q}

variable {db : Db} {args : CarryArgs} {tsid base : Uuid} {p : Snapshot}

theorem mailInventory_overlay (hs : db.snapshot? p.id = some p)
    (root : p.reuseChainRootId = none) (hb : p.overlayBaseId = some b) :
    mailInventory db p.id = mailRows db p.id ∪ shownRows db p.id b := by
  ext q
  constructor
  · rintro ⟨hq, h⟩
    rw [mem_effective_overlay hs root hb hq, mem_view_mailRows hq] at h
    exact h.imp (fun h => ⟨h, hq⟩) fun h => ⟨hq, h⟩
  · intro h
    have hq : q.itemType ∈ mailTypes := h.elim (·.2) (·.1)
    refine ⟨hq, ?_⟩
    rw [mem_effective_overlay hs root hb hq, mem_view_mailRows hq]
    exact h.imp (·.1) (·.2)

theorem mailInventory_full (hs : db.snapshot? p.id = some p) (root : p.reuseChainRootId = none)
    (hb : p.overlayBaseId = none) : mailInventory db p.id = mailRows db p.id := by
  ext q
  constructor
  · exact fun h => (mem_effective_full hs root hb h.1).mp h.2
  · exact fun h => ⟨h.2, (mem_effective_full hs root hb h.2).mpr h⟩

theorem keyed_mailRows (keys : db.Keyed) (sid : Uuid) :
    layering.Keyed (mailRows db sid) :=
  fun r hr q hq => Db.keyed_lineage keys sid r hr.1 q hq.1

theorem snapshots_layOverlay (args : CarryArgs) (now : Time) (tsid prior base : Uuid)
    (fromOverlay : Bool) (db : Db) :
    (layOverlay args now tsid prior base fromOverlay db).snapshots = db.snapshots := by
  cases fromOverlay <;> rfl

theorem nodup_layOverlay (keys : db.Keyed) (prior : Uuid)
    (fromOverlay : Bool) :
    (layOverlay args now tsid prior base fromOverlay db).Keyed := by
  cases fromOverlay with
  | false => exact keys
  | true => exact Db.nodup_copyInto (Db.nodup_copyInto keys)

theorem view_layOverlay_full (h : Based db tsid p base) (hb : p.overlayBaseId = none) :
    let laid := layOverlay args now tsid p.id base false db
    layering.view (mailRows laid tsid) (mailRows laid base) (laid.lineage.hidden tsid) =
      layering.carry (Drops args) (mailRows db tsid) (mailInventory db p.id) := by
  intro laid
  have same : p.id = base := by
    rw [← h.base_eq, hb, Option.getD_none]
  have hidden : laid.lineage.hidden tsid =
      layering.overlayHides (Drops args) (mailRows db tsid) (mailRows db base)
        (mailRows db base) := by
    ext k
    change k ∈ (db.addRemovals tsid (keysToRemove args tsid p.id base false db)).lineage.hidden tsid ↔ _
    rw [Db.hidden_addRemovals, if_pos rfl, h.bare, empty_union, mem_ofPred_eq,
      mem_keysToRemove_full]
  have roots : mailRows db tsid = layering.carryRoots (Drops args) (mailRows db tsid) ∅ := by
    simp [Layering.carryRoots]
  have rows : mailRows laid tsid = layering.overlayRows (mailRows db tsid) ∅ (mailRows db base)
      (laid.lineage.hidden tsid) := by
    change mailRows db tsid = _
    simp [Layering.overlayRows]
  have inventory : mailInventory db p.id = ∅ ∪ mailRows db base := by
    rw [mailInventory_full h.prior h.root hb, same, empty_union]
  rw [rows, inventory]
  exact Layering.view_overlayRows (keyed_mailRows h.keys base) (fun b hb => mail_inherits hb.2)
    subset_rfl (fun _ _ ⟨_, hr, _⟩ => hr) stratified roots hidden

theorem view_layOverlay_overlay (h : Based db tsid p base) (hb : p.overlayBaseId = some b) :
    let laid := layOverlay args now tsid p.id base true db
    layering.view (mailRows laid tsid) (mailRows laid base) (laid.lineage.hidden tsid) =
      layering.carry (Drops args) (mailRows db tsid) (mailInventory db p.id) := by
  intro laid
  obtain ⟨t, ht, root, hbase⟩ := h.target
  have hb : p.overlayBaseId = some base := by
    rw [hb, ← h.base_eq, hb, Option.getD_some]
  have apart := h.apart (by simp [hb])
  -- the database after the messages, and after the removals
  set db₁ := layEmails args now tsid p.id db with hdb₁
  set db₂ := db₁.addRemovals tsid (keysToRemove args tsid p.id base true db₁) with hdb₂
  have prior₁ : mailRows db₁ p.id = mailRows db p.id := mailRows_copyInto_of_ne h.prior_ne
  have base₁ : mailRows db₁ base = mailRows db base := mailRows_copyInto_of_ne h.base_ne
  have base_laid : mailRows laid base = mailRows db₁ base := mailRows_copyInto_of_ne h.base_ne
  have hidden : laid.lineage.hidden tsid = layering.overlayHides (Drops args) (mailRows db₁ tsid)
      (mailRows db base) (shownRows db p.id base) := by
    have bare : db₁.lineage.hidden tsid = ∅ := h.bare
    ext k
    change k ∈ db₂.lineage.hidden tsid ↔ _
    rw [Db.hidden_addRemovals, if_pos rfl, bare, empty_union]
    exact mem_keysToRemove_overlay h.keys h.ids h.prior h.root hb h.prior_ne h.base_ne apart
  have rows : mailRows laid tsid = layering.overlayRows (mailRows db₁ tsid) (mailRows db p.id)
      (mailRows db base) (laid.lineage.hidden tsid) := by
    have ht₂ : db₂.snapshot? tsid = some t := ht
    rw [← prior₁, ← base₁]
    exact mailRows_layAttachments (Db.nodup_copyInto h.keys) ht₂ root hbase
  rw [rows, mailInventory_overlay h.prior h.root hb, base_laid, base₁]
  exact Layering.view_overlayRows (keyed_mailRows h.keys base) (fun b hb => mail_inherits hb.2)
    shownRows_subset (fun _ hq => shownRows_apart hq) stratified (mailRows_layEmails h.keys) hidden

theorem view_layOverlay (h : Based db tsid p base) :
    let laid := layOverlay args now tsid p.id base p.overlayBaseId.isSome db
    layering.view (mailRows laid tsid) (mailRows laid base) (laid.lineage.hidden tsid) =
      layering.carry (Drops args) (mailRows db tsid) (mailInventory db p.id) := by
  cases hb : p.overlayBaseId with
  | none => exact view_layOverlay_full h hb
  | some b => exact view_layOverlay_overlay h hb

end

variable {db : Db} {args : CarryArgs} {tsid : Uuid} {p : Snapshot} {q : Payload}

theorem owns_carried : layering.Owns (image carried rows) k ↔ layering.Owns rows k := by
  constructor
  · rintro ⟨-, ⟨q, hq, rfl⟩, hk⟩
    exact ⟨q, hq, hk⟩
  · rintro ⟨q, hq, hk⟩
    exact ⟨carried q, ⟨q, hq, rfl⟩, hk⟩

theorem image_mailRows_copyCarried (picked : Set Payload)
    (keys : db.Keyed)
    (hpick : ∀ q, q ∈ picked ↔ q.itemType ∈ mailTypes ∧
      (∃ i ∈ (db.snapshotItemsEffective p.id).filter pick, i.toPayload = q) ∧
      ¬ db.owns tsid q.key = true) : image carried (mailRows (db.copyInto tsid
        (((db.snapshotItemsEffective p.id).filter pick).map (carriedRow now))) tsid) =
      image carried (mailRows db tsid ∪ picked) := by
  have distinct : ((((db.snapshotItemsEffective p.id).filter pick).map
      (carriedRow now)).map (·.key)).Nodup := by
    rw [map_map]
    exact (Db.nodup_keys_inventory keys).sublist (filter_sublist.map _)
  rw [mailRows_copyInto distinct, image_union, image_union]
  congr 1
  ext r
  constructor
  · rintro ⟨-, ⟨hmail, ⟨j, hj, rfl⟩, fresh⟩, rfl⟩
    obtain ⟨i, hi, rfl⟩ := mem_map.mp hj
    exact ⟨i.toPayload, (hpick _).mpr ⟨hmail, ⟨i, hi, rfl⟩, fresh⟩, rfl⟩
  · rintro ⟨q, hq, rfl⟩
    obtain ⟨hmail, ⟨i, hi, rfl⟩, fresh⟩ := (hpick q).mp hq
    exact ⟨carried i.toPayload, ⟨hmail, ⟨_, mem_map_of_mem hi, rfl⟩, fresh⟩, rfl⟩

theorem image_mailRows_copyEmails (keys : db.Keyed) :
    image carried (mailRows (copyEmails args now tsid p.id db) tsid) =
      image carried (layering.carryRoots (Drops args) (mailRows db tsid)
        (mailInventory db p.id)) := by
  refine image_mailRows_copyCarried _ keys fun q => ?_
  simp only [mem_ofPred_eq, mem_filter, and_eq_true, decide_eq_true_eq, not_eq_true']
  constructor
  · rintro ⟨⟨hmail, i, hi, rfl⟩, hroot, kept, fresh⟩
    rw [owns_mailRows hmail] at fresh
    exact ⟨hmail, ⟨i, ⟨hi, ⟨email_of_root hmail hroot, eq_false_iff.mpr kept⟩,
      eq_false_iff.mpr fresh⟩, rfl⟩, fresh⟩
  · rintro ⟨hmail, ⟨i, ⟨hi, ⟨ht, kept⟩, -⟩, rfl⟩, fresh⟩
    refine ⟨⟨hmail, i, hi, rfl⟩, parentKey_email ht, eq_false_iff.mp kept, ?_⟩
    rwa [owns_mailRows hmail]

theorem mailInventory_copyInto (hs : db.snapshot? p.id = some p)
    (root : p.reuseChainRootId = none) (prior_ne : p.id ≠ tsid)
    (base_ne : ∀ b ∈ p.overlayBaseId, b ≠ tsid) :
    mailInventory (db.copyInto tsid items) p.id = mailInventory db p.id := by
  ext q
  simp only [mailInventory, mem_ofPred_eq, Db.mem_effective_copyInto_of_ne hs root prior_ne base_ne]

theorem image_mailRows_copy (keys : db.Keyed)
    (hs : db.snapshot? p.id = some p) (root : p.reuseChainRootId = none) (prior_ne : p.id ≠ tsid)
    (base_ne : ∀ b ∈ p.overlayBaseId, b ≠ tsid) :
    image carried (mailRows (copyAttachments now tsid p.id
        (copyEmails args now tsid p.id db)) tsid) =
      image carried (layering.carry (Drops args) (mailRows db tsid) (mailInventory db p.id)) := by
  set db₁ := copyEmails args now tsid p.id db with hdb₁
  have emails : image carried (mailRows db₁ tsid) =
      image carried (layering.carryRoots (Drops args) (mailRows db tsid)
        (mailInventory db p.id)) := image_mailRows_copyEmails keys
  have inventory : mailInventory db₁ p.id = mailInventory db p.id :=
    mailInventory_copyInto hs root prior_ne base_ne
  have owns : ∀ k : ItemKey, k.1 ∈ mailTypes → (db₁.owns tsid k = true ↔
      layering.Owns (layering.carryRoots (Drops args) (mailRows db tsid)
        (mailInventory db p.id)) k) := by
    intro k hk
    rw [← owns_mailRows hk, ← owns_carried, emails, owns_carried]
  have keys₁ : db₁.Keyed := Db.nodup_copyInto keys
  rw [Layering.carry, image_union, ← emails, ← image_union]
  refine image_mailRows_copyCarried _ keys₁ fun q => ?_
  rw [← inventory]
  have email : ItemType.email ∈ mailTypes := by decide
  simp only [mem_ofPred_eq, mem_filter, and_eq_true, decide_eq_true_eq, not_eq_true', inventory]
  constructor
  · rintro ⟨hq, ⟨k, hk, held⟩, fresh⟩
    rw [← inventory] at hq
    obtain ⟨hmail, i, hi, rfl⟩ := hq
    obtain ⟨ht, rfl⟩ := parentKey_mail hmail hk
    have fresh' := mt (owns i.key hmail).mp fresh
    exact ⟨hmail, ⟨i, ⟨hi, ⟨ht, (owns _ email).mpr held⟩, eq_false_iff.mpr fresh'⟩, rfl⟩, fresh'⟩
  · rintro ⟨hmail, ⟨i, ⟨hi, ⟨ht, held⟩, -⟩, rfl⟩, fresh⟩
    refine ⟨?_, ⟨_, parentKey_attachment ht, (owns _ email).mp held⟩, mt (owns i.key hmail).mpr fresh⟩
    rw [← inventory]
    exact ⟨hmail, i, hi, rfl⟩

end TmVault.Mail
