import TmVault.Mail.Refinement
import TmVault.Store.Holdings

namespace TmVault.SharePoint

open Relational Store

def overlayTypes : List ItemType :=
  [.sharepointList, .sharepointFile, .sharepointFolder, .sharepointListItem]

structure ListRef where
  (site list : String)

def ListRef.text (l : ListRef) : String := l.site ++ " " ++ l.list

def listText (p : Payload) : String :=
  p.metadata.siteId.getD "" ++ " " ++ p.metadata.listId.getD ""

def fromRest (p : Payload) : Bool := p.metadata.source = some "sp_rest"

section

variable (now : Time) (tsid prior : Uuid) (skip : List String) (base : Option Uuid)

def ofList (l : ListRef) (p : Payload) : Bool :=
  fromRest p && p.metadata.siteId = some l.site && p.metadata.listId = some l.list &&
    p.externalId ∉ skip

def copyForwardSpListRows (db : Db) (l : ListRef) : Db :=
  db.copyInto tsid (((db.snapshotItemsEffective prior).filter fun s =>
    ofList skip l s.toPayload && base.all (s.snapshotId ≠ ·)).map
      fun i => { i with createdAt := some now })

def copyForwardLists (lists : List ListRef) (db : Db) : Db :=
  lists.foldl (copyForwardSpListRows now tsid prior skip base) db

end

inductive Refusal
  | targetNotInProgress | priorMoved | baseNotRestorable | missingCreatedAt | baseTooOld
  | tooManyChanges (own removed baseRows : Nat) | store (e : StoreError)

structure OverlayResult where
  (own removed baseRows : Nat)
  base : Uuid
  deriving DecidableEq

def baseOfPrior (db : Db) (prior : Uuid) : Option Uuid :=
  (db.resolveTarget prior).bind fun t => (db.snapshot? t).map fun s => s.overlayBaseId.getD s.id

section

variable (tsid prior base : Uuid) (inherited skip : List String)

def sameItem (o b : Payload) : Bool :=
  o.parentExternalId = b.parentExternalId && o.name = b.name && o.folderPath = b.folderPath &&
    o.contentHash = b.contentHash && o.contentChecksum = b.contentChecksum &&
    o.contentSize = b.contentSize && o.blobPath = b.blobPath &&
    o.encryptionKeyId = b.encryptionKeyId && o.isDeleted = b.isDeleted &&
    o.backendId = b.backendId && o.metadata = b.metadata

-- what is not false of the row: a row without a source makes the whole conjunction unknown
def carriedFromBase (db : Db) (b : SnapshotItem) : Bool :=
  b.metadata.source.all (· = "sp_rest") && listText b.toPayload ∈ inherited && b.externalId ∉ skip &&
    (db.snapshotItemsEffective prior).any fun e => e.snapshotId = base && e.id = b.id

def keysToHide (db : Db) : List ItemKey :=
  (db.items.filter fun b =>
    b.snapshotId = base && b.itemType ∈ overlayTypes && !db.owns tsid b.key &&
      !carriedFromBase prior base inherited skip db b).map (·.key)

def forgetRemovals (db : Db) : Db :=
  { db with removals := db.removals.filter (·.snapshotId ≠ tsid) }

def repeatsBase (db : Db) (o : SnapshotItem) : Bool :=
  o.snapshotId = tsid && o.itemType ∈ overlayTypes &&
    db.items.any fun b => b.snapshotId = base && b.key = o.key && sameItem o.toPayload b.toPayload

def dropRepeated (db : Db) : Db :=
  { db with items := db.items.filter fun o => !repeatsBase tsid base db o }

def layOverlay (db : Db) : Db :=
  let db := forgetRemovals tsid db
  let db := db.addRemovals tsid (keysToHide tsid prior base inherited skip db)
  dropRepeated tsid base db

def acceptsBase (s : Snapshot) : Bool :=
  s.status = some .inProgress && s.reuseOfSnapshotId = none &&
    (s.overlayBaseId = none || s.overlayBaseId = some base) && s.extraData.cancelledAt = none

def marked (s : Snapshot) : Snapshot :=
  { s with extraData := { s.extraData with
      spOverlayBase := some base, overlayPrior := some prior } }

def rowCount (db : Db) (sid : Uuid) : Nat :=
  (db.items.filter fun i => i.snapshotId = sid && i.itemType ∈ overlayTypes).length

def buildSpOverlay (limits : Mail.OverlayLimits) (db : Db) : Except Refusal (Db × OverlayResult) := do
  let target ← orFail .targetNotInProgress ((db.snapshot? tsid).filter (acceptsBase base))
  failIf (baseOfPrior db prior ≠ some base) .priorMoved
  let baseRow ← orFail .baseNotRestorable ((db.snapshot? base).filter Mail.restorableBase)
  let targetTime ← orFail .missingCreatedAt target.createdAt
  let baseTime ← orFail .missingCreatedAt baseRow.createdAt
  failIf (Mail.tooOld limits targetTime baseTime) .baseTooOld
  let based ← (Db.updateWhere Db.validateSnapshotOverlayBase [tsid] (Retention.onBase base)
    db).mapError .store
  let laid := layOverlay tsid prior base inherited skip based
  let own := rowCount laid tsid
  let removed := (laid.removals.filter (·.snapshotId = tsid)).length
  let baseRows := rowCount laid base
  failIf (Mail.exceeds limits own removed baseRows) (.tooManyChanges own removed baseRows)
  pure (laid.setWhere [tsid] (marked prior base), ⟨own, removed, baseRows, base⟩)

end

open List
open Db hiding inherited

section

variable {db : Db} {now : Time} {tsid prior : Uuid} {skip : List String} {base : Option Uuid}
  {lists : List ListRef} {p : Payload}

def Carried (db : Db) (prior : Uuid) (skip : List String) (base : Option Uuid)
    (lists : List ListRef) (p : Payload) : Prop :=
  (∃ e ∈ db.snapshotItemsEffective prior, e.toPayload = p ∧
    base.all (e.snapshotId ≠ ·) = true) ∧ ∃ l ∈ lists, ofList skip l p = true

theorem snapshots_copyForwardLists :
    (copyForwardLists now tsid prior skip base lists db).snapshots = db.snapshots := by
  induction lists generalizing db with
  | nil => rfl
  | cons l lists ih => exact ih

theorem nodup_copyForwardLists (keys : db.Keyed) :
    ((copyForwardLists now tsid prior skip base lists db).items.map
      SnapshotItem.uniqueKey).Nodup := by
  induction lists generalizing db with
  | nil => exact keys
  | cons l lists ih => exact ih (nodup_copyInto keys)

theorem mem_items_copyForwardLists (h : i.snapshotId ≠ tsid) :
    i ∈ (copyForwardLists now tsid prior skip base lists db).items ↔ i ∈ db.items := by
  induction lists generalizing db with
  | nil => exact Iff.rfl
  | cons l lists ih => exact ih.trans (mem_items_copyInto_of_ne h)

variable (ht : db.resolveTarget prior ≠ some tsid) (hb : db.resolveBase prior ≠ some tsid)

include ht hb

theorem mem_effective_copyForwardLists :
    i ∈ (copyForwardLists now tsid prior skip base lists db).snapshotItemsEffective prior ↔
      i ∈ db.snapshotItemsEffective prior := by
  induction lists generalizing db with
  | nil => exact Iff.rfl
  | cons l lists ih =>
    set db₁ := copyForwardSpListRows now tsid prior skip base db l
    have rest : i ∈ (copyForwardLists now tsid prior skip base lists db₁).snapshotItemsEffective prior ↔
        i ∈ db₁.snapshotItemsEffective prior := ih ht hb
    exact rest.trans (mem_effective_copyInto ht hb)

omit ht hb in
theorem held_copyForwardSpListRows (keys : db.Keyed)
    (l : ListRef) : (copyForwardSpListRows now tsid prior skip base db l).held tsid = db.held tsid ∪
      {p | Carried db prior skip base [l] p ∧ ¬ db.owns tsid p.key = true} := by
  have distinct : (((((db.snapshotItemsEffective prior).filter fun s =>
      ofList skip l s.toPayload && base.all (s.snapshotId ≠ ·)).map
        fun i => { i with createdAt := some now })).map (·.key)).Nodup := by
    rw [map_map]
    exact (nodup_keys_inventory keys).sublist (filter_sublist.map _)
  rw [copyForwardSpListRows, held_copyInto distinct]
  congr 1
  ext p
  apply and_congr_left
  intro _
  simp only [mem_map, mem_filter, Bool.and_eq_true, Carried, mem_singleton, exists_eq_left]
  constructor
  · rintro ⟨_, ⟨e, ⟨he, hl, hbase⟩, rfl⟩, rfl⟩
    exact ⟨⟨e, he, rfl, hbase⟩, hl⟩
  · rintro ⟨⟨e, he, rfl, hbase⟩, hl⟩
    exact ⟨_, ⟨e, ⟨he, hl, hbase⟩, rfl⟩, rfl⟩

theorem held_copyForwardLists (keys : db.Keyed) :
    (copyForwardLists now tsid prior skip base lists db).held tsid = db.held tsid ∪
      {p | Carried db prior skip base lists p ∧ ¬ db.owns tsid p.key = true} := by
  induction lists generalizing db with
  | nil =>
    have none : ∀ p, ¬ Carried db prior skip base [] p := fun p h => by simpa using h.2
    simp [copyForwardLists, none]
  | cons l lists ih =>
    set db₁ := copyForwardSpListRows now tsid prior skip base db l with hdb₁
    have step : db₁.held tsid = db.held tsid ∪
        {p | Carried db prior skip base [l] p ∧ ¬ db.owns tsid p.key = true} :=
      held_copyForwardSpListRows keys l
    have eff : ∀ i, i ∈ db₁.snapshotItemsEffective prior ↔ i ∈ db.snapshotItemsEffective prior :=
      fun i => mem_effective_copyInto ht hb
    have carried : ∀ p, Carried db₁ prior skip base lists p ↔ Carried db prior skip base lists p := by
      intro p
      simp only [Carried, eff]
    have rest : (copyForwardLists now tsid prior skip base lists db₁).held tsid = db₁.held tsid ∪
        {p | Carried db₁ prior skip base lists p ∧ ¬ db₁.owns tsid p.key = true} :=
      ih ht hb (nodup_copyInto keys)
    change (copyForwardLists now tsid prior skip base lists db₁).held tsid = _
    rw [rest, step]
    have owned : ∀ k, db₁.owns tsid k = true ↔ db.owns tsid k = true ∨
        ∃ q, (Carried db prior skip base [l] q ∧ ¬ db.owns tsid q.key = true) ∧ q.key = k := by
      intro k
      rw [owns_iff_held, step, owns_iff_held]
      simp [or_and_right, exists_or]
    ext p
    constructor
    · rintro ((h | ⟨⟨he, l', hl', hof⟩, fresh⟩) | ⟨hc, fresh⟩)
      · exact .inl h
      · exact .inr ⟨⟨he, l, mem_cons_self, mem_singleton.mp hl' ▸ hof⟩, fresh⟩
      · obtain ⟨he, l', hl', hof⟩ := (carried p).mp hc
        exact .inr ⟨⟨he, l', mem_cons_of_mem l hl', hof⟩, fun ho => fresh ((owned _).mpr (.inl ho))⟩
    · rintro (h | ⟨⟨⟨e, he, rfl, hbase⟩, l', hl', hof⟩, fresh⟩)
      · exact .inl (.inl h)
      · rcases mem_cons.mp hl' with rfl | hl'
        · exact .inl (.inr ⟨⟨⟨e, he, rfl, hbase⟩, l', mem_singleton_self l', hof⟩, fresh⟩)
        · by_cases ho : db₁.owns tsid e.key = true
          · -- the first list holds the same row already: the prior has the key once
            obtain ⟨q, ⟨⟨⟨e', he', rfl, hbase'⟩, hof'⟩, fresh'⟩, hkey⟩ :=
              ((owned _).mp ho).resolve_left fresh
            obtain rfl := eq_of_key (nodup_keys_inventory keys) he' he hkey
            exact .inl (.inr ⟨⟨⟨e', he', rfl, hbase'⟩, hof'⟩, fresh'⟩)
          · exact .inr ⟨(carried _).mpr ⟨⟨e, he, rfl, hbase⟩, l', hl', hof⟩, ho⟩

end

section

variable {db db' : Db} {tsid prior base : Uuid} {skip : List String} {limits : Mail.OverlayLimits}
  {result : OverlayResult}

theorem buildSpOverlay_ok
    (h : buildSpOverlay tsid prior base inherited skip limits db = .ok (db', result)) :
    (∃ t, db.snapshot? tsid = some t ∧ t.reuseOfSnapshotId = none) ∧
      baseOfPrior db prior = some base ∧ base ≠ tsid ∧
      db' = (layOverlay tsid prior base inherited skip
        (db.setWhere [tsid] (Retention.onBase base))).setWhere [tsid] (marked prior base) := by
  obtain ⟨t, htarget, h⟩ := of_orFail h
  obtain ⟨hprior, h⟩ := of_failIf h
  obtain ⟨b, _, targetTime, _, baseTime, _, h⟩ := of_bind₃ h
  obtain ⟨_, _, based, hbased, _, _, h⟩ := of_bind₃ h
  cases h
  obtain ⟨ht, accepts⟩ := Option.filter_eq_some_iff.mp htarget
  simp only [acceptsBase, Bool.and_eq_true, decide_eq_true_eq] at accepts
  obtain ⟨base_ne, -, rfl⟩ := Mail.based_ok ht hbased (fun _ => rfl) rfl
  exact ⟨⟨t, ht, accepts.1.1.2⟩, by simpa using hprior, base_ne, rfl⟩

theorem resolveBase_of_baseOfPrior (h : baseOfPrior db prior = some base)
    (ht : db.resolveTarget prior = some t) :
    db.resolveBase prior = some base ∨ (db.resolveBase prior = none ∧ t = base) := by
  rw [baseOfPrior, ht, Option.bind_some, Option.map_eq_some_iff] at h
  obtain ⟨s, hs, rfl⟩ := h
  rw [resolveBase, ht, Option.bind_some, hs, Option.bind_some]
  cases hbase : s.overlayBaseId with
  | none => exact .inr ⟨rfl, (snapshot?_id hs).symm⟩
  | some b => exact .inl rfl

/-- What `sameItem` does not compare. -/
def columns (p : Payload) : Option Int × Option Time × Option Uuid × Option Uuid :=
  (p.backupVersion, p.indexedAt, p.chatVersionId, p.tenantId)

theorem eq_of_sameItem (key : b.key = o.key) (same : sameItem o b = true)
    (uniform : columns o = columns b) : o = b := by
  simp only [sameItem, Bool.and_eq_true, decide_eq_true_eq] at same
  obtain ⟨ht, he⟩ := Prod.mk.inj key
  cases o
  cases b
  simp_all [columns]

@[simp] theorem mem_items_layOverlay : i ∈ (layOverlay tsid prior base inherited skip db).items ↔
      i ∈ db.items ∧ repeatsBase tsid base db i = false := by
  simp only [layOverlay, dropRepeated, mem_filter, Bool.not_eq_true']
  rfl

theorem removed_layOverlay : (layOverlay tsid prior base inherited skip db).removed tsid k = true ↔
      k ∈ keysToHide tsid prior base inherited skip (forgetRemovals tsid db) := by
  have bare : (forgetRemovals tsid db).removed tsid k = false := by
    simp only [Db.removed, forgetRemovals, any_eq_false, mem_filter]
    rintro r ⟨-, other⟩
    simp_all
  have laid : (layOverlay tsid prior base inherited skip db).removed tsid k =
      ((forgetRemovals tsid db).addRemovals tsid
        (keysToHide tsid prior base inherited skip (forgetRemovals tsid db))).removed tsid k := rfl
  rw [laid, removed_addRemovals, bare]
  simp

theorem effective_prior_based (target : db.resolveTarget tsid = some tsid)
    (ht : db.resolveTarget prior ≠ some tsid) :
    (forgetRemovals tsid (db.setWhere [tsid] (Retention.onBase base))).snapshotItemsEffective prior =
      db.snapshotItemsEffective prior := by
  have prior_ne : prior ≠ tsid := fun h => ht (h ▸ target)
  rw [← effective_setWhere (f := Retention.onBase base) (fun _ => rfl) prior_ne ht]
  refine effective_congr rfl rfl rfl fun t hres k => ?_
  have ne : t ≠ tsid := by
    rintro rfl
    rw [resolveTarget, snapshot?_setWhere (f := Retention.onBase base) fun _ => rfl] at hres
    simp only [mem_singleton, prior_ne, if_false, Option.map_id'] at hres
    exact ht hres
  rw [Bool.eq_iff_iff, removed_iff, removed_iff]
  simp only [forgetRemovals, mem_filter, decide_not, Bool.not_eq_true', decide_eq_false_iff_not]
  constructor
  · rintro ⟨r, ⟨hr, -⟩, hs, hk⟩
    exact ⟨r, hr, hs, hk⟩
  · rintro ⟨r, hr, hs, hk⟩
    exact ⟨r, ⟨hr, hs ▸ ne⟩, hs, hk⟩

theorem mem_keysToHide : k ∈ keysToHide tsid prior base inherited skip db ↔
    ∃ b ∈ db.items, b.snapshotId = base ∧ b.itemType ∈ overlayTypes ∧ ¬ db.owns tsid b.key = true ∧
      ¬ carriedFromBase prior base inherited skip db b = true ∧ b.key = k := by
  simp [keysToHide, and_assoc]

theorem inherits_of_overlayTypes : ∀ t ∈ overlayTypes, t ∈ ItemType.overlayTypes := by decide

theorem overlayTypes_cases (h : t ∈ overlayTypes) : t = .sharepointList ∨
    t = .sharepointFile ∨ t = .sharepointFolder ∨ t = .sharepointListItem := by
  simpa [overlayTypes] using h

theorem inherited_of_overlayTypes (hs : b.snapshotId = base)
    (ht : b.itemType ∈ overlayTypes) (notOwned : ¬ db.owns tsid b.key = true)
    (notRemoved : ¬ db.removed tsid b.key = true) : db.inherited tsid base b = true := by
  have root : b.parentKey = none := by
    rw [Payload.parentKey]
    rcases overlayTypes_cases ht with h | h | h | h <;> rw [h]
  refine inherited_iff.mpr
    ⟨hs, inherits_of_overlayTypes _ ht, notOwned, notRemoved, ?_⟩
  rw [parentVisible, root]

def siteRows (db : Db) (tsid prior base : Uuid) : List SnapshotItem :=
  db.items.filter (fun i => i.snapshotId = tsid || i.snapshotId = base) ++
    db.snapshotItemsEffective prior

/-- A prior of a SharePoint site: its base inherits nothing but list rows, list rows have a SharePoint
type, the text that names a carried list is not that of other rows, and every row has the columns that
a capture of the site writes alike. -/
structure SitePrior (db : Db) (tsid prior base : Uuid) (lists : List ListRef) : Prop where
  typed : ∀ i ∈ db.items, i.snapshotId = base → i.itemType ∈ ItemType.overlayTypes →
    i.itemType ∈ overlayTypes
  rest : ∀ e ∈ db.snapshotItemsEffective prior, fromRest e.toPayload = true →
    e.itemType ∈ overlayTypes
  named : ∀ e ∈ db.snapshotItemsEffective prior, e.metadata.source.all (· = "sp_rest") = true →
    ∀ l ∈ lists, listText e.toPayload = l.text → fromRest e.toPayload = true ∧
      e.metadata.siteId = some l.site ∧ e.metadata.listId = some l.list
  uniform : ∀ i ∈ siteRows db tsid prior base, ∀ j ∈ siteRows db tsid prior base,
    columns i.toPayload = columns j.toPayload

instance (db : Db) (tsid prior base : Uuid) (lists : List ListRef) :
    Decidable (SitePrior db tsid prior base lists) :=
  decidable_of_iff (_ ∧ _ ∧ _ ∧ _) ⟨fun ⟨a, b, c, d⟩ => ⟨a, b, c, d⟩, fun ⟨a, b, c, d⟩ => ⟨a, b, c, d⟩⟩

end

section

variable {db db₁ db' : Db} {tsid prior base : Uuid} {skip : List String} {lists : List ListRef}
  {now : Time} {limits : Mail.OverlayLimits} {result : OverlayResult}

structure Carry (db db₁ : Db) (tsid prior base : Uuid) (skip : List String)
    (lists : List ListRef) : Prop where
  keys : db₁.Keyed
  items : ∀ i, i.snapshotId ≠ tsid → (i ∈ db₁.items ↔ i ∈ db.items)
  shown : ∀ i, i ∈ db₁.snapshotItemsEffective prior ↔ i ∈ db.snapshotItemsEffective prior
  held : db₁.held tsid = db.held tsid ∪
    {p | Carried db prior skip (some base) lists p ∧ ¬ db.owns tsid p.key = true}

theorem carry_copyForwardLists (keys : db.Keyed)
    (ht : db.resolveTarget prior ≠ some tsid) (hb : db.resolveBase prior ≠ some tsid) :
    Carry db (copyForwardLists now tsid prior skip (some base) lists db) tsid prior base skip
      lists where
  keys := nodup_copyForwardLists keys
  items _ h := mem_items_copyForwardLists h
  shown _ := mem_effective_copyForwardLists ht hb
  held := held_copyForwardLists ht hb keys

theorem Carry.owns_base (carry : Carry db db₁ tsid prior base skip lists)
    (keys : db.Keyed)
    (he : e ∈ db.snapshotItemsEffective prior) (hs : e.snapshotId = base)
    (fresh : ¬ db.owns tsid e.key = true) : ¬ db₁.owns tsid e.key = true := by
  rw [owns_iff_held, carry.held]
  rintro ⟨p, hp | ⟨⟨⟨e', he', rfl, other⟩, -⟩, -⟩, hkey⟩
  · exact fresh (owns_iff_held.mpr ⟨p, hp, hkey⟩)
  · obtain rfl := eq_of_key (nodup_keys_inventory keys) he' he hkey
    simp [hs] at other

def laid (tsid prior base : Uuid) (skip : List String) (lists : List ListRef) (db₁ : Db) : Db :=
  layOverlay tsid prior base (lists.map ListRef.text) skip
    (db₁.setWhere [tsid] (Retention.onBase base))

@[simp] theorem mem_items_laid : i ∈ (laid tsid prior base skip lists db₁).items ↔
    i ∈ db₁.items ∧ repeatsBase tsid base db₁ i = false := mem_items_layOverlay

theorem removed_laid (target : db₁.resolveTarget tsid = some tsid)
    (ht : db₁.resolveTarget prior ≠ some tsid) :
    (laid tsid prior base skip lists db₁).removed tsid k = true ↔
      ∃ b ∈ db₁.items, b.snapshotId = base ∧ b.itemType ∈ overlayTypes ∧
        ¬ db₁.owns tsid b.key = true ∧
        ¬ carriedFromBase prior base (lists.map ListRef.text) skip db₁ b = true ∧ b.key = k := by
  have same : ∀ b, carriedFromBase prior base (lists.map ListRef.text) skip
      (forgetRemovals tsid (db₁.setWhere [tsid] (Retention.onBase base))) b =
        carriedFromBase prior base (lists.map ListRef.text) skip db₁ b := by
    intro b
    rw [carriedFromBase, carriedFromBase, effective_prior_based target ht]
  rw [laid, removed_layOverlay, mem_keysToHide]
  simp only [same]
  rfl

theorem carriedFromBase_iff (carry : Carry db db₁ tsid prior base skip lists)
    (site : SitePrior db tsid prior base lists)
    (he : e ∈ db.snapshotItemsEffective prior) (hs : e.snapshotId = base) :
    carriedFromBase prior base (lists.map ListRef.text) skip db₁ e = true ↔
      ∃ l ∈ lists, ofList skip l e.toPayload = true := by
  have shown : ((db₁.snapshotItemsEffective prior).any fun e' =>
      e'.snapshotId = base && e'.id = e.id) = true :=
    any_eq_true.mpr ⟨e, (carry.shown e).mpr he, by simp [hs]⟩
  simp only [carriedFromBase, shown, Bool.and_true, Bool.and_eq_true, mem_map,
    decide_eq_true_eq, ofList]
  constructor
  · rintro ⟨⟨source, l, hl, text⟩, kept⟩
    obtain ⟨rest, hsite, hlist⟩ := site.named e he source l hl text.symm
    exact ⟨l, hl, ⟨⟨rest, hsite⟩, hlist⟩, kept⟩
  · rintro ⟨l, hl, ⟨⟨rest, hsite⟩, hlist⟩, kept⟩
    have source : e.metadata.source = some "sp_rest" := of_decide_eq_true rest
    exact ⟨⟨by simp [source], l, hl, by simp [ListRef.text, listText, hsite, hlist]⟩, kept⟩

def Copied (db : Db) (tsid prior : Uuid) (skip : List String) (lists : List ListRef) : Set Payload :=
  db.held tsid ∪ {p | Carried db prior skip none lists p ∧ ¬ db.owns tsid p.key = true}

theorem Carry.held_subset (carry : Carry db db₁ tsid prior base skip lists) :
    db₁.held tsid ⊆ Copied db tsid prior skip lists := by
  rw [carry.held]
  rintro p (h | ⟨⟨⟨e, he, rfl, -⟩, hl⟩, fresh⟩)
  · exact .inl h
  · exact .inr ⟨⟨⟨e, he, rfl, rfl⟩, hl⟩, fresh⟩

theorem Carry.uniform (carry : Carry db db₁ tsid prior base skip lists)
    (site : SitePrior db tsid prior base lists) (base_ne : base ≠ tsid) (ho : o ∈ db₁.held tsid)
    (hb : b ∈ db₁.items) (hs : b.snapshotId = base) : columns o = columns b.toPayload := by
  have hb := (carry.items b (hs ▸ base_ne)).mp hb
  have base_row : b ∈ siteRows db tsid prior base := by simp [siteRows, hb, hs]
  rw [carry.held] at ho
  rcases ho with ⟨i, hi, own, rfl⟩ | ⟨⟨⟨e, he, rfl, -⟩, -⟩, -⟩
  · exact site.uniform i (by simp [siteRows, hi, own]) b base_row
  · exact site.uniform e (mem_append_right _ he) b base_row

section

variable (carry : Carry db db₁ tsid prior base skip lists)
  (keys : db.Keyed)
  (site : SitePrior db tsid prior base lists) (base_ne : base ≠ tsid)
  (target : db₁.resolveTarget tsid = some tsid) (ht : db₁.resolveTarget prior ≠ some tsid)

include carry keys site base_ne target ht

omit keys in
theorem copied_of_inherited (ids : (db.items.map (·.id)).Nodup)
    (hb : b ∈ (laid tsid prior base skip lists db₁).items)
    (inh : (laid tsid prior base skip lists db₁).inherited tsid base b = true) :
    b.toPayload ∈ Copied db tsid prior skip lists := by
  obtain ⟨hs, inherits, notOwned, notRemoved, -⟩ := inherited_iff.mp inh
  have hb₁ := (mem_items_laid.mp hb).1
  have outside : b.snapshotId ≠ tsid := hs ▸ base_ne
  have hb₀ := (carry.items b outside).mp hb₁
  have typed := site.typed b hb₀ hs inherits
  by_cases owned : db₁.owns tsid b.key = true
  · -- the own row was dropped as a repetition of this very base row
    obtain ⟨o, ho, hos, hkey⟩ := owns_iff.mp owned
    have repeats : repeatsBase tsid base db₁ o = true := by
      by_contra hn
      exact notOwned (owns_iff.mpr ⟨o, mem_items_laid.mpr ⟨ho, by simpa using hn⟩, hos, hkey⟩)
    simp only [repeatsBase, Bool.and_eq_true, any_eq_true, decide_eq_true_eq] at repeats
    obtain ⟨-, b', hb', ⟨hs', hkey'⟩, same⟩ := repeats
    obtain rfl : b' = b :=
      eq_of_owner_key carry.keys hb' hb₁ (hs'.trans hs.symm) (hkey'.trans hkey)
    have own : o.toPayload ∈ db₁.held tsid := ⟨o, ho, hos, rfl⟩
    rw [← eq_of_sameItem hkey' same (carry.uniform site base_ne own hb₁ hs)]
    exact carry.held_subset own
  · have kept : carriedFromBase prior base (lists.map ListRef.text) skip db₁ b = true := by
      by_contra hn
      exact notRemoved ((removed_laid target ht).mpr ⟨b, hb₁, hs, typed, owned, hn, rfl⟩)
    have kept' := kept
    simp only [carriedFromBase, Bool.and_eq_true, any_eq_true, decide_eq_true_eq] at kept'
    obtain ⟨-, e, he, hes, hid⟩ := kept'
    have he := (carry.shown e).mp he
    obtain rfl : e = b := inj_on_of_nodup_map ids (mem_effective.mp he).1 hb₀ hid
    refine .inr ⟨⟨⟨e, he, rfl, rfl⟩, ?_⟩, ?_⟩
    · exact (carriedFromBase_iff carry site he hs).mp kept
    · intro ho
      refine owned (owns_iff_held.mpr ?_)
      rw [carry.held]
      obtain ⟨p, hp, hk⟩ := owns_iff_held.mp ho
      exact ⟨p, .inl hp, hk⟩

theorem shown_of_copied (hp : p ∈ Copied db tsid prior skip lists) :
    p ∈ (laid tsid prior base skip lists db₁).held tsid ∨
      ∃ b ∈ (laid tsid prior base skip lists db₁).items,
        (laid tsid prior base skip lists db₁).inherited tsid base b = true ∧ b.toPayload = p := by
  have notRepeated : ∀ {b : SnapshotItem}, b.snapshotId = base →
      repeatsBase tsid base db₁ b = false := by
    intro b hs
    have : b.snapshotId ≠ tsid := hs ▸ base_ne
    simp [repeatsBase, this]
  by_cases own : p ∈ db₁.held tsid
  · obtain ⟨o, ho, hos, rfl⟩ := own
    cases repeats : repeatsBase tsid base db₁ o with
    | false => exact .inl ⟨o, mem_items_laid.mpr ⟨ho, repeats⟩, hos, rfl⟩
    | true =>
      have found := repeats
      simp only [repeatsBase, Bool.and_eq_true, any_eq_true, decide_eq_true_eq] at found
      obtain ⟨⟨-, typed⟩, b, hb, ⟨hs, hkey⟩, same⟩ := found
      have btype : b.itemType ∈ overlayTypes := by
        rw [show b.itemType = o.itemType from congrArg Prod.fst hkey]
        exact typed
      have equal := eq_of_sameItem hkey same (carry.uniform site base_ne ⟨o, ho, hos, rfl⟩ hb hs)
      refine .inr ⟨b, mem_items_laid.mpr ⟨hb, notRepeated hs⟩, ?_, equal.symm⟩
      refine inherited_of_overlayTypes hs btype ?_ ?_
      · intro owned
        obtain ⟨o', ho', hos', hkey'⟩ := owns_iff.mp owned
        obtain ⟨ho', single⟩ := mem_items_laid.mp ho'
        obtain rfl : o' = o :=
          eq_of_owner_key carry.keys ho' ho (hos'.trans hos.symm) (hkey'.trans hkey)
        rw [repeats] at single
        cases single
      · rw [removed_laid target ht]
        rintro ⟨b', -, -, -, notOwned, -, hk⟩
        exact notOwned (owns_iff.mpr ⟨o, ho, hos, (hk.trans hkey).symm⟩)
  · rcases hp with hp | ⟨⟨⟨e, he, rfl, -⟩, hl⟩, fresh⟩
    · exact absurd (carry.held ▸ .inl hp) own
    · have hs : e.snapshotId = base := by
        by_contra other
        exact own (carry.held ▸ .inr ⟨⟨⟨e, he, rfl, by simpa using other⟩, hl⟩, fresh⟩)
      have he₁ : e ∈ db₁.items :=
        (carry.items e (hs ▸ base_ne)).mpr (mem_effective.mp he).1
      obtain ⟨l, hlmem, hof⟩ := hl
      have rest : fromRest e.toPayload = true := by
        simp only [ofList, Bool.and_eq_true] at hof
        exact hof.1.1.1
      refine .inr ⟨e, mem_items_laid.mpr ⟨he₁, notRepeated hs⟩, ?_, rfl⟩
      have notOwned := carry.owns_base keys he hs fresh
      refine inherited_of_overlayTypes hs (site.rest e he rest) ?_ ?_
      · intro owned
        obtain ⟨o, ho, hos, hk⟩ := owns_iff.mp owned
        exact notOwned (owns_iff.mpr ⟨o, (mem_items_laid.mp ho).1, hos, hk⟩)
      · rw [removed_laid target ht]
        rintro ⟨b, hb, hbs, -, -, dropped, hk⟩
        obtain rfl : b = e := eq_of_owner_key carry.keys hb he₁ (hbs.trans hs.symm) hk
        exact dropped ((carriedFromBase_iff carry site he hs).mpr ⟨l, hlmem, hof⟩)

end

/-- A SharePoint overlay shows what the target would hold after its lists were copied forward row by
row. -/
theorem overlay_matches_list_copy (now' : Time) (ready : Mail.Ready db)
    (site : SitePrior db tsid prior base lists) (other : db.resolveTarget prior ≠ some tsid)
    (h : buildSpOverlay tsid prior base (lists.map ListRef.text) skip limits
      (copyForwardLists now tsid prior skip (some base) lists db) = .ok (db', result)) :
    ((db'.snapshotItemsEffective tsid).map (·.toPayload)).Perm
      (((copyForwardLists now' tsid prior skip none lists db).items.filter
        (·.snapshotId = tsid)).map (·.toPayload)) := by
  have keys := ready.wf.item_keys
  obtain ⟨⟨t, ht, full⟩, hbase, base_ne, rfl⟩ := buildSpOverlay_ok h
  set db₁ := copyForwardLists now tsid prior skip (some base) lists db with hdb₁
  have snapshot : ∀ s, db₁.snapshot? s = db.snapshot? s := by
    intro s
    rw [snapshot?, hdb₁, snapshots_copyForwardLists, snapshot?]
  have resolved : ∀ s, db₁.resolveTarget s = db.resolveTarget s := fun s =>
    congrArg (Option.map _) (snapshot s)
  have hmem : t ∈ db.snapshots := by
    rw [snapshot] at ht
    exact mem_of_find?_eq_some ht
  have root : t.reuseChainRootId = none := ready.columns t hmem full
  have hb : db.resolveBase prior ≠ some tsid := by
    cases hres : db₁.resolveTarget prior with
    | none => simp [resolveBase, ← resolved, hres]
    | some r =>
      have same : db₁.resolveBase prior = db.resolveBase prior := by
        rw [resolveBase, resolved, resolveBase]
        cases db.resolveTarget prior with
        | none => rfl
        | some r => exact congrArg (Option.bind · _) (snapshot r)
      rw [← same]
      rcases resolveBase_of_baseOfPrior hbase hres with h | ⟨h, -⟩ <;> simp [h, base_ne]
  have carry : Carry db db₁ tsid prior base skip lists := carry_copyForwardLists keys other hb
  have target : db₁.resolveTarget tsid = some tsid := by
    rw [resolveTarget, ht, Option.map_some, root, Option.getD_none, snapshot?_id ht]
  have other₁ : db₁.resolveTarget prior ≠ some tsid := resolved prior ▸ other
  have hlaid : ((laid tsid prior base skip lists db₁).setWhere [tsid] (marked prior base)).snapshot?
      tsid = some (marked prior base (Retention.onBase base t)) := by
    have based : (laid tsid prior base skip lists db₁).snapshot? tsid =
        some (Retention.onBase base t) := by
      change (db₁.setWhere [tsid] (Retention.onBase base)).snapshot? tsid = _
      rw [snapshot?_setWhere (f := Retention.onBase base) fun _ => rfl, ht]
      simp
    rw [snapshot?_setWhere (f := marked prior base) fun _ => rfl, based]
    simp
  have copied : (copyForwardLists now' tsid prior skip none lists db).held tsid =
      Copied db tsid prior skip lists := held_copyForwardLists other hb keys
  refine perm_of_same_items (nodup_keys_inventory ?_)
    (nodup_keys_held (nodup_copyForwardLists keys) tsid) id (fun _ => rfl) fun q => ?_
  · exact carry.keys.sublist (filter_sublist.map _)
  have held : (∃ i ∈ (copyForwardLists now' tsid prior skip none lists db).items.filter
      (·.snapshotId = tsid), i.toPayload = q) ↔ q ∈ Copied db tsid prior skip lists := by
    rw [← copied]
    simp [Db.held, and_assoc]
  refine (shown_overlay hlaid root rfl).trans (Iff.trans ?_ held.symm)
  constructor
  · rintro (⟨o, ho, hos, rfl⟩ | ⟨b, hbm, hinh, rfl⟩)
    · exact carry.held_subset ⟨o, (mem_items_laid.mp ho).1, hos, rfl⟩
    · exact copied_of_inherited carry site base_ne target other₁ ready.ids hbm hinh
  · exact shown_of_copied carry keys site base_ne target other₁

end

def listRow (id snapshotId : Uuid) (list item hash : String) : SnapshotItem where
  id := id
  snapshotId := snapshotId
  itemType := .sharepointListItem
  externalId := list ++ ":" ++ item
  contentHash := some hash
  backupVersion := some 1
  metadata := { source := some "sp_rest", siteId := some "s", listId := some list }

/-- A third run over an overlay. List "l" is carried: the prior changed its second row and hid its
third, and its fourth was read again. Of list "m" one row was read, unchanged. -/
def changedSite : Db where
  snapshots :=
    [{ id := 1, resourceId := 0, status := some .completed, createdAt := some 10 },
      { id := 2, resourceId := 0, status := some .completed, createdAt := some 20,
        overlayBaseId := some 1 },
      { id := 3, resourceId := 0, createdAt := some 30 }]
  items :=
    [listRow 10 1 "l" "1" "a", listRow 11 1 "l" "2" "b", listRow 12 1 "l" "3" "c",
      listRow 13 1 "l" "4" "d", listRow 14 1 "m" "1" "e", listRow 15 1 "m" "2" "f",
      listRow 16 2 "l" "2" "b'", listRow 17 3 "l" "4" "d'", listRow 18 3 "m" "1" "e"]
  removals := [{ snapshotId := 2, itemType := .sharepointListItem, externalId := "l:3" }]
  nextUuid := 20

theorem changedSite_matches : ∃ db' result, buildSpOverlay 3 2 1 ["s l"] ["l:4"] { maxRatio := 2 }
        (copyForwardLists 40 3 2 ["l:4"] (some 1) [⟨"s", "l"⟩] changedSite) = .ok (db', result) ∧
      result = ⟨2, 2, 6, 1⟩ ∧
      ((db'.snapshotItemsEffective 3).map (·.toPayload)).Perm
        (((copyForwardLists 50 3 2 ["l:4"] none [⟨"s", "l"⟩] changedSite).items.filter
          (·.snapshotId = 3)).map (·.toPayload)) := by
  have figures : (buildSpOverlay 3 2 1 ["s l"] ["l:4"] { maxRatio := 2 }
    (copyForwardLists 40 3 2 ["l:4"] (some 1) [⟨"s", "l"⟩] changedSite)).toOption.map Prod.snd =
      some ⟨2, 2, 6, 1⟩ := by decide +kernel
  obtain ⟨r, built, same⟩ := Option.map_eq_some_iff.mp figures
  have built := toOption_eq_some.mp built
  exact ⟨r.1, r.2, built, same, overlay_matches_list_copy 50 (by decide +kernel) (by decide +kernel)
    (by decide +kernel) built⟩

end TmVault.SharePoint
