import Mathlib.Data.List.Pairwise
import TmVault.Mail.Refinement
import TmVault.Store.Holdings

namespace TmVault.Chats

open Relational Store

def chatTypes : List ItemType := [.teamsChatMessage, .chatAttachment, .chatHostedContent]

structure InventoryItem where
  inventoryId : Uuid
  logicalKey : String
  versionId : Uuid

structure LinkedChat where
  inventoryId : Uuid
  folder : String

inductive Refusal
  | notBuilt | integrity | uniqueViolation | missingCreatedAt | store (e : StoreError)

section

variable (entries : List InventoryItem) (chats : List LinkedChat)

def linked : List (LinkedChat × InventoryItem) :=
  chats.flatMap fun c => (entries.filter (·.inventoryId = c.inventoryId)).map fun ii => (c, ii)

def inheritedBy (base : Uuid) (b : SnapshotItem) (l : LinkedChat × InventoryItem) : Bool :=
  b.snapshotId = base && b.externalId = l.2.logicalKey && b.chatVersionId = some l.2.versionId &&
    b.folderPath = some l.1.folder

def inBase (db : Db) (base : Uuid) (l : LinkedChat × InventoryItem) : Bool :=
  db.items.any (inheritedBy base · l)

def captures (si : SnapshotItem) (l : LinkedChat × InventoryItem) : Bool :=
  si.externalId = l.2.logicalKey && si.chatVersionId = some l.2.versionId

def carried (now : Time) (c : LinkedChat) (si : SnapshotItem) : SnapshotItem :=
  { si with folderPath := some c.folder, indexedAt := none, createdAt := some now }

def carriedRows (now : Time) (db : Db) (source : Uuid)
    (pairs : List (LinkedChat × InventoryItem)) : List SnapshotItem :=
  pairs.flatMap fun l =>
    ((db.snapshotItemsEffective source).filter (captures · l)).map (carried now l.1)

end

section

variable (now : Time) (tsid source : Uuid) (entries : List InventoryItem)
  (chats : List LinkedChat) (expected : Nat)

def insertRows (db : Db) (rows : List SnapshotItem) : Except Refusal Db :=
  if (rows.map (·.key)).Nodup ∧ ∀ r ∈ rows, db.owns tsid r.key = false then
    .ok (db.copyInto tsid rows)
  else .error .uniqueViolation

def copyLinked (db : Db) : Except Refusal Db := do
  let rows := carriedRows now db source (linked entries chats)
  let db ← insertRows tsid db rows
  failIf (rows.length ≠ expected) .integrity
  pure db

end

section

abbrev Limits := Mail.OverlayLimits

variable (now : Time) (tsid source : Uuid) (entries : List InventoryItem)
  (chats : List LinkedChat) (expected : Nat)

def acceptsFull (s : Snapshot) : Bool :=
  s.status.any (· ∈ [SnapshotStatus.completed, .partialRun]) && s.reuseOfSnapshotId = none &&
    s.overlayBaseId = none && s.extraData.cancelledAt = none

def keysToHide (base : Uuid) (db : Db) : List ItemKey :=
  (db.items.filter fun b => b.snapshotId = base && !db.owns tsid b.key &&
    !(linked entries chats).any (inheritedBy base b)).map (·.key)

def marked (base : Uuid) (s : Snapshot) : Snapshot :=
  { s with extraData := { s.extraData with
      chatOverlayBase := some base, chatOverlayPrior := some source } }

def overlayUnchanged (limits : Limits) (db : Db) : Except Refusal Db := do
  let target ← orFail .notBuilt ((db.snapshot? tsid).filter Mail.inProgressFull)
  let sourceRow ← orFail .notBuilt (db.snapshot? source)
  let base := sourceRow.overlayBaseId.getD sourceRow.id
  let baseRow ← orFail .notBuilt ((db.snapshot? base).filter acceptsFull)
  let targetTime ← orFail .missingCreatedAt target.createdAt
  let baseTime ← orFail .missingCreatedAt baseRow.createdAt
  failIf (Mail.tooOld limits targetTime baseTime) .notBuilt
  failIf (db.items.any fun i => i.snapshotId = base && i.itemType ∉ chatTypes) .notBuilt
  let based ← (Db.updateWhere Db.validateSnapshotOverlayBase [tsid] (Retention.onBase base)
    db).mapError .store
  let pairs := linked entries chats
  let inherited := (pairs.filter (inBase based base)).length
  let rows := carriedRows now based source (pairs.filter fun l => !inBase based base l)
  let laid ← insertRows tsid based rows
  failIf (inherited + rows.length ≠ expected) .integrity
  let hidden := keysToHide tsid entries chats base laid
  let laid := laid.addRemovals tsid hidden
  let own := (laid.items.filter (·.snapshotId = tsid)).length
  let baseRows := (laid.items.filter (·.snapshotId = base)).length
  failIf (Mail.exceeds limits own hidden.length baseRows) .notBuilt
  pure (laid.setWhere [tsid] (marked source base))

end

section

variable (sid base : Uuid)

def sameLink (b own : Payload) : Bool :=
  b.chatVersionId = own.chatVersionId && b.folderPath = own.folderPath &&
    b.blobPath = own.blobPath && b.parentExternalId = own.parentExternalId &&
    b.isDeleted = own.isDeleted && b.backendId = own.backendId

def repeatsBase (db : Db) (own : SnapshotItem) : Bool :=
  own.snapshotId = sid && own.itemType ∈ chatTypes &&
    db.items.any fun b => b.snapshotId = base && b.key = own.key && sameLink b.toPayload own.toPayload

def dropRepeated (db : Db) : Db :=
  { db with
    items := db.items.filter fun own => !repeatsBase sid base db own
    removals := db.removals.filter fun r => !(r.snapshotId = sid &&
      db.items.any fun own => repeatsBase sid base db own && own.key = r.key) }

def compactChatOverlay (db : Db) : Db :=
  match (db.snapshot? sid).bind (·.overlayBaseId) with
  | none => db
  | some base => dropRepeated sid base db

end

open List Db

theorem chat_cases (h : t ∈ chatTypes) :
    t = .teamsChatMessage ∨ t = .chatAttachment ∨ t = .chatHostedContent := by
  simpa [chatTypes] using h

theorem chat_inherits (h : t ∈ chatTypes) : t ∈ ItemType.overlayTypes := by
  rcases chat_cases h with rfl | rfl | rfl <;> decide

theorem parentKey_chat {p : Payload} (h : p.itemType ∈ chatTypes) : p.parentKey = none := by
  rw [Payload.parentKey]
  rcases chat_cases h with h | h | h <;> rw [h]

theorem inherited_chat {db : Db} {sid base : Uuid} {b : SnapshotItem} (hs : b.snapshotId = base)
    (ht : b.itemType ∈ chatTypes) (notOwned : ¬ db.owns sid b.key = true)
    (notRemoved : ¬ db.removed sid b.key = true) : db.inherited sid base b = true := by
  refine inherited_iff.mpr ⟨hs, chat_inherits ht, notOwned, notRemoved, ?_⟩
  rw [parentVisible, parentKey_chat ht]

section

variable {db : Db} {sid base : Uuid} {s : Snapshot} {k : ItemKey}

/-- A payload in the folder, under the parent and on the backend of `row`. -/
def placed (row p : Payload) : Payload :=
  { p with
    parentExternalId := row.parentExternalId, folderPath := row.folderPath
    backendId := row.backendId }

/-- A row's version gives what it holds, its capture only where the row is placed. -/
structure Versioned (db : Db) : Prop where
  content : ∀ i ∈ db.items, ∀ j ∈ db.items, i.chatVersionId.isSome = true →
    i.externalId = j.externalId → i.chatVersionId = j.chatVersionId →
      placed i.toPayload j.toPayload = i.toPayload
  unindexed : ∀ i ∈ db.items, i.chatVersionId.isSome = true → i.indexedAt = none
  catalogued : ∀ i ∈ db.items, ∀ s ∈ db.snapshots, s.id = i.snapshotId →
    s.overlayBaseId.isSome = true → i.itemType ∈ chatTypes → i.chatVersionId.isSome = true

instance (db : Db) : Decidable (Versioned db) :=
  decidable_of_iff (_ ∧ _ ∧ _) ⟨fun ⟨a, b, c⟩ => ⟨a, b, c⟩, fun ⟨a, b, c⟩ => ⟨a, b, c⟩⟩

theorem Versioned.eq_of_sameLink (versioned : Versioned db) (hs : db.snapshot? sid = some s)
    (hbase : s.overlayBaseId = some base) (ho : o ∈ db.items) (hos : o.snapshotId = sid)
    (chat : o.itemType ∈ chatTypes) (hb : b ∈ db.items) (key : b.key = o.key)
    (same : sameLink b.toPayload o.toPayload = true) : b.toPayload = o.toPayload := by
  simp only [sameLink, Bool.and_eq_true, decide_eq_true_eq] at same
  obtain ⟨⟨⟨⟨⟨version, folder⟩, -⟩, parent⟩, -⟩, backend⟩ := same
  have some_version := versioned.catalogued o ho s (mem_of_find?_eq_some hs)
    ((snapshot?_id hs).trans hos.symm) (by rw [hbase]; rfl) chat
  rw [← versioned.content o ho b hb some_version (Prod.mk.inj key).2.symm version.symm, placed,
    ← folder, ← parent, ← backend]

theorem repeatsBase_iff : repeatsBase sid base db o = true ↔
    o.snapshotId = sid ∧ o.itemType ∈ chatTypes ∧ ∃ b ∈ db.items, b.snapshotId = base ∧
      b.key = o.key ∧ sameLink b.toPayload o.toPayload = true := by
  simp [repeatsBase, and_assoc]

@[simp] theorem mem_items_dropRepeated : i ∈ (dropRepeated sid base db).items ↔
    i ∈ db.items ∧ ¬ repeatsBase sid base db i = true := by
  simp [dropRepeated]

theorem removed_dropRepeated : (dropRepeated sid base db).removed sid k = true ↔
    db.removed sid k = true ∧ ¬ ∃ o ∈ db.items, repeatsBase sid base db o = true ∧ o.key = k := by
  rw [removed_iff, removed_iff]
  simp only [dropRepeated, mem_filter, Bool.not_eq_true', Bool.and_eq_false_iff,
    decide_eq_false_iff_not, any_eq_false, Bool.and_eq_true, decide_eq_true_eq, not_and,
    not_exists]
  constructor
  · rintro ⟨r, ⟨hr, kept⟩, hs, rfl⟩
    exact ⟨⟨r, hr, hs, rfl⟩, fun o ho hrep => (kept.resolve_left (not_not.mpr hs)) o ho hrep⟩
  · rintro ⟨⟨r, hr, hs, rfl⟩, kept⟩
    exact ⟨r, ⟨hr, .inr kept⟩, hs, rfl⟩

variable (keys : db.Keyed) (base_ne : base ≠ sid)

include base_ne in
theorem mem_items_dropRepeated_base (hs : i.snapshotId = base) :
    i ∈ (dropRepeated sid base db).items ↔ i ∈ db.items := by
  rw [mem_items_dropRepeated]
  refine and_iff_left_of_imp fun _ hrep => ?_
  exact base_ne (hs.symm.trans (repeatsBase_iff.mp hrep).1)

theorem owns_dropRepeated_of_not_chat (hk : k.1 ∉ chatTypes) :
    (dropRepeated sid base db).owns sid k = true ↔ db.owns sid k = true := by
  rw [owns_iff, owns_iff]
  constructor
  · rintro ⟨o, ho, hos, hkey⟩
    exact ⟨o, (mem_items_dropRepeated.mp ho).1, hos, hkey⟩
  · rintro ⟨o, ho, hos, rfl⟩
    exact ⟨o, mem_items_dropRepeated.mpr ⟨ho, fun hrep => hk (repeatsBase_iff.mp hrep).2.1⟩, hos,
      rfl⟩

theorem parent_not_chat {p : Payload} (h : p.parentKey = some k) : k.1 ∉ chatTypes := by
  rcases Payload.parentKey_cases h with h | h <;> rw [h] <;> decide

include base_ne in
theorem parentVisible_dropRepeated {p : Payload} :
    (dropRepeated sid base db).parentVisible sid base p = db.parentVisible sid base p := by
  have baseOwns : ∀ k, (dropRepeated sid base db).owns base k = true ↔ db.owns base k = true := by
    intro k
    rw [owns_iff, owns_iff]
    constructor
    · rintro ⟨i, hi, hs, hk⟩
      exact ⟨i, (mem_items_dropRepeated_base base_ne hs).mp hi, hs, hk⟩
    · rintro ⟨i, hi, hs, hk⟩
      exact ⟨i, (mem_items_dropRepeated_base base_ne hs).mpr hi, hs, hk⟩
  have notRemoved : ∀ k : ItemKey, k.1 ∉ chatTypes →
      ((dropRepeated sid base db).removed sid k = true ↔ db.removed sid k = true) := by
    intro k hk
    rw [removed_dropRepeated]
    refine and_iff_left_of_imp fun _ => ?_
    rintro ⟨o, -, hrep, rfl⟩
    exact hk (repeatsBase_iff.mp hrep).2.1
  rw [Bool.eq_iff_iff, parentVisible_iff, parentVisible_iff]
  refine forall₂_congr fun k hk => ?_
  have hk := parent_not_chat hk
  rw [owns_dropRepeated_of_not_chat hk, baseOwns, notRemoved k hk]

include keys base_ne in
theorem shown_dropRepeated (versioned : Versioned db) (hs : db.snapshot? sid = some s)
    (root : s.reuseChainRootId = none) (hbase : s.overlayBaseId = some base) (q : Payload) :
    (∃ i ∈ (dropRepeated sid base db).snapshotItemsEffective sid, i.toPayload = q) ↔
      ∃ i ∈ db.snapshotItemsEffective sid, i.toPayload = q := by
  have rows (db : Db) (hs : db.snapshot? sid = some s) (i : SnapshotItem) :
      i ∈ db.snapshotItemsEffective sid ↔
        i ∈ db.items ∧ (i.snapshotId = sid ∨ db.inherited sid base i = true) := by
    rw [effective_of_root hs root, hbase]
    simp [← and_or_left]
  have after := rows (dropRepeated sid base db) hs
  have before := rows db hs
  constructor
  · rintro ⟨i, hi, rfl⟩
    obtain ⟨hmem, hi⟩ := (after i).mp hi
    have hmem := (mem_items_dropRepeated.mp hmem).1
    rcases hi with own | inh
    · exact ⟨i, (before i).mpr ⟨hmem, .inl own⟩, rfl⟩
    · obtain ⟨hb, inherits, notOwned, notRemoved, visible⟩ := inherited_iff.mp inh
      by_cases owned : db.owns sid i.key = true
      · -- an own row of this key was dropped, for this very base row
        obtain ⟨o, ho, hos, hkey⟩ := owns_iff.mp owned
        have hrep : repeatsBase sid base db o = true := by
          by_contra hn
          exact notOwned (owns_iff.mpr ⟨o, mem_items_dropRepeated.mpr ⟨ho, hn⟩, hos, hkey⟩)
        obtain ⟨-, chat, b, hbm, hbs, hbkey, same⟩ := repeatsBase_iff.mp hrep
        obtain rfl : b = i :=
          eq_of_owner_key keys hbm hmem (hbs.trans hb.symm) (hbkey.trans hkey)
        exact ⟨o, (before o).mpr ⟨ho, .inl hos⟩,
          (versioned.eq_of_sameLink hs hbase ho hos chat hbm hbkey same).symm⟩
      · refine ⟨i, (before i).mpr ⟨hmem, .inr (inherited_iff.mpr
          ⟨hb, inherits, owned, fun hr => ?_, ?_⟩)⟩, rfl⟩
        · refine notRemoved (removed_dropRepeated.mpr ⟨hr, ?_⟩)
          rintro ⟨o, ho, hrep, hkey⟩
          exact owned (owns_iff.mpr ⟨o, ho, (repeatsBase_iff.mp hrep).1, hkey⟩)
        · rwa [parentVisible_dropRepeated base_ne] at visible
  · rintro ⟨i, hi, rfl⟩
    obtain ⟨hmem, hi⟩ := (before i).mp hi
    by_cases hrep : repeatsBase sid base db i = true
    · obtain ⟨his, chat, b, hb, hbs, hbkey, same⟩ := repeatsBase_iff.mp hrep
      have btype : b.itemType ∈ chatTypes := by
        rw [show b.itemType = i.itemType from congrArg Prod.fst hbkey]
        exact chat
      refine ⟨b, (after b).mpr ⟨(mem_items_dropRepeated_base base_ne hbs).mpr hb,
        .inr (inherited_chat hbs btype ?_ ?_)⟩,
        versioned.eq_of_sameLink hs hbase hmem his chat hb hbkey same⟩
      · intro owned
        obtain ⟨o, ho, hos, hkey⟩ := owns_iff.mp owned
        obtain ⟨ho, single⟩ := mem_items_dropRepeated.mp ho
        obtain rfl : o = i := eq_of_owner_key keys ho hmem (hos.trans his.symm) (hkey.trans hbkey)
        exact single hrep
      · intro hr
        exact (removed_dropRepeated.mp hr).2 ⟨i, hmem, hrep, hbkey.symm⟩
    · refine ⟨i, (after i).mpr ⟨mem_items_dropRepeated.mpr ⟨hmem, hrep⟩, ?_⟩, rfl⟩
      rcases hi with own | inh
      · exact .inl own
      · obtain ⟨hb, inherits, notOwned, notRemoved, visible⟩ := inherited_iff.mp inh
        refine .inr (inherited_iff.mpr ⟨hb, inherits, fun owned => ?_, fun hr => ?_, ?_⟩)
        · obtain ⟨o, ho, hos, hkey⟩ := owns_iff.mp owned
          exact notOwned (owns_iff.mpr ⟨o, (mem_items_dropRepeated.mp ho).1, hos, hkey⟩)
        · exact notRemoved (removed_dropRepeated.mp hr).1
        · rwa [parentVisible_dropRepeated base_ne]

include base_ne in
theorem not_repeatsBase_dropRepeated (ho : o ∈ (dropRepeated sid base db).items) :
    repeatsBase sid base (dropRepeated sid base db) o = false := by
  rw [← Bool.not_eq_true]
  intro hrep
  obtain ⟨hos, chat, b, hb, hbs, hkey, same⟩ := repeatsBase_iff.mp hrep
  refine (mem_items_dropRepeated.mp ho).2 (repeatsBase_iff.mpr ⟨hos, chat, b, ?_, hbs, hkey, same⟩)
  exact (mem_items_dropRepeated_base base_ne hbs).mp hb

include base_ne in
theorem dropRepeated_idem :
    dropRepeated sid base (dropRepeated sid base db) = dropRepeated sid base db := by
  set once := dropRepeated sid base db
  have none : ∀ o ∈ once.items, repeatsBase sid base once o = false := fun o ho =>
    not_repeatsBase_dropRepeated base_ne ho
  have items : once.items.filter (fun own => !repeatsBase sid base once own) = once.items :=
    filter_eq_self.mpr fun o ho => by rw [none o ho]; rfl
  have removals : once.removals.filter (fun r => !(r.snapshotId = sid &&
      once.items.any fun own => repeatsBase sid base once own && own.key = r.key)) =
      once.removals := by
    refine filter_eq_self.mpr fun r _ => ?_
    have : (once.items.any fun own => repeatsBase sid base once own && own.key = r.key) = false := by
      rw [any_eq_false]
      intro o ho
      simp [none o ho]
    simp [this]
  change { once with items := _, removals := _ } = once
  rw [items, removals]

end

section

variable {α β : Type} {f : α → List β} {l : List α}

theorem length_flatMap_le (one : ∀ x ∈ l, (f x).length ≤ 1) : (l.flatMap f).length ≤ l.length := by
  induction l with
  | nil => exact Nat.le_refl 0
  | cons y l ih =>
    have first := one y mem_cons_self
    have rest := ih fun x hx => one x (mem_cons_of_mem y hx)
    rw [flatMap_cons, length_append, length_cons]
    omega

theorem nonempty_of_length_flatMap
    (one : ∀ x ∈ l, (f x).length ≤ 1) (full : (l.flatMap f).length = l.length) :
    ∀ x ∈ l, f x ≠ [] := by
  intro x hx empty
  obtain ⟨pre, post, rfl⟩ := append_of_mem hx
  have before := length_flatMap_le fun y hy => one y (mem_append_left _ hy)
  have after := length_flatMap_le fun y hy => one y (mem_append_right _ (mem_cons_of_mem x hy))
  simp only [flatMap_append, flatMap_cons, empty, nil_append, length_append, length_cons] at full
  omega

theorem length_flatMap_filter (f : α → List β) (p : α → Bool) (l : List α) : (l.flatMap f).length =
      ((l.filter p).flatMap f).length + ((l.filter fun x => !p x).flatMap f).length := by
  rw [← length_append, ← flatMap_append]
  exact ((filter_append_perm p l).flatMap_right f).length_eq.symm

theorem eq_of_nodup_flatMap (h : (l.flatMap f).Nodup)
    (ha : a ∈ l) (ha' : a' ∈ l) (hx : x ∈ f a) (hx' : x ∈ f a') : a = a' := by
  by_contra ne
  have symm : Std.Symm (Function.onFun List.Disjoint f) := ⟨fun _ _ h => h.symm⟩
  exact (nodup_flatMap.mp h).2.forall ha ha' ne hx hx'

end

section

variable {db db' db'' : Db} {now now' : Time} {tsid source base : Uuid}
  {entries : List InventoryItem} {chats : List LinkedChat} {expected : Nat} {limits : Limits}

def baseOf (db : Db) (source : Uuid) : Option Uuid :=
  (db.snapshot? source).map fun s => s.overlayBaseId.getD s.id

/-- An entry that is inherited has its row in the base as in the source. -/
def Agree (db : Db) (source base : Uuid) (entries : List InventoryItem)
    (chats : List LinkedChat) : Prop :=
  ∀ l ∈ linked entries chats, ∀ b ∈ db.items, inheritedBy base b l = true →
    ∀ si ∈ db.snapshotItemsEffective source, captures si l = true →
      b.parentExternalId = si.parentExternalId ∧ b.backendId = si.backendId

instance (db : Db) (source base : Uuid) (entries : List InventoryItem) (chats : List LinkedChat) :
    Decidable (Agree db source base entries chats) :=
  inferInstanceAs (Decidable (∀ l ∈ linked entries chats, _))

theorem insertRows_ok (h : insertRows tsid db rows = .ok db') :
    (rows.map (·.key)).Nodup ∧ (∀ r ∈ rows, db.owns tsid r.key = false) ∧
      db' = db.copyInto tsid rows := by
  rw [insertRows] at h
  split at h
  · rename_i hc
    cases h
    exact ⟨hc.1, hc.2, rfl⟩
  · cases h

theorem copyLinked_ok (h : copyLinked now tsid source entries chats expected db = .ok db'') :
    ((carriedRows now db source (linked entries chats)).map (·.key)).Nodup ∧
      (∀ r ∈ carriedRows now db source (linked entries chats), db.owns tsid r.key = false) ∧
      (carriedRows now db source (linked entries chats)).length = expected ∧
      db'' = db.copyInto tsid (carriedRows now db source (linked entries chats)) := by
  obtain ⟨d, hd, h⟩ := of_bind h
  obtain ⟨hcount, h⟩ := of_failIf h
  cases h
  obtain ⟨distinct, fresh, rfl⟩ := insertRows_ok hd
  exact ⟨distinct, fresh, by simpa using hcount, rfl⟩

structure Built (db db' : Db) (now : Time) (tsid source base : Uuid)
    (entries : List InventoryItem) (chats : List LinkedChat) (expected : Nat) : Prop where
  base_ne : base ≠ tsid
  chat : ∀ i ∈ db.items, i.snapshotId = base → i.itemType ∈ chatTypes
  count : ((linked entries chats).filter (inBase db base)).length +
    (carriedRows now db source ((linked entries chats).filter
      fun l => !inBase db base l)).length = expected
  distinct : ((carriedRows now db source ((linked entries chats).filter
    fun l => !inBase db base l)).map (·.key)).Nodup
  target : ∃ t, db'.snapshot? tsid = some t ∧ t.reuseChainRootId = none ∧
    t.overlayBaseId = some base
  items : db'.items = (db.copyInto tsid (carriedRows now db source ((linked entries chats).filter
    fun l => !inBase db base l))).items
  removed : ∀ k, db'.removed tsid k = true ↔ ∃ b ∈ db'.items, b.snapshotId = base ∧
    ¬ db'.owns tsid b.key = true ∧ ¬ (∃ l ∈ linked entries chats, inheritedBy base b l = true) ∧
      b.key = k

theorem overlayUnchanged_ok (ready : Mail.Ready db)
    (h : overlayUnchanged now tsid source entries chats expected limits db = .ok db') :
    ∃ base, baseOf db source = some base ∧
      Built db db' now tsid source base entries chats expected := by
  have found : ∀ {sid s}, db.snapshot? sid = some s ↔ s ∈ db.snapshots ∧ s.id = sid :=
    snapshot?_eq_some ready.wf.snapshot_ids
  obtain ⟨t, htarget, h⟩ := of_orFail h
  obtain ⟨s, hsource, h⟩ := of_orFail h
  obtain ⟨b, _, h⟩ := of_orFail h
  obtain ⟨targetTime, _, baseTime, _, _, _, h⟩ := of_bind₃ h
  obtain ⟨htypes, h⟩ := of_failIf h
  obtain ⟨based, hbased, laid, hlaid, _, hcount, h⟩ := of_bind₃ h
  obtain ⟨_, _, h⟩ := of_bind h
  cases h
  set base := s.overlayBaseId.getD s.id with hbase
  obtain ⟨ht, full⟩ := Option.filter_eq_some_iff.mp htarget
  simp only [Mail.inProgressFull, Bool.and_eq_true, decide_eq_true_eq] at full
  have hs := hsource
  obtain ⟨base_ne, row, rfl⟩ := Mail.based_ok ht hbased (fun _ => rfl) rfl
  have source_root := ready.root_of_base (found.mp hs).1 row
  have source_ne : source ≠ tsid := by
    rintro rfl
    cases ht.symm.trans hs
    rw [full.1.2, Option.getD_none, snapshot?_id ht] at hbase
    exact base_ne hbase
  have resolved : db.resolveTarget source ≠ some tsid := by
    rw [resolveTarget, hs, Option.map_some, source_root, Option.getD_none, snapshot?_id hs]
    simpa using source_ne
  have same : (db.setWhere [tsid] (Retention.onBase base)).snapshotItemsEffective source =
      db.snapshotItemsEffective source :=
    effective_setWhere (fun _ => rfl) source_ne resolved
  have rows : ∀ pairs, carriedRows now (db.setWhere [tsid] (Retention.onBase base)) source pairs =
      carriedRows now db source pairs := fun pairs => by rw [carriedRows, carriedRows, same]
  have inb : ∀ l, inBase (db.setWhere [tsid] (Retention.onBase base)) base l = inBase db base l :=
    fun _ => rfl
  obtain ⟨distinct, -, rfl⟩ := insertRows_ok hlaid
  simp only [rows, inb] at distinct hcount
  have counted := of_decide_eq_false (failIf_eq_ok.mp hcount)
  refine ⟨base, by rw [baseOf, hs]; rfl, base_ne, ?_, not_not.mp counted, distinct, ?_, ?_, ?_⟩
  · intro i hi his
    have := htypes
    simp only [any_eq_false, Bool.and_eq_true, decide_eq_true_eq, not_and, not_not] at this
    exact this i hi his
  · refine ⟨marked source base (Retention.onBase base t), ?_,
      ready.columns t (found.mp ht).1 full.1.1.2, rfl⟩
    rw [snapshot?_setWhere (f := marked source base) fun _ => rfl]
    change ((db.setWhere [tsid] (Retention.onBase base)).snapshot? tsid).map _ = _
    rw [snapshot?_setWhere (f := Retention.onBase base) fun _ => rfl, ht]
    simp
  · simp only [rows, inb]
    rfl
  · intro k
    rw [show ∀ d : Db, (d.setWhere [tsid] (marked source base)).removed tsid k = d.removed tsid k
      from fun _ => rfl, removed_addRemovals]
    have bare' : ((db.setWhere [tsid] (Retention.onBase base)).copyInto tsid
        (carriedRows now (db.setWhere [tsid] (Retention.onBase base)) source
          ((linked entries chats).filter fun l =>
            !inBase (db.setWhere [tsid] (Retention.onBase base)) base l))).removed tsid k = false :=
      ready.wf.not_removed ht full.1.2 k
    rw [bare']
    simp only [Bool.false_eq_true, true_and, false_or, keysToHide, mem_map, mem_filter,
      Bool.and_eq_true, decide_eq_true_eq, Bool.not_eq_true', and_assoc, any_eq_false,
      not_exists, not_and]
    constructor
    · rintro ⟨x, hx, hxs, hno, hni, rfl⟩
      exact ⟨x, hx, hxs, ne_true_of_eq_false hno, hni, rfl⟩
    · rintro ⟨x, hx, hxs, hno, hni, rfl⟩
      exact ⟨x, hx, hxs, eq_false_of_ne_true hno, hni, rfl⟩

theorem Versioned.key_eq (versioned : Versioned db) (hi : i ∈ db.items) (hj : j ∈ db.items)
    (some_version : i.chatVersionId.isSome = true) (id : i.externalId = j.externalId)
    (version : i.chatVersionId = j.chatVersionId) : i.key = j.key := by
  have content := versioned.content i hi j hj some_version id version
  exact Prod.ext (congrArg Payload.itemType content).symm id

theorem length_captured_le (keys : db.Keyed)
    (versioned : Versioned db) (l : LinkedChat × InventoryItem) :
    ((db.snapshotItemsEffective source).filter (captures · l)).length ≤ 1 := by
  by_contra more
  obtain ⟨i, j, rest, hrest⟩ : ∃ i j rest,
      (db.snapshotItemsEffective source).filter (captures · l) = i :: j :: rest := by
    match h : (db.snapshotItemsEffective source).filter (captures · l) with
    | [] => simp [h] at more
    | [x] => simp [h] at more
    | i :: j :: rest => exact ⟨i, j, rest, rfl⟩
  have nodup : (((db.snapshotItemsEffective source).filter (captures · l)).map (·.key)).Nodup :=
    (nodup_keys_inventory keys).sublist (filter_sublist.map _)
  have hi : i ∈ (db.snapshotItemsEffective source).filter (captures · l) := by simp [hrest]
  have hj : j ∈ (db.snapshotItemsEffective source).filter (captures · l) := by simp [hrest]
  rw [hrest] at nodup
  obtain ⟨hi, ci⟩ := mem_filter.mp hi
  obtain ⟨hj, cj⟩ := mem_filter.mp hj
  simp only [captures, Bool.and_eq_true, decide_eq_true_eq] at ci cj
  have key : i.key = j.key := versioned.key_eq (mem_effective.mp hi).1 (mem_effective.mp hj).1
    (by simp [ci.2]) (ci.1.trans cj.1.symm) (ci.2.trans cj.2.symm)
  simp [key] at nodup

@[simp] theorem mem_carriedRows :
    r ∈ carriedRows now db source pairs ↔ ∃ l ∈ pairs, ∃ si ∈ db.snapshotItemsEffective source,
      captures si l = true ∧ carried now l.1 si = r := by
  simp [carriedRows, and_assoc]

theorem captured_of_inBase (keys : db.Keyed)
    (versioned : Versioned db) (built : Built db db' now tsid source base entries chats expected)
    (count : (carriedRows now' db source (linked entries chats)).length = expected)
    {l : LinkedChat × InventoryItem} (hl : l ∈ linked entries chats)
    (hb : inBase db base l = true) :
    ∃ si ∈ db.snapshotItemsEffective source, captures si l = true := by
  have lengths : ∀ n pairs, (carriedRows n db source pairs).length = (pairs.flatMap fun l =>
      (db.snapshotItemsEffective source).filter (captures · l)).length := by
    intro n pairs
    simp [carriedRows, length_flatMap]
  have split := length_flatMap_filter
    (fun l => (db.snapshotItemsEffective source).filter (captures · l)) (inBase db base)
    (linked entries chats)
  have total := built.count
  rw [lengths] at total count
  have full := nonempty_of_length_flatMap (l := (linked entries chats).filter (inBase db base))
    (f := fun l => (db.snapshotItemsEffective source).filter (captures · l))
    (fun l _ => length_captured_le keys versioned l) (by omega) l (mem_filter.mpr ⟨hl, hb⟩)
  obtain ⟨si, hsi⟩ := exists_mem_of_ne_nil _ full
  exact ⟨si, (mem_filter.mp hsi).1, (mem_filter.mp hsi).2⟩

theorem linked_eq_of_key (distinct : ((carriedRows now db source pairs).map (·.key)).Nodup)
    (hl : l ∈ pairs) (hl' : l' ∈ pairs)
    (hsi : si ∈ db.snapshotItemsEffective source) (hsi' : si' ∈ db.snapshotItemsEffective source)
    (hc : captures si l = true) (hc' : captures si' l' = true) (key : si.key = si'.key) :
    l = l' := by
  rw [carriedRows, map_flatMap] at distinct
  refine eq_of_nodup_flatMap distinct hl hl' (x := si.key) ?_ ?_
  · rw [map_map]
    exact mem_map.mpr ⟨si, mem_filter.mpr ⟨hsi, hc⟩, rfl⟩
  · rw [map_map]
    exact mem_map.mpr ⟨si', mem_filter.mpr ⟨hsi', hc'⟩, key.symm⟩

theorem inheritedBy_iff {b : SnapshotItem} {l : LinkedChat × InventoryItem} :
    inheritedBy base b l = true ↔ b.snapshotId = base ∧ b.externalId = l.2.logicalKey ∧
      b.chatVersionId = some l.2.versionId ∧ b.folderPath = some l.1.folder := by
  simp [inheritedBy, and_assoc]

theorem captures_iff {si : SnapshotItem} {l : LinkedChat × InventoryItem} : captures si l = true ↔
    si.externalId = l.2.logicalKey ∧ si.chatVersionId = some l.2.versionId := by
  simp [captures]

theorem Built.held (built : Built db db' now tsid source base entries chats expected) :
    db'.held tsid = db.held tsid ∪ {p | (∃ j ∈ carriedRows now db source
      ((linked entries chats).filter fun l => !inBase db base l), j.toPayload = p) ∧
        ¬ db.owns tsid p.key = true} := by
  rw [← held_copyInto built.distinct, Db.held, built.items, Db.held]

theorem Built.mem_items (built : Built db db' now tsid source base entries chats expected)
    {b : SnapshotItem} (hb : b.snapshotId = base) : b ∈ db'.items ↔ b ∈ db.items := by
  rw [built.items]
  exact mem_items_copyInto_of_ne (hb ▸ built.base_ne)

section

variable (versioned : Versioned db) {b si : SnapshotItem} {l : LinkedChat × InventoryItem}
  (hl : l ∈ linked entries chats) (hb : b ∈ db.items) (hbl : inheritedBy base b l = true)
  (hsi : si ∈ db.snapshotItemsEffective source) (hc : captures si l = true)

include versioned hb hbl hsi hc

theorem key_of_inheritedBy : b.key = si.key := by
  obtain ⟨-, id, version, -⟩ := inheritedBy_iff.mp hbl
  obtain ⟨id', version'⟩ := captures_iff.mp hc
  exact versioned.key_eq hb (mem_effective.mp hsi).1 (by simp [version]) (id.trans id'.symm)
    (version.trans version'.symm)

theorem carried_eq_iff (now : Time) : (carried now l.1 si).toPayload = b.toPayload ↔
    b.parentExternalId = si.parentExternalId ∧ b.backendId = si.backendId := by
  obtain ⟨-, id, version, folder⟩ := inheritedBy_iff.mp hbl
  obtain ⟨id', version'⟩ := captures_iff.mp hc
  have hsi := (mem_effective.mp hsi).1
  have content := versioned.content b hb si hsi (by simp [version]) (id.trans id'.symm)
    (version.trans version'.symm)
  constructor
  · intro same
    exact ⟨(congrArg Payload.parentExternalId same).symm, (congrArg Payload.backendId same).symm⟩
  · rintro ⟨parent, backend⟩
    have unindexed := versioned.unindexed si hsi (by simp [version'])
    rw [← content, placed, parent, backend, folder, carried, ← unindexed]

include hl in
/-- The base row that an entry inherits shows in the overlay. -/
theorem inherited_of_linked (keys : db.Keyed)
    (built : Built db db' now tsid source base entries chats expected)
    (distinct : ((carriedRows now' db source (linked entries chats)).map (·.key)).Nodup)
    (fresh : ¬ db.owns tsid si.key = true) : db'.inherited tsid base b = true := by
  have hbs := (inheritedBy_iff.mp hbl).1
  have key := key_of_inheritedBy versioned hb hbl hsi hc
  have notOwned : ¬ db'.owns tsid b.key = true := by
    rw [owns_iff_held, built.held]
    rintro ⟨p, hp | ⟨⟨j, hj, rfl⟩, -⟩, hk⟩
    · exact fresh (owns_iff_held.mpr ⟨p, hp, hk.trans key⟩)
    · obtain ⟨l', hl', si', hsi', hc', rfl⟩ := mem_carriedRows.mp hj
      obtain ⟨hl', notIn⟩ := mem_filter.mp hl'
      obtain rfl : l = l' := linked_eq_of_key distinct hl hl' hsi hsi' hc hc'
        (key.symm.trans hk.symm)
      rw [show inBase db base l = true from any_eq_true.mpr ⟨b, hb, hbl⟩] at notIn
      cases notIn
  refine inherited_chat hbs (built.chat b hb hbs) notOwned ?_
  rw [built.removed]
  rintro ⟨b', hb', hbs', -, none, hk⟩
  have keys' : (db'.items.map SnapshotItem.uniqueKey).Nodup := built.items ▸ nodup_copyInto keys
  obtain rfl : b' = b := eq_of_owner_key keys' hb' ((built.mem_items hbs).mpr hb)
    (hbs'.trans hbs.symm) hk
  exact none ⟨l, hl, hbl⟩

end

/-- Unchanged chats published as an overlay give the target the rows a copy would have given it. -/
theorem shown_iff_copied (keys : db.Keyed) (versioned : Versioned db)
    (built : Built db db' now tsid source base entries chats expected)
    (agree : Agree db source base entries chats)
    (h : copyLinked now' tsid source entries chats expected db = .ok db'') (q : Payload) :
    (∃ i ∈ db'.snapshotItemsEffective tsid, i.toPayload = q) ↔
      ∃ i ∈ db''.items.filter (·.snapshotId = tsid), i.toPayload = q := by
  obtain ⟨distinct, fresh, count, rfl⟩ := copyLinked_ok h
  obtain ⟨t, ht, root, hbase⟩ := built.target
  set rowsC := carriedRows now' db source (linked entries chats)
  have copied : (∃ i ∈ (db.copyInto tsid rowsC).items.filter (·.snapshotId = tsid),
      i.toPayload = q) ↔ q ∈ db.held tsid ∪ {p | (∃ j ∈ rowsC, j.toPayload = p) ∧
        ¬ db.owns tsid p.key = true} := by
    rw [← held_copyInto distinct]
    simp [Db.held, and_assoc]
  refine (shown_overlay ht root hbase).trans (Iff.trans ?_ copied.symm)
  rw [built.held]
  constructor
  · rintro ((hq | ⟨⟨j, hj, rfl⟩, hfresh⟩) | ⟨b, hb, inh, rfl⟩)
    · exact .inl hq
    · obtain ⟨l, hl, si, hsi, hc, rfl⟩ := mem_carriedRows.mp hj
      exact .inr ⟨⟨carried now' l.1 si, mem_carriedRows.mpr
        ⟨l, (mem_filter.mp hl).1, si, hsi, hc, rfl⟩, rfl⟩, hfresh⟩
    · obtain ⟨hbs, -, notOwned, notRemoved, -⟩ := inherited_iff.mp inh
      obtain ⟨l, hl, hbl⟩ : ∃ l ∈ linked entries chats, inheritedBy base b l = true := by
        by_contra none
        exact notRemoved ((built.removed _).mpr ⟨b, hb, hbs, notOwned, none, rfl⟩)
      have hb := (built.mem_items hbs).mp hb
      obtain ⟨si, hsi, hc⟩ := captured_of_inBase keys versioned built count hl
        (any_eq_true.mpr ⟨b, hb, hbl⟩)
      have hr : carried now' l.1 si ∈ rowsC := mem_carriedRows.mpr ⟨l, hl, si, hsi, hc, rfl⟩
      rw [← (carried_eq_iff versioned hb hbl hsi hc now').mpr
        (agree l hl b hb hbl si hsi hc)]
      exact .inr ⟨⟨_, hr, rfl⟩, ne_true_of_eq_false (fresh _ hr)⟩
  · rintro (hq | ⟨⟨j, hj, rfl⟩, hfresh⟩)
    · exact .inl (.inl hq)
    · obtain ⟨l, hl, si, hsi, hc, rfl⟩ := mem_carriedRows.mp hj
      cases hin : inBase db base l with
      | false =>
        have ho : l ∈ (linked entries chats).filter fun l => !inBase db base l :=
          mem_filter.mpr ⟨hl, by rw [hin]; rfl⟩
        exact .inl (.inr ⟨⟨carried now l.1 si, mem_carriedRows.mpr ⟨l, ho, si, hsi, hc, rfl⟩, rfl⟩,
          hfresh⟩)
      | true =>
        obtain ⟨b, hb, hbl⟩ := any_eq_true.mp hin
        rw [(carried_eq_iff versioned hb hbl hsi hc now').mpr
        (agree l hl b hb hbl si hsi hc)]
        exact .inr ⟨b, (built.mem_items (inheritedBy_iff.mp hbl).1).mpr hb,
          inherited_of_linked versioned hl hb hbl hsi hc keys built distinct hfresh, rfl⟩

theorem agree_of_shown (keys : db.Keyed) (versioned : Versioned db)
    (built : Built db db' now tsid source base entries chats expected)
    (h : copyLinked now' tsid source entries chats expected db = .ok db'')
    (shown : ∀ i ∈ db'.snapshotItemsEffective tsid,
      ∃ j ∈ db''.items.filter (·.snapshotId = tsid), j.toPayload = i.toPayload) :
    Agree db source base entries chats := by
  intro l hl b hb hbl si hsi hc
  obtain ⟨distinct, fresh, -, rfl⟩ := copyLinked_ok h
  obtain ⟨t, ht, root, hbase⟩ := built.target
  have hr : carried now' l.1 si ∈ carriedRows now' db source (linked entries chats) :=
    mem_carriedRows.mpr ⟨l, hl, si, hsi, hc, rfl⟩
  have hfresh : ¬ db.owns tsid (carried now' l.1 si).key = true := ne_true_of_eq_false (fresh _ hr)
  have inherited := inherited_of_linked versioned hl hb hbl hsi hc keys built distinct hfresh
  obtain ⟨i, hi, same⟩ := (shown_overlay ht root hbase).mpr
    (.inr ⟨b, (built.mem_items (inheritedBy_iff.mp hbl).1).mpr hb, inherited, rfl⟩)
  obtain ⟨j, hj, same'⟩ := shown i hi
  have held : (carried now' l.1 si).toPayload ∈
      (db.copyInto tsid (carriedRows now' db source (linked entries chats))).held tsid := by
    rw [held_copyInto distinct]
    exact .inr ⟨⟨_, hr, rfl⟩, hfresh⟩
  obtain ⟨c, hc', hcs, copied⟩ := held
  have key : c.key = j.key := by
    rw [copied, same', same]
    exact (key_of_inheritedBy versioned hb hbl hsi hc).symm
  obtain rfl := eq_of_key (nodup_keys_held (nodup_copyInto keys) tsid)
    (mem_filter.mpr ⟨hc', by simpa using hcs⟩) hj key
  exact (carried_eq_iff versioned hb hbl hsi hc now').mp (copied.symm.trans (same'.trans same))

theorem effective_copyLinked (ready : Mail.Ready db)
    (laid : overlayUnchanged now tsid source entries chats expected limits db = .ok db')
    (copied : copyLinked now' tsid source entries chats expected db = .ok db'') :
    db''.snapshotItemsEffective tsid = db''.items.filter (·.snapshotId = tsid) := by
  obtain ⟨-, -, -, rfl⟩ := copyLinked_ok copied
  obtain ⟨t, ht, -⟩ := of_bind laid
  obtain ⟨ht, full⟩ := Option.filter_eq_some_iff.mp (orFail_eq_ok.mp ht)
  simp only [Mail.inProgressFull, Bool.and_eq_true, decide_eq_true_eq] at full
  have root := ready.columns t (mem_of_find?_eq_some ht) full.1.1.2
  have ht' : (db.copyInto tsid (carriedRows now' db source (linked entries chats))).snapshot? tsid =
      some t := ht
  rw [effective_of_root ht' root, full.1.2, append_nil]

end

section

variable {db : Db} {sid : Uuid}

theorem ne_base_of_ready (ready : Mail.Ready db)
    (hs : db.snapshot? sid = some s) (hbase : s.overlayBaseId = some base) : base ≠ sid := by
  have hmem := mem_of_find?_eq_some hs
  rintro rfl
  have := (ready.wf.overlay s hmem base hbase s hmem (snapshot?_id hs)).2
  rw [hbase] at this
  cases this

theorem compactChatOverlay_eq (hs : db.snapshot? sid = some s)
    (hbase : s.overlayBaseId = some base) :
    compactChatOverlay sid db = dropRepeated sid base db := by
  rw [compactChatOverlay, hs, Option.bind_some, hbase]

theorem compactChatOverlay_idem (ready : Mail.Ready db) :
    compactChatOverlay sid (compactChatOverlay sid db) = compactChatOverlay sid db := by
  cases hbase : (db.snapshot? sid).bind (·.overlayBaseId) with
  | none => simp only [compactChatOverlay, hbase]
  | some base =>
    obtain ⟨s, hs, hb⟩ := Option.bind_eq_some_iff.mp hbase
    have again : (dropRepeated sid base db).snapshot? sid = some s := hs
    rw [compactChatOverlay_eq hs hb, compactChatOverlay_eq again hb,
      dropRepeated_idem (ne_base_of_ready ready hs hb)]

/-- Unchanged chats laid over the source show what a copy of them holds, exactly when what they inherit
stands in the base as in the source. Compaction changes nothing that shows, is idempotent, and leaves no
own row that the base repeats. -/
theorem unchanged_chats_laid_and_compacted (ready : Mail.Ready db) (versioned : Versioned db) :
    (∀ {now now' : Time} {tsid source base : Uuid} {entries : List InventoryItem}
        {chats : List LinkedChat} {expected : Nat} {limits : Limits} {db' db'' : Db},
      overlayUnchanged now tsid source entries chats expected limits db = .ok db' →
      copyLinked now' tsid source entries chats expected db = .ok db'' →
      baseOf db source = some base →
        (((db'.snapshotItemsEffective tsid).map (·.toPayload)).Perm
          ((db''.snapshotItemsEffective tsid).map (·.toPayload)) ↔
            Agree db source base entries chats)) ∧
    (∀ sid, compactChatOverlay sid (compactChatOverlay sid db) = compactChatOverlay sid db) ∧
    ∀ {sid base : Uuid} {s : Snapshot}, db.snapshot? sid = some s → s.overlayBaseId = some base →
      (((compactChatOverlay sid db).snapshotItemsEffective sid).map (·.toPayload)).Perm
        ((db.snapshotItemsEffective sid).map (·.toPayload)) ∧
      ∀ o ∈ (compactChatOverlay sid db).items, o.snapshotId = sid →
        repeatsBase sid base (compactChatOverlay sid db) o = false ∧
        ∀ b ∈ (compactChatOverlay sid db).items, b.key = o.key →
          (compactChatOverlay sid db).inherited sid base b = false := by
  have keys := ready.wf.item_keys
  refine ⟨?_, fun sid => compactChatOverlay_idem ready, ?_⟩
  · intro now now' tsid source base entries chats expected limits db' db'' laid copied hbase
    obtain ⟨base', hbase', built⟩ := overlayUnchanged_ok ready laid
    obtain rfl : base' = base := Option.some.inj (hbase'.symm.trans hbase)
    have keys' : (db'.items.map SnapshotItem.uniqueKey).Nodup := built.items ▸ nodup_copyInto keys
    rw [effective_copyLinked ready laid copied]
    constructor
    · intro perm
      refine agree_of_shown keys versioned built copied fun i hi => ?_
      exact mem_map.mp (perm.subset (mem_map_of_mem hi))
    · intro agree
      obtain ⟨-, -, -, hdb''⟩ := copyLinked_ok copied
      exact perm_of_same_items (nodup_keys_inventory keys')
        (nodup_keys_held (hdb'' ▸ nodup_copyInto keys) tsid) id (fun _ => rfl)
        (shown_iff_copied keys versioned built agree copied)
  · intro sid base s hs hbase
    have base_ne := ne_base_of_ready ready hs hbase
    have root : s.reuseChainRootId = none := by
      cases hr : s.reuseChainRootId with
      | none => rfl
      | some r =>
        have := (ready.wf.pointer s (mem_of_find?_eq_some hs) r hr).1
        rw [hbase] at this
        cases this
    rw [compactChatOverlay_eq hs hbase]
    have keys' : ((dropRepeated sid base db).items.map SnapshotItem.uniqueKey).Nodup :=
      keys.sublist (filter_sublist.map _)
    refine ⟨perm_of_same_items (nodup_keys_inventory keys') (nodup_keys_inventory keys)
      id (fun _ => rfl) (shown_dropRepeated keys base_ne versioned hs root hbase), fun o ho hos => ?_⟩
    refine ⟨not_repeatsBase_dropRepeated base_ne ho, fun b _ key => ?_⟩
    rw [← Bool.not_eq_true, inherited_iff]
    rintro ⟨-, -, notOwned, -⟩
    exact notOwned (owns_iff_held.mpr ⟨o.toPayload, ⟨o, ho, hos, rfl⟩, key.symm⟩)

end

def messageRow (id snapshotId : Uuid) (message : String) (version : Uuid) (chat : String)
    (backend : Uuid := 1) : SnapshotItem where
  id := id
  snapshotId := snapshotId
  itemType := .teamsChatMessage
  externalId := message
  folderPath := some chat
  backendId := backend
  chatVersionId := some version

/-- A third run over an overlay that edited "b:1" and owns "a:2" as its base does. Chats "a" and "b"
are unchanged since, and this run listed "c" anew. -/
def editedChats : Db where
  snapshots :=
    [{ id := 1, resourceId := 0, status := some .completed, createdAt := some 10 },
      { id := 2, resourceId := 0, status := some .completed, createdAt := some 20,
        overlayBaseId := some 1 },
      { id := 3, resourceId := 0, createdAt := some 30 }]
  items :=
    [messageRow 10 1 "a:1" 100 "chats/a", messageRow 11 1 "a:2" 101 "chats/a",
      messageRow 12 1 "b:1" 102 "chats/b", messageRow 13 1 "c:1" 103 "chats/c",
      messageRow 14 2 "b:1" 104 "chats/b", messageRow 15 2 "a:2" 101 "chats/a",
      messageRow 16 3 "c:1" 105 "chats/c"]
  nextUuid := 20

def editedEntries : List InventoryItem := [⟨50, "a:1", 100⟩, ⟨50, "a:2", 101⟩, ⟨51, "b:1", 104⟩]

def unchangedChats : List LinkedChat := [⟨50, "chats/a"⟩, ⟨51, "chats/b"⟩]

theorem editedChats_laid_and_compacted :
    ∃ db' db'', overlayUnchanged 40 3 2 editedEntries unchangedChats 3 { maxRatio := 2 } editedChats =
        .ok db' ∧
      copyLinked 40 3 2 editedEntries unchangedChats 3 editedChats = .ok db'' ∧
      ((db'.snapshotItemsEffective 3).map (·.toPayload)).Perm
        ((db''.snapshotItemsEffective 3).map (·.toPayload)) ∧
      (compactChatOverlay 2 editedChats).items.length = 6 ∧
      (((compactChatOverlay 2 editedChats).snapshotItemsEffective 2).map (·.toPayload)).Perm
        ((editedChats.snapshotItemsEffective 2).map (·.toPayload)) := by
  have ready : Mail.Ready editedChats := by decide +kernel
  obtain ⟨same, -, compacted⟩ := unchanged_chats_laid_and_compacted ready (by decide +kernel)
  have laid : (overlayUnchanged 40 3 2 editedEntries unchangedChats 3 { maxRatio := 2 }
    editedChats).toOption.isSome = true := by decide +kernel
  have copied : (copyLinked 40 3 2 editedEntries unchangedChats 3 editedChats).toOption.isSome =
    true := by decide +kernel
  obtain ⟨db', laid⟩ := Option.isSome_iff_exists.mp laid
  obtain ⟨db'', copied⟩ := Option.isSome_iff_exists.mp copied
  rw [toOption_eq_some] at laid copied
  refine ⟨db', db'', laid, copied, (same laid copied rfl).mpr (by decide +kernel),
    by decide +kernel, ?_⟩
  exact (compacted (s := { id := 2, resourceId := 0, status := some .completed,
                           createdAt := some 20, overlayBaseId := some 1 }) (by decide +kernel)
    rfl).1

/-- Storage moved to backend 2 after the base. The overlay read chat "a" anew for an edit of "a:2", so
its row of "a:1", which did not change, names the new backend. -/
def movedChats : Db where
  snapshots := editedChats.snapshots
  items :=
    [messageRow 10 1 "a:1" 100 "chats/a", messageRow 11 1 "a:2" 101 "chats/a",
      messageRow 12 2 "a:1" 100 "chats/a" 2, messageRow 13 2 "a:2" 102 "chats/a" 2]
  nextUuid := 20

theorem movedChats_differ : Mail.Ready movedChats ∧ Versioned movedChats ∧
    (overlayUnchanged 40 3 2 [⟨50, "a:1", 100⟩, ⟨50, "a:2", 102⟩] [⟨50, "chats/a"⟩] 2 { maxRatio := 2 }
        movedChats).toOption.map (fun db =>
          (db.snapshotItemsEffective 3).map fun i => (i.externalId, i.backendId)) =
      some [("a:2", 2), ("a:1", 1)] ∧
    (copyLinked 40 3 2 [⟨50, "a:1", 100⟩, ⟨50, "a:2", 102⟩] [⟨50, "chats/a"⟩] 2
        movedChats).toOption.map (fun db =>
          (db.snapshotItemsEffective 3).map fun i => (i.externalId, i.backendId)) =
      some [("a:1", 2), ("a:2", 2)] := by
  decide +kernel

end TmVault.Chats
