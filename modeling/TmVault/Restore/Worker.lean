import TmVault.Authz.Principal
import TmVault.Restore.Chats

namespace TmVault.Restore

open Relational Store Authz

def fetchRequest (spec : JobSpec) : FetchRequest where
  snapshotIds := spec.snapshotIds
  itemIds := spec.itemIds
  folderPaths := spec.folderPaths
  excludedItemIds := spec.excludedItemIds

def workloadItemTypes : String → List String
  | "Mail" => ["EMAIL", "EMAIL_ATTACHMENT"]
  | "OneDrive" => ["FILE", "ONEDRIVE_FILE", "FILE_VERSION"]
  | "Contacts" => ["USER_CONTACT"]
  | "Calendar" => ["CALENDAR_EVENT", "EVENT_ATTACHMENT"]
  | "Chats" => ["TEAMS_MESSAGE", "TEAMS_MESSAGE_REPLY", "TEAMS_CHAT_MESSAGE"]
  | "Archive" => ["ARCHIVE_ITEM"]
  | _ => []

def resourceTypesFor : String → List ResourceType
  | "EMAIL" => [.userMail, .mailbox, .sharedMailbox, .roomMailbox, .m365Group]
  | "CALENDAR_EVENT" => [.userCalendar, .m365Group]
  | "USER_CONTACT" => [.userContacts]
  | "ARCHIVE_ITEM" => [.userArchive]
  | "ONEDRIVE_FILE" => [.userOnedrive, .onedrive]
  | "FILE" => [.userOnedrive, .onedrive, .sharepointSite]
  | _ => []

/-- The item types whose resources a PST export also covers: those asked for, and the files of the
workloads that do not become a PST. -/
def neededTypes (spec : JobSpec) : List String :=
  spec.pstIncludeTypes ++ (spec.workloads.filter
    (· ∉ ["Mail", "Contacts", "Calendar", "Archive"])).flatMap workloadItemTypes

def resource? (db : Db) (id : Uuid) : Option Resource := db.resources.find? (·.id = id)

def pickedResource (db : Db) (spec : JobSpec) : Option Resource :=
  (firstId spec.snapshotIds).bind fun sid => (db.snapshot? sid).bind fun s => resource? db s.resourceId

def pstSiblings (db : Db) (spec : JobSpec) : List Resource :=
  match pickedResource db spec with
  | none => []
  | some picked =>
    let parent := picked.parentResourceId.getD picked.id
    db.resources.filter fun sib =>
      (sib.parentResourceId = some parent || sib.id = parent) &&
        sib.type ∈ (neededTypes spec).flatMap resourceTypesFor && sib.id ≠ picked.id

def addedSnapshots (db : Db) (spec : JobSpec) : List Uuid :=
  (db.snapshots.filter (·.resourceId ∈ (pstSiblings db spec).map (·.id))).map (·.id)

def streamSiblingIds (db : Db) (picks : List Uuid) : List Uuid :=
  let ids := (pickedRows db picks).flatMap (siblingsOf db)
  if ids = [] then picks else ids

def seriesMasters (db : Db) (sids ids : List Uuid) : List Uuid :=
  let masters := (db.items.filter fun i => i.id ∈ ids && i.itemType = .calendarEvent).filterMap
    fun i => i.metadata.seriesMasterId.filter (· ≠ "")
  (db.items.filter fun i =>
    i.snapshotId ∈ sids && i.itemType = .calendarEvent && i.externalId ∈ masters).map (·.id)

/-- `stream_snapshot_items_by_group`, all batches together; its cursor starts past the empty id. -/
def streamRows (db : Db) (picks ids excluded : List Uuid) (folderPaths itemTypes : List String) :
    List SnapshotItem :=
  let sids := streamSiblingIds db picks
  let rows := db.items.filter fun i =>
    i.snapshotId ∈ sids && (db.snapshot? i.snapshotId).isSome && i.externalId ≠ "" &&
      (itemTypes = [] || i.itemType.name ∈ itemTypes)
  let ids := if ids = [] then [] else ids ++ seriesMasters db sids ids
  (newestPerItem db (select (selectionClause ids folderPaths) rows)).filter fun i =>
    i.id ∉ excluded && !isFileTombstone i

def countSnapshotItems (db : Db) (req : FetchRequest) : Except FetchError Nat := do
  if req.direct then
    let ids ← parseIds req.itemIds
    .ok (db.items.filter (·.id ∈ ids)).length
  else if req.snapshotIds = [] then .ok 0
  else
    let picks ← parseIds req.snapshotIds
    let ids ← parseIds req.itemIds
    let clause := selectionClause ids req.folderPaths
    .ok ((select clause (chatRows db (pickedCatalogues db picks))).length +
      (selectSiblings db picks clause).length)

def pstRows (db : Db) (spec : JobSpec) : Except FetchError (List SnapshotItem) := do
  let picked ← parseIds spec.snapshotIds
  let ids ← parseIds spec.itemIds
  let excluded ← parseIds spec.excludedItemIds
  let picks := picked ++ addedSnapshots db spec
  let attachments := if spec.snapshotIds = [] then []
    else streamRows db picks [] [] [] ["EMAIL_ATTACHMENT", "ARCHIVE_ATTACHMENT"]
  .ok (attachments ++ streamRows db picks ids excluded spec.folderPaths
    (spec.workloads.flatMap workloadItemTypes))

def catalogueChildren (db : Db) (snapshotIds : List String) (rows : List SnapshotItem) :
    List SnapshotItem :=
  match parseIds snapshotIds with
  | .error _ => []
  | .ok requested =>
    let rows := readBack db requested rows
    rows ++ childRows db (catalogueIds db rows) rows

def chatOf (spec : JobSpec) : Option String := spec.chatId.filter (· ≠ "")

def fetchedRows (aliases : Aliases) (db : Db) (spec : JobSpec) :
    Except FetchError (List SnapshotItem) :=
  match chatOf spec with
  | none => selectedRows db (fetchRequest spec)
  | some chat => do
    let (messages, children) ← orFail .chatSelection
      (chatSelection aliases db chat (fetchRequest spec))
    let excluded ← parseIds spec.excludedItemIds
    .ok ((messages ++ children).filter (·.id ∉ excluded))

/-- What the selection of a chat adds to its messages. -/
def chatChildren (aliases : Aliases) (db : Db) (spec : JobSpec) : List SnapshotItem :=
  ((chatOf spec).bind fun chat => chatSelection aliases db chat (fetchRequest spec)).elim [] Prod.snd

def rowsRead (aliases : Aliases) (db : Db) (spec : JobSpec) :
    Except FetchError (List SnapshotItem) := do
  if spec.restoreType = "EXPORT_PST" then
    let count ← countSnapshotItems db (fetchRequest spec)
    if count = 0 then .error .nothingToRestore else pstRows db spec
  else
    let rows ← fetchedRows aliases db spec
    .ok (rows ++ catalogueChildren db spec.snapshotIds rows)

def ownerOf (db : Db) (i : SnapshotItem) : Option Uuid := (db.snapshot? i.snapshotId).map (·.resourceId)

def resourcesOf (db : Db) (rows : List SnapshotItem) : List Uuid :=
  (rows ++ db.items.filter (·.id ∈ rows.map (·.id))).filterMap (ownerOf db)

def getTarget (db : Db) (value : Option String) : Option Resource :=
  if isSet value then (Text.parseUuid (value.getD "").toList).bind (resource? db) else none

def crossUserKey (dest : Destinations) : Option String :=
  if isSet dest.targetUserId then dest.targetUserId else dest.targetResourceId

def usable (res : Resource) : Bool := res.status ∈ [some .active, some .discovered]

def crossUserById (db : Db) (dest : Destinations) : Option Resource :=
  (Text.parseUuid ((crossUserKey dest).getD "").toList).bind fun id =>
    db.resources.find? fun res => res.id = id && usable res

def crossUserFallback (db : Db) (dest : Destinations) : Option Resource :=
  if (crossUserById db dest).isSome || !isSet (crossUserKey dest) then none
  else db.resources.find? fun res => some res.externalId = crossUserKey dest && usable res

def crossUserTarget (db : Db) (dest : Destinations) : Option Resource :=
  (if isSet (crossUserKey dest) then crossUserById db dest else none).or (crossUserFallback db dest)

def inPlaceTargets (db : Db) (dest : Destinations) (res : Resource) : List Resource :=
  let site := if res.type = .sharepointSite && !isSet dest.newSiteName &&
      dest.targetResourceId ≠ some (idText res.id) then getTarget db dest.targetResourceId else none
  let drive := if res.type ∈ [.onedrive, .userOnedrive] then getTarget db dest.targetUserId else none
  res :: (site.toList ++ drive.toList)

def destinations (db : Db) (spec : JobSpec) (rows : List SnapshotItem) : List Resource :=
  match spec.restoreType with
  | "IN_PLACE" => ((resourcesOf db rows).filterMap (resource? db)).flatMap
      (inPlaceTargets db spec.destinations)
  | "CROSS_USER" => (crossUserTarget db spec.destinations).toList
  | "CROSS_RESOURCE" => (getTarget db spec.destinations.targetResourceId).toList
  | _ => []

open List

/-- Primary keys, and pointers and overlays that stay within their resource, as the triggers of
`snapshots` enforce. -/
structure Coherent (db : Db) : Prop where
  item_ids : (db.items.map (·.id)).Nodup
  snapshot_ids : (db.snapshots.map (·.id)).Nodup
  same_resource : ∀ s ∈ db.snapshots, ∀ t ∈ db.snapshots,
    s.reuseChainRootId = some t.id ∨ s.overlayBaseId = some t.id → t.resourceId = s.resourceId

instance (db : Db) : Decidable (Coherent db) :=
  decidable_of_iff (_ ∧ _ ∧ _) ⟨fun ⟨a, b, c⟩ => ⟨a, b, c⟩, fun ⟨a, b, c⟩ => ⟨a, b, c⟩⟩

def Owned (db : Db) (P : Uuid → Prop) (i : SnapshotItem) : Prop :=
  ∀ rid, (ownerOf db i = some rid ∨ ∃ j ∈ db.items, j.id = i.id ∧ ownerOf db j = some rid) → P rid

def Covers (db : Db) (P : Uuid → Prop) (sid : Uuid) : Prop :=
  ∀ s, db.snapshot? sid = some s → P s.resourceId

variable {db : Db} {P : Uuid → Prop} {i : SnapshotItem} {sid : Uuid} {picks : List Uuid}

theorem forall_resourcesOf : (∀ rid ∈ resourcesOf db rows, P rid) ↔ ∀ i ∈ rows, Owned db P i := by
  simp only [resourcesOf, Owned, mem_filterMap, mem_append, mem_filter, mem_map, decide_eq_true_eq]
  grind

theorem Owned.covers (h : Owned db P i) : Covers db P i.snapshotId := by
  intro s hs
  exact h s.resourceId (.inl (by rw [ownerOf, hs, Option.map_some]))

theorem Covers.owner (h : Covers db P i.snapshotId) (owner : ownerOf db i = some rid) : P rid := by
  obtain ⟨s, hs, rfl⟩ := Option.map_eq_some_iff.mp owner
  exact h s hs

section

variable (coherent : Coherent db) {s : Snapshot}

include coherent

theorem owned_of_stored (stored : i ∈ db.items) (h : Covers db P i.snapshotId) : Owned db P i := by
  rintro rid (owner | ⟨j, hj, same, owner⟩)
  · exact h.owner owner
  · rw [inj_on_of_nodup_map coherent.item_ids hj stored same] at owner
    exact h.owner owner

theorem covers_of_mem (hs : s ∈ db.snapshots) (h : P s.resourceId) : Covers db P s.id := by
  intro s' hs'
  rw [(Db.snapshot?_eq_some coherent.snapshot_ids).mpr ⟨hs, rfl⟩] at hs'
  cases hs'
  exact h

theorem resource_of_picked (h : ∀ sid ∈ picks, Covers db P sid)
    (hs : s ∈ pickedRows db picks) : P s.resourceId := by
  obtain ⟨hs, hid⟩ := mem_filter.mp hs
  exact h s.id (of_decide_eq_true hid) s
    ((Db.snapshot?_eq_some coherent.snapshot_ids).mpr ⟨hs, rfl⟩)

theorem covers_siblingsOf (h : P picked.resourceId)
    (hsid : sid ∈ siblingsOf db picked) : Covers db P sid := by
  obtain ⟨s, hs, rfl⟩ := mem_map.mp hsid
  obtain ⟨hs, sibling⟩ := mem_filter.mp hs
  have resource : s.resourceId = picked.resourceId := by
    simp only [Bool.and_eq_true, decide_eq_true_eq] at sibling
    exact sibling.1.1
  exact covers_of_mem coherent hs (resource ▸ h)

theorem covers_streamSiblingIds (h : ∀ sid ∈ picks, Covers db P sid)
    (hsid : sid ∈ streamSiblingIds db picks) : Covers db P sid := by
  simp only [streamSiblingIds] at hsid
  split at hsid
  · exact h sid hsid
  · obtain ⟨picked, hpicked, hsid⟩ := mem_flatMap.mp hsid
    exact covers_siblingsOf coherent (resource_of_picked coherent h hpicked) hsid

theorem covers_siblingIds (h : ∀ sid ∈ picks, Covers db P sid)
    (hsid : sid ∈ siblingIds db picks) : Covers db P sid := by
  simp only [siblingIds] at hsid
  split at hsid
  · exact h sid hsid
  · obtain ⟨picked, hpicked, hsid⟩ := mem_flatMap.mp hsid
    have hpicked := mem_of_mem_filter hpicked
    exact covers_siblingsOf coherent (resource_of_picked coherent h hpicked) hsid

theorem covers_target (hs : s ∈ db.snapshots) (h : P s.resourceId) :
    Covers db P (s.reuseChainRootId.getD s.id) := by
  cases root : s.reuseChainRootId with
  | none => exact covers_of_mem coherent hs h
  | some t =>
    intro s' hs'
    obtain ⟨mem, rfl⟩ := (Db.snapshot?_eq_some coherent.snapshot_ids).mp hs'
    rw [coherent.same_resource s hs s' mem (.inl root)]
    exact h

theorem covers_resolveTarget (h : Covers db P sid) (ht : db.resolveTarget sid = some t) :
    Covers db P t := by
  obtain ⟨s, hs, rfl⟩ := Option.map_eq_some_iff.mp ht
  exact covers_target coherent (mem_of_find?_eq_some hs) (h s hs)

theorem covers_resolveBase (h : Covers db P sid) (hb : db.resolveBase sid = some b) :
    Covers db P b := by
  obtain ⟨t, ht, hb⟩ := Option.bind_eq_some_iff.mp hb
  obtain ⟨s, hs, base⟩ := Option.bind_eq_some_iff.mp hb
  intro s' hs'
  obtain ⟨mem, rfl⟩ := (Db.snapshot?_eq_some coherent.snapshot_ids).mp hs'
  rw [coherent.same_resource s (mem_of_find?_eq_some hs) s' mem (.inr base)]
  exact covers_resolveTarget coherent h ht s hs

theorem covers_effective (h : Covers db P sid) (hi : i ∈ db.snapshotItemsEffective sid) :
    Covers db P i.snapshotId := by
  obtain ⟨-, t, ht, rfl | ⟨b, hb, inherited⟩⟩ := Db.mem_effective.mp hi
  · exact covers_resolveTarget coherent h ht
  · rw [(Db.inherited_iff.mp inherited).1]
    exact covers_resolveBase coherent h hb

theorem owned_chatRows (h : ∀ sid ∈ ids, Covers db P sid) (hi : i ∈ chatRows db ids) :
    Owned db P i := by
  rw [chatRows] at hi
  split at hi
  · obtain ⟨sid, hsid, hi⟩ := mem_flatMap.mp hi
    obtain ⟨j, hj, rfl⟩ := mem_map.mp hi
    rintro rid (owner | ⟨k, hk, same, owner⟩)
    · exact Covers.owner (h sid hsid) owner
    · have stored := (Db.mem_effective.mp hj).1
      rw [inj_on_of_nodup_map coherent.item_ids hk stored same] at owner
      exact (covers_effective coherent (h sid hsid) hj).owner owner
  · obtain ⟨stored, hid⟩ := mem_filter.mp hi
    exact owned_of_stored coherent stored (h i.snapshotId (of_decide_eq_true hid))

theorem owned_selectSiblings (h : ∀ sid ∈ picks, Covers db P sid)
    (hi : i ∈ selectSiblings db picks clause) : Owned db P i := by
  obtain ⟨stored, sibling⟩ := mem_filter.mp (mem_of_mem_selectSiblings hi)
  simp only [Bool.and_eq_true, decide_eq_true_eq] at sibling
  exact owned_of_stored coherent stored (covers_siblingIds coherent h sibling.1)

theorem covers_pickedCatalogues (h : ∀ sid ∈ picks, Covers db P sid)
    (hsid : sid ∈ pickedCatalogues db picks) : Covers db P sid := by
  obtain ⟨s, hs, rfl⟩ := mem_map.mp (mem_dedup.mp hsid)
  have hs := mem_of_mem_filter hs
  exact covers_target coherent (mem_of_mem_filter hs) (resource_of_picked coherent h hs)

theorem owned_readBack (h : ∀ sid ∈ requested, Covers db P sid) (owned : ∀ i ∈ rows, Owned db P i)
    (hi : i ∈ readBack db requested rows) : Owned db P i := by
  simp only [readBack] at hi
  split at hi
  · obtain ⟨j, hj, rfl⟩ := mem_map.mp hi
    cases own : List.find? _ _ with
    | none => exact owned j hj
    | some o =>
      have mem := mem_of_mem_filter (mem_reverse.mp (mem_of_find?_eq_some own))
      exact owned_chatRows coherent h mem
  · exact owned i hi

theorem owned_childRows (owned : ∀ i ∈ rows, Owned db P i)
    (hi : i ∈ childRows db catalogue rows) : Owned db P i := by
  refine owned_chatRows coherent (fun sid hsid => ?_) (mem_of_mem_filter hi)
  obtain ⟨parent, hparent, rfl⟩ := mem_map.mp (mem_dedup.mp hsid)
  obtain ⟨j, hj, rfl⟩ := mem_map.mp hparent
  exact (owned j (mem_of_mem_filter hj)).covers

theorem owned_streamRows (h : ∀ sid ∈ picks, Covers db P sid)
    (hi : i ∈ streamRows db picks ids excluded folderPaths itemTypes) : Owned db P i := by
  have newest := mem_newestPerKey.mp (mem_of_mem_filter hi)
  have read := mem_of_mem_select (mem_of_mem_filter (argmax_mem newest))
  obtain ⟨stored, sibling⟩ := mem_filter.mp read
  simp only [Bool.and_eq_true, decide_eq_true_eq] at sibling
  exact owned_of_stored coherent stored (covers_streamSiblingIds coherent h sibling.1.1.1)

end

theorem owned_chatMessages (coherent : Coherent db) (h : ∀ sid ∈ picks, Covers db P sid)
    (selected : chatMessages aliases db picks chat path = some messages) (hi : i ∈ messages) :
    Owned db P i := by
  simp only [chatMessages] at selected
  split at selected <;> cases selected
  refine owned_chatRows coherent (fun sid hsid => ?_) (mem_of_mem_filter hi)
  obtain ⟨pick, hpick, rfl⟩ := mem_map.mp (mem_dedup.mp hsid)
  cases target : db.resolveTarget pick with
  | none => exact h pick hpick
  | some t => exact covers_resolveTarget coherent (h pick hpick) target

variable {spec : JobSpec} {aliases : Aliases} (coherent : Coherent db)
  (picked : ∀ picks, parseIds spec.snapshotIds = .ok picks → ∀ sid ∈ picks, Covers db P sid)

include coherent picked

section

variable (named : ∀ ids, parseIds spec.itemIds = .ok ids → ∀ i ∈ db.items, i.id ∈ ids →
  Covers db P i.snapshotId)

include named

theorem owned_selectedRows
    (h : selectedRows db (fetchRequest spec) = .ok rows) : ∀ i ∈ rows, Owned db P i := by
  rw [selectedRows] at h
  split at h
  · obtain ⟨ids, hids, h⟩ := of_bind h
    cases h
    intro i hi
    obtain ⟨stored, hid⟩ := mem_filter.mp hi
    exact owned_of_stored coherent stored (named ids hids i stored (of_decide_eq_true hid))
  split at h
  · cases h
    exact fun i hi => absurd hi not_mem_nil
  · obtain ⟨picks, hpicks, _, _, _, _, h⟩ := of_bind₃ h
    obtain ⟨_, _, h⟩ := of_bind h
    cases h
    intro i hi
    rcases mem_append.mp (mem_of_mem_filter hi) with hi | hi
    · exact owned_selectSiblings coherent (picked picks hpicks) hi
    · exact owned_chatRows coherent
        (fun sid hsid => covers_pickedCatalogues coherent (picked picks hpicks) hsid)
        (mem_of_mem_select hi)

theorem owned_fetchedRows (h : fetchedRows aliases db spec = .ok rows)
    (children : ∀ c ∈ chatChildren aliases db spec, c ∈ rows → ∀ rid ∈ ownerOf db c, P rid) :
    ∀ i ∈ rows, Owned db P i := by
  rw [fetchedRows] at h
  split at h
  · exact owned_selectedRows coherent picked named h
  · rename_i chat hchat
    obtain ⟨⟨messages, added⟩, selected, h⟩ := of_orFail h
    obtain ⟨excluded, -, h⟩ := of_bind h
    cases h
    obtain ⟨picks, hpicks, hmessages, stored⟩ := chatSelection_ok selected
    have hadded : chatChildren aliases db spec = added := by
      rw [chatChildren, hchat, Option.bind_some, selected]
      rfl
    intro i hi
    rcases mem_append.mp (mem_of_mem_filter hi) with message | child
    · exact owned_chatMessages coherent (picked picks hpicks) hmessages message
    · refine owned_of_stored coherent (stored i child) fun s hs => ?_
      refine children i (hadded ▸ child) hi s.resourceId ?_
      rw [ownerOf, hs]
      rfl

theorem owned_rowsRead
    (notPst : spec.restoreType ≠ "EXPORT_PST") (h : rowsRead aliases db spec = .ok rows)
    (children : ∀ c ∈ chatChildren aliases db spec, c ∈ rows → ∀ rid ∈ ownerOf db c, P rid) :
    ∀ i ∈ rows, Owned db P i := by
  rw [rowsRead, if_neg notPst] at h
  obtain ⟨fetched, hfetched, h⟩ := of_bind h
  cases h
  have owned := owned_fetchedRows coherent picked named hfetched fun c hc hi =>
    children c hc (mem_append_left _ hi)
  intro i hi
  rcases mem_append.mp hi with hi | hi
  · exact owned i hi
  · rw [catalogueChildren] at hi
    split at hi
    · cases hi
    · rename_i requested hrequested
      have back {j : SnapshotItem} (hj : j ∈ readBack db requested fetched) : Owned db P j :=
        owned_readBack coherent (picked requested hrequested) owned hj
      rcases mem_append.mp hi with hi | hi
      · exact back hi
      · exact owned_childRows coherent (fun j => back) hi

end

theorem owned_pstRows (pst : spec.restoreType = "EXPORT_PST")
    (h : rowsRead aliases db spec = .ok rows) :
    ∀ i ∈ rows, Owned db (fun rid => P rid ∨ rid ∈ (pstSiblings db spec).map (·.id)) i := by
  rw [rowsRead, if_pos pst] at h
  obtain ⟨_, _, h⟩ := of_bind h
  split at h
  · cases h
  obtain ⟨picks, hpicks, ids, _, excluded, _, h⟩ := of_bind₃ h
  have streamed : ∀ sid ∈ picks ++ addedSnapshots db spec,
      Covers db (fun rid => P rid ∨ rid ∈ (pstSiblings db spec).map (·.id)) sid := by
    intro sid hsid
    rcases mem_append.mp hsid with hsid | hsid
    · exact fun s hs => .inl (picked picks hpicks sid hsid s hs)
    · obtain ⟨s, hs, rfl⟩ := mem_map.mp hsid
      obtain ⟨hs, added⟩ := mem_filter.mp hs
      exact covers_of_mem coherent hs (.inr (of_decide_eq_true added))
  cases h
  intro i hi
  rcases mem_append.mp hi with hi | hi
  · split at hi
    · cases hi
    · exact owned_streamRows coherent streamed hi
  · exact owned_streamRows coherent streamed hi

end TmVault.Restore
