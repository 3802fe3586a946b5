import TmVault.Store.Effective

namespace TmVault.Restore

open Relational Store Text

def likeEscape : Char := '\\'

def blank (path : String) : Bool := strip isSpace path.toList = []

def stripped (path : String) : List Char := (path.toList.reverse.dropWhile (· = '/')).reverse

def prefixAndExactFor (folderPaths : List String) : List (List Char) × List (List Char) :=
  let ticked := (folderPaths.filter (!blank ·)).map stripped
  (ticked.map fun path =>
      if path = [] then ['/', '%'] else escapeLike likeEscape path ++ ['/', '%'],
    ticked.map fun path => if path = [] then ['/'] else path)

def folderClause (folderPaths : List String) (folderPath : Option String) : Bool :=
  folderPath.any fun path =>
    (prefixAndExactFor folderPaths).1.any (fun pattern => like likeEscape pattern path.toList) ||
      path.toList ∈ (prefixAndExactFor folderPaths).2

def InFolder (ticked path : String) : Prop :=
  path.toList = stripped ticked ∧ stripped ticked ≠ [] ∨ stripped ticked ++ ['/'] <+: path.toList

instance (ticked path : String) : Decidable (InFolder ticked path) :=
  inferInstanceAs (Decidable (_ ∨ _))

section

variable {ticked path : String}

theorem like_pattern_iff : like likeEscape (if stripped ticked = [] then ['/', '%']
      else escapeLike likeEscape (stripped ticked) ++ ['/', '%']) path.toList = true ↔
        stripped ticked ++ ['/'] <+: path.toList := by
  have descendants : like likeEscape
      (escapeLike likeEscape (stripped ticked) ++ ['/', '%']) path.toList = true ↔
        stripped ticked ++ ['/'] <+: path.toList :=
    like_descendants (by decide) (by decide) _ _
  split
  case isTrue root =>
    rw [root] at descendants ⊢
    exact descendants
  case isFalse => exact descendants

theorem inFolder_iff :
    InFolder ticked path ↔ path.toList = (if stripped ticked = [] then ['/'] else stripped ticked) ∨
      stripped ticked ++ ['/'] <+: path.toList := by
  rw [InFolder]
  split
  case isTrue root =>
    rw [root]
    constructor
    · exact fun h => .inr (h.resolve_left fun h => h.2 rfl)
    · rintro (h | h)
      · exact .inr (h ▸ List.prefix_rfl)
      · exact .inr h
  case isFalse named => simp [named]

end

theorem folderClause_iff {folderPaths : List String} {folderPath : Option String} :
    folderClause folderPaths folderPath = true ↔
      ∃ path ∈ folderPath, ∃ ticked ∈ folderPaths, blank ticked = false ∧ InFolder ticked path := by
  simp only [folderClause, prefixAndExactFor, Option.any_eq_true, Option.mem_def, Bool.or_eq_true,
    List.any_map, List.any_eq_true, List.mem_filter, Function.comp_apply, like_pattern_iff,
    List.mem_map, Bool.not_eq_true', inFolder_iff]
  grind

structure FetchRequest where
  (snapshotIds itemIds folderPaths excludedItemIds : List String := [])

inductive FetchError
  | malformedId
  | catalogueIntegrity (message : String)
  | nothingToRestore
  | chatSelection
  deriving DecidableEq

def parseIds : List String → Except FetchError (List Uuid)
  | [] => .ok []
  | value :: values =>
    match parseUuid value.toList, parseIds values with
    | some id, .ok ids => .ok (id :: ids)
    | _, _ => .error .malformedId

def fileTombstoneTypes : List ItemType := [.onedriveFile, .file, .calendarEvent, .userContact, .contact]

def isFileTombstone (i : SnapshotItem) : Bool :=
  i.isDeleted.getD false && i.itemType ∈ fileTombstoneTypes

def isCatalogue (s : Snapshot) : Bool := s.extraData.chatInventoryFormat = some "1"

def sqlLe : Option Time → Option Time → Bool
  | some a, some b => a ≤ b
  | _, _ => false

def siblingExcludedStates : List SnapshotStatus := [.failed, .pendingDeletion]

def siblingsOf (db : Db) (picked : Snapshot) : List Uuid :=
  (db.snapshots.filter fun s =>
    s.resourceId = picked.resourceId && sqlLe s.createdAt picked.createdAt &&
      s.status.any (· ∉ siblingExcludedStates)).map (·.id)

def pickedRows (db : Db) (picks : List Uuid) : List Snapshot := db.snapshots.filter (·.id ∈ picks)

/-- The catalogues among the picked snapshots; a backup whose every chat was unchanged reuses the
rows of a full one. -/
def pickedCatalogues (db : Db) (picks : List Uuid) : List Uuid :=
  (((pickedRows db picks).filter isCatalogue).map fun s => s.reuseChainRootId.getD s.id).dedup

def siblingIds (db : Db) (picks : List Uuid) : List Uuid :=
  let ids := ((pickedRows db picks).filter (!isCatalogue ·)).flatMap (siblingsOf db)
  if ids = [] && pickedCatalogues db picks = [] then picks else ids

def siblingRows (db : Db) (picks : List Uuid) : List SnapshotItem :=
  db.items.filter fun i => i.snapshotId ∈ siblingIds db picks && (db.snapshot? i.snapshotId).isSome

def capturedAt (db : Db) (i : SnapshotItem) : WithTop Time :=
  (db.snapshot? i.snapshotId).bind (·.createdAt)

def newestPerItem (db : Db) (rows : List SnapshotItem) : List SnapshotItem :=
  newestPerKey (·.externalId) (capturedAt db) rows

def selectionClause (ids : List Uuid) (folderPaths : List String) : Option (SnapshotItem → Bool) :=
  if ids = [] && folderPaths.all blank then none
  else some fun i => i.id ∈ ids || folderClause folderPaths i.folderPath

def select (clause : Option (SnapshotItem → Bool)) (rows : List SnapshotItem) : List SnapshotItem :=
  match clause with
  | none => rows
  | some clause => rows.filter clause

def selectSiblings (db : Db) (picks : List Uuid) (clause : Option (SnapshotItem → Bool)) :
    List SnapshotItem :=
  (newestPerItem db (select clause (siblingRows db picks))).filter (!isFileTombstone ·)

def resolvesToOverlay (db : Db) (sid : Uuid) : Bool := (db.resolveBase sid).isSome

/-- `chat_rows`: with an overlay among them, each row is labelled with the snapshot it was asked
for. -/
def chatRows (db : Db) (ids : List Uuid) : List SnapshotItem :=
  if ids.any (resolvesToOverlay db) then
    ids.flatMap fun sid => (db.snapshotItemsEffective sid).map fun i => { i with snapshotId := sid }
  else db.items.filter (·.snapshotId ∈ ids)

def requireCatalogueRestorePoint (s : Snapshot) : Except FetchError Unit :=
  if s.status ∉ [some .completed, some .partialRun] || s.extraData.cancelledAt.any (· ≠ "") ||
      s.extraData.finalizeCancelled then
    .error (.catalogueIntegrity "selected catalogue snapshot is failed, cancelled or unavailable")
  else .ok ()

def heldByCatalogue (db : Db) (i : SnapshotItem) : Bool := (db.snapshot? i.snapshotId).any isCatalogue

def catalogueIds (db : Db) (rows : List SnapshotItem) : List Uuid :=
  ((rows.filter (heldByCatalogue db)).map (·.snapshotId)).dedup

/-- Rows of a catalogue outside the request, read back as an overlay's own where one of the
requested snapshots is an overlay that inherits them. -/
def readBack (db : Db) (requested : List Uuid) (rows : List SnapshotItem) : List SnapshotItem :=
  let outside := (catalogueIds db rows).filter (· ∉ requested)
  if outside ≠ [] && requested.any (resolvesToOverlay db) then
    let stray := (rows.filter (·.snapshotId ∈ outside)).map (·.id)
    let own := (chatRows db requested).filter (·.id ∈ stray)
    rows.map fun i => (own.reverse.find? (·.id = i.id)).getD i
  else rows

def messageTypes : List ItemType :=
  [.teamsChatMessage, .other "TEAMS_MESSAGE", .other "TEAMS_MESSAGE_REPLY"]

def childRows (db : Db) (catalogue : List Uuid) (rows : List SnapshotItem) : List SnapshotItem :=
  let parents := (rows.filter fun i => i.snapshotId ∈ catalogue && i.itemType ∈ messageTypes).map
    fun i => (i.snapshotId, i.externalId)
  (chatRows db (parents.map Prod.fst).dedup).filter fun c =>
    c.parentExternalId.any (fun parent => (c.snapshotId, parent) ∈ parents) &&
      c.itemType ∈ [.chatAttachment, .chatHostedContent]

def byId (rows : List SnapshotItem) : List SnapshotItem :=
  (rows.map (·.id)).dedup.filterMap fun id => rows.reverse.find? (·.id = id)

abbrev Hydrate := List SnapshotItem → Except FetchError (List SnapshotItem)

def hydrateAll (hydrate : Hydrate) (rows : List SnapshotItem) :
    Except FetchError (List SnapshotItem) :=
  (chunks 500 rows).foldlM (fun hydrated batch => (hydrated ++ ·) <$> hydrate batch) []

/-- The rows outside every catalogue as they are, the others and the children of the messages among
them hydrated. -/
def hydrateSelection (hydrate : Hydrate) (db : Db) (rows : List SnapshotItem)
    (excludedItemIds : List String) : Except FetchError (List SnapshotItem) := do
  let catalogue := catalogueIds db rows
  (catalogue.filterMap db.snapshot?).forM requireCatalogueRestorePoint
  let excluded ← parseIds excludedItemIds
  let physical := (byId (rows ++ childRows db catalogue rows)).filter fun i =>
    i.snapshotId ∈ catalogue && i.id ∉ excluded
  let hydrated ← hydrateAll hydrate physical
  .ok (rows.filter (·.snapshotId ∉ catalogue) ++ hydrated)

def materializeCatalogueSelection (hydrate : Hydrate) (db : Db) (rows : List SnapshotItem)
    (snapshotIds excludedItemIds : List String) : Except FetchError (List SnapshotItem) :=
  if catalogueIds db rows = [] then .ok rows
  else do
    let requested ← parseIds snapshotIds
    if snapshotIds ≠ [] && (catalogueIds db (readBack db requested rows)).any (· ∉ requested) then
      .error (.catalogueIntegrity "selected catalogue item is outside the requested snapshot scope")
    else hydrateSelection hydrate db (readBack db requested rows) excludedItemIds

def FetchRequest.direct (req : FetchRequest) : Bool :=
  req.itemIds ≠ [] && req.folderPaths = [] && req.excludedItemIds = []

def selectedRows (db : Db) (req : FetchRequest) : Except FetchError (List SnapshotItem) :=
  if req.direct then do
    let ids ← parseIds req.itemIds
    .ok (db.items.filter (·.id ∈ ids))
  else if req.snapshotIds = [] then .ok []
  else do
    let picks ← parseIds req.snapshotIds
    ((pickedRows db picks).filter isCatalogue).forM requireCatalogueRestorePoint
    let ids ← parseIds req.itemIds
    let clause := selectionClause ids req.folderPaths
    let rows := selectSiblings db picks clause ++
      select clause (chatRows db (pickedCatalogues db picks))
    -- an excluded id names a row, not an item
    let excluded ← parseIds req.excludedItemIds
    .ok (rows.filter (·.id ∉ excluded))

def fetchSnapshotItems (hydrate : Hydrate) (db : Db) (req : FetchRequest) :
    Except FetchError (List SnapshotItem) := do
  let rows ← selectedRows db req
  materializeCatalogueSelection hydrate db rows req.snapshotIds req.excludedItemIds

open List

/-- The state of the picked snapshots' resources at their time: the newest row of each item, unless
it records a deletion. -/
def pointInTime (db : Db) (picks : List Uuid) : List SnapshotItem :=
  (newestPerItem db (siblingRows db picks)).filter (!isFileTombstone ·)

variable {db : Db} {picks ids excluded : List Uuid} {folderPaths : List String}
  {restored : List SnapshotItem} {i : SnapshotItem} {hydrate : Hydrate} {snapshotIds : List String}

def Selects (ids : List Uuid) (folderPaths : List String) (i : SnapshotItem) : Prop :=
  (ids = [] ∧ ∀ ticked ∈ folderPaths, blank ticked = true) ∨ i.id ∈ ids ∨
    ∃ path ∈ i.folderPath, ∃ ticked ∈ folderPaths, blank ticked = false ∧ InFolder ticked path

def Steady (db : Db) (picks ids : List Uuid) (folderPaths : List String) : Prop :=
  ∀ i ∈ siblingRows db picks, Selects ids folderPaths i →
    ∀ n ∈ newestPerItem db (siblingRows db picks), n.externalId = i.externalId →
      Selects ids folderPaths n

instance : Decidable (Selects ids folderPaths i) := inferInstanceAs (Decidable (_ ∨ _))

instance : Decidable (Steady db picks ids folderPaths) := inferInstanceAs (Decidable (∀ _ ∈ _, _))

def captured (i : SnapshotItem) : Uuid × Payload := (i.id, i.toPayload)

theorem selectionClause_none (h : selectionClause ids folderPaths = none) :
    Selects ids folderPaths i := by
  rw [selectionClause] at h
  split at h
  · rename_i narrows
    simp only [Bool.and_eq_true, decide_eq_true_eq, all_eq_true] at narrows
    exact .inl narrows
  · cases h

theorem selectionClause_some
    (h : selectionClause ids folderPaths = some p) : p i = true ↔ Selects ids folderPaths i := by
  rw [selectionClause] at h
  split at h
  · cases h
  · rename_i narrows
    cases h
    simp only [Bool.and_eq_true, decide_eq_true_eq, all_eq_true] at narrows
    rw [Selects, or_iff_right narrows, Bool.or_eq_true, decide_eq_true_eq, folderClause_iff]

theorem mem_of_mem_select (h : i ∈ select clause rows) : i ∈ rows := by
  cases clause with
  | none => exact h
  | some p => exact mem_of_mem_filter h

theorem mem_of_mem_selectSiblings (h : i ∈ selectSiblings db picks clause) :
    i ∈ siblingRows db picks := by
  have newest := mem_newestPerKey.mp (mem_of_mem_filter h)
  exact mem_of_mem_select (mem_of_mem_filter (argmax_mem newest))

theorem mem_selectSiblings (nodup : (db.items.map (·.id)).Nodup)
    (steady : Steady db picks ids folderPaths) :
    i ∈ selectSiblings db picks (selectionClause ids folderPaths) ↔
      i ∈ pointInTime db picks ∧ Selects ids folderPaths i := by
  have rows : (siblingRows db picks).Nodup := (nodup.of_map _).filter _
  rw [selectSiblings, pointInTime]
  simp only [mem_filter]
  cases hclause : selectionClause ids folderPaths with
  | none => simp [select, selectionClause_none hclause]
  | some p =>
    rw [select, newestPerItem, mem_newestPerKey_filter rows, selectionClause_some hclause]
    · exact and_right_comm
    · intro r hr hsel n hn
      rw [selectionClause_some hclause] at hsel ⊢
      have same : n.externalId = r.externalId :=
        of_decide_eq_true (mem_filter.mp (argmax_mem hn)).2
      exact steady r hr hsel n (mem_newestPerKey.mpr (same ▸ hn)) same

@[simp] theorem catalogueIds_eq_nil : catalogueIds db rows = [] ↔ ∀ i ∈ rows, heldByCatalogue db i = false := by
  rw [catalogueIds, dedup_eq_nil, map_eq_nil_iff, filter_eq_nil_iff]
  simp

theorem of_mem_catalogueIds (h : sid ∈ catalogueIds db rows) :
    ∃ s, db.snapshot? sid = some s ∧ isCatalogue s = true := by
  obtain ⟨i, hi, rfl⟩ := mem_map.mp (mem_dedup.mp h)
  exact (Option.any_eq_true _ _).mp (mem_filter.mp hi).2

theorem materialize_of_plain (plain : ∀ i ∈ rows, heldByCatalogue db i = false) :
    materializeCatalogueSelection hydrate db rows snapshotIds excludedItemIds = .ok rows := by
  rw [materializeCatalogueSelection, if_pos (catalogueIds_eq_nil.mpr plain)]

theorem captured_of_mem_chatRows (h : i ∈ chatRows db requested) :
    ∃ j ∈ db.items, captured j = captured i := by
  rw [chatRows] at h
  split at h
  · obtain ⟨sid, -, h⟩ := mem_flatMap.mp h
    obtain ⟨j, hj, rfl⟩ := mem_map.mp h
    exact ⟨j, (Db.mem_effective.mp hj).1, rfl⟩
  · exact ⟨i, mem_of_mem_filter h, rfl⟩

theorem captured_readBack (nodup : (db.items.map (·.id)).Nodup) (stored : ∀ i ∈ rows, i ∈ db.items) :
    (readBack db requested rows).map captured = rows.map captured := by
  rw [readBack]
  split
  · rw [map_map]
    apply map_congr_left
    intro i hi
    rw [Function.comp_apply]
    cases own : List.find? _ _ with
    | none => rfl
    | some o =>
      have mem := mem_of_mem_filter (mem_reverse.mp (mem_of_find?_eq_some own))
      have same : o.id = i.id := of_find? own
      obtain ⟨j, hj, read⟩ := captured_of_mem_chatRows mem
      have : j = i := inj_on_of_nodup_map nodup hj (stored i hi)
        ((congrArg Prod.fst read).trans same)
      rw [Option.getD_some, ← read, this]
  · rfl

theorem hydrateSelection_of_plain (plain : catalogueIds db rows = [])
    (h : hydrateSelection hydrate db rows excludedItemIds = .ok restored) : restored = rows := by
  rw [hydrateSelection, plain] at h
  obtain ⟨_, _, _, _, hydrated, nothing, h⟩ := of_bind₃ h
  have : hydrated = [] := by
    rw [filter_eq_nil_iff.mpr (by simp)] at nothing
    cases nothing
    rfl
  cases h
  rw [this, append_nil, filter_eq_self.mpr (by simp)]

theorem captured_materialize (nodup : (db.items.map (·.id)).Nodup)
    (stored : ∀ i ∈ rows, i ∈ db.items) (hreq : parseIds snapshotIds = .ok requested)
    (named : snapshotIds ≠ []) (plain : ∀ s ∈ pickedRows db requested, isCatalogue s = false)
    (h : materializeCatalogueSelection hydrate db rows snapshotIds excludedItemIds = .ok restored) :
    restored.map captured = rows.map captured := by
  rw [materializeCatalogueSelection] at h
  split at h
  · cases h
    rfl
  · rw [hreq] at h
    obtain ⟨_, hreq', h⟩ := of_bind h
    cases hreq'
    split at h
    · cases h
    · rename_i _ inside
      simp only [named, ne_eq, not_false_eq_true, decide_true, Bool.true_and, any_eq_true,
        decide_eq_true_eq, not_exists, not_and, not_not] at inside
      have none : catalogueIds db (readBack db requested rows) = [] := by
        rw [eq_nil_iff_forall_not_mem]
        intro sid hsid
        obtain ⟨s, hs, catalogue⟩ := of_mem_catalogueIds hsid
        have picked : s ∈ pickedRows db requested :=
          mem_filter.mpr ⟨mem_of_find?_eq_some hs, by
            simpa [Db.snapshot?_id hs] using inside sid hsid⟩
        rw [plain s picked] at catalogue
        cases catalogue
      rw [hydrateSelection_of_plain none h, captured_readBack nodup stored]

variable {req : FetchRequest}

@[simp] theorem pointInTime_nil : pointInTime db [] = [] := by
  have nothing : siblingRows db [] = [] := by
    rw [siblingRows, filter_eq_nil_iff]
    simp [siblingIds, pickedRows, pickedCatalogues]
  rw [pointInTime, nothing]
  rfl

theorem selectedRows_siblings (hpicks : parseIds req.snapshotIds = .ok picks)
    (hids : parseIds req.itemIds = .ok ids) (hexcluded : parseIds req.excludedItemIds = .ok excluded)
    (ranged : req.direct = false) (named : req.snapshotIds ≠ [])
    (plain : ∀ s ∈ pickedRows db picks, isCatalogue s = false) : selectedRows db req = .ok
      ((selectSiblings db picks (selectionClause ids req.folderPaths)).filter (·.id ∉ excluded)) := by
  have none : (pickedRows db picks).filter isCatalogue = [] :=
    filter_eq_nil_iff.mpr fun s hs => by simp [plain s hs]
  have empty : select (selectionClause ids req.folderPaths)
      (chatRows db (pickedCatalogues db picks)) = [] := by
    rw [eq_nil_iff_forall_not_mem]
    intro i hi
    have := mem_of_mem_select hi
    simp [pickedCatalogues, none, chatRows] at this
  rw [selectedRows, ranged, if_neg (by simp), if_neg named, hpicks, hids, hexcluded]
  simp only [bind, Except.bind, none, empty, append_nil]
  rfl

def movedReport : Db where
  snapshots := [{ id := 1, resourceId := 7, status := some .completed, createdAt := some 10 },
    { id := 2, resourceId := 7, status := some .completed, createdAt := some 20 }]
  items := [
    { id := 11, snapshotId := 1, itemType := .file, externalId := "report", folderPath := some "/A" },
    { id := 12, snapshotId := 1, itemType := .file, externalId := "draft", folderPath := some "/B" },
    { id := 21, snapshotId := 2, itemType := .file, externalId := "report", folderPath := some "/B" },
    { id := 22, snapshotId := 2, itemType := .file, externalId := "draft", folderPath := some "/B",
      isDeleted := some true }]

def inFolder (folder : String) : FetchRequest where
  snapshotIds := ["00000000-0000-0000-0000-000000000002"]
  folderPaths := [folder]

def exactItem : FetchRequest where
  snapshotIds := ["00000000-0000-0000-0000-000000000002"]
  itemIds := ["0000000000000000000000000000000b"]

section

variable (resources : List Resource)

/-- The one resource of the wanted type under the same user. Several raise inside the lookup, which is
advisory: as with none, the snapshot's own resource is used. -/
def siblingResource (target : ResourceType) (source : Resource) : Option Resource :=
  let user := if source.type = .entraUser then some source.id else source.parentResourceId
  user.bind fun user =>
    match resources.filter fun r => r.parentResourceId = some user && r.type = target with
    | [sibling] => some sibling
    | _ => none

def crossResourceSwap (target : Option ResourceType) (row : Snapshot) : Option Uuid :=
  target.bind fun target =>
    (resources.find? (·.id = row.resourceId)).bind fun source =>
      if source.type = target then none else (siblingResource resources target source).map (·.id)

def startedAt (s : Snapshot) : WithTop Time := s.createdAt

def unionIds (db : Db) (resource : Uuid) (upTo : Option (Option Time)) : List Uuid :=
  (newestFirst startedAt (db.snapshots.filter fun s =>
    s.resourceId = resource && s.status.any (· ∉ [SnapshotStatus.failed, .pendingDeletion]) &&
      upTo.all (sqlLe s.createdAt))).map (·.id)

def resolveSiblingSnapshotIds (db : Db) (target : Option ResourceType) (picked : Uuid) : List Uuid :=
  match db.snapshot? picked with
  | none => [picked]
  | some row =>
    let swap := crossResourceSwap resources target row
    -- another resource's snapshots have times of their own
    let ids := unionIds db (swap.getD row.resourceId)
      (if swap.isSome then none else some row.createdAt)
    let ids :=
      if swap.isNone && picked ∉ ids && row.status ≠ some .pendingDeletion then ids ++ [picked]
      else ids
    if ids = [] then [picked] else ids

def rowCreatedAt (i : SnapshotItem) : WithTop Time := i.createdAt

/-- The `DISTINCT ON` subquery of `_paged_latest_items`: the newest captured row of each item among the
siblings' rows, `clause` being the folder, name and recency filters. -/
def latestItems (db : Db) (siblings : List Uuid) (types : List ItemType)
    (clause : SnapshotItem → Bool) : List SnapshotItem :=
  newestPerKey (·.externalId) rowCreatedAt
    (db.items.filter fun i => i.snapshotId ∈ siblings && i.itemType ∈ types && clause i)

def pagedLatestItems (db : Db) (siblings : List Uuid) (types : List ItemType)
    (clause : SnapshotItem → Bool) (excludeDeleted : Bool) : List SnapshotItem :=
  (latestItems db siblings types clause).filter fun i => !excludeDeleted || i.isDeleted ≠ some true

def onedriveItemTypes : List ItemType := [.file, .onedriveFile, .fileVersion]

def onedriveWinners (db : Db) (picked : Uuid) : List SnapshotItem :=
  latestItems db (resolveSiblingSnapshotIds resources db (some .userOnedrive) picked)
    onedriveItemTypes fun _ => true

def listSnapshotOnedrive (db : Db) (picked : Uuid) : List SnapshotItem :=
  pagedLatestItems db (resolveSiblingSnapshotIds resources db (some .userOnedrive) picked)
    onedriveItemTypes (fun _ => true) true

end

structure OnedrivePoint (resources : List Resource) (db : Db) (picked : Snapshot) : Prop where
  stored : db.snapshot? picked.id = some picked
  dated : sqlLe picked.createdAt picked.createdAt = true
  restorable : picked.status.any (· ∉ siblingExcludedStates) = true
  drive : ∀ r ∈ resources, r.id = picked.resourceId → r.type = .userOnedrive
  plain : ∀ s ∈ db.snapshots, isCatalogue s = false
  held : ∀ i ∈ db.items, (db.snapshot? i.snapshotId).isSome = true
  types : ∀ i ∈ db.items, i.snapshotId ∈ siblingsOf db picked → i.itemType ∈ onedriveItemTypes
  versions : ∀ i ∈ db.items, i.itemType = .fileVersion → i.isDeleted ≠ some true

namespace OnedrivePoint

variable {resources : List Resource} {db : Db} {picked : Snapshot}

section

variable (h : OnedrivePoint resources db picked)

include h

theorem mem_siblingsOf : picked.id ∈ siblingsOf db picked := by
  have mem := mem_of_find?_eq_some h.stored
  refine mem_map.mpr ⟨picked, mem_filter.mpr ⟨mem, ?_⟩, rfl⟩
  simp only [h.dated, h.restorable, decide_true, Bool.and_self]

theorem no_swap : crossResourceSwap resources (some .userOnedrive) picked = none := by
  simp only [crossResourceSwap, Option.bind_some, Option.bind_eq_none_iff]
  intro source found
  have hid := find?_some found
  exact if_pos (h.drive source (mem_of_find?_eq_some found) (of_decide_eq_true hid))

theorem mem_resolve : s ∈ resolveSiblingSnapshotIds resources db (some .userOnedrive) picked.id ↔
      s ∈ siblingsOf db picked := by
  have ids : ∀ t, t ∈ unionIds db picked.resourceId (some picked.createdAt) ↔
      t ∈ siblingsOf db picked := by
    intro t
    simp only [unionIds, mem_map, mem_newestFirst, siblingsOf, siblingExcludedStates,
      mem_filter, Option.all_some, Bool.and_eq_true, and_right_comm]
    rfl
  have own := (ids picked.id).mpr h.mem_siblingsOf
  simp only [resolveSiblingSnapshotIds, h.stored, h.no_swap, Option.getD_none, Option.isSome_none,
    Bool.false_eq_true, if_false, own, not_true_eq_false, decide_false, Bool.and_false,
    Bool.false_and, ne_nil_of_mem own]
  exact ids s

section

variable (unique : (db.snapshots.map (·.id)).Nodup)

include unique

theorem mem_siblingIds : s ∈ siblingIds db [picked.id] ↔ s ∈ siblingsOf db picked := by
  have mem := mem_of_find?_eq_some h.stored
  have rows : ∀ x, x ∈ (pickedRows db [picked.id]).filter (!isCatalogue ·) ↔ x = picked := by
    intro x
    simp only [pickedRows, mem_filter, mem_singleton, decide_eq_true_eq, Bool.not_eq_true']
    constructor
    · rintro ⟨⟨hx, hid⟩, -⟩
      exact inj_on_of_nodup_map unique hx mem hid
    · rintro rfl
      exact ⟨⟨mem, rfl⟩, h.plain x mem⟩
  have ids : ∀ t, t ∈ ((pickedRows db [picked.id]).filter (!isCatalogue ·)).flatMap
      (siblingsOf db) ↔ t ∈ siblingsOf db picked := by
    intro t
    simp only [mem_flatMap, rows, exists_eq_left]
  have some_ := ne_nil_of_mem ((ids picked.id).mpr h.mem_siblingsOf)
  rw [siblingIds, if_neg (by simp [some_])]
  exact ids s

theorem rows_eq : (db.items.filter fun i =>
      i.snapshotId ∈ resolveSiblingSnapshotIds resources db (some .userOnedrive) picked.id &&
        i.itemType ∈ onedriveItemTypes && true) = siblingRows db [picked.id] := by
  apply filter_congr
  intro i hi
  rw [Bool.eq_iff_iff]
  simp only [h.mem_resolve, h.mem_siblingIds unique, h.held i hi, Bool.and_true,
    Bool.and_eq_true, decide_eq_true_eq, and_iff_left_iff_imp]
  exact h.types i hi

theorem hides_alike (hi : i ∈ siblingRows db [picked.id]) :
    (!true || decide (i.isDeleted ≠ some true)) = !isFileTombstone i := by
  obtain ⟨mem, sibling⟩ := mem_filter.mp hi
  rw [Bool.and_eq_true, decide_eq_true_eq, h.mem_siblingIds unique] at sibling
  have type := h.types i mem sibling.1
  have version := h.versions i mem
  simp only [onedriveItemTypes, mem_cons, not_mem_nil, or_false] at type
  rcases type with type | type | type <;> cases deleted : i.isDeleted with
  | none => simp [isFileTombstone, deleted]
  | some d => cases d <;> simp_all [isFileTombstone, fileTombstoneTypes]

end

end

end OnedrivePoint

def Alike (resources : List Resource) (hydrate : Hydrate) (db : Db) (picked : Uuid)
    (req : FetchRequest) : Prop :=
  (∀ i, i ∈ onedriveWinners resources db picked ↔
    i ∈ newestPerItem db (siblingRows db [picked])) ∧
  ∃ restored, fetchSnapshotItems hydrate db req = .ok restored ∧
    ∀ i, i ∈ listSnapshotOnedrive resources db picked ↔ i ∈ restored

def CapturedInOrder (db : Db) (rows : List SnapshotItem) : Prop :=
  ∀ i ∈ rows, ∀ j ∈ rows, i.externalId = j.externalId → capturedAt db i < capturedAt db j →
    ∃ k ∈ rows, k.externalId = i.externalId ∧ rowCreatedAt i < rowCreatedAt k

/-- Recovery ranks rows by their own capture, a restore by their snapshots' start: without ties they
agree exactly when these orders do on the last row of each item. -/
theorem listing_restored_iff {resources : List Resource} {db : Db} {picked : Snapshot}
    (hydrate : Hydrate) (text : String) (named : parseIds [text] = .ok [picked.id])
    (unique : (db.snapshots.map (·.id)).Nodup) (point : OnedrivePoint resources db picked)
    (captures : ∀ i ∈ siblingRows db [picked.id], ∀ j ∈ siblingRows db [picked.id],
      i.externalId = j.externalId → rowCreatedAt i = rowCreatedAt j → i = j)
    (starts : ∀ i ∈ siblingRows db [picked.id], ∀ j ∈ siblingRows db [picked.id],
      i.externalId = j.externalId → capturedAt db i = capturedAt db j → i = j) :
    Alike resources hydrate db picked.id { snapshotIds := [text] } ↔
      CapturedInOrder db (siblingRows db [picked.id]) := by
  have winners : onedriveWinners resources db picked.id =
      newestPerKey (·.externalId) rowCreatedAt (siblingRows db [picked.id]) :=
    congrArg _ (point.rows_eq unique)
  rw [CapturedInOrder, ← newestPerKey_agree captures starts, Alike, winners]
  refine and_iff_left_of_imp fun agree => ?_
  have fetched : fetchSnapshotItems hydrate db { snapshotIds := [text] } =
      .ok (pointInTime db [picked.id]) := by
    have plain : ∀ s ∈ pickedRows db [picked.id], isCatalogue s = false :=
      fun s hs => point.plain s (mem_of_mem_filter hs)
    have parsed : parseIds ({ snapshotIds := [text] } : FetchRequest).snapshotIds = .ok [picked.id] := named
    rw [fetchSnapshotItems, selectedRows_siblings parsed rfl rfl rfl (by simp) plain]
    have all : (selectSiblings db [picked.id] (selectionClause [] [])).filter
        (·.id ∉ ([] : List Uuid)) = pointInTime db [picked.id] :=
      filter_eq_self.mpr (by simp)
    change materializeCatalogueSelection hydrate db (List.filter _ _) _ _ = _
    rw [all]
    refine materialize_of_plain fun i _ => ?_
    cases found : db.snapshot? i.snapshotId with
    | none => simp [heldByCatalogue, found]
    | some s => simp [heldByCatalogue, found, point.plain s (mem_of_find?_eq_some found)]
  refine ⟨_, fetched, fun i => ?_⟩
  rw [listSnapshotOnedrive, pagedLatestItems, pointInTime, mem_filter, mem_filter]
  have same := agree i
  rw [← winners] at same
  refine (and_congr_left fun _ => same).trans (and_congr_right fun newest => ?_)
  have mem := mem_of_mem_filter (argmax_mem (mem_newestPerKey.mp newest))
  rw [point.hides_alike unique mem]

def secondBackup : Snapshot :=
  { id := 2, resourceId := 0, status := some .completed, createdAt := some 20 }

def twoBackups (first : Time) : Db where
  snapshots :=
    [{ id := 1, resourceId := 0, status := some .completed, createdAt := some 10 }, secondBackup]
  items :=
    [{ id := 11, snapshotId := 1, itemType := .onedriveFile, externalId := "f",
        createdAt := some first },
      { id := 21, snapshotId := 2, itemType := .onedriveFile, externalId := "f",
        createdAt := some 25 }]

def restoreSecond : FetchRequest where
  snapshotIds := ["00000000-0000-0000-0000-000000000002"]

/-- The first backup is still writing after the second one: Recovery shows its row, a restore
writes the other. -/
theorem lateRow_listed_not_restored :
    (listSnapshotOnedrive [] (twoBackups 30) 2).map (·.id) = [11] ∧
      ((fetchSnapshotItems .ok (twoBackups 30) restoreSecond).toOption.map
        fun rows => rows.map (·.id)) = some [21] := by
  decide +kernel

theorem twoBackups_restored : Alike [] .ok (twoBackups 15) 2 restoreSecond :=
  (@listing_restored_iff [] (twoBackups 15) secondBackup .ok _ (by decide +kernel) (by decide)
    ⟨by decide, by decide, by decide, by decide, by decide, by decide, by decide, by decide⟩
    (by decide +kernel) (by decide +kernel)).mpr (by unfold CapturedInOrder; decide +kernel)

end TmVault.Restore
