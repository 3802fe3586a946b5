import Mathlib.Data.Prod.Lex
import Mathlib.Data.String.Basic
import TmVault.Restore.Fetch

/-! `chat_restore_items`: the selection of one conversation. -/

namespace TmVault.Restore

open Relational Store List

def truthy (text : Option String) : Option String := text.filter (· ≠ "")

def identity (i : SnapshotItem) (fallback : Option String) : Option String :=
  match truthy i.metadata.chatIdSnake, truthy i.metadata.chatId with
  | some snake, some camel => if snake = camel then some snake else none
  | some id, none | none, some id => some id
  | none, none => fallback

def messageChatId (i : SnapshotItem) : Option String :=
  identity i (if i.itemType ∈ messageTypes.take 2 then truthy i.parentExternalId else none)

section

variable (db : Db)

def parents (i : SnapshotItem) : List SnapshotItem :=
  db.items.filter fun p => p.snapshotId = i.snapshotId &&
    (some p.externalId = i.parentExternalId && p.itemType ∈ messageTypes)

def childChatId (i : SnapshotItem) : Option String :=
  identity i (match ((parents db i).map messageChatId).dedup with
    | [proven] => proven
    | _ => none)

/-- `none` here and below is any of the errors. -/
def filterLegacyChildren (rows : List SnapshotItem) (chat : Option String) :
    Option (List SnapshotItem) :=
  if rows.any fun r => childChatId db r = none then none
  else some (rows.filter fun r => childChatId db r = chat)

def isAvailable (sid : Uuid) : Bool :=
  (db.snapshot? sid).any fun s => s.status.any (· ≠ .pendingDeletion)

def isPublished (chat : String) (sid : Uuid) : Bool :=
  (db.chatInventories.any fun p => p.snapshotId = sid && p.chatId = chat) &&
    (db.snapshot? sid).any isCatalogue

end

def latestFirst : List SnapshotItem → List SnapshotItem := List.insertionSort fun a b =>
  a.createdAt.all fun x => b.createdAt.any (· ≤ x)

def Child (a b : SnapshotItem) : Prop :=
  a.parentExternalId = b.parentExternalId ∧ a.externalId = b.externalId

instance (a b : SnapshotItem) : Decidable (Child a b) := inferInstanceAs (Decidable (_ ∧ _))

def onePerChild (rows : List SnapshotItem) : List SnapshotItem :=
  let best := rows.foldl (fun best r =>
    match best.find? (Child r) with
    | none => best ++ [r]
    | some cur => if truthy cur.blobPath = none && (truthy r.blobPath).isSome then
        best.map fun b => if Child r b then r else b
      else best) []
  best.insertionSort fun a b => toLex (a.parentExternalId.getD "", a.externalId) ≤
    toLex (b.parentExternalId.getD "", b.externalId)

/-- The paths that the presentation and capture tables give a snapshot's chat. -/
abbrev Aliases := Uuid → String → String → Bool

section

variable (aliases : Aliases) (db : Db) (picks : List Uuid) (chat : String)

def chatMessages (path : Option String) : Option (List SnapshotItem) :=
  let ids := (picks.map fun sid => (db.resolveTarget sid).getD sid).dedup
  let rows := (chatRows db ids).filter fun i =>
    i.itemType ∈ messageTypes && messageChatId i = some chat
  if ids ≠ [] && ids.all (isAvailable db) &&
      (ids.all fun s => rows.any (·.snapshotId = s) || isPublished db chat s) &&
      path.all fun p => ids.all fun s =>
        (rows.any fun i => i.snapshotId = s && i.folderPath = some p) || aliases s chat p
    then some rows
  else none

def tenantsOf : List Uuid :=
  ((db.resources.filter fun r => (pickedRows db picks).any (·.resourceId = r.id)).map
    (·.tenantId)).dedup

/-- The children of the messages in any snapshot of the tenant, unless every picked one has the
presentation format. -/
def tenantChildren (messages : List SnapshotItem) : List SnapshotItem :=
  db.items.filter fun i => i.itemType ∈ [.chatAttachment, .chatHostedContent] &&
    i.parentExternalId.any (· ∈ messages.map (·.externalId)) &&
    i.tenantId.all (· ∈ tenantsOf db picks) &&
    ((db.snapshot? i.snapshotId).bind fun s => db.resources.find? (·.id = s.resourceId)).any
      (·.tenantId ∈ tenantsOf db picks) &&
    (i.snapshotId ∈ picks ||
      !(pickedRows db picks).all (·.extraData.chatPresentationFormat = some 1))

/-- The picked snapshots are not all restore points, not of one tenant, or not of one inventory. -/
def refuses : Bool :=
  ((pickedRows db picks).any fun s => requireCatalogueRestorePoint s ≠ .ok ()) ||
    (tenantsOf db picks).length ≠ 1 ||
    (pickedRows db picks).any isCatalogue && (!(pickedRows db picks).all isCatalogue ||
      1 < ((db.chatInventories.filter fun p => p.snapshotId ∈ picks && p.chatId = chat).map
        (·.inventoryId)).dedup.length)

-- a catalogue's children are loaded with its messages, later
def childrenOf (messages : List SnapshotItem) : Option (List SnapshotItem) :=
  if refuses db picks chat then none
  else if (pickedRows db picks).any isCatalogue then some []
  else (filterLegacyChildren db (latestFirst (tenantChildren db picks messages)) (some chat)).map
    fun children => onePerChild (children.filter (·.itemType = .chatAttachment)) ++
      onePerChild (children.filter (·.itemType = .chatHostedContent))

/-- The messages of the chat and their children; `none` is any of the errors. -/
def chatSelection (req : FetchRequest) : Option (List SnapshotItem × List SnapshotItem) :=
  if req.itemIds ≠ [] || 1 < req.folderPaths.length then none
  else do
    let picks ← (parseIds req.snapshotIds).toOption
    let messages ← chatMessages aliases db picks chat req.folderPaths.head?
    let children ← childrenOf db picks chat messages
    some (messages, children)

end

theorem mem_of_mem_onePerChild {rows : List SnapshotItem} (h : c ∈ onePerChild rows) : c ∈ rows := by
  have kept : ∀ rest best : List SnapshotItem, best ⊆ rows → rest ⊆ rows →
      rest.foldl (fun best r => match best.find? (Child r) with
        | none => best ++ [r]
        | some cur => if truthy cur.blobPath = none && (truthy r.blobPath).isSome then
            best.map fun b => if Child r b then r else b
          else best) best ⊆ rows := by
    intro rest
    induction rest with
    | nil => exact fun best kept _ => kept
    | cons r rest ih =>
      intro best kept subset
      obtain ⟨hr, subset⟩ := cons_subset.mp subset
      refine ih _ ?_ subset
      dsimp only
      split
      · exact append_subset.mpr ⟨kept, by simpa using hr⟩
      · split
        · intro x hx
          obtain ⟨b, hb, rfl⟩ := mem_map.mp hx
          split
          · exact hr
          · exact kept hb
        · exact kept
  exact kept rows [] (nil_subset _) (Subset.refl _) ((mem_insertionSort _).mp h)

theorem stored_of_childrenOf {db : Db} (h : childrenOf db picks chat messages = some children)
    (hc : c ∈ children) : c ∈ db.items := by
  rw [childrenOf] at h
  split at h
  · cases h
  split at h
  · cases h
    cases hc
  · obtain ⟨kept, hkept, rfl⟩ := Option.map_eq_some_iff.mp h
    have hc : c ∈ kept := (mem_append.mp hc).elim
      (fun hc => mem_of_mem_filter (mem_of_mem_onePerChild hc))
      fun hc => mem_of_mem_filter (mem_of_mem_onePerChild hc)
    rw [filterLegacyChildren] at hkept
    split at hkept <;> cases hkept
    exact mem_of_mem_filter ((mem_insertionSort _).mp (mem_of_mem_filter hc))

theorem chatSelection_ok {aliases : Aliases} {db : Db} {chat : String} {req : FetchRequest}
    (h : chatSelection aliases db chat req = some (messages, children)) :
    ∃ picks, parseIds req.snapshotIds = .ok picks ∧
      chatMessages aliases db picks chat req.folderPaths.head? = some messages ∧
      ∀ c ∈ children, c ∈ db.items := by
  rw [chatSelection] at h
  split at h
  · cases h
  · obtain ⟨picks, hpicks, h⟩ := Option.bind_eq_some_iff.mp h
    obtain ⟨messages', hmessages, h⟩ := Option.bind_eq_some_iff.mp h
    obtain ⟨children', hchildren, h⟩ := Option.bind_eq_some_iff.mp h
    cases h
    exact ⟨picks, toOption_eq_some.mp hpicks, hmessages, fun c => stored_of_childrenOf hchildren⟩

end TmVault.Restore
