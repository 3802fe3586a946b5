import TmVault.Work.Tables

namespace TmVault.Catalogue

open Store List
open Work (CaptureState)

structure Key where
  chatId : String
  itemType : ItemType
  graphId : String
  parentGraphId : Option String := none
  deriving DecidableEq

/-- An element of `attachments` or `hostedContents`; `contentType` is empty where it is no text. -/
structure ChildRef where
  id : Option String
  contentType : String := ""
  deriving DecidableEq

structure ManifestEntry where
  itemType : Option ItemType
  graphId : Option String
  requiresContent : Option Bool
  deriving DecidableEq

structure Manifest where
  complete : Bool
  items : Option (List (Option ManifestEntry))
  deriving DecidableEq

/-- The members of a captured Graph object that the catalogue reads; `rest` is everything else. -/
structure Payload where
  expectedChildren : Option Manifest := none
  (attachments hostedContents : Option (List (Option ChildRef)) := some [])
  sourceUnavailable : Bool := false
  rest : String := ""
  deriving DecidableEq

structure CapturedChatItem where
  itemType : ItemType
  graphId : String
  parentGraphId : Option String := none
  payload : Payload := {}
  content : Option ChatContent := none
  deriving DecidableEq

def CapturedChatItem.key (item : CapturedChatItem) (chatId : String) : Key where
  chatId := chatId
  itemType := item.itemType
  graphId := item.graphId
  parentGraphId := item.parentGraphId

structure Fingerprint where
  tenantId : Uuid
  key : Key
  payload : Payload
  content : Option ChatContent
  deriving DecidableEq

structure AuthContext where
  tenantId : Uuid
  (chatId principalId permissionScopeHash : String)
  deriving DecidableEq

structure Scope where
  (snapshotId tenantId : Uuid)
  (chatId principalId permissionScopeHash : String)
  backendId : Uuid
  deriving DecidableEq

namespace Scope

def auth (scope : Scope) : AuthContext where
  tenantId := scope.tenantId
  chatId := scope.chatId
  principalId := scope.principalId
  permissionScopeHash := scope.permissionScopeHash

def fence (scope : Scope) : Uuid × String := (scope.snapshotId, scope.chatId)

def fingerprint (scope : Scope) (item : CapturedChatItem) : Fingerprint where
  tenantId := scope.tenantId
  key := item.key scope.chatId
  payload := item.payload
  content := item.content

end Scope

structure CaptureEvidence where
  (enumerationComplete reconciliationComplete : Bool)
  (membershipSha256 reconciliationSha256 : String)
  (conflictingObservations requiredContentCount durableContentCount unresolvedRequiredCount : Nat)
  (startedAt finishedAt : Time)
  observationHashVersion : Nat := 1
  deriving DecidableEq

def CaptureEvidence.satisfiesCompletenessConditions (e : CaptureEvidence) : Bool :=
  e.enumerationComplete && e.reconciliationComplete &&
    e.membershipSha256 = e.reconciliationSha256 && e.conflictingObservations = 0 &&
    e.unresolvedRequiredCount = 0 && e.requiredContentCount = e.durableContentCount

structure CaptureLease where
  attemptId : Uuid
  generation : Nat
  stagedInventoryId : Uuid

structure Attempt where
  id : Uuid
  scope : Scope
  folderPath : String
  auth : AuthContext
  generation : Nat
  state : CaptureState := .created
  expiresAt : Time
  stagedInventoryId : Uuid
  evidence : Option CaptureEvidence := none
  failureReason : Option String := none
  reusedInventory : Bool := false
  createdAt : Time
  deriving DecidableEq

def Active : CaptureState → Prop
  | .created | .enumerating | .contentPending | .verifying | .ready => True
  | _ => False

instance : DecidablePred Active := fun s => by cases s <;> unfold Active <;> infer_instance

def Terminal (s : CaptureState) : Prop := s = .published ∨ s = .partialRun

instance : DecidablePred Terminal := fun _ => instDecidableOr

theorem Active.not_terminal (h : Active s) : ¬ Terminal s := by
  rintro (rfl | rfl)
  · exact h
  · exact h

inductive InventoryState
  | staging | partialRun | complete
  deriving DecidableEq

structure Inventory where
  (id captureAttemptId tenantId : Uuid)
  chatId : String
  auth : AuthContext
  observationHashVersion : Nat
  state : InventoryState := .staging
  (membershipSha256 representationSha256 : Option String := none)
  itemCount : Nat := 0
  logicalBytes : Int := 0
  failureReason : Option String := none

structure Entry where
  inventoryId : Uuid
  logicalKey : Key
  versionId : Uuid
  deriving DecidableEq

inductive Parent
  | chat (id : String)
  | message (key : Key)
  deriving DecidableEq

/-- A row of `snapshot_items` that links a captured version; `chatId` is from its metadata. `writer` is
no column: it names the attempt that inserted the row. -/
structure Link where
  (snapshotId tenantId : Uuid)
  externalId : Key
  parentExternalId : Parent
  itemType : ItemType
  folderPath : String
  contentSize : Int
  (backendId chatVersionId : Uuid)
  chatId : String
  isDeleted : Bool := false
  writer : Uuid

structure Version where
  (id tenantId : Uuid)
  chatId : String
  logicalKey : Key
  versionSha256 : Fingerprint
  item : CapturedChatItem

inductive Coverage
  | partialRun | complete
  deriving DecidableEq

structure Association where
  snapshotId : Uuid
  chatId : String
  (tenantId inventoryId captureAttemptId : Uuid)
  coverage : Coverage
  (startedAt finishedAt : Time)
  failureReason : Option String := none

def Association.fence (p : Association) : Uuid × String := (p.snapshotId, p.chatId)

structure Layout where
  reuseOf : Uuid → Option Uuid
  overlayBase : Uuid → Option Uuid
  removed : Uuid → Key → Bool

structure World where
  layout : Layout
  attempts : List Attempt := []
  inventories : List Inventory := []
  entries : List Entry := []
  links : List Link := []
  versions : List Version := []
  objects : List ChatBlobObject := []
  associations : List Association := []

namespace World

variable (w : World)

def attempt? (id : Uuid) : Option Attempt := w.attempts.find? (·.id = id)

def inventory? (id : Uuid) : Option Inventory := w.inventories.find? (·.id = id)

def version? (id : Uuid) : Option Version := w.versions.find? (·.id = id)

def object? (id : Uuid) : Option ChatBlobObject := w.objects.find? (·.id = id)

def association? (fence : Uuid × String) : Option Association :=
  w.associations.find? (·.fence = fence)

def items (inventory : Uuid) : List Entry := w.entries.filter (·.inventoryId = inventory)

def listed (inventory : Uuid) (l : Link) : Bool :=
  (w.items inventory).any fun e => e.logicalKey = l.externalId && e.versionId = l.chatVersionId

def rows (snapshot : Uuid) : List Link := w.links.filter (·.snapshotId = snapshot)

/-- `snapshot_items_effective`: the rows of a full snapshot; of an overlay its own and those of the
base that it neither replaces nor has removed. -/
def effective (snapshot : Uuid) : List Link :=
  let target := (w.layout.reuseOf snapshot).getD snapshot
  match w.layout.overlayBase target with
  | none => w.rows target
  | some base => w.rows target ++ (w.rows base).filter fun l =>
      !w.layout.removed target l.externalId &&
        !(w.rows target).any fun own => own.externalId = l.externalId && own.itemType = l.itemType

def setAttempt (id : Uuid) (f : Attempt → Attempt) : World :=
  { w with attempts := Relational.updateKey Attempt.id id f w.attempts }

def setInventory (id : Uuid) (f : Inventory → Inventory) : World :=
  { w with inventories := Relational.updateKey Inventory.id id f w.inventories }

def deleteInventory (id : Uuid) : World :=
  { w with
    inventories := w.inventories.filter (·.id ≠ id)
    entries := w.entries.filter (·.inventoryId ≠ id) }

def unlink (snapshot inventory : Uuid) : World :=
  { w with links := w.links.filter fun l => !(l.snapshotId = snapshot && w.listed inventory l) }

def fits (rows : List Link) : Bool :=
  decide ((rows.map fun l => (l.snapshotId, l.externalId, l.itemType)).Nodup) &&
    rows.all fun r => w.links.all fun l =>
      !(l.snapshotId = r.snapshotId && l.externalId = r.externalId && l.itemType = r.itemType)

variable {w} {l : Link}

@[simp] theorem mem_items : e ∈ w.items inventory ↔ e ∈ w.entries ∧ e.inventoryId = inventory := by
  simp [items]

theorem listed_iff : w.listed inventory l = true ↔
    ⟨inventory, l.externalId, l.chatVersionId⟩ ∈ w.entries := by
  rw [listed, any_eq_true]
  constructor
  · rintro ⟨e, he, same⟩
    obtain ⟨held, rfl⟩ := mem_items.mp he
    simp only [Bool.and_eq_true, decide_eq_true_eq] at same
    rw [← same.1, ← same.2]
    exact held
  · intro h
    exact ⟨_, mem_items.mpr ⟨h, rfl⟩, by simp⟩

theorem mem_effective (h : l ∈ w.effective snapshot) : l ∈ w.links := by
  simp only [effective] at h
  split at h
  · exact (mem_filter.mp h).1
  · rcases mem_append.mp h with own | inherited
    · exact (mem_filter.mp own).1
    · exact (mem_filter.mp (mem_filter.mp inherited).1).1

@[simp] theorem mem_unlink : l ∈ (w.unlink snapshot inventory).links ↔ l ∈ w.links ∧
      ¬ (l.snapshotId = snapshot ∧ ⟨inventory, l.externalId, l.chatVersionId⟩ ∈ w.entries) := by
  rw [unlink, mem_filter, ← listed_iff]
  apply and_congr_right
  intro _
  cases w.listed inventory l with
  | false => simp
  | true => simp

end World

inductive Refusal
  | conflict | workLeaseMoved | integrity | value | constraint
  deriving DecidableEq

structure Env where
  observation : Nat → CapturedChatItem → String
  sourceHash : Nat → AuthContext → List (Key × String) → String
  representationHash : List (Key × Fingerprint) → String
  payloadSize : Payload → Int
  rank : Key → Nat

open Relational

/-- What a transaction reads from outside: the clock at its fence and at its last expiry check, and
what `_eligible` says of the parents it has locked. -/
structure Reads where
  (now late : Time)
  eligible : Except Refusal Unit

def fence (w : World) (lease : CaptureLease) (r : Reads) (terminalOk : Bool := false) :
    Except Refusal Attempt := do
  let a ← orFail .conflict (w.attempt? lease.attemptId)
  let _ ← failIf (a.generation ≠ lease.generation) .workLeaseMoved
  if terminalOk && Terminal a.state then .ok a
  else do
    let _ ← failIf (¬ Active a.state || a.stagedInventoryId ≠ lease.stagedInventoryId ||
      a.expiresAt ≤ r.now) .workLeaseMoved
    let _ ← r.eligible
    let _ ← failIf (a.auth ≠ a.scope.auth) .integrity
    .ok a

def checkExpiry (a : Attempt) (r : Reads) : Except Refusal PUnit :=
  failIf (a.expiresAt ≤ r.late) .workLeaseMoved

def blank (s : String) : Bool := s.toList.all Char.isWhitespace

def World.previous? (w : World) (f : Uuid × String) : Option Attempt :=
  orderByFirst (fun a b => b.generation < a.generation) (w.attempts.filter (·.scope.fence = f))

def leaseTime : Time := Work.seconds 300

/-- The arguments of `begin_capture`, the ids it draws, and whether its look-up found a terminal
inventory. It looks before it waits for the previous attempt's row, so it may miss one. -/
structure Begin where
  scope : Scope
  published : Bool := false
  folderPath : Option String := none
  observationHashVersion : Nat := 1
  (attemptId inventoryId : Uuid)

def Begin.folder (b : Begin) : String := b.folderPath.getD ("chats/" ++ b.scope.chatId)

def supersede (w : World) (b : Begin) : World :=
  match w.previous? b.scope.fence with
  | some p =>
    if Active p.state then
      (w.setAttempt p.id fun a => { a with state := .superseded }).unlink b.scope.snapshotId
        p.stagedInventoryId
    else w
  | none => w

def Begin.attempt (w : World) (b : Begin) (now : Time) : Attempt where
  id := b.attemptId
  scope := b.scope
  folderPath := b.folder
  auth := b.scope.auth
  generation := ((w.previous? b.scope.fence).map (·.generation)).getD 0 + 1
  expiresAt := now + leaseTime
  stagedInventoryId := b.inventoryId
  createdAt := now

def Begin.inventory (b : Begin) : Inventory where
  id := b.inventoryId
  captureAttemptId := b.attemptId
  tenantId := b.scope.tenantId
  chatId := b.scope.chatId
  auth := b.scope.auth
  observationHashVersion := b.observationHashVersion

def beginCapture (w : World) (b : Begin) (r : Reads) : Except Refusal World := do
  let _ ← failIf (b.observationHashVersion ∉ [1, 2] || blank b.folder) .value
  let _ ← r.eligible
  let _ ← failIf b.published .conflict
  let _ ← failIf ((w.previous? b.scope.fence).any fun p => Active p.state && r.now < p.expiresAt)
    .conflict
  let _ ← failIf (b.attemptId ∈ w.attempts.map (·.id) || b.inventoryId ∈ w.inventories.map (·.id))
    .constraint
  let w' := supersede w b
  .ok { w' with
    attempts := w'.attempts ++ [b.attempt w r.now], inventories := w'.inventories ++ [b.inventory] }

def renewCapture (w : World) (lease : CaptureLease) (seconds : Nat) (r : Reads) :
    Except Refusal World := do
  let _ ← failIf (seconds = 0) .value
  let a ← fence w lease r
  .ok (w.setAttempt a.id fun a => { a with expiresAt := r.late + Work.seconds seconds })

def messageTypes : List ItemType :=
  [.teamsChatMessage, .other "TEAMS_MESSAGE", .other "TEAMS_MESSAGE_REPLY"]

def objectMatches (o : ChatBlobObject) (c : ChatContent) (scope : Scope) : Bool :=
  o.tenantId = scope.tenantId && o.backendId = scope.backendId && c.backendId = some o.backendId &&
    o.container = c.container && o.path = c.path && o.sha256 = c.sha256 && o.size = c.size &&
    o.encryptionKeyId = c.encryptionKeyId && o.backupVersion = c.backupVersion

def usable (w : World) (scope : Scope) (c : ChatContent) : Bool :=
  match c.objectId with
  | none => true
  | some id => (w.object? id).any fun o =>
      objectMatches o c scope && o.state ≠ .deleting && o.state ≠ .deleted

def objects (w : World) (scope : Scope) (items : List CapturedChatItem) : Except Refusal PUnit :=
  failIf (!(items.filterMap (·.content)).all (usable w scope)) .integrity

def logicalSize (env : Env) (item : CapturedChatItem) : Int :=
  match item.content with
  | some c => c.size
  | none => env.payloadSize item.payload

def parentKeys (chatId : String) (items : List CapturedChatItem) (graphId : String) : List Key :=
  ((items.filter fun i => i.itemType ∈ messageTypes && i.graphId = graphId).map
    (·.key chatId)).dedup

def parentKey (chatId : String) (items : List CapturedChatItem) (item : CapturedChatItem)
    (allowMissing : Bool := false) : Except Refusal Parent :=
  match item.parentGraphId with
  | none => .ok (.chat chatId)
  | some g =>
    match parentKeys chatId items g with
    | [k] => .ok (.message k)
    | [] => if allowMissing then .ok (.message ⟨chatId, .teamsChatMessage, g, none⟩)
      else .error .integrity
    | _ => .error .integrity

def World.versionOf? (w : World) (scope : Scope) (item : CapturedChatItem) : Option Version :=
  w.versions.find? fun v => v.tenantId = scope.tenantId && v.chatId = scope.chatId &&
    v.versionSha256 = scope.fingerprint item

def keyed (scope : Scope) : List CapturedChatItem → List CapturedChatItem →
    Except Refusal (List CapturedChatItem)
  | [], kept => .ok kept
  | item :: items, kept =>
    match kept.find? fun i => i.key scope.chatId = item.key scope.chatId with
    | none => keyed scope items (kept ++ [item])
    | some i => if scope.fingerprint i = scope.fingerprint item then keyed scope items kept
      else .error .integrity

def missing (w : World) (scope : Scope) (ids : Key → Uuid) (items : List CapturedChatItem) :
    List Version :=
  (items.filter fun i => (w.versionOf? scope i).isNone).map fun i =>
    { id := ids (i.key scope.chatId)
      tenantId := scope.tenantId, chatId := scope.chatId, logicalKey := i.key scope.chatId
      versionSha256 := scope.fingerprint i, item := i }

def link (env : Env) (a : Attempt) (item : CapturedChatItem) (v : Version) (parent : Parent) : Link where
  snapshotId := a.scope.snapshotId
  tenantId := a.scope.tenantId
  externalId := item.key a.scope.chatId
  parentExternalId := parent
  itemType := item.itemType
  folderPath := a.folderPath
  contentSize := logicalSize env item
  backendId := (item.content.bind (·.backendId)).getD a.scope.backendId
  chatVersionId := v.id
  chatId := a.scope.chatId
  writer := a.id

def stageOne (env : Env) (a : Attempt) (known : List CapturedChatItem) (w : World)
    (item : CapturedChatItem) : Except Refusal World := do
  let key := item.key a.scope.chatId
  let v ← orFail .integrity (w.versionOf? a.scope item)
  let entry := (w.items a.stagedInventoryId).find? (·.logicalKey = key)
  let old := (w.rows a.scope.snapshotId).find? (·.externalId = key)
  let _ ← failIf (entry.any (·.versionId ≠ v.id)) .integrity
  let _ ← failIf (old.any fun l => l.chatVersionId ≠ v.id || l.itemType ≠ item.itemType) .integrity
  let _ ← failIf (entry.isSome != old.isSome) .integrity
  let parent ← parentKey a.scope.chatId known item true
  if entry.isSome then
    .ok { w with links := w.links.map fun l =>
      if l.snapshotId = a.scope.snapshotId ∧ l.externalId = key then
        { l with parentExternalId := parent } else l }
  else
    .ok { w with
      entries := w.entries ++ [⟨a.stagedInventoryId, key, v.id⟩]
      links := w.links ++ [link env a item v parent] }

def stagingInventory (w : World) (id : Uuid) : Except Refusal Inventory := do
  let i ← orFail .conflict (w.inventory? id)
  let _ ← failIf (i.state ≠ .staging) .conflict
  .ok i

def World.captured (w : World) (inventory : Uuid) : List CapturedChatItem :=
  (w.items inventory).filterMap fun e => (w.version? e.versionId).map (·.item)

def stageVersions (env : Env) (w : World) (lease : CaptureLease) (items : List CapturedChatItem)
    (ids : Key → Uuid) (r : Reads) : Except Refusal World := do
  let _ ← failIf (200 < items.length) .value
  let a ← fence w lease r
  let _ ← stagingInventory w lease.stagedInventoryId
  let batch ← keyed a.scope items []
  let _ ← objects w a.scope items
  let _ ← checkExpiry a r
  if batch = [] then .ok w
  else do
    let new := missing w a.scope ids batch
    let _ ← failIf (¬ (new.map (·.id)).Nodup || new.any fun v => (w.version? v.id).isSome) .constraint
    let w₁ := { w with versions := w.versions ++ new }
    let w₂ ← batch.foldlM (stageOne env a (items ++ w.captured a.stagedInventoryId)) w₁
    let _ ← checkExpiry a r
    .ok (w₂.setAttempt a.id fun a => { a with state := .enumerating })

def copiedLinks (w : World) (a : Attempt) (source : Uuid) (keys : List Key) : List Link :=
  ((w.items a.stagedInventoryId).filter (·.logicalKey ∈ keys)).flatMap fun e =>
    ((w.effective source).filter fun l =>
      l.externalId = e.logicalKey && l.chatVersionId = e.versionId).map fun l =>
        { l with
          snapshotId := a.scope.snapshotId, folderPath := a.folderPath
          backendId := (((w.version? e.versionId).bind (·.item.content)).bind (·.backendId)).getD
            a.scope.backendId
          writer := a.id }

def copyVersions (w : World) (lease : CaptureLease) (inventory source : Uuid) (keys : List Key)
    (r : Reads) : Except Refusal World := do
  let a ← fence w lease r
  let _ ← stagingInventory w lease.stagedInventoryId
  let _ ← checkExpiry a r
  let entries := ((w.items inventory).filter (·.logicalKey ∈ keys)).map fun e =>
    { e with inventoryId := a.stagedInventoryId }
  let _ ← failIf (entries.any fun e => (w.items a.stagedInventoryId).any
    (·.logicalKey = e.logicalKey)) .constraint
  let w₁ := { w with entries := w.entries ++ entries }
  let links := copiedLinks w₁ a source keys
  let _ ← failIf (!w.fits links) .constraint
  -- the savepoint is rolled back and the call answers `False`
  if entries.length ≠ keys.length ∨ links.length ≠ keys.length then .ok w
  else do
    let _ ← checkExpiry a r
    .ok ({ w₁ with links := w.links ++ links }.setAttempt a.id
      fun a => { a with state := .enumerating })

def recordCaptureEvidence (w : World) (lease : CaptureLease) (evidence : CaptureEvidence)
    (r : Reads) : Except Refusal World := do
  let a ← fence w lease r
  let i ← orFail .integrity (w.inventory? a.stagedInventoryId)
  let _ ← failIf (evidence.observationHashVersion ≠ i.observationHashVersion) .integrity
  .ok (w.setAttempt a.id fun a => { a with evidence := some evidence, state := .verifying })

/-- `owned` is what `provider_work._owned` says of the caller's claim, `related` whether the claim is
for the snapshot and partition of the attempt. -/
def suspendCapture (w : World) (lease : CaptureLease) (owned : Except Refusal Unit) (related : Bool)
    (r : Reads) : Except Refusal World := do
  let _ ← owned
  let a ← fence w lease r
  let _ ← failIf (!related || (w.association? a.scope.fence).isSome) .conflict
  .ok ((w.unlink a.scope.snapshotId a.stagedInventoryId).setAttempt a.id
    fun a => { a with state := .superseded, failureReason := some "provider_deferred" })

-- no look at the lease
def discardAttempt (w : World) (lease : CaptureLease) (scope : Scope) (reason : String) :
    Except Refusal World := do
  let _ ← failIf (w.association? scope.fence).isSome .conflict
  .ok ((w.unlink scope.snapshotId lease.stagedInventoryId).setAttempt lease.attemptId
    fun a => { a with state := .failed, failureReason := some reason })

end TmVault.Catalogue
