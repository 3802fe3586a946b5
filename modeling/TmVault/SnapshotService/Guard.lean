import Mathlib.Data.String.Basic
import TmVault.Restore.Worker

namespace TmVault.SnapshotService

open Store Authz Restore

inductive Principal
  | internal
  | user (claims : User)
  deriving DecidableEq

def isAdmin : Principal → Bool
  | .internal => true
  | .user claims => claims.roles.any (· ∈ adminRoles)

def Principal.tenantIds : Principal → List String
  | .internal => []
  | .user claims => claims.tenantIds

abbrev Path := List String

/-- The id a pattern captures at the start of a path. The literal part of every pattern begins and
ends with a slash, so it covers whole segments. -/
def matchHere : List String → Path → Option String
  | _, [] => none
  | [], segment :: _ => (Text.uuidHead segment.toList).map String.ofList
  | literal :: marker, segment :: path => if literal = segment then matchHere marker path else none

def search (pattern : List (List String)) : Path → Option String
  | [] => none
  | segment :: path =>
    (pattern.findSome? fun marker => matchHere marker (segment :: path)).or (search pattern path)

def snapIdRe : List (List String) := [["resources", "snapshots"]]

def itemIdRe : List (List String) := [["snapshot-items"], ["items"]]

def hostedTidRe : List (List String) := [["teams", "hosted-content"]]

/-- The query parameters of the item routes; `tenantIds` are the values of `tenantId` and
`tenant_id`. -/
structure Query where
  tenantIds : List String := []
  page : Int := 1
  size : Int := 50
  itemType : Option String := none
  download : Bool := false

def tenantIdsInPath : Path → List String
  | [] => []
  | segment :: path =>
    (if segment = "tenants" then path.head?.toList.filter (Text.isUuidText ·.toList) else []) ++
      tenantIdsInPath path

def tenantIdsInRequest (path : Path) (query : Query) : List String :=
  tenantIdsInPath (path.filter (· ≠ "")) ++ query.tenantIds.filter (Text.isUuidText ·.toList)

def authMiddleware (sender : Option Principal) (path : Path) (query : Query) :
    Except HttpError Principal :=
  match sender with
  | none => .error ⟨401, "Authentication required"⟩
  | some principal =>
    if !isAdmin principal && !(tenantIdsInRequest path query).all (· ∈ principal.tenantIds) then
      .error ⟨403, "Not entitled to the requested tenant"⟩
    else .ok principal

def tenantOf (db : Db) (sid : Uuid) : Option Uuid :=
  (db.snapshot? sid).bind fun s => (resource? db s.resourceId).map (·.tenantId)

/-- The tenant the guard resolves: of the first id its patterns find, hosted content before snapshot
before item. -/
def guardedTenant (db : Db) (path : Path) : Option String :=
  match search hostedTidRe path, search snapIdRe path, search itemIdRe path with
  | some tid, _, _ => some tid
  | none, some sid, _ => ((Text.parseUuid sid.toList).bind (tenantOf db)).map idText
  | none, none, some iid =>
    ((Text.parseUuid iid.toList).bind fun id =>
      (db.items.find? (·.id = id)).bind fun item => tenantOf db item.snapshotId).map idText
  | none, none, none => none

def notEntitled : HttpError := ⟨403, "Not entitled to the requested resource's tenant"⟩

/-- `_snapshot_tenant_guard`; `faulty` says that one of its look-ups raised, and the guard then lets
the request pass. -/
def snapshotTenantGuard (faulty : Bool) (db : Db) (principal : Principal) (path : Path) :
    Except HttpError Unit :=
  if isAdmin principal || faulty then .ok ()
  else if (guardedTenant db path).any (· ∉ principal.tenantIds) then .error notEntitled
  else .ok ()

inductive Endpoint
  | listSnapshotItems (snapshotId : String)
  | getSnapshotItemDetail (snapshotId itemId : String)
  | getItemContent (snapshotId itemId : String)

def Endpoint.snapshotId : Endpoint → String
  | .listSnapshotItems sid => sid
  | .getSnapshotItemDetail sid _ => sid
  | .getItemContent sid _ => sid

/-- The item routes in the order they are registered; a path parameter is a segment that is not
empty. -/
def route (path : Path) : Option Endpoint :=
  if "" ∈ path then none
  else match path with
    | ["api", "v1", "resources", "snapshots", sid, "items"] => some (.listSnapshotItems sid)
    | ["api", "v1", "resources", _, "snapshots", sid, "items"] => some (.listSnapshotItems sid)
    | ["api", "v1", "resources", "snapshots", sid, "items", iid] =>
      some (.getSnapshotItemDetail sid iid)
    | ["api", "v1", "resources", "snapshots", sid, "items", iid, "content"] =>
      some (.getItemContent sid iid)
    | _ => none

def internalError : HttpError := ⟨500, "Internal Server Error"⟩

def uuid (text : String) : Except HttpError Uuid :=
  match Text.parseUuid text.toList with
  | none => .error internalError
  | some id => .ok id

def itemsScope (db : Db) (sid : Uuid) : Option (SnapshotItem → Bool) :=
  (db.resolveTarget sid).bind fun t => (db.snapshot? t).map fun target =>
    match target.overlayBaseId with
    | none => fun i => i.snapshotId = target.id
    | some _ => fun i => i.id ∈ (db.snapshotItemsEffective target.id).map (·.id)

def itemInSnapshot (db : Db) (id : Uuid) (sid : String) : Bool :=
  (Text.parseUuid sid.toList).any fun sid => (db.snapshotItemsEffective sid).any (·.id = id)

def buildPowerBiItemKey (i : SnapshotItem) : String := i.itemType.name ++ ":" ++ i.externalId

def replayItem (state : List SnapshotItem) (i : SnapshotItem) : List SnapshotItem :=
  let key := buildPowerBiItemKey i
  if i.isDeleted.getD false then state.filter (buildPowerBiItemKey · ≠ key)
  else if state.any (buildPowerBiItemKey · = key) then
    state.map fun row => if buildPowerBiItemKey row = key then i else row
  else state ++ [i]

/-- `assemble_power_bi_items`: the snapshots from the last full one up to the target, replayed in
order. The target is looked up by the caller's spelling of its id. -/
def assemblePowerBiItems (snapshots : List Snapshot) (items : List SnapshotItem)
    (upTo : String) : List SnapshotItem :=
  let rows := snapshots.insertionSort fun a b => a.createdAt.getD 0 ≤ b.createdAt.getD 0
  match rows.find? (idText ·.id = upTo) with
  | none => []
  | some target =>
    let eligible := rows.filter fun s => s.createdAt.getD 0 ≤ target.createdAt.getD 0
    let ordered := match (eligible.filter (·.type = some .full)).getLast? with
      | none => eligible
      | some base => eligible.filter fun s => base.createdAt.getD 0 ≤ s.createdAt.getD 0
    let index (i : SnapshotItem) : Nat := ordered.findIdx (·.id = i.snapshotId)
    let replay := (items.filter fun i => ordered.any (·.id = i.snapshotId)).insertionSort fun a b =>
      toLex (index a, a.createdAt.getD 0) ≤ toLex (index b, b.createdAt.getD 0)
    (replay.foldl replayItem []).insertionSort fun a b =>
      toLex (a.itemType.name, toLex (a.folderPath.getD "", a.name)) ≤
        toLex (b.itemType.name, toLex (b.folderPath.getD "", b.name))

def getPowerBiAssembledItems (db : Db) (sid : String) :
    Except HttpError (Option (List SnapshotItem)) := do
  let id ← uuid sid
  match db.snapshot? id with
  | none => .ok none
  | some snapshot =>
    match resource? db snapshot.resourceId with
    | none => .ok none
    | some resource =>
      if resource.type ≠ .other "POWER_BI" then .ok none
      else
        let snapshots := db.snapshots.filter fun s => s.resourceId = snapshot.resourceId &&
          s.status ∈ [some .completed, some .partialRun] && sqlLe s.createdAt snapshot.createdAt
        .ok (some (assemblePowerBiItems snapshots
          (db.items.filter (·.snapshotId ∈ snapshots.map (·.id))) sid))

/-- What the service computes outside its database: the codecs of captured chat items, Base64, JSON
and media types, and the bytes its storage holds. -/
structure Env where
  canonicalVersionFingerprint : ChatItemVersion → String
  qualifiedChatItemKey : ChatItemVersion → String
  versionMetadata : ChatItemVersion → ItemMetadata
  logicalSize : ChatItemVersion → Int
  sha256 : String → String
  decodeBase64 : String → Option String
  loadsJson : String → Option String
  guessType : String → Option String
  shards : Bool
  downloadItemBlob : Resource → String → Option String
  store : Uuid → String → String → Option String

def catalogueSource (db : Db) (source : Snapshot) : Snapshot :=
  match source.reuseChainRootId with
  | some root => if isCatalogue source then (db.snapshot? root).getD source else source
  | none => source

def catalogueSnapshot (db : Db) (sid : String) : Except HttpError (Option Snapshot) := do
  let id ← uuid sid
  match db.snapshot? id with
  | none => .error ⟨404, "Snapshot not found"⟩
  | some snapshot =>
    let source := catalogueSource db snapshot
    if !isCatalogue source then .ok none
    else if source.status = some .pendingDeletion then .error ⟨404, "Snapshot is being deleted"⟩
    else .ok (some source)

def objectMatches (obj : ChatBlobObject) (content : ChatContent) (tenantId : Option Uuid) : Bool :=
  some obj.tenantId = tenantId && some obj.backendId = content.backendId &&
    obj.container = content.container && obj.path = content.path && obj.sha256 = content.sha256 &&
    obj.size = content.size && obj.encryptionKeyId = content.encryptionKeyId &&
    obj.backupVersion = content.backupVersion

def version? (db : Db) (i : SnapshotItem) : Option ChatItemVersion :=
  i.chatVersionId.bind fun id => db.chatVersions.find? (·.id = id)

def contentAvailable (db : Db) (tenantId : Option Uuid) (content : ChatContent) : Bool :=
  content.objectId.all fun id => (db.chatObjects.find? (·.id = id)).any fun obj =>
    obj.state = .live && objectMatches obj content tenantId

def materialized (env : Env) (backend : Uuid) (i : SnapshotItem) (version : ChatItemVersion) :
    SnapshotItem :=
  let metadata := env.versionMetadata version
  let row : SnapshotItem := { i with
    externalId := version.graphId
    parentExternalId := some (version.parentGraphId.getD version.chatId), metadata := metadata
    contentSize := some (env.logicalSize version) }
  match version.content with
  | none => row
  | some content => { row with
      contentHash := some content.sha256, contentChecksum := some content.sha256
      contentSize := some content.size, blobPath := some content.path
      encryptionKeyId := content.encryptionKeyId, backupVersion := content.backupVersion
      backendId := content.backendId.getD backend, metadata := { metadata with
        objectId := content.objectId.map idText, container := some content.container
        sha256 := some content.sha256 } }

def materializeChatItem (env : Env) (db : Db) (i : SnapshotItem) : Except HttpError SnapshotItem :=
  let holder := db.snapshot? i.snapshotId
  match i.chatVersionId, version? db i with
  | none, _ => if holder.all isCatalogue then .error internalError else .ok i
  | some _, none => .error internalError
  | some _, some version =>
    if some version.tenantId = i.tenantId &&
        env.canonicalVersionFingerprint version = version.versionSha256 &&
        i.externalId = env.qualifiedChatItemKey version &&
        version.content.all fun content => contentAvailable db i.tenantId content &&
          (content.backendId.isSome || holder.isSome) then
      .ok (materialized env ((holder.map (·.backendId)).getD 0) i version)
    else .error internalError

/-- A catalogue row whose link `_assert_catalogue_links` finds broken; a comparison with NULL is not
true. -/
def brokenLink (db : Db) (i : SnapshotItem) : Bool :=
  (version? db i).all fun version =>
    i.tenantId.any (· ≠ version.tenantId) || version.logicalKey ≠ i.externalId ||
      version.itemType ≠ i.itemType || i.metadata.chatId.all (· ≠ version.chatId)

structure ItemResponse where
  (id snapshotId externalId itemType name : String)
  folderPath : Option String
  contentSize : Int
  metadata : ItemMetadata
  isDeleted : Bool
  createdAt : Option Time
  blobPath : Option String
  deriving DecidableEq

def itemToResponse (i : SnapshotItem) : ItemResponse where
  id := idText i.id
  snapshotId := idText i.snapshotId
  externalId := i.externalId
  itemType := i.itemType.name
  name := i.name
  folderPath := i.folderPath
  contentSize := i.contentSize.getD 0
  metadata := i.metadata
  isDeleted := i.isDeleted.getD false
  createdAt := i.createdAt
  blobPath := i.blobPath

inductive Disposition
  | unset
  | attachment
  | named (filename : String)
  deriving DecidableEq

inductive Content
  | json (text : String)
  | metadata (fields : ItemMetadata)
  | empty
  deriving DecidableEq

inductive Reply
  | page (content : List ItemResponse) (totalElements totalPages size number : Nat)
  | item (response : ItemResponse)
  | content (source : String) (content : Content)
  | download (media : String) (disposition : Disposition) (etag : Option String)
      (body : Option String)
  deriving DecidableEq

def pageReply (query : Query) (total : Nat) (rows : List SnapshotItem) : Reply :=
  let size := query.size.toNat
  .page (rows.map itemToResponse) total (max 1 ((total + size - 1) / size)) size query.page.toNat

def pageOf {Row : Type} (query : Query) (rows : List Row) : List Row :=
  (rows.drop ((query.page.toNat - 1) * query.size.toNat)).take query.size.toNat

def ofItemType (query : Query) (i : SnapshotItem) : Bool :=
  query.itemType.all fun name => name = "" || i.itemType.name = name

def captureOrder (i : SnapshotItem) : Lex (WithTop Time × Uuid) :=
  toLex ((i.createdAt : WithTop Time), i.id)

def catalogueOrder (row : SnapshotItem × ChatItemVersion) :
    Lex (WithBot Time × Lex (WithTop Time × Uuid)) :=
  toLex ((row.2.createdDateTime : WithBot Time), captureOrder row.1)

def linkedRows (db : Db) (sid : Uuid) : List (SnapshotItem × ChatItemVersion) :=
  (chatRows db [sid]).filterMap fun i => (version? db i).map fun version => (i, version)

def catalogueItemResponse (env : Env) (db : Db) (snapshot : Snapshot) (query : Query) :
    Except HttpError Reply := do
  if (chatRows db [snapshot.id]).any (brokenLink db) then .error internalError
  else
    let rows := (linkedRows db snapshot.id).filter fun row => ofItemType query row.1
    let ordered := rows.insertionSort fun a b => catalogueOrder b ≤ catalogueOrder a
    let items ← (pageOf query ordered).mapM fun row => materializeChatItem env db row.1
    .ok (pageReply query rows.length items)

def listSnapshotItems (env : Env) (db : Db) (sid : String) (query : Query) :
    Except HttpError Reply := do
  if query.page < 1 || query.size < 1 || 1000 < query.size then
    .error ⟨422, "Unprocessable Entity"⟩
  else match ← catalogueSnapshot db sid with
  | some catalogue => catalogueItemResponse env db catalogue query
  | none =>
    match ← getPowerBiAssembledItems db sid with
    | some assembled =>
      let filtered := assembled.filter (ofItemType query)
      .ok (pageReply query filtered.length (pageOf query filtered))
    | none =>
      match itemsScope db (← uuid sid) with
      | none => .error ⟨404, "Snapshot not found"⟩
      | some scope =>
        let rows := db.items.filter fun i => scope i && ofItemType query i
        .ok (pageReply query rows.length
          (pageOf query (rows.insertionSort fun a b => captureOrder b ≤ captureOrder a)))

def getSnapshotItemDetail (env : Env) (db : Db) (sid iid : String) : Except HttpError Reply := do
  match ← getPowerBiAssembledItems db sid with
  | some assembled =>
    match assembled.find? (idText ·.id = iid) with
    | none => .error ⟨404, "Snapshot item not found"⟩
    | some item => .ok (.item (itemToResponse item))
  | none =>
    let id ← uuid iid
    match db.items.find? (·.id = id) with
    | none => .error ⟨404, "Snapshot item not found"⟩
    | some item =>
      if !itemInSnapshot db item.id sid then .error ⟨404, "Snapshot item not found"⟩
      else
        let captured ← if item.chatVersionId.isSome then .ok true
          else (catalogueSnapshot db sid).map (·.isSome)
        let item ← if captured then materializeChatItem env db item else .ok item
        .ok (.item (itemToResponse item))

def inlineSafe : List String := ["image/png", "image/jpeg", "image/gif", "image/webp", "image/bmp"]

def stripped (text : String) : String := String.ofList (Text.strip Text.isSpace text.toList)

def mediaBase (media : String) : String := Text.splitPartFirst ";" media

def nonEmpty (text : Option String) : Option String := text.filter (· ≠ "")

def mediaOf (env : Env) (i : SnapshotItem) : String :=
  let declared := stripped (i.metadata.contentType.getD "")
  if '/' ∈ declared.toList then declared
  else (nonEmpty (env.guessType i.name)).getD
    (if i.itemType.name ∈ ["EMAIL", "CALENDAR_EVENT", "TEAMS_CHAT_MESSAGE"] then "application/json"
      else "application/octet-stream")

def filename (i : SnapshotItem) : String := if i.name = "" then "item-" ++ idText i.id else i.name

def rawReply (env : Env) (download : Bool) (i : SnapshotItem) (data : String) : Reply :=
  let media := mediaOf env i
  let safe := lower (stripped (mediaBase media)) ∈ inlineSafe
  .download (if safe then media else "application/octet-stream")
    (if download then .named (stripped (filename i)) else if safe then .unset else .attachment)
    none (some data)

def plainContent (env : Env) (db : Db) (sid : Uuid) (download : Bool) (i : SnapshotItem) :
    Except HttpError Reply :=
  let decoded : Except HttpError (Option (String × String)) :=
    match i.metadata.inlineB64 with
    | some text =>
      match env.decodeBase64 text with
      | none => .error ⟨500, "Inline decode failed"⟩
      | some data => .ok (some ("inline", data))
    | none =>
      -- `_load_blob_context` and `_download_item_blob`
      .ok (if env.shards then
        (nonEmpty i.blobPath).bind fun path => (db.snapshot? sid).bind fun s =>
          (resource? db s.resourceId).bind fun resource =>
            (env.downloadItemBlob resource path).map fun data => ("blob", data)
      else none)
  match decoded with
  | .error e => .error e
  | .ok (some (source, data)) =>
    match if download then none else env.loadsJson data with
    | some json => .ok (.content source (.json json))
    | none => .ok (rawReply env download i data)
  | .ok none =>
    match (nonEmpty i.metadata.raw).or (nonEmpty i.metadata.structured) with
    | some raw => .ok (.content "metadata" (.json raw))
    | none => .ok (.content "none" .empty)

def pinnable (db : Db) (sid object : Uuid) : Bool :=
  (db.snapshot? sid).any isCatalogue &&
    ((db.snapshotItemsEffective sid).any fun i =>
      (version? db i).any fun version => (version.content.bind (·.objectId)) = some object) &&
    (db.chatObjects.find? (·.id = object)).any (·.state = .live)

def catalogueBlobResponse (env : Env) (db : Db) (i : SnapshotItem) (path : String)
    (download : Bool) : Except HttpError Reply :=
  match nonEmpty i.metadata.objectId, nonEmpty i.metadata.container, nonEmpty i.metadata.sha256 with
  | some objectId, some container, some sha256 => do
    let object ← uuid objectId
    if !pinnable db i.snapshotId object then .error internalError
    else match env.store i.backendId container path with
    | none => .error ⟨404, "Captured content is missing from storage"⟩
    | some data =>
      let declared := i.metadata.contentType.getD ""
      let media := if '/' ∈ declared.toList then declared
        else (nonEmpty (env.guessType i.name)).getD "application/octet-stream"
      let safe := mediaBase (lower media) ∈ inlineSafe
      let whole := i.contentSize = some (data.utf8ByteSize : Int) && env.sha256 data = sha256
      .ok (.download (if safe then media else "application/octet-stream")
        (if download then .named (filename i) else if safe then .unset else .attachment)
        (some sha256) (if whole then some data else none))
  | _, _, _ => .error internalError

def getItemContent (env : Env) (db : Db) (sid iid : String) (download : Bool) :
    Except HttpError Reply := do
  let id ← uuid iid
  match db.items.find? (·.id = id) with
  | none => .error ⟨404, "Item not found"⟩
  | some item =>
    if !itemInSnapshot db item.id sid then .error ⟨404, "Item not found"⟩
    else match ← catalogueSnapshot db sid with
    | none => plainContent env db (← uuid sid) download item
    | some _ =>
      let item ← materializeChatItem env db item
      match nonEmpty item.blobPath with
      | some path => catalogueBlobResponse env db item path download
      | none =>
        if item.itemType ∈ [.chatAttachment, .chatHostedContent] && item.metadata.inlineB64.isNone
        then .ok (.content "metadata" (.metadata item.metadata))
        else plainContent env db (← uuid sid) download item

def handle (env : Env) (db : Db) (endpoint : Endpoint) (query : Query) : Except HttpError Reply :=
  match endpoint with
  | .listSnapshotItems sid => listSnapshotItems env db sid query
  | .getSnapshotItemDetail sid iid => getSnapshotItemDetail env db sid iid
  | .getItemContent sid iid => getItemContent env db sid iid query.download

def serve (env : Env) (faulty : Bool) (db : Db) (sender : Option Principal) (path : Path)
    (endpoint : Endpoint) (query : Query) : Except HttpError Reply := do
  let principal ← authMiddleware sender path query
  snapshotTenantGuard faulty db principal path
  handle env db endpoint query

def respond (env : Env) (faulty : Bool) (db : Db) (sender : Option Principal) (path : Path)
    (query : Query) : Option (Except HttpError Reply) :=
  (route path).map fun endpoint => serve env faulty db sender path endpoint query

end TmVault.SnapshotService
