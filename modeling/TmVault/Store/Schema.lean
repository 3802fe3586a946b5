import TmVault.Relational.Table

namespace TmVault.Store

abbrev Uuid := Nat

instance : LawfulBEq (Uuid × String) := inferInstance

abbrev Time := Nat

inductive SnapshotType
  | full | incremental | preemptive | manual
  deriving DecidableEq

inductive SnapshotStatus
  | inProgress | completed | failed | partialRun | pendingDeletion | skipped
  deriving DecidableEq

instance : LawfulBEq (Option SnapshotStatus) := inferInstance

inductive HcDrainStatus
  | notApplicable | pending | complete | failed
  deriving DecidableEq

inductive PartitionStatus
  | queued | claimed | inProgress | completed | failed
  deriving DecidableEq

inductive ItemType
  | email | emailAttachment | archiveItem | archiveAttachment
  | teamsChatMessage | chatAttachment | chatHostedContent
  | sharepointList | sharepointFile | sharepointFolder | sharepointListItem
  | file | onedriveFile | fileVersion | calendarEvent | userContact | contact
  | other (name : String)
  deriving DecidableEq

namespace ItemType

def name : ItemType → String
  | email => "EMAIL"
  | emailAttachment => "EMAIL_ATTACHMENT"
  | archiveItem => "ARCHIVE_ITEM"
  | archiveAttachment => "ARCHIVE_ATTACHMENT"
  | teamsChatMessage => "TEAMS_CHAT_MESSAGE"
  | chatAttachment => "CHAT_ATTACHMENT"
  | chatHostedContent => "CHAT_HOSTED_CONTENT"
  | sharepointList => "SHAREPOINT_LIST"
  | sharepointFile => "SHAREPOINT_FILE"
  | sharepointFolder => "SHAREPOINT_FOLDER"
  | sharepointListItem => "SHAREPOINT_LIST_ITEM"
  | file => "FILE"
  | onedriveFile => "ONEDRIVE_FILE"
  | fileVersion => "FILE_VERSION"
  | calendarEvent => "CALENDAR_EVENT"
  | userContact => "USER_CONTACT"
  | contact => "CONTACT"
  | other n => n

def overlayTypes : List ItemType :=
  [email, emailAttachment, archiveItem, archiveAttachment, teamsChatMessage, chatAttachment,
    chatHostedContent, sharepointList, sharepointFile, sharepointFolder, sharepointListItem]

def sparseTypes : List ItemType :=
  [file, onedriveFile, fileVersion, calendarEvent, userContact, contact]

def sparse (t : ItemType) : Prop := t ∈ sparseTypes

instance : DecidablePred sparse := fun t => inferInstanceAs (Decidable (t ∈ sparseTypes))

theorem not_sparse_of_overlay (h : t ∈ overlayTypes) : ¬ t.sparse := by
  cases t <;> simp_all [overlayTypes, sparse, sparseTypes]

end ItemType

inductive ResourceType
  | mailbox | sharedMailbox | roomMailbox | onedrive | sharepointSite | m365Group | entraUser
  | userMail | userOnedrive | userContacts | userCalendar | userChats | userArchive
  | other (name : String)
  deriving DecidableEq

inductive ResourceStatus
  | discovered | active | archived | suspended | pendingDeletion | inaccessible
  deriving DecidableEq

/-- The keys of `resources.metadata` the modelled code reads: `user_principal_name` and
`userPrincipalName`. -/
structure ResourceExtra where
  (userPrincipalNameSnake userPrincipalName : Option String := none)
  deriving DecidableEq

structure Resource where
  (id tenantId : Uuid)
  type : ResourceType
  externalId : String
  email : Option String := none
  extraData : ResourceExtra := {}
  status : Option ResourceStatus := some .discovered
  (parentResourceId slaPolicyId : Option Uuid := none)
  deriving DecidableEq

structure Tenant where
  id : Uuid
  orgId : Option Uuid := none
  archivedAt : Option Time := none
  deriving DecidableEq

structure PlatformUser where
  id : Uuid
  (tenantId orgId : Option Uuid := none)
  deriving DecidableEq

structure ItemMetadata where
  (sourceMailbox rawParentFolderId : Option String := none)
  attachmentBlobPaths : List String := []
  seriesMasterId : Option String := none
  chatId : Option String := none
  chatIdSnake : Option String := none
  chatTopic : Option String := none
  inlineB64 : Option String := none
  contentType : Option String := none
  raw : Option String := none
  structured : Option String := none
  (objectId container sha256 changeKey changeKeySnake source siteId listId : Option String := none)
  rest : String := ""
  deriving DecidableEq

/-- The captured columns of a row, `_PAYLOAD`: what two rows share when they are the same item. -/
structure Payload where
  itemType : ItemType
  externalId : String
  parentExternalId : Option String := none
  name : String := ""
  (folderPath contentHash contentChecksum : Option String := none)
  contentSize : Option Int := some 0
  (blobPath encryptionKeyId : Option String := none)
  backupVersion : Option Int := some 1
  metadata : ItemMetadata := {}
  isDeleted : Option Bool := some false
  indexedAt : Option Time := none
  backendId : Uuid := 0
  (chatVersionId tenantId : Option Uuid := none)
  deriving DecidableEq

structure SnapshotItem extends Payload where
  (id snapshotId : Uuid)
  createdAt : Option Time := none
  deriving DecidableEq

structure MailBootstrapOrigin where
  cursorFree : Bool := false
  folderIds : List String := []
  deriving DecidableEq

structure SnapshotExtra where
  chatInventoryFormat : Option String := none
  (archiveReusedPartialPrior skippedConcurrent : Bool := false)
  reuseRehydratedFrom : Option Uuid := none
  reuseRehydratedAt : Option Time := none
  overlayMaterialisedFrom : Option Uuid := none
  cancelledAt : Option String := none
  (finalizeCancelled reuseProtected : Bool := false)
  reuseProtectedAt : Option Time := none
  (reuseProtectedCancelledAt cancelPhase : Option String := none)
  mailCarryForwardFailed : Bool := false
  (mailDeltaOnly mailCarryForwardPending mailUnionCarryClaimed : Bool := false)
  (mailOverlayBase mailOverlayPrior : Option Uuid := none)
  (chatCarryForwardFailed copyRequiredFailed : Bool := false)
  copyWorkflowId : Option Uuid := none
  (copyPhase degradedReason : Option String := none)
  mailBootstrapOrigin : Option MailBootstrapOrigin := none
  copyMailCheckpointTokens : List (String × String) := []
  chatPresentationFormat : Option Int := none
  failureReason : Option String := none
  (reconcilerSettled partitionReconciled : Bool := false)
  spOverlayBase : Option Uuid := none
  (chatOverlayBase chatOverlayPrior overlayPrior archiveReusedPrior : Option Uuid := none)
  rest : String := ""
  deriving DecidableEq

structure Snapshot where
  (id resourceId : Uuid)
  jobId : Option Uuid := none
  type : Option SnapshotType := some .incremental
  status : Option SnapshotStatus := some .inProgress
  (startedAt createdAt : Option Time := none)
  (itemCount bytesTotal : Option Int := some 0)
  deltaToken : Option String := none
  deltaTokensJson : Option (List (String × String)) := some []
  extraData : SnapshotExtra := {}
  (reuseOfSnapshotId reuseChainRootId overlayBaseId leaseOwnerId : Option Uuid := none)
  leaseExpiresAt : Option Time := none
  leaseToken : Nat := 0
  hcDrainStatus : Option HcDrainStatus := some .notApplicable
  backendId : Uuid := 0
  completedAt : Option Time := none
  bytesAdded : Option Int := some 0
  deriving DecidableEq

def Snapshot.takenAt (s : Snapshot) : Option Time := s.startedAt.or s.createdAt

structure OverlayRemoval where
  snapshotId : Uuid
  itemType : ItemType
  externalId : String
  deriving DecidableEq

structure SnapshotChatInventory where
  snapshotId : Uuid
  chatId : String
  (tenantId inventoryId : Uuid)
  captureAttemptId : Option Uuid := none
  coverageStatus : String := ""
  (startedAt finishedAt : Option Time := none)
  failureReason : Option String := none
  uploadedBytes : Nat := 0
  deriving DecidableEq

structure ChatContent where
  sha256 : String
  size : Int
  (container path : String)
  (backendId objectId : Option Uuid := none)
  encryptionKeyId : Option String := none
  backupVersion : Option Int := none
  deriving DecidableEq

/-- A captured version of a chat item; `payload` is its Graph object and `createdDateTime` the time
in it. -/
structure ChatItemVersion where
  (id tenantId : Uuid)
  (chatId logicalKey : String)
  itemType : ItemType
  graphId : String
  parentGraphId : Option String := none
  (versionSha256 payload : String := "")
  createdDateTime : Option Time := none
  content : Option ChatContent := none
  deriving DecidableEq

inductive ChatBlobState
  | staging | live | deleting | deleted
  deriving DecidableEq

structure ChatBlobObject where
  (id tenantId backendId : Uuid)
  (container path sha256 : String)
  size : Int
  encryptionKeyId : Option String := none
  backupVersion : Option Int := none
  state : ChatBlobState := .staging
  captureAttemptId : Option Uuid := none
  (uploadDeadline quiescentAfter : Option Time := none)
  deletionTaskId : Option Uuid := none
  (deletionRequestedAt deletedAt : Option Time := none)
  deriving DecidableEq

structure SnapshotPartition where
  snapshotId : Uuid
  status : PartitionStatus
  mailCarryForward : Bool := false
  deriving DecidableEq

/-- The tables the modelled services share. `pinned` are the snapshots a copy workflow or a provider
row still needs (`copy_source_pinned_sql`), `copyBlobs` the blob paths in the manifests of active copy
workflows, `auditEvents` the snapshots with a deletion audit row; `nextUuid` supplies
`gen_random_uuid()`. -/
structure Db where
  snapshots : List Snapshot := []
  items : List SnapshotItem := []
  removals : List OverlayRemoval := []
  chatInventories : List SnapshotChatInventory := []
  partitions : List SnapshotPartition := []
  pinned : List Uuid := []
  copyBlobs : List String := []
  auditEvents : List Uuid := []
  resources : List Resource := []
  tenants : List Tenant := []
  platformUsers : List PlatformUser := []
  chatVersions : List ChatItemVersion := []
  chatObjects : List ChatBlobObject := []
  nextUuid : Uuid := 0
  deriving DecidableEq

end TmVault.Store
