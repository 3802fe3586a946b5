import TmVault.Store.Effective

namespace TmVault.Authz

open Store

inductive Role
  | superAdmin | orgAdmin | tenantAdmin | legacyTenantAdmin | backupOperator | restoreOperator
  | other (name : String)
  deriving DecidableEq

structure User where
  (id email : Option String := none)
  roles : List Role := []
  tenantIds : List String := []
  deriving DecidableEq

structure HttpError where
  status : Nat
  error : String
  deriving DecidableEq

def authRequired : HttpError := ⟨401, "AUTH_REQUIRED"⟩

def authDenied : HttpError := ⟨403, "AUTH_DENIED"⟩

def adminRoles : List Role := [.superAdmin, .orgAdmin, .tenantAdmin, .legacyTenantAdmin]

def exportOperatorRoles : List Role := adminRoles ++ [.backupOperator, .restoreOperator]

def isExportOperator (user : User) : Bool := user.roles.any (· ∈ exportOperatorRoles)

def isSuperAdmin (user : User) : Bool := .superAdmin ∈ user.roles

def hasSubject (user : User) : Bool := user.id.any (· ≠ "")

def subjectUuid (user : User) : Option Uuid := Text.parseUuid ((user.id.getD "None").toList)

def entitledTenantIdsForUser (db : Db) (user : PlatformUser) : List Uuid :=
  let live := db.tenants.filter (·.archivedAt.isNone)
  match user.tenantId, user.orgId with
  | some pin, _ => (live.filter (·.id = pin)).map (·.id)
  | none, some org => (live.filter (·.orgId = some org)).map (·.id)
  | none, none => []

def resolveEntitledTenantIds (db : Db) (subject : Option Uuid) : List Uuid :=
  match subject.bind fun id => db.platformUsers.find? (·.id = id) with
  | none => []
  | some user => entitledTenantIdsForUser db user

def entitledTenants (db : Db) (user : User) : List Uuid :=
  let claimed := user.tenantIds.filterMap fun raw => Text.parseUuid raw.toList
  if claimed ≠ [] then claimed else resolveEntitledTenantIds db (subjectUuid user)

def normalised (value : String) : List Char :=
  (Text.strip Text.isSpace value.toList).map Char.toLower

def addresses (res : Resource) : List String :=
  [res.email, res.extraData.userPrincipalNameSnake, res.extraData.userPrincipalName].filterMap id

def ownsResource (db : Db) (user : User) (res : Resource) : Bool :=
  let email := normalised (user.email.getD "")
  let parent := res.parentResourceId.bind fun id => db.resources.find? (·.id = id)
  email ≠ [] && (res :: parent.toList).any fun row =>
    (addresses row).any fun value => value ≠ "" && normalised value = email

def ensureTenant (entitled : List Uuid) (user : User) (tenant : Option Uuid) :
    Except HttpError Bool :=
  if !hasSubject user then .error authRequired
  else if tenant.any (· ∈ entitled) then .ok false
  else if !isSuperAdmin user then .error authDenied
  else .ok true

def authorizeTarget (db : Db) (entitled : List Uuid) (user : User) (res : Resource) :
    Except HttpError Unit := do
  if ← ensureTenant entitled user (some res.tenantId) then .ok ()
  else if isExportOperator user then .ok ()
  else if ownsResource db user res then .ok ()
  else .error authDenied

def authorizeTargets (db : Db) (user : User) (targets : List Resource) :
    Except HttpError Unit :=
  if !hasSubject user then .error authRequired
  else targets.forM (authorizeTarget db (entitledTenants db user) user)

def MayUse (db : Db) (user : User) (res : Resource) : Prop :=
  res.tenantId ∈ entitledTenants db user ∧ (isExportOperator user = true ∨ ownsResource db user res = true)
    ∨ isSuperAdmin user = true

instance (db : Db) (user : User) (res : Resource) : Decidable (MayUse db user res) :=
  inferInstanceAs (Decidable (_ ∨ _))

section

variable {db : Db} {user : User} {res : Resource} {targets : List Resource}

theorem isExportOperator_of_isSuperAdmin (h : isSuperAdmin user = true) :
    isExportOperator user = true :=
  List.any_eq_true.mpr ⟨.superAdmin, of_decide_eq_true h, by decide⟩

theorem authorizeTarget_ok (subject : hasSubject user = true) :
    authorizeTarget db (entitledTenants db user) user res = .ok () ↔ MayUse db user res := by
  rw [authorizeTarget, ensureTenant, subject, MayUse]
  by_cases entitled : res.tenantId ∈ entitledTenants db user
  · cases operator : isExportOperator user <;> cases owns : ownsResource db user res <;>
      cases breakGlass : isSuperAdmin user <;> simp_all [bind, Except.bind]
    exact absurd (isExportOperator_of_isSuperAdmin breakGlass) (by simp [operator])
  · cases breakGlass : isSuperAdmin user <;> simp_all [bind, Except.bind]

theorem authorizeTargets_ok : authorizeTargets db user targets = .ok () ↔
    hasSubject user = true ∧ ∀ res ∈ targets, MayUse db user res := by
  rw [authorizeTargets]
  cases subject : hasSubject user with
  | false => simp
  | true =>
    rw [Bool.not_true, if_neg (by simp), Relational.forM_ok]
    simp only [authorizeTarget_ok subject, true_and]

end

open Relational List

def uuidOr400 (kind value : String) : Except HttpError Uuid :=
  match Text.parseUuid value.toList with
  | some id => .ok id
  | none => .error ⟨400, "INVALID_" ++ kind⟩

section

structure Scope where
  (resourceIds snapshotIds itemIds : List Uuid := [])
  deriving DecidableEq

def Scope.snapshots (scope : Scope) (db : Db) : List Uuid :=
  scope.snapshotIds ++ (db.items.filter (·.id ∈ scope.itemIds)).map (·.snapshotId)

def Scope.resources (scope : Scope) (db : Db) : List Uuid :=
  scope.resourceIds ++ (db.snapshots.filter (·.id ∈ scope.snapshots db)).map (·.resourceId)

def resolveScope (strict : Bool) (db : Db) (scope : Scope) : Except HttpError (List Resource) :=
  if strict && (scope.snapshots db).any (· ∉ db.snapshots.map (·.id)) then
    .error ⟨404, "SNAPSHOT_NOT_FOUND"⟩
  else if (scope.resources db).any (· ∉ db.resources.map (·.id)) then
    if strict && scope.snapshots db = [] && scope.itemIds = [] then
      .error ⟨404, "RESOURCE_NOT_FOUND"⟩
    else .error authDenied
  else .ok (db.resources.filter (·.id ∈ scope.resources db))

def parseScope (resourceIds : List Uuid) (snapshotIds itemIds : List String) :
    Except HttpError Scope := do
  let snapshotIds ← snapshotIds.mapM (uuidOr400 "SNAPSHOT_ID")
  let itemIds ← itemIds.mapM (uuidOr400 "ITEM_ID")
  .ok { resourceIds, snapshotIds, itemIds }

def resolveExportTargets (strict : Bool) (db : Db) (resourceIds : List Uuid)
    (snapshotIds itemIds : List String) : Except HttpError (List Resource) := do
  let scope ← parseScope resourceIds snapshotIds itemIds
  resolveScope strict db scope

def authorizeExportScope (db : Db) (user : User) (snapshotIds itemIds : List String) :
    Except HttpError (List Resource) := do
  if !hasSubject user then .error authRequired
  else
    let targets ← resolveExportTargets true db [] snapshotIds itemIds
    if targets = [] then .error ⟨400, "SCOPE_EMPTY"⟩
    else
      authorizeTargets db user targets
      .ok targets

variable {strict : Bool} {db : Db} {scope : Scope} {targets : List Resource} {user : User}

theorem resolveScope_ok (h : resolveScope strict db scope = .ok targets) :
    targets = db.resources.filter (·.id ∈ scope.resources db) ∧
      (∀ rid ∈ scope.resources db, rid ∈ targets.map (·.id)) ∧
      (strict = true → ∀ sid ∈ scope.snapshots db, sid ∈ db.snapshots.map (·.id)) := by
  rw [resolveScope] at h
  split at h
  · cases h
  · rename_i found
    split at h
    · split at h <;> cases h
    · rename_i readable
      cases h
      simp only [any_eq_true, decide_eq_true_eq, not_exists, not_and, not_not] at readable
      refine ⟨rfl, ?_, ?_⟩
      · intro rid hrid
        obtain ⟨res, hres, rfl⟩ := mem_map.mp (readable rid hrid)
        exact mem_map_of_mem (mem_filter.mpr ⟨hres, decide_eq_true hrid⟩)
      · intro hstrict sid hsid
        by_contra missing
        exact found (by simp only [hstrict, Bool.true_and, any_eq_true, decide_eq_true_eq]
                        exact ⟨sid, hsid, missing⟩)

theorem authorizeExportScope_ne_nil
    (h : authorizeExportScope db user snapshotIds itemIds = .ok targets) : targets ≠ [] := by
  rw [authorizeExportScope] at h
  split at h
  · cases h
  obtain ⟨resolved, _, h⟩ := of_bind h
  split at h
  · cases h
  · rename_i nonempty
    obtain ⟨_, _, h⟩ := of_bind h
    cases h
    exact nonempty

end

structure Destinations where
  targetUserId : Option String := none
  targetResourceId : Option String := none
  (targetEnvironmentId newSiteName newSiteAlias newSiteOwnerEmail : Option String := none)
  azureRestoreParams : List (String × String) := []
  deriving DecidableEq

def destinationResourceKeys : List String := ["targetUserId", "targetResourceId"]

def destinationOperatorKeys : List String :=
  ["targetEnvironmentId", "newSiteName", "newSiteAlias", "newSiteOwnerEmail", "azureRestoreParams"]

def nonDestinationSpecKeys : List String :=
  ["exportFormat", "includeAttachments", "preserveTree", "scope", "folderPaths", "excludedItemIds",
    "contactFolders", "workloads", "chatId", "format", "pstGranularity", "pstIncludeTypes",
    "includeNestedDetail", "entraSections", "includeGroupMembership", "includeAuMembership",
    "conflictMode", "targetFolder", "overwrite", "recoverMode", "azureRestoreMode"]

def specKeys : List String :=
  nonDestinationSpecKeys ++ destinationResourceKeys ++ destinationOperatorKeys

def isDestinationShaped (key : String) : Bool :=
  ["target", "destination", "restoreto", "restore_to", "newsite", "new_site", "newowner",
    "new_owner"].any fun shape => shape.toList.isPrefixOf (key.toList.map Char.toLower)

def assertDestinationsClassified (keys : List String) : Except HttpError Unit :=
  if keys.any fun key => key ∉ specKeys && isDestinationShaped key then
    .error ⟨500, "DESTINATION_KEY_UNCLASSIFIED"⟩
  else .ok ()

def isSet (value : Option String) : Bool := value.any (· ≠ "")

def Destinations.unownable (dest : Destinations) : Bool :=
  isSet dest.targetEnvironmentId || isSet dest.newSiteName || isSet dest.newSiteAlias ||
    isSet dest.newSiteOwnerEmail || dest.azureRestoreParams ≠ []

def wantedTarget (value : Option String) : Except HttpError (Option Uuid) :=
  if isSet value then some <$> uuidOr400 "TARGET_ID" (value.getD "") else .ok none

def authorizeWanted (db : Db) (user : User) (wanted : List Uuid) :
    Except HttpError (List Resource) := do
  let found := db.resources.filter (·.id ∈ wanted)
  if wanted.any (· ∉ found.map (·.id)) then .error authDenied
  else
    authorizeTargets db user found
    .ok found

def authorizeRestoreDestinations (db : Db) (user : User) (keys : List String)
    (dest : Destinations) : Except HttpError (Option Resource × Option Resource) := do
  assertDestinationsClassified keys
  if !hasSubject user then .error authRequired
  else if dest.unownable && !isExportOperator user then .error authDenied
  else
    let userId ← wantedTarget dest.targetUserId
    let resourceId ← wantedTarget dest.targetResourceId
    let found ← authorizeWanted db user (userId.toList ++ resourceId.toList)
    .ok (userId.bind fun id => found.find? (·.id = id),
      resourceId.bind fun id => found.find? (·.id = id))

section

variable {db : Db} {user : User} {keys : List String} {dest : Destinations}

theorem uuidOr400_ok {kind value : String} {id : Uuid} :
    uuidOr400 kind value = .ok id ↔ Text.parseUuid value.toList = some id := by
  rw [uuidOr400]
  split <;> simp_all

theorem wantedTarget_ok {value : Option String} {id : Option Uuid} (h : wantedTarget value = .ok id) :
    isSet value = id.isSome ∧ ∀ x ∈ id, x < 2 ^ 128 := by
  rw [wantedTarget] at h
  split at h
  · rename_i set
    obtain ⟨id', hid, h⟩ := of_bind ((map_eq_pure_bind _ _).symm.trans h)
    cases h
    exact ⟨set, fun x hx => Option.some_inj.mp hx ▸ Text.parseUuid_lt (uuidOr400_ok.mp hid)⟩
  · rename_i unset
    cases h
    exact ⟨by simpa using unset, fun x hx => nomatch hx⟩

theorem authorizeWanted_ok (h : authorizeWanted db user wanted = .ok found) :
    (∀ res ∈ found, res ∈ db.resources ∧ MayUse db user res) ∧
      ∀ id ∈ wanted, (found.find? (·.id = id)).isSome := by
  simp only [authorizeWanted] at h
  split at h
  · cases h
  · rename_i known
    simp only [any_eq_true, decide_eq_true_eq, not_exists, not_and, not_not] at known
    obtain ⟨_, allowed, h⟩ := of_bind h
    cases h
    refine ⟨fun res hres => ⟨mem_of_mem_filter hres, (authorizeTargets_ok.mp allowed).2 res hres⟩,
      fun id hid => ?_⟩
    obtain ⟨res, hres, rfl⟩ := mem_map.mp (known id hid)
    exact find?_isSome.mpr ⟨res, hres, by simp⟩

theorem authorizeRestoreDestinations_ok
    (h : authorizeRestoreDestinations db user keys dest = .ok (u, r)) :
    (∀ res, res ∈ u ∨ res ∈ r → res ∈ db.resources ∧ MayUse db user res ∧ res.id < 2 ^ 128) ∧
      isSet dest.targetUserId = u.isSome ∧ isSet dest.targetResourceId = r.isSome := by
  rw [authorizeRestoreDestinations] at h
  obtain ⟨_, _, h⟩ := of_bind h
  split at h
  · cases h
  split at h
  · cases h
  obtain ⟨userId, huser, resourceId, hresource, found, hfound, h⟩ := of_bind₃ h
  obtain ⟨setUser, boundUser⟩ := wantedTarget_ok huser
  obtain ⟨setResource, boundResource⟩ := wantedTarget_ok hresource
  obtain ⟨may, present⟩ := authorizeWanted_ok hfound
  have row {id : Option Uuid} {res : Resource} (bound : ∀ x ∈ id, x < 2 ^ 128)
      (hres : res ∈ id.bind fun id => found.find? (·.id = id)) :
      res ∈ db.resources ∧ MayUse db user res ∧ res.id < 2 ^ 128 := by
    obtain ⟨id, hid, hres⟩ := Option.bind_eq_some_iff.mp hres
    obtain ⟨stored, allowed⟩ := may res (mem_of_find?_eq_some hres)
    have : res.id = id := of_find? hres
    exact ⟨stored, allowed, this ▸ bound id hid⟩
  have known {id : Option Uuid} (hid : ∀ x ∈ id, x ∈ userId.toList ++ resourceId.toList) :
      id.isSome = (id.bind fun id => found.find? (·.id = id)).isSome := by
    cases id with
    | none => rfl
    | some x => exact (present x (hid x rfl)).symm
  cases h
  refine ⟨fun res => Or.rec (row boundUser) (row boundResource), ?_, ?_⟩
  · rw [setUser, known fun x hx => by simp_all]
  · rw [setResource, known fun x hx => by simp_all]

end

open Text

structure RestoreRequest extends Destinations where
  restoreType : Option String := none
  snapshotIds : List String := []
  (itemIds folderPaths excludedItemIds workloads pstIncludeTypes entraSections : List String := [])
  azureRestoreMode : Option String := none
  (chatId recoverMode scope selectionScope restoreScope exportScope : Option String := none)

inductive Route
  | restore | export

inductive DeclaredScope
  | selected | all
  deriving DecidableEq

def stripText (value : Option String) : List Char := strip isSpace (value.getD "").toList

def declares (value : Option String) : Option DeclaredScope :=
  let word := String.ofList ((stripText value).map Char.toUpper)
  if word ∈ ["SELECTED", "SELECTION", "ITEMS"] then some .selected
  else if word ∈ ["ALL", "FULL", "EVERYTHING", "WHOLE"] then some .all
  else none

def declaredScope (req : RestoreRequest) : Option DeclaredScope :=
  (declares req.selectionScope).or ((declares req.restoreScope).or (declares req.exportScope))

def impliesFullScope (req : RestoreRequest) : Bool :=
  String.ofList ((stripText req.recoverMode).map Char.toLower) ∈ ["directory", "all", "full"] ||
    String.ofList ((stripText req.scope).map Char.toLower) = "site" || req.workloads ≠ [] ||
    req.entraSections ≠ [] || req.folderPaths ≠ [] || req.azureRestoreParams ≠ [] ||
    isSet req.azureRestoreMode || isSet req.newSiteName

def assertSelectionNotEmpty (explicit : Bool) (req : RestoreRequest) : Except HttpError Unit :=
  if req.chatId.isSome then
    if stripText req.chatId = [] || req.itemIds ≠ [] || 1 < req.folderPaths.length ||
        req.restoreType = some "EXPORT_PST" then .error ⟨400, "INVALID_CHAT_SELECTION"⟩
    else .ok ()
  else if req.itemIds ≠ [] || req.folderPaths ≠ [] || declaredScope req = some .all ||
      impliesFullScope req || (declaredScope req = none && !explicit) then .ok ()
  else .error ⟨400, "SELECTION_EMPTY"⟩

structure ScopeStamp where
  version : Nat
  resourceIds : List String
  scopeSha : String
  deriving DecidableEq

/-- `Job.spec`: what the worker reads, and the stamp. The chat router spells the ids in camel case. -/
structure JobSpec where
  restoreType : String := ""
  snapshotIds : List String := []
  itemIds : List String := []
  camelSnapshotIds : List String := []
  (camelItemIds folderPaths excludedItemIds workloads pstIncludeTypes : List String := [])
  chatId : Option String := none
  destinations : Destinations := {}
  authorizedScope : Option ScopeStamp := none
  deriving DecidableEq

structure Job where
  (tenantId resourceId : Option Uuid := none)
  spec : JobSpec := {}
  deriving DecidableEq

def idText (id : Uuid) : String := String.ofList (formatUuid id)

def lower (value : String) : String := String.ofList (value.toList.map Char.toLower)

def sortedIds (values : List String) : String :=
  String.intercalate "," ((values.dedup.map lower).insertionSort (· ≤ ·))

def scopeText (spec : JobSpec) (resourceId : Option Uuid) : String :=
  String.intercalate "\x1f" [sortedIds (spec.snapshotIds ++ spec.camelSnapshotIds),
    sortedIds (spec.itemIds ++ spec.camelItemIds), (resourceId.map idText).getD ""]

theorem parse_idText {id : Uuid} (h : id < 2 ^ 128) : parseUuid (idText id).toList = some id := by
  rw [idText, String.toList_ofList]
  exact parseUuid_formatUuid h

theorem lower_idText (id : Uuid) : lower (idText id) = idText id := by
  have digit : ∀ v < 16, (hexDigit v).toLower = hexDigit v := by decide
  have fixed : ∀ c ∈ formatUuid id, c.toLower = c := by
    intro c hc
    rcases of_mem_formatUuid hc with ⟨v, hv, rfl⟩ | rfl
    · exact digit v hv
    · rfl
  rw [lower, idText, String.toList_ofList, List.map_congr_left fixed, List.map_id']

def authorizedScopeStamp (sha : String → String) (spec : JobSpec) (resourceId : Option Uuid)
    (resourceIds : List Uuid) : ScopeStamp where
  version := 1
  resourceIds := ((resourceIds.map fun id => lower (idText id)).dedup).insertionSort (· ≤ ·)
  scopeSha := sha (scopeText spec resourceId)

def firstId (ids : List String) : Option Uuid := ids.head?.bind fun id => parseUuid id.toList

def sourceSnapshot (db : Db) (req : RestoreRequest) : Option Snapshot :=
  ((firstId req.snapshotIds).bind db.snapshot?).or
    ((firstId req.itemIds).bind fun id =>
      (db.items.find? (·.id = id)).bind fun item => db.snapshot? item.snapshotId)

def backfilledSnapshotIds (db : Db) (req : RestoreRequest) : List String :=
  if req.snapshotIds = [] then ((sourceSnapshot db req).map fun s => idText s.id).toList
  else req.snapshotIds

def Route.specKeys : Route → List String
  | .restore => Authz.specKeys.filter fun key =>
      key ∉ ["includeAttachments", "scope", "pstGranularity", "pstIncludeTypes"]
  | .export => ["restore_type", "snapshot_ids", "item_ids"] ++ Authz.specKeys ++ ["userId", "userEmail"]

def canonical (row : Option Resource) (raw : Option String) : Option String :=
  (row.map fun res => idText res.id).or raw

structure Authorization where
  targets : List Resource
  (user resource : Option Resource)
  deriving DecidableEq

def Authorization.ids (auth : Authorization) : List Uuid :=
  (auth.targets ++ (auth.user.toList ++ auth.resource.toList)).map (·.id)

def authorize (route : Route) (db : Db) (caller : User) (req : RestoreRequest) :
    Except HttpError Authorization := do
  let targets ← authorizeExportScope db caller req.snapshotIds req.itemIds
  let (user, resource) ← authorizeRestoreDestinations db caller route.specKeys req.toDestinations
  .ok { targets, user, resource }

def buildSpec (route : Route) (db : Db) (req : RestoreRequest) (auth : Authorization) : JobSpec where
  restoreType := req.restoreType.getD (match route with
    | .restore => "IN_PLACE"
    | .export => "EXPORT_ZIP")
  snapshotIds := backfilledSnapshotIds db req
  itemIds := req.itemIds
  folderPaths := req.folderPaths
  excludedItemIds := req.excludedItemIds
  workloads := req.workloads
  chatId := req.chatId
  -- the restore route's own spec leaves this key out
  pstIncludeTypes := match route with
    | .restore => []
    | .export => req.pstIncludeTypes
  destinations := { req.toDestinations with
    targetUserId := canonical auth.user req.targetUserId
    targetResourceId := canonical auth.resource req.targetResourceId }

def queuedJob (route : Route) (sha : String → String) (db : Db) (req : RestoreRequest)
    (auth : Authorization) : Job :=
  let spec := buildSpec route db req auth
  let resourceId := (sourceSnapshot db req).map (·.resourceId)
  { tenantId := (resourceId.bind fun id => db.resources.find? (·.id = id)).map (·.tenantId)
    resourceId
    spec := { spec with authorizedScope := some (authorizedScopeStamp sha spec resourceId auth.ids) } }

def trigger (route : Route) (explicit : Bool) (sha : String → String) (db : Db) (caller : User)
    (req : RestoreRequest) : Except HttpError Job := do
  assertSelectionNotEmpty explicit req
  let auth ← authorize route db caller req
  .ok (queuedJob route sha db req auth)

variable {route : Route} {explicit : Bool} {sha : String → String} {db : Db} {caller : User}
  {req : RestoreRequest}

theorem trigger_ok (h : trigger route explicit sha db caller req = .ok job) :
    ∃ auth, authorize route db caller req = .ok auth ∧ job = queuedJob route sha db req auth := by
  rw [trigger] at h
  obtain ⟨_, _, auth, hauth, h⟩ := of_bind₂ h
  cases h
  exact ⟨auth, hauth, rfl⟩

theorem authorize_ok (h : authorize route db caller req = .ok auth) :
    authorizeExportScope db caller req.snapshotIds req.itemIds = .ok auth.targets ∧
      authorizeRestoreDestinations db caller route.specKeys req.toDestinations =
        .ok (auth.user, auth.resource) := by
  obtain ⟨targets, htargets, ⟨user, resource⟩, hdest, h⟩ := of_bind₂ h
  cases h
  exact ⟨htargets, hdest⟩

open List

section

variable (sha : String → String) (db : Db)

def specSnapshotIds (spec : JobSpec) : List String := (spec.snapshotIds ++ spec.camelSnapshotIds).dedup

def specItemIds (spec : JobSpec) : List String := (spec.itemIds ++ spec.camelItemIds).dedup

def stampIds (job : Job) : Option (List Uuid) :=
  job.spec.authorizedScope.bind fun stamp =>
    if stamp.version = 1 && stamp.scopeSha = sha (scopeText job.spec job.resourceId) then
      stamp.resourceIds.mapM fun raw => Text.parseUuid raw.toList
    else none

def stampedScope (job : Job) : Option (List Uuid) :=
  (stampIds sha job).bind fun ids =>
    if ids = [] then none else some (ids ++ job.resourceId.toList)

def targetsFromStamp (job : Job) : Option (List Resource) :=
  (stampedScope sha job).bind fun wanted =>
    if wanted.all (· ∈ db.resources.map (·.id)) then some (db.resources.filter (·.id ∈ wanted))
    else none

def namedScope (job : Job) : Except HttpError Scope :=
  parseScope job.resourceId.toList (specSnapshotIds job.spec) (specItemIds job.spec)

def accessTargets (job : Job) : Except HttpError (List Resource) :=
  match targetsFromStamp sha db job with
  | some targets => .ok targets
  | none => do
    let scope ← namedScope job
    resolveScope false db scope

def ensureJobAccess (user : User) (job : Job) : Except HttpError Unit := do
  if ← ensureTenant (entitledTenants db user) user job.tenantId then .ok ()
  else
    let targets ← accessTargets sha db job
    if targets = [] then
      if isExportOperator user then .ok () else .error authDenied
    else authorizeTargets db user targets

end

def Owns (db : Db) (user : User) (rid : Uuid) : Prop :=
  ∃ res ∈ db.resources, res.id = rid ∧ ownsResource db user res = true

instance (db : Db) (user : User) (rid : Uuid) : Decidable (Owns db user rid) :=
  inferInstanceAs (Decidable (∃ _ ∈ _, _))

structure Kept (job job' : Job) : Prop where
  resourceId : job'.resourceId = job.resourceId
  snapshotIds : job'.spec.snapshotIds = job.spec.snapshotIds
  camelSnapshotIds : job'.spec.camelSnapshotIds = job.spec.camelSnapshotIds
  itemIds : job'.spec.itemIds = job.spec.itemIds
  camelItemIds : job'.spec.camelItemIds = job.spec.camelItemIds

variable {route : Route} {explicit : Bool} {sha : String → String} {db db' : Db} {caller user : User}
  {req : RestoreRequest} {auth : Authorization} {job job' : Job} {targets : List Resource}
  {scope : Scope} {rid : Uuid}

theorem admitted_owns_targets (ordinary : isExportOperator user = false)
    (admitted : ensureJobAccess sha db user job = .ok ()) :
    ∃ targets, accessTargets sha db job = .ok targets ∧
      ∀ res ∈ targets, ownsResource db user res = true := by
  have noBreakGlass : isSuperAdmin user = false := by
    rw [Bool.eq_false_iff]
    intro h
    rw [isExportOperator_of_isSuperAdmin h] at ordinary
    cases ordinary
  obtain ⟨breakGlass, tenant, admitted⟩ := of_bind admitted
  cases breakGlass with
  | true =>
    rw [ensureTenant] at tenant
    split at tenant
    · cases tenant
    split at tenant
    · cases tenant
    · simp [noBreakGlass] at tenant
  | false =>
    obtain ⟨targets, htargets, admitted⟩ := of_bind admitted
    refine ⟨targets, htargets, ?_⟩
    split at admitted
    · simp [ordinary] at admitted
    · intro res hres
      rcases (authorizeTargets_ok.mp admitted).2 res hres with ⟨-, operator | owns⟩ | breakGlass
      · rw [ordinary] at operator
        cases operator
      · exact owns
      · rw [noBreakGlass] at breakGlass
        cases breakGlass

theorem mem_authorizedScopeStamp (bounded : ∀ id ∈ ids, id < 2 ^ 128) :
    ∃ stamped, ((authorizedScopeStamp sha spec resourceId ids).resourceIds.mapM fun raw =>
      Text.parseUuid raw.toList) = some stamped ∧ ∀ id, id ∈ stamped ↔ id ∈ ids := by
  have text {raw : String} : raw ∈ (authorizedScopeStamp sha spec resourceId ids).resourceIds ↔
      ∃ id ∈ ids, idText id = raw := by
    simp [authorizedScopeStamp, lower_idText]
  have parses : ∀ raw ∈ (authorizedScopeStamp sha spec resourceId ids).resourceIds,
      ∃ id, Text.parseUuid raw.toList = some id := by
    intro raw hraw
    obtain ⟨id, hid, rfl⟩ := text.mp hraw
    exact ⟨id, parse_idText (bounded id hid)⟩
  obtain ⟨stamped, parsed, mem⟩ := mapM_some parses
  refine ⟨stamped, parsed, fun id => ?_⟩
  rw [mem]
  constructor
  · rintro ⟨raw, hraw, hid⟩
    obtain ⟨id', hid', rfl⟩ := text.mp hraw
    rw [parse_idText (bounded id' hid')] at hid
    cases hid
    exact hid'
  · exact fun hid => ⟨idText id, text.mpr ⟨id, hid, rfl⟩, parse_idText (bounded id hid)⟩

theorem scopeText_of_kept (kept : Kept job job') (rid : Option Uuid) :
    scopeText job'.spec rid = scopeText job.spec rid := by
  rw [scopeText, scopeText, kept.snapshotIds, kept.camelSnapshotIds, kept.itemIds, kept.camelItemIds]

section

variable (bounded : ∀ rid ∈ auth.ids, rid < 2 ^ 128)
  (kept : Kept (queuedJob route sha db req auth) job')
  (stamp : job'.spec.authorizedScope = (queuedJob route sha db req auth).spec.authorizedScope)

include bounded kept stamp

theorem stampIds_of_kept : ∃ stamped, stampIds sha job' = some stamped ∧
    ∀ rid, rid ∈ stamped ↔ rid ∈ auth.ids := by
  obtain ⟨stamped, parsed, mem⟩ := mem_authorizedScopeStamp bounded
  refine ⟨stamped, ?_, mem⟩
  have same : sha (scopeText job'.spec job'.resourceId) =
      sha (scopeText (buildSpec route db req auth) ((sourceSnapshot db req).map (·.resourceId))) := by
    rw [scopeText_of_kept kept, kept.resourceId]
    rfl
  rw [stampIds, stamp, same]
  exact (if_pos (by simp [authorizedScopeStamp])).trans parsed

theorem mem_targetsFromStamp (h : targetsFromStamp sha db' job' = some targets)
    (hrid : rid ∈ auth.ids) : ∃ res ∈ targets, res.id = rid := by
  obtain ⟨stamped, hstamped, mem⟩ := stampIds_of_kept bounded kept stamp
  obtain ⟨wanted, hwanted, h⟩ := Option.bind_eq_some_iff.mp h
  rw [stampedScope, hstamped, Option.bind_some] at hwanted
  split at hwanted
  · cases hwanted
  · cases hwanted
    split at h
    · rename_i readable
      cases h
      have hwanted := mem_append_left job'.resourceId.toList ((mem rid).mpr hrid)
      have live := all_eq_true.mp readable rid hwanted
      obtain ⟨res, hres, rfl⟩ := mem_map.mp (of_decide_eq_true live)
      exact ⟨res, mem_filter.mpr ⟨hres, decide_eq_true hwanted⟩, rfl⟩
    · cases h

theorem targetsFromStamp_of_readable (nonempty : auth.ids ≠ [])
    (readable : ∀ rid ∈ auth.ids ++ job'.resourceId.toList, rid ∈ db'.resources.map (·.id)) :
    (targetsFromStamp sha db' job').isSome := by
  obtain ⟨stamped, hstamped, mem⟩ := stampIds_of_kept bounded kept stamp
  have some : stamped ≠ [] := by
    rintro rfl
    obtain ⟨rid, hrid⟩ := exists_mem_of_ne_nil _ nonempty
    exact absurd ((mem rid).mpr hrid) not_mem_nil
  have all : (stamped ++ job'.resourceId.toList).all (· ∈ db'.resources.map (·.id)) = true := by
    rw [all_eq_true]
    intro rid hrid
    refine decide_eq_true (readable rid ?_)
    rw [mem_append, ← mem, ← mem_append]
    exact hrid
  rw [targetsFromStamp, stampedScope, hstamped, Option.bind_some, if_neg some, Option.bind_some,
    if_pos all]
  rfl

end

theorem live_of_accessTargets (h : accessTargets sha db job = .ok targets) :
    ∀ res ∈ targets, res ∈ db.resources := by
  intro res hres
  rw [accessTargets] at h
  split at h
  · rename_i stamped used
    cases h
    obtain ⟨wanted, -, used⟩ := Option.bind_eq_some_iff.mp used
    split at used
    · cases used
      exact mem_of_mem_filter hres
    · cases used
  · obtain ⟨scope, -, h⟩ := of_bind h
    rw [(resolveScope_ok h).1] at hres
    exact mem_of_mem_filter hres

theorem mem_accessTargets (none : targetsFromStamp sha db' job' = none)
    (named : namedScope job' = .ok scope) (h : accessTargets sha db' job' = .ok targets)
    (hrid : rid ∈ scope.resources db') : ∃ res ∈ targets, res.id = rid := by
  rw [accessTargets, none] at h
  obtain ⟨scope', hscope, h⟩ := of_bind h
  cases named.symm.trans hscope
  exact mem_map.mp ((resolveScope_ok h).2.1 rid hrid)

/-- An admitted ordinary caller owns all the job was authorized for exactly when the stamp and its rows
are still there, or what the surviving rows no longer name is theirs anyway. -/
theorem admitted_owns_scope_iff (created : trigger route explicit sha db caller req = .ok job)
    (gate : authorize route db caller req = .ok auth) (bounded : ∀ rid ∈ auth.ids, rid < 2 ^ 128)
    (kept : Kept job job')
    (stamp : job'.spec.authorizedScope = job.spec.authorizedScope ∨ stampIds sha job' = none)
    (named : namedScope job' = .ok scope) (ordinary : isExportOperator user = false)
    (admitted : ensureJobAccess sha db' user job' = .ok ()) :
    (∀ rid ∈ auth.ids, Owns db' user rid) ↔
      (job'.spec.authorizedScope = job.spec.authorizedScope ∧
        ∀ rid ∈ auth.ids ++ job'.resourceId.toList, rid ∈ db'.resources.map (·.id)) ∨
      ∀ rid ∈ auth.ids, rid ∈ scope.resources db' ∨ Owns db' user rid := by
  obtain ⟨auth', gate', rfl⟩ := trigger_ok created
  cases gate.symm.trans gate'
  constructor
  · exact fun owns => .inr fun rid hrid => .inr (owns rid hrid)
  · intro condition rid hrid
    obtain ⟨targets, htargets, owns⟩ := admitted_owns_targets ordinary admitted
    have owned (h : ∃ res ∈ targets, res.id = rid) : Owns db' user rid := by
      obtain ⟨res, hres, same⟩ := h
      exact ⟨res, live_of_accessTargets htargets res hres, same, owns res hres⟩
    cases used : targetsFromStamp sha db' job' with
    | some stamped =>
      have intact := stamp.resolve_right fun lost => by
        rw [targetsFromStamp, stampedScope, lost] at used
        cases used
      rw [accessTargets, used] at htargets
      cases htargets
      exact owned (mem_targetsFromStamp bounded kept intact used hrid)
    | none =>
      rcases condition with ⟨intact, readable⟩ | survives
      · have nonempty : auth.ids ≠ [] := by
          have := authorizeExportScope_ne_nil (authorize_ok gate).1
          simp [Authorization.ids, this]
        have := targetsFromStamp_of_readable bounded kept intact nonempty readable
        rw [used] at this
        cases this
      · rcases survives rid hrid with survives | owns
        · exact owned (mem_accessTargets used named htargets survives)
        · exact owns

def mailboxes : Db where
  resources := [
    { id := 11, tenantId := 1, type := .userMail, externalId := "ann:mail", email := some "ann@x.io" },
    { id := 12, tenantId := 1, type := .userMail, externalId := "bob:mail", email := some "bob@x.io" }]
  snapshots := [{ id := 21, resourceId := 11, status := some .completed, createdAt := some 5 },
    { id := 22, resourceId := 12, status := some .completed, createdAt := some 5 }]

def afterOffboarding : Db where
  resources := mailboxes.resources.take 1
  snapshots := mailboxes.snapshots.take 1

def helpdesk : User where
  id := some "helpdesk"
  roles := [.restoreOperator]
  tenantIds := ["00000000-0000-0000-0000-000000000001"]

def ordinaryAnn : User where
  id := some "ann"
  email := some "ann@x.io"
  tenantIds := ["00000000-0000-0000-0000-000000000001"]

def bothMailboxes : RestoreRequest where
  snapshotIds := ["00000000-0000-0000-0000-000000000015", "00000000-0000-0000-0000-000000000016"]

def bothAuthorized : Authorization := ⟨mailboxes.resources, none, none⟩

def bothJob : Job := queuedJob .export (fun _ => "") mailboxes bothMailboxes bothAuthorized

def annMailbox : RestoreRequest where
  snapshotIds := ["00000000-0000-0000-0000-000000000015"]

def annAuthorized : Authorization := ⟨mailboxes.resources.take 1, none, none⟩

def annMailboxJob : Job := queuedJob .export (fun _ => "") mailboxes annMailbox annAuthorized

/-- Ann is still admitted to the export of her own mailbox, and owns all of it. -/
theorem own_export_admitted :
    ensureJobAccess (fun _ => "") afterOffboarding ordinaryAnn annMailboxJob = .ok () ∧
      ∀ rid ∈ annAuthorized.ids, Owns afterOffboarding ordinaryAnn rid := by
  have created : trigger .export false (fun _ => "") mailboxes helpdesk annMailbox =
      .ok annMailboxJob := by decide +kernel
  have gate : authorize .export mailboxes helpdesk annMailbox = .ok annAuthorized := by
    decide +kernel
  have named : namedScope annMailboxJob = .ok ⟨[11], [21], []⟩ := by decide +kernel
  have admitted : ensureJobAccess (fun _ => "") afterOffboarding ordinaryAnn annMailboxJob =
      .ok () := by decide +kernel
  have readable : ∀ rid ∈ annAuthorized.ids ++ annMailboxJob.resourceId.toList,
      rid ∈ afterOffboarding.resources.map (·.id) := by decide +kernel
  exact ⟨admitted, (admitted_owns_scope_iff created gate (by decide) ⟨rfl, rfl, rfl, rfl, rfl⟩
    (.inl rfl) named (by decide) admitted).mpr (.inl ⟨rfl, readable⟩)⟩

/-- An operator's export of both mailboxes is handed to Ann once Bob's rows are gone: the stamped
row is missing, and the full walk finds hers only. -/
theorem both_export_admits_ann :
    trigger .export false (fun _ => "") mailboxes helpdesk bothMailboxes = .ok bothJob ∧
      authorize .export mailboxes helpdesk bothMailboxes = .ok bothAuthorized ∧
      ensureJobAccess (fun _ => "") mailboxes ordinaryAnn bothJob = .error authDenied ∧
      ensureJobAccess (fun _ => "") afterOffboarding ordinaryAnn bothJob = .ok () ∧
      12 ∈ bothAuthorized.ids ∧ ¬ Owns mailboxes ordinaryAnn 12 := by
  decide +kernel

end TmVault.Authz
