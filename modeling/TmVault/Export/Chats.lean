import TmVault.SnapshotService.Visible

/-! `resolve` of the chat export worker: the attachments and hosted contents of the selected messages. -/

namespace TmVault.ChatExport

open Relational Store Authz Restore SnapshotService List
open Bool hiding eq_iff_iff
open Option hiding all all_eq_true filter filter_filter

inductive Selection
  | chat (chatId : String) (threadPath : Option String)
  | path (threadPath : String)
  | items (ids : List Uuid)

structure Request where
  resourceId : Uuid
  snapshotIds : List Uuid
  selection : Selection

/-- `capturedAlias` are the paths the presentation and capture tables give a snapshot's chat;
`bytesMissing` says that a captured child lacks bytes it must have. -/
structure Codec extends SnapshotService.Env where
  capturedAlias : Uuid → String → String → Bool
  bytesMissing : SnapshotItem → Bool

structure ResolvedScope where
  (attachments hosted : List SnapshotItem := [])

variable (env : Codec) (db : Db) (req : Request)

def isOwn (sid : Uuid) : Bool :=
  (db.snapshot? sid).any fun s => s.resourceId = req.resourceId ||
    db.resources.any fun r => r.id = s.resourceId && r.parentResourceId = some req.resourceId

/-- The snapshots that hold the rows of the requested ones, where these are the resource's. -/
def ownTargets : List Uuid :=
  (req.snapshotIds.map fun sid => (db.resolveTarget sid).getD sid).filter (isOwn db req)

def scopeRows (ids : List Uuid) : List SnapshotItem :=
  ids.flatMap fun sid => (db.snapshotItemsEffective sid).map ({ · with snapshotId := sid })

def pickable : List SnapshotItem :=
  if req.snapshotIds = [] then db.items.filter fun i => isOwn db req i.snapshotId
  else scopeRows db (ownTargets db req)

def messages : Option (List SnapshotItem) :=
  let ids := ownTargets db req
  match req.selection with
  | .chat c path =>
    let rows := (scopeRows db ids).filter fun i =>
      i.itemType ∈ messageTypes && messageChatId i = some c
    if ids ≠ [] && ids.length = req.snapshotIds.length && ids.all (isAvailable db) &&
        (ids.all fun s => rows.any (·.snapshotId = s) || isPublished db c s) &&
        path.all fun p => ids.all fun s =>
          (rows.any fun i => i.snapshotId = s && i.folderPath = some p) || env.capturedAlias s c p
      then some rows
    else none
  | .path p => some ((scopeRows db ids).filter fun i =>
      i.itemType ∈ messageTypes && i.folderPath = some p)
  | .items picked =>
    let rows := (pickable db req).filter (·.id ∈ picked)
    if rows = [] then none else some rows

def candidates (msgs : List SnapshotItem) (type : ItemType) : List SnapshotItem :=
  db.items.filter fun i =>
    i.itemType = type && i.parentExternalId.any (· ∈ msgs.map (·.externalId))

def isOf (tenants : List Uuid) (r : SnapshotItem) : Bool :=
  (r.tenantId.or (tenantOf db r.snapshotId)).any (· ∈ tenants)

/-- Teams message ids recur across chats and tenants; where no message has a tenant every candidate
is kept. -/
def scopedChildren (msgs : List SnapshotItem) (chat : Option String) (type : ItemType) :
    Option (List SnapshotItem) :=
  let tenants := msgs.filterMap (·.tenantId)
  let kept := if tenants = [] then candidates db msgs type
    else (candidates db msgs type).filter (isOf db tenants)
  (filterLegacyChildren db (latestFirst kept) chat).map onePerChild

def publishedFor (msgs : List SnapshotItem) : List SnapshotChatInventory :=
  db.chatInventories.filter fun p => p.snapshotId ∈ msgs.map (·.snapshotId) &&
    msgs.any fun m => m.metadata.chatIdSnake = some p.chatId

def catalogueScope (msgs : List SnapshotItem) : Option ResolvedScope := do
  let published := publishedFor db msgs
  if !msgs.all fun m => heldByCatalogue db m && published.any fun p =>
      p.snapshotId = m.snapshotId && m.metadata.chatIdSnake = some p.chatId then none
  if !published.all fun p => msgs.any fun m =>
      p.snapshotId = m.snapshotId && m.metadata.chatIdSnake = some p.chatId then none
  if published.any fun p => published.any fun q =>
      p.chatId = q.chatId && p.inventoryId ≠ q.inventoryId then none
  let hydrated ← (msgs.mapM (materializeChatItem env.toEnv db)).toOption
  if 1 < (hydrated.map (·.metadata.chatId)).dedup.length then none
  let rows := (scopeRows db (msgs.map (·.snapshotId)).dedup).filter fun i =>
    i.itemType ∈ [.chatAttachment, .chatHostedContent] && msgs.any fun m =>
      m.snapshotId = i.snapshotId && some m.externalId = i.parentExternalId
  let children ← (rows.mapM (materializeChatItem env.toEnv db)).toOption
  let children := (children.map (·.chatVersionId)).eraseDups.filterMap fun v =>
    children.find? (·.chatVersionId = v)
  if children.any env.bytesMissing then none
  some ⟨children.filter (·.itemType = .chatAttachment),
    children.filter (·.itemType ≠ .chatAttachment)⟩

def resolve : Option ResolvedScope := do
  let msgs ← messages env db req
  let chats := (msgs.map messageChatId).dedup
  if none ∈ chats || 1 < chats.length then none
  if msgs.any (heldByCatalogue db) then catalogueScope env db msgs
  else
    let attachments ← scopedChildren db msgs chats.head?.join .chatAttachment
    let hosted ← scopedChildren db msgs chats.head?.join .chatHostedContent
    some ⟨attachments, hosted⟩

def exporter (t : Uuid) : User := { tenantIds := [idText t] }

def tenantRows (t : Uuid) : Db :=
  { visible (exporter t) db with
    chatInventories := db.chatInventories.filter fun p =>
      !foreignSnapshot (exporter t) db p.snapshotId }

/-- The resource and its children are the tenant's, and a row that names a tenant names its
snapshot's. -/
structure Fit (t : Uuid) : Prop extends Consistent db where
  family : ∀ r ∈ db.resources, r.id = req.resourceId ∨ r.parentResourceId = some req.resourceId →
    r.tenantId = t
  tagged : ∀ i ∈ db.items, ∀ u ∈ i.tenantId, tenantOf db i.snapshotId = some u

structure Safe (t : Uuid) (i : SnapshotItem) : Prop where
  sees : Sees (exporter t) db i.snapshotId
  links : Links (exporter t) db i
  tenant : ∀ u ∈ i.tenantId, entitled (exporter t) u = true

/-- The messages are of a catalogue, or one of them names its tenant. -/
def Attributed : Prop := ∀ msgs, messages env db req = some msgs → msgs = [] ∨
  msgs.any (heldByCatalogue db) = true ∨ msgs.filterMap (·.tenantId) ≠ []

variable {env db req} {t sid : Uuid} {msgs : List SnapshotItem} {i : SnapshotItem}
  {chat : Option String}

section

variable (fit : Fit db req t)

include fit

theorem Fit.sees (own : isOwn db req sid = true) : Sees (exporter t) db sid := by
  refine sees_of_resource fun s hs => ?_
  rw [isOwn, hs, any_some, or_eq_true, decide_eq_true_eq] at own
  rw [foreignResource]
  cases found : resource? db s.resourceId with
  | none => rfl
  | some r =>
    obtain ⟨mem, id⟩ := (find?_key_eq_some fit.resource_ids).mp found
    have tenant : r.tenantId = t := by
      rcases own with same | child
      · exact fit.family r mem (.inl (id.trans same))
      · obtain ⟨r', mem', h⟩ := any_eq_true.mp child
        simp only [and_eq_true, decide_eq_true_eq] at h
        have : r' = r := inj_on_of_nodup_map fit.resource_ids mem' mem (h.1.trans id.symm)
        exact fit.family r mem (.inr (this ▸ h.2))
    simp [entitled, exporter, tenant]

theorem Fit.snapshot? (sees : Sees (exporter t) db sid) :
    (tenantRows db t).snapshot? sid = db.snapshot? sid :=
  visible_snapshot? fit.toConsistent sees

theorem Fit.hidden (foreign : ¬ Sees (exporter t) db sid) :
    (tenantRows db t).snapshot? sid = none ∧ isOwn db req sid = false := by
  constructor
  · refine find?_eq_none.mpr fun s hs same => foreign (sees_of_resource fun s' hs' => ?_)
    obtain ⟨mem, kept⟩ := mem_filter.mp hs
    rw [fit.snapshot?_iff.mpr ⟨mem, of_decide_eq_true same⟩] at hs'
    cases hs'
    simpa using kept
  · by_contra own
    exact foreign (fit.sees (by simpa using own))

theorem Fit.isOwn_eq : isOwn (tenantRows db t) req sid = isOwn db req sid := by
  by_cases sees : Sees (exporter t) db sid
  · have children (s : Snapshot) : ((tenantRows db t).resources.any fun r =>
        r.id = s.resourceId && r.parentResourceId = some req.resourceId) = db.resources.any fun r =>
        r.id = s.resourceId && r.parentResourceId = some req.resourceId := by
      refine any_view fun r hr h => ?_
      simp only [and_eq_true, decide_eq_true_eq] at h
      simp [entitled, exporter, fit.family r hr (.inr h.2)]
    simp only [isOwn, fit.snapshot? sees, children]
  · rw [isOwn, (fit.hidden sees).1, (fit.hidden sees).2]
    rfl

theorem Fit.target (sid : Uuid) :
    ((tenantRows db t).resolveTarget sid).getD sid = (db.resolveTarget sid).getD sid ∨
      isOwn db req (((tenantRows db t).resolveTarget sid).getD sid) = false ∧
        isOwn db req ((db.resolveTarget sid).getD sid) = false := by
  by_cases sees : Sees (exporter t) db sid
  · exact .inl (congrArg (·.getD sid) (visible_resolveTarget fit.toConsistent sees))
  obtain ⟨hidden, notOwn⟩ := fit.hidden sees
  refine .inr ⟨by rwa [Db.resolveTarget, hidden], ?_⟩
  by_contra own
  have own : isOwn db req ((db.resolveTarget sid).getD sid) = true := by simpa using own
  refine sees (sees_of_resource fun s hs => ?_)
  obtain ⟨mem, id⟩ := fit.snapshot?_iff.mp hs
  rw [Db.resolveTarget, hs, map_some, getD_some] at own
  obtain ⟨s', hs', -⟩ := (any_eq_true _ _).mp own
  have same : s'.resourceId = s.resourceId := by
    obtain ⟨mem', id'⟩ := fit.snapshot?_iff.mp hs'
    cases root : s.reuseChainRootId with
    | none =>
      rw [root, getD_none] at id'
      rw [inj_on_of_nodup_map fit.snapshot_ids mem' mem id']
    | some r =>
      rw [root, getD_some] at id'
      exact fit.same_resource s mem s' mem' (.inl (id' ▸ root))
  exact same ▸ (fit.sees own).resource hs'

theorem Fit.ownTargets_eq : ownTargets (tenantRows db t) req = ownTargets db req := by
  have own : isOwn (tenantRows db t) req = isOwn db req := funext fun _ => fit.isOwn_eq
  simp only [ownTargets, own]
  induction req.snapshotIds with
  | nil => rfl
  | cons sid ids ih =>
    rcases fit.target sid with same | ⟨no, no'⟩
    · simp only [map_cons, filter_cons, same, ih]
    · simp [no, no', ih]

theorem Fit.scopeRows_eq (sees : ∀ sid ∈ ids, Sees (exporter t) db sid) :
    scopeRows (tenantRows db t) ids = scopeRows db ids :=
  flatMap_congr fun sid hsid =>
    congrArg (List.map _) (visible_effective fit.toConsistent (sees sid hsid))

theorem Fit.safe (sees : Sees (exporter t) db i.snapshotId) (hi : i ∈ db.items) : Safe db t i := by
  refine ⟨sees, links_of_sees fit.toConsistent sees hi, fun u hu => ?_⟩
  rw [Sees, ← tenantOf_any_iff, fit.tagged i hi u hu, any_some, not_eq_false'] at sees
  exact sees

theorem Fit.safe_scopeRows
    (sees : ∀ sid ∈ ids, Sees (exporter t) db sid) (hi : i ∈ scopeRows db ids) : Safe db t i := by
  obtain ⟨sid, hsid, hi⟩ := mem_flatMap.mp hi
  obtain ⟨j, hj, rfl⟩ := mem_map.mp hi
  have own := fit.safe (sees_effective fit.toConsistent (sees sid hsid) hj) (Db.mem_effective.mp hj).1
  exact ⟨sees sid hsid, own.links, own.tenant⟩

end

variable {Row : Type} {rows : List Row} {p q : Row → Bool}

theorem all_congr_mem (h : ∀ r ∈ rows, p r = q r) : rows.all p = rows.all q := by
  rw [Bool.eq_iff_iff, all_eq_true, all_eq_true]
  exact forall₂_congr fun r hr => by rw [h r hr]

theorem any_congr_mem (h : ∀ r ∈ rows, p r = q r) : rows.any p = rows.any q := by
  rw [any_eq_not_all_not, any_eq_not_all_not, all_congr_mem fun r hr => by rw [h r hr]]

theorem Fit.held_eq (fit : Fit db req t) (safe : Safe db t i) :
    heldByCatalogue (tenantRows db t) i = heldByCatalogue db i := by
  rw [heldByCatalogue, fit.snapshot? safe.sees, heldByCatalogue]

theorem Fit.messages_eq (fit : Fit db req t) :
    messages env (tenantRows db t) req = messages env db req ∧
      ∀ msgs, messages env db req = some msgs → ∀ m ∈ msgs, Safe db t m := by
  have sees : ∀ sid ∈ ownTargets db req, Sees (exporter t) db sid :=
    fun sid hsid => fit.sees (mem_filter.mp hsid).2
  have safe {p : SnapshotItem → Bool} : ∀ m ∈ (scopeRows db (ownTargets db req)).filter p,
      Safe db t m := fun m hm => fit.safe_scopeRows sees (mem_filter.mp hm).1
  have available : (ownTargets db req).all (isAvailable (tenantRows db t)) =
      (ownTargets db req).all (isAvailable db) :=
    all_congr_mem fun s hs => by rw [isAvailable, fit.snapshot? (sees s hs), isAvailable]
  have published (c : String) (rows : List SnapshotItem) :
      ((ownTargets db req).all fun s =>
        rows.any (·.snapshotId = s) || isPublished (tenantRows db t) c s) =
      (ownTargets db req).all fun s => rows.any (·.snapshotId = s) || isPublished db c s := by
    refine all_congr_mem fun s hs => congrArg (_ || ·) ?_
    rw [isPublished, fit.snapshot? (sees s hs), isPublished]
    refine congrArg (· && _) (any_view fun p _ hp => ?_)
    simp only [and_eq_true, decide_eq_true_eq] at hp
    rw [hp.1, sees s hs]
    rfl
  have picked : pickable (tenantRows db t) req = pickable db req ∧
      ∀ m ∈ pickable db req, Safe db t m := by
    simp only [pickable, fit.ownTargets_eq, fit.scopeRows_eq sees, fit.isOwn_eq]
    split
    · refine ⟨filter_view fun i _ own => by rw [fit.sees own]; rfl, fun m hm => ?_⟩
      obtain ⟨mem, own⟩ := mem_filter.mp hm
      exact fit.safe (fit.sees own) mem
    · exact ⟨rfl, fun m hm => fit.safe_scopeRows sees hm⟩
  refine ⟨by simp only [messages, fit.ownTargets_eq, fit.scopeRows_eq sees, available, published,
    picked.1], fun msgs h m hm => ?_⟩
  simp only [messages] at h
  split at h
  · split at h
    · exact safe m (Option.some.inj h ▸ hm)
    · cases h
  · exact safe m (Option.some.inj h ▸ hm)
  · split at h
    · cases h
    · exact picked.2 m (mem_filter.mp (Option.some.inj h ▸ hm)).1

theorem childChatId_eq (sees : Sees (exporter t) db i.snapshotId) :
    childChatId (tenantRows db t) i = childChatId db i := by
  have same : parents (tenantRows db t) i = parents db i := by
    refine filter_view fun p _ hp => ?_
    simp only [and_eq_true, decide_eq_true_eq] at hp
    rw [hp.1, sees]
    rfl
  rw [childChatId, same, childChatId]

theorem filterLegacyChildren_eq {rows : List SnapshotItem}
    (sees : ∀ r ∈ rows, Sees (exporter t) db r.snapshotId) :
    filterLegacyChildren (tenantRows db t) rows chat = filterLegacyChildren db rows chat := by
  have same (r) (hr : r ∈ rows) := childChatId_eq (sees r hr)
  have kept : (rows.filter fun r => childChatId (tenantRows db t) r = chat) =
      rows.filter fun r => childChatId db r = chat :=
    filter_congr fun r hr => by rw [same r hr]
  have lost : (rows.any fun r => childChatId (tenantRows db t) r = none) =
      rows.any fun r => childChatId db r = none :=
    any_congr_mem fun r hr => by rw [same r hr]
  rw [filterLegacyChildren, filterLegacyChildren, kept, lost]

theorem Fit.scopedChildren_eq (fit : Fit db req t) (safe : ∀ m ∈ msgs, Safe db t m)
    (named : msgs = [] ∨ msgs.filterMap (·.tenantId) ≠ []) :
    scopedChildren (tenantRows db t) msgs chat type = scopedChildren db msgs chat type := by
  rcases named with rfl | named
  · simp [scopedChildren, candidates, latestFirst, filterLegacyChildren]
  have ours (r : SnapshotItem) (hr : r ∈ db.items)
      (kept : isOf db (msgs.filterMap (·.tenantId)) r = true) : Sees (exporter t) db r.snapshotId := by
    obtain ⟨u, hu, mem⟩ := (any_eq_true _ _).mp kept
    obtain ⟨m, hm, tenant⟩ := mem_filterMap.mp (of_decide_eq_true mem)
    have holder : tenantOf db r.snapshotId = some u := by
      cases own : r.tenantId with
      | none => rwa [own, none_or] at hu
      | some v =>
        rw [own, some_or] at hu
        exact fit.tagged r hr u (own.trans hu)
    rw [Sees, ← tenantOf_any_iff, holder, any_some, (safe m hm).tenant u tenant]
    rfl
  have tenant (r : SnapshotItem) (hr : r ∈ (tenantRows db t).items) :
      tenantOf (tenantRows db t) r.snapshotId = tenantOf db r.snapshotId := by
    have sees : Sees (exporter t) db r.snapshotId := by
      rw [Sees]
      simpa using (mem_filter.mp hr).2
    rw [tenantOf, fit.snapshot? sees, tenantOf]
    cases hs : db.snapshot? r.snapshotId with
    | none => rfl
    | some s => exact congrArg (Option.map _) (visible_resource? fit.toConsistent (sees.resource hs))
  have kept (tenants : List Uuid) (hours : tenants = msgs.filterMap (·.tenantId)) :
      (candidates (tenantRows db t) msgs type).filter (isOf (tenantRows db t) tenants) =
        (candidates db msgs type).filter (isOf db tenants) := by
    subst hours
    rw [filter_congr fun r hr => by
      rw [isOf, tenant r (mem_filter.mp hr).1, ← isOf]]
    rw [candidates, candidates, filter_filter, filter_filter]
    refine filter_view fun r hr selected => ?_
    rw [ours r hr (and_eq_true_iff.mp selected).1]
    rfl
  simp only [scopedChildren, if_neg named, kept _ rfl]
  rw [filterLegacyChildren_eq]
  intro r hr
  obtain ⟨mem, kept⟩ := mem_filter.mp ((mem_insertionSort _).mp hr)
  exact ours r (mem_filter.mp mem).1 kept

theorem Fit.catalogueScope_eq (fit : Fit db req t) (safe : ∀ m ∈ msgs, Safe db t m) :
    catalogueScope env (tenantRows db t) msgs = catalogueScope env db msgs := by
  have sees (sid : Uuid) (h : sid ∈ (msgs.map (·.snapshotId)).dedup) :
      Sees (exporter t) db sid := by
    obtain ⟨m, hm, rfl⟩ := mem_map.mp (mem_dedup.mp h)
    exact (safe m hm).sees
  have published : publishedFor (tenantRows db t) msgs = publishedFor db msgs := by
    refine filter_view fun p _ hp => ?_
    simp only [and_eq_true, decide_eq_true_eq] at hp
    rw [sees _ (mem_dedup.mpr hp.1)]
    rfl
  have held (q : SnapshotItem → Bool) : (msgs.all fun m => heldByCatalogue (tenantRows db t) m && q m) =
      msgs.all fun m => heldByCatalogue db m && q m :=
    all_congr_mem fun m hm => by rw [fit.held_eq (safe m hm)]
  have hydrates (rows : List SnapshotItem) (safe : ∀ i ∈ rows, Safe db t i) :
      rows.mapM (materializeChatItem env.toEnv (tenantRows db t)) =
        rows.mapM (materializeChatItem env.toEnv db) :=
    mapM_congr fun i hi => visible_materialize fit.toConsistent (safe i hi).sees (safe i hi).links
  have rows := fit.scopeRows_eq sees
  simp only [catalogueScope, published, held, hydrates msgs safe, rows]
  rw [hydrates _ fun i hi => fit.safe_scopeRows sees (mem_filter.mp hi).1]

theorem Fit.resolve_eq (fit : Fit db req t) (named : Attributed env db req) :
    resolve env (tenantRows db t) req = resolve env db req := by
  obtain ⟨same, safe⟩ := @Fit.messages_eq env _ _ _ fit
  rw [resolve, same, resolve]
  cases found : messages env db req with
  | none => rfl
  | some msgs =>
    have safe := safe msgs found
    have held : msgs.any (heldByCatalogue (tenantRows db t)) = msgs.any (heldByCatalogue db) :=
      any_congr_mem fun m hm => fit.held_eq (safe m hm)
    simp only [bind_eq_bind, bind_some, held, fit.catalogueScope_eq safe]
    rcases named msgs found with none | catalogue | tenants
    · simp only [fit.scopedChildren_eq safe (.inl none)]
    · simp only [catalogue, if_true]
    · simp only [fit.scopedChildren_eq safe (.inr tenants)]

theorem export_within_tenant {db' : Db} (fit : Fit db req t) (fit' : Fit db' req t)
    (named : Attributed env db req) (named' : Attributed env db' req)
    (agree : tenantRows db t = tenantRows db' t) : resolve env db req = resolve env db' req := by
  rw [← fit.resolve_eq named, agree, fit'.resolve_eq named']

def bareCodec : Codec where
  toEnv := bareEnv
  capturedAlias _ _ _ := false
  bytesMissing _ := false

def annThread : Request := { resourceId := 10, snapshotIds := [100], selection := .path "chats/ann" }

def chatRow (id sid : Uuid) (type : ItemType) (name : String) (tenant : Option Uuid) :
    SnapshotItem :=
  { id, snapshotId := sid, itemType := type, externalId := name, parentExternalId := some "17",
    folderPath := some "chats/ann", metadata := { chatId := some "c" }, tenantId := tenant }

def chatDb (tenant : Option Uuid) (bob : List SnapshotItem) : Db where
  resources := [{ id := 10, tenantId := 1, type := .userChats, externalId := "ann" },
    { id := 20, tenantId := 2, type := .userChats, externalId := "bob" }]
  snapshots := [{ id := 100, resourceId := 10 }, { id := 200, resourceId := 20 }]
  items := chatRow 1000 100 .teamsChatMessage "17" tenant ::
    chatRow 1001 100 .chatAttachment "plan" tenant :: bob

def bobFile : SnapshotItem := chatRow 2001 200 .chatAttachment "salary" none

theorem untagged_export_leaks :
    Fit (chatDb none []) annThread 1 ∧ Fit (chatDb none [bobFile]) annThread 1 ∧
      tenantRows (chatDb none []) 1 = tenantRows (chatDb none [bobFile]) 1 ∧
      (resolve bareCodec (chatDb none []) annThread).map (·.attachments.map (·.externalId)) =
        some ["plan"] ∧
      (resolve bareCodec (chatDb none [bobFile]) annThread).map (·.attachments.map (·.externalId)) =
        some ["plan", "salary"] :=
  ⟨⟨by decide +kernel, by decide, by decide +kernel⟩, ⟨by decide +kernel, by decide, by decide +kernel⟩,
    by decide +kernel, by decide +kernel, by decide +kernel⟩

theorem tagged_export_agrees : resolve bareCodec (chatDb (some 1) []) annThread =
      resolve bareCodec (chatDb (some 1) [bobFile]) annThread := by
  have attributed (bob : List SnapshotItem) (found : (messages bareCodec (chatDb (some 1) bob)
      annThread).map (·.filterMap (·.tenantId)) = some [1]) :
      Attributed bareCodec (chatDb (some 1) bob) annThread := by
    intro msgs h
    rw [h] at found
    exact .inr (.inr (by simp [Option.some.inj found]))
  exact export_within_tenant (t := 1) ⟨by decide +kernel, by decide, by decide +kernel⟩
    ⟨by decide +kernel, by decide, by decide +kernel⟩ (attributed _ (by decide +kernel))
    (attributed _ (by decide +kernel)) (by decide +kernel)

end TmVault.ChatExport
