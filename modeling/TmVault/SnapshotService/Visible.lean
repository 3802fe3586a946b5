import TmVault.SnapshotService.Guard

namespace TmVault.SnapshotService

open Relational Store Authz Restore List Db
open Option hiding any any_eq_true map mem_map

def entitled (user : User) (tenant : Uuid) : Bool := idText tenant ∈ user.tenantIds

def foreignResource (user : User) (db : Db) (rid : Uuid) : Bool :=
  (resource? db rid).any fun resource => !entitled user resource.tenantId

def foreignSnapshot (user : User) (db : Db) (sid : Uuid) : Bool :=
  (db.snapshot? sid).any fun s => foreignResource user db s.resourceId

def visible (user : User) (db : Db) : Db where
  snapshots := db.snapshots.filter fun s => !foreignResource user db s.resourceId
  items := db.items.filter fun i => !foreignSnapshot user db i.snapshotId
  removals := db.removals.filter fun r => !foreignSnapshot user db r.snapshotId
  resources := db.resources.filter fun resource => entitled user resource.tenantId
  chatVersions := db.chatVersions.filter fun version => entitled user version.tenantId
  chatObjects := db.chatObjects.filter fun obj => entitled user obj.tenantId

/-- Primary and foreign keys, and chat rows that link to captured versions of their own tenant, whose
bytes lie in objects of that tenant. -/
structure Consistent (db : Db) : Prop extends Coherent db where
  resource_ids : (db.resources.map (·.id)).Nodup
  owned : ∀ s ∈ db.snapshots, ∃ resource ∈ db.resources, resource.id = s.resourceId
  linked : ∀ i ∈ db.items, ∀ version ∈ db.chatVersions, i.chatVersionId = some version.id →
    tenantOf db i.snapshotId = some version.tenantId
  stored : ∀ version ∈ db.chatVersions, ∀ obj ∈ db.chatObjects,
    version.content.bind (·.objectId) = some obj.id → obj.tenantId = version.tenantId

instance (db : Db) : Decidable (Consistent db) :=
  decidable_of_iff (Coherent db ∧ _ ∧ _ ∧ _ ∧ _)
    ⟨fun ⟨a, b, c, d, e⟩ => ⟨a, b, c, d, e⟩, fun ⟨a, b, c, d, e⟩ => ⟨a, b, c, d, e⟩⟩

def Sees (user : User) (db : Db) (sid : Uuid) : Prop := foreignSnapshot user db sid = false

def Links (user : User) (db : Db) (i : SnapshotItem) : Prop :=
  ∀ version ∈ db.chatVersions, i.chatVersionId = some version.id →
    entitled user version.tenantId = true

section

variable {user : User} {db : Db} {sid : Uuid} {s : Snapshot} {i : SnapshotItem}

theorem tenantOf_any_iff : (tenantOf db sid).any (!entitled user ·) = foreignSnapshot user db sid := by
  rw [tenantOf, foreignSnapshot]
  cases db.snapshot? sid with
  | none => rfl
  | some s =>
    rw [bind_some, any_some, foreignResource]
    cases resource? db s.resourceId <;> rfl

theorem Consistent.snapshot?_iff (c : Consistent db) :
    db.snapshot? sid = some s ↔ s ∈ db.snapshots ∧ s.id = sid :=
  find?_key_eq_some c.snapshot_ids

theorem Sees.resource (sees : Sees user db sid) (hs : db.snapshot? sid = some s) :
    foreignResource user db s.resourceId = false := by
  rw [Sees, foreignSnapshot, hs] at sees
  exact sees

theorem sees_of_resource (h : ∀ s, db.snapshot? sid = some s →
    foreignResource user db s.resourceId = false) : Sees user db sid := by
  rw [Sees, foreignSnapshot]
  cases hs : db.snapshot? sid with
  | none => rfl
  | some s => exact h s hs

theorem Sees.of_same_resource (sees : Sees user db sid) (hs : db.snapshot? sid = some s)
    (h : ∀ t, db.snapshot? target = some t → t.resourceId = s.resourceId) : Sees user db target :=
  sees_of_resource fun t ht => by rw [h t ht, sees.resource hs]

theorem visible_snapshot? (c : Consistent db) (sees : Sees user db sid) :
    (visible user db).snapshot? sid = db.snapshot? sid := by
  apply find?_view
  intro s hs selected
  have found := c.snapshot?_iff.mpr ⟨hs, of_decide_eq_true selected⟩
  rw [sees.resource found]
  rfl

theorem visible_resource? (c : Consistent db)
    (h : foreignResource user db rid = false) : resource? (visible user db) rid = resource? db rid := by
  apply find?_view
  intro resource hr selected
  have found : resource? db rid = some resource :=
    (find?_key_eq_some c.resource_ids).mpr ⟨hr, of_decide_eq_true selected⟩
  rw [foreignResource, found, any_some, Bool.not_eq_false'] at h
  exact h

theorem links_of_sees (c : Consistent db) (seen : Sees user db i.snapshotId) (hi : i ∈ db.items) :
    Links user db i := by
  intro version hv link
  have tenant := c.linked i hi version hv link
  rw [Sees, ← tenantOf_any_iff, tenant, any_some, Bool.not_eq_false'] at seen
  exact seen

variable (c : Consistent db) (sees : Sees user db sid)

include c sees

theorem sees_resolveTarget (h : db.resolveTarget sid = some target) : Sees user db target := by
  obtain ⟨s, hs, rfl⟩ := map_eq_some_iff.mp h
  refine sees.of_same_resource hs fun t ht => ?_
  obtain ⟨stored, id⟩ := c.snapshot?_iff.mp hs
  cases root : s.reuseChainRootId with
  | none =>
    rw [root, getD_none, id, hs] at ht
    cases ht
    rfl
  | some r =>
    rw [root, getD_some] at ht
    obtain ⟨mem, rfl⟩ := c.snapshot?_iff.mp ht
    exact c.same_resource s stored t mem (.inl root)

theorem sees_resolveBase (h : db.resolveBase sid = some base) : Sees user db base := by
  obtain ⟨t, ht, h⟩ := bind_eq_some_iff.mp h
  obtain ⟨s, hs, h⟩ := bind_eq_some_iff.mp h
  refine (sees_resolveTarget c sees ht).of_same_resource hs fun b hb => ?_
  obtain ⟨mem, rfl⟩ := c.snapshot?_iff.mp hb
  exact c.same_resource s (c.snapshot?_iff.mp hs).1 b mem (.inr h)

theorem visible_resolveTarget : (visible user db).resolveTarget sid = db.resolveTarget sid := by
  rw [resolveTarget, visible_snapshot? c sees, resolveTarget]

theorem visible_resolveBase : (visible user db).resolveBase sid = db.resolveBase sid := by
  rw [resolveBase, visible_resolveTarget c sees, resolveBase]
  cases ht : db.resolveTarget sid with
  | none => rfl
  | some t =>
    rw [bind_some, bind_some, visible_snapshot? c (sees_resolveTarget c sees ht)]

omit c in
theorem visible_owns (k : ItemKey) : (visible user db).owns sid k = db.owns sid k := by
  apply any_view
  intro i _ selected
  simp only [Bool.and_eq_true, decide_eq_true_eq] at selected
  rw [selected.1, sees]
  rfl

omit c in
theorem visible_removed (k : ItemKey) : (visible user db).removed sid k = db.removed sid k := by
  apply any_view
  intro r _ selected
  simp only [Bool.and_eq_true, decide_eq_true_eq] at selected
  rw [selected.1, sees]
  rfl

omit c in
theorem visible_inherited (seesBase : Sees user db base) :
    (visible user db).inherited sid base = db.inherited sid base := by
  funext b
  simp only [inherited, parentVisible, visible_owns sees, visible_owns seesBase,
    visible_removed sees]

theorem sees_effective (hi : i ∈ db.snapshotItemsEffective sid) : Sees user db i.snapshotId := by
  obtain ⟨-, t, ht, held | ⟨b, hb, inherited⟩⟩ := mem_effective.mp hi
  · exact held ▸ sees_resolveTarget c sees ht
  · exact (inherited_iff.mp inherited).1 ▸ sees_resolveBase c sees hb

theorem visible_effective :
    (visible user db).snapshotItemsEffective sid = db.snapshotItemsEffective sid := by
  have rows {p : SnapshotItem → Bool} (h : ∀ i, p i = true → Sees user db i.snapshotId) :
      (visible user db).items.filter p = db.items.filter p :=
    filter_view fun i _ hi => by rw [h i hi]; rfl
  rw [snapshotItemsEffective, visible_resolveTarget c sees, visible_resolveBase c sees,
    snapshotItemsEffective]
  cases ht : db.resolveTarget sid with
  | none => rfl
  | some t =>
    have seesTarget := sees_resolveTarget c sees ht
    have held : (visible user db).items.filter (·.snapshotId = t) =
        db.items.filter (·.snapshotId = t) :=
      rows fun i hi => (of_decide_eq_true hi : i.snapshotId = t) ▸ seesTarget
    simp only [held]
    cases hb : db.resolveBase sid with
    | none => rfl
    | some b =>
      have seesBase := sees_resolveBase c sees hb
      simp only
      rw [visible_inherited seesTarget seesBase,
        rows fun i hi => (inherited_iff.mp hi).1 ▸ seesBase]

theorem links_effective (hi : i ∈ db.snapshotItemsEffective sid) : Links user db i :=
  links_of_sees c (sees_effective c sees hi) (mem_effective.mp hi).1

theorem visible_chatRows : chatRows (visible user db) [sid] = chatRows db [sid] := by
  simp only [chatRows, resolvesToOverlay, any_cons, any_nil, flatMap_cons,
    flatMap_nil, visible_resolveBase c sees, visible_effective c sees]
  split
  · rfl
  · refine filter_view fun i _ hi => ?_
    rw [mem_singleton.mp (of_decide_eq_true hi), sees]
    rfl

theorem links_chatRows (hi : i ∈ chatRows db [sid]) : Links user db i := by
  rw [chatRows] at hi
  split at hi
  · simp only [flatMap_cons, flatMap_nil, append_nil, mem_map] at hi
    obtain ⟨j, hj, rfl⟩ := hi
    exact fun version hv link => links_effective c sees hj version hv link
  · obtain ⟨stored, hi⟩ := mem_filter.mp hi
    have held : i.snapshotId = sid := mem_singleton.mp (of_decide_eq_true hi)
    exact links_of_sees c (held ▸ sees) stored

end

open Text

variable {user : User} {db : Db} {env : Env} {sid iid : String} {id : Uuid} {i : SnapshotItem}
  {query : Query} {endpoint : Endpoint} {version : ChatItemVersion} {path : Path} {download : Bool}
  {catalogue : Snapshot}

theorem parse_of_uuid (h : uuid sid = .ok id) : parseUuid sid.toList = some id := by
  rw [uuid] at h
  split at h
  · cases h
  · cases h
    assumption

theorem visible_version? (links : Links user db i) :
    version? (visible user db) i = version? db i := by
  rw [version?, version?]
  cases link : i.chatVersionId with
  | none => rfl
  | some v =>
    apply find?_view
    intro version hv selected
    exact links version hv (by rw [link, of_decide_eq_true selected])

theorem version?_mem (h : version? db i = some version) :
    version ∈ db.chatVersions ∧ i.chatVersionId = some version.id := by
  obtain ⟨v, link, found⟩ := bind_eq_some_iff.mp h
  have : version.id = v := of_find? found
  exact ⟨mem_of_find?_eq_some found, this ▸ link⟩

section

variable (c : Consistent db) (hv : version ∈ db.chatVersions)
  (entitled : entitled user version.tenantId = true)

include c hv entitled

theorem visible_object? {object : Uuid} (h : version.content.bind (·.objectId) = some object) :
    (visible user db).chatObjects.find? (·.id = object) =
      db.chatObjects.find? (·.id = object) := by
  apply find?_view
  intro obj ho selected
  have tenant := c.stored version hv obj ho (by rw [h, of_decide_eq_true selected])
  rw [tenant, entitled]

theorem visible_contentAvailable
    {content : ChatContent} {tenantId : Option Uuid} (h : version.content = some content) :
    contentAvailable (visible user db) tenantId content = contentAvailable db tenantId content := by
  rw [contentAvailable, contentAvailable]
  cases object : content.objectId with
  | none => rfl
  | some object =>
    rw [all_some, all_some, visible_object? c hv entitled (by rw [h, bind_some, object])]

end

theorem visible_materialize (c : Consistent db) (seen : Sees user db i.snapshotId)
    (links : Links user db i) :
    materializeChatItem env (visible user db) i = materializeChatItem env db i := by
  simp only [materializeChatItem, visible_snapshot? c seen, visible_version? links]
  cases hv : version? db i with
  | none => cases i.chatVersionId <;> rfl
  | some version =>
    obtain ⟨mem, link⟩ := version?_mem hv
    cases hc : version.content with
    | none => simp only [link, hc, all_none]
    | some content =>
      simp only [link, hc, all_some, visible_contentAvailable c mem (links version mem link) hc]

theorem visible_brokenLink (links : Links user db i) :
    brokenLink (visible user db) i = brokenLink db i := by
  rw [brokenLink, brokenLink, visible_version? links]

section

variable (c : Consistent db)

include c

theorem visible_catalogueSource (seen : Sees user db id) {s : Snapshot}
    (hs : db.snapshot? id = some s) : catalogueSource (visible user db) s = catalogueSource db s ∧
      Sees user db (catalogueSource db s).id := by
  have own : Sees user db s.id := by rwa [(c.snapshot?_iff.mp hs).2]
  simp only [catalogueSource]
  cases root : s.reuseChainRootId with
  | none => exact ⟨rfl, own⟩
  | some r =>
    have target : db.resolveTarget id = some r := by
      rw [Db.resolveTarget, hs, map_some, root, getD_some]
    have seesRoot := sees_resolveTarget c seen target
    simp only [visible_snapshot? c seesRoot, true_and]
    split
    · cases hr : db.snapshot? r with
      | none => exact own
      | some t => rwa [getD_some, (c.snapshot?_iff.mp hr).2]
    · exact own

variable (sees : ∀ id, parseUuid sid.toList = some id → Sees user db id)

include sees

theorem visible_catalogueSnapshot :
    catalogueSnapshot (visible user db) sid = catalogueSnapshot db sid := by
  rw [catalogueSnapshot, catalogueSnapshot]
  refine bind_congr_ok fun id parsed => ?_
  have seen := sees id (parse_of_uuid parsed)
  simp only [visible_snapshot? c seen]
  cases hs : db.snapshot? id with
  | none => rfl
  | some s => simp only [(visible_catalogueSource c seen hs).1]

theorem sees_catalogue (h : catalogueSnapshot db sid = .ok (some catalogue)) :
    Sees user db catalogue.id := by
  obtain ⟨id, parsed, h⟩ := of_bind h
  have seen := sees id (parse_of_uuid parsed)
  split at h
  · cases h
  · rename_i s hs
    simp only at h
    split at h
    · cases h
    · split at h
      · cases h
      · cases h
        exact (visible_catalogueSource c seen hs).2

theorem visible_powerBi :
    getPowerBiAssembledItems (visible user db) sid = getPowerBiAssembledItems db sid := by
  rw [getPowerBiAssembledItems, getPowerBiAssembledItems]
  refine bind_congr_ok fun id parsed => ?_
  have seen := sees id (parse_of_uuid parsed)
  simp only [visible_snapshot? c seen]
  cases hs : db.snapshot? id with
  | none => rfl
  | some s =>
    have own := seen.resource hs
    have snapshots (q : Snapshot → Bool) :
        (visible user db).snapshots.filter (fun t => t.resourceId = s.resourceId && q t) =
          db.snapshots.filter fun t => t.resourceId = s.resourceId && q t := by
      refine filter_view fun t _ ht => ?_
      rw [Bool.and_eq_true, decide_eq_true_eq] at ht
      rw [ht.1, own]
      rfl
    simp only [visible_resource? c own, Bool.and_assoc, snapshots]
    -- The snapshots replayed are of the resource too, so their rows are visible.
    generalize hrows : db.snapshots.filter _ = rows
    have items : (visible user db).items.filter (·.snapshotId ∈ rows.map (·.id)) =
        db.items.filter (·.snapshotId ∈ rows.map (·.id)) := by
      refine filter_view fun i _ hi => ?_
      obtain ⟨t, ht, held⟩ := mem_map.mp (of_decide_eq_true hi)
      rw [← hrows, mem_filter, Bool.and_eq_true, decide_eq_true_eq] at ht
      have found := c.snapshot?_iff.mpr ⟨ht.1, held⟩
      rw [foreignSnapshot, found, any_some, ht.2.1, own]
      rfl
    simp only [items]

end

theorem snapshotId_chatRows {sid : Uuid} (hi : i ∈ chatRows db [sid]) : i.snapshotId = sid := by
  rw [chatRows] at hi
  split at hi
  · simp only [flatMap_cons, flatMap_nil, append_nil, mem_map] at hi
    obtain ⟨j, -, rfl⟩ := hi
    rfl
  · exact mem_singleton.mp (of_decide_eq_true (mem_filter.mp hi).2)

theorem mem_pageOf {Row : Type} {rows : List Row} {row : Row} (h : row ∈ pageOf query rows) :
    row ∈ rows :=
  mem_of_mem_drop (mem_of_mem_take h)

section

variable (c : Consistent db)

include c

theorem visible_catalogueItemResponse (sees : Sees user db catalogue.id) :
    catalogueItemResponse env (visible user db) catalogue query =
      catalogueItemResponse env db catalogue query := by
  have links {i : SnapshotItem} : i ∈ chatRows db [catalogue.id] → Links user db i :=
    links_chatRows c sees
  have broken : (chatRows db [catalogue.id]).any (brokenLink (visible user db)) =
      (chatRows db [catalogue.id]).any (brokenLink db) := by
    rw [Bool.eq_iff_iff, any_eq_true, any_eq_true]
    exact exists_congr fun i => and_congr_right fun hi => by rw [visible_brokenLink (links hi)]
  have rows : linkedRows (visible user db) catalogue.id = linkedRows db catalogue.id := by
    rw [linkedRows, visible_chatRows c sees, linkedRows]
    exact filterMap_congr fun i hi => by rw [visible_version? (links hi)]
  simp only [catalogueItemResponse, visible_chatRows c sees, broken, rows]
  split
  · rfl
  · rw [mapM_congr]
    intro row hrow
    have linked := (mem_filter.mp ((mem_insertionSort _).mp (mem_pageOf hrow))).1
    obtain ⟨i, hi, found⟩ := mem_filterMap.mp linked
    obtain ⟨version, -, rfl⟩ := map_eq_some_iff.mp found
    exact visible_materialize c (snapshotId_chatRows hi ▸ sees) (links hi)

theorem visible_itemsScope (seen : Sees user db id) :
    itemsScope (visible user db) id = itemsScope db id := by
  rw [itemsScope, itemsScope, visible_resolveTarget c seen]
  cases ht : db.resolveTarget id with
  | none => rfl
  | some t =>
    have seesTarget := sees_resolveTarget c seen ht
    rw [bind_some, bind_some, visible_snapshot? c seesTarget]
    cases hs : db.snapshot? t with
    | none => rfl
    | some target =>
      have : Sees user db target.id := by rwa [(c.snapshot?_iff.mp hs).2]
      simp only [map_some, visible_effective c this]

theorem sees_itemsScope (seen : Sees user db id) {scope : SnapshotItem → Bool}
    (h : itemsScope db id = some scope) (hi : i ∈ db.items) (selected : scope i = true) :
    Sees user db i.snapshotId := by
  obtain ⟨t, ht, h⟩ := bind_eq_some_iff.mp h
  obtain ⟨target, hs, rfl⟩ := map_eq_some_iff.mp h
  have own : Sees user db target.id := by
    rw [(c.snapshot?_iff.mp hs).2]
    exact sees_resolveTarget c seen ht
  cases overlay : target.overlayBaseId with
  | none =>
    rw [overlay] at selected
    exact (of_decide_eq_true selected : i.snapshotId = target.id) ▸ own
  | some base =>
    rw [overlay] at selected
    obtain ⟨j, hj, same⟩ := mem_map.mp (of_decide_eq_true selected)
    obtain rfl := inj_on_of_nodup_map c.item_ids (Db.mem_effective.mp hj).1 hi same
    exact sees_effective c own hj

section

variable (sees : ∀ id, parseUuid sid.toList = some id → Sees user db id)

include sees

theorem visible_listSnapshotItems :
    listSnapshotItems env (visible user db) sid query = listSnapshotItems env db sid query := by
  rw [listSnapshotItems, listSnapshotItems]
  split
  · rfl
  rw [visible_catalogueSnapshot c sees, visible_powerBi c sees]
  refine bind_congr_ok fun catalogue hc => ?_
  cases catalogue with
  | some catalogue => exact visible_catalogueItemResponse c (sees_catalogue c sees hc)
  | none =>
    refine bind_congr_ok fun assembled _ => ?_
    cases assembled with
    | some assembled => rfl
    | none =>
      refine bind_congr_ok fun id parsed => ?_
      have seen := sees id (parse_of_uuid parsed)
      simp only [visible_itemsScope c seen]
      cases hs : itemsScope db id with
      | none => rfl
      | some scope =>
        have rows : (visible user db).items.filter (fun i => scope i && ofItemType query i) =
            db.items.filter fun i => scope i && ofItemType query i := by
          refine filter_view fun i hi selected => ?_
          rw [Bool.and_eq_true] at selected
          rw [sees_itemsScope c seen hs hi selected.1]
          rfl
        simp only [rows]

theorem visible_itemInSnapshot :
    itemInSnapshot (visible user db) id sid = itemInSnapshot db id sid := by
  rw [itemInSnapshot, itemInSnapshot]
  cases parsed : parseUuid sid.toList with
  | none => rfl
  | some s => rw [any_some, any_some, visible_effective c (sees s parsed)]

theorem sees_itemInSnapshot (hi : i ∈ db.items)
    (h : itemInSnapshot db i.id sid = true) : Sees user db i.snapshotId := by
  obtain ⟨s, parsed, h⟩ := (Option.any_eq_true _ _).mp h
  obtain ⟨j, hj, same⟩ := any_eq_true.mp h
  obtain rfl := inj_on_of_nodup_map c.item_ids (Db.mem_effective.mp hj).1 hi
    (of_decide_eq_true same)
  exact sees_effective c (sees s parsed) hj

/-- A handler that looks a row up and answers alike when there is none and when it is not in the
snapshot reads visible rows only. -/
theorem visible_item {missing : Except HttpError Reply}
    {found found' : SnapshotItem → Except HttpError Reply}
    (same : ∀ i ∈ db.items, Sees user db i.snapshotId → found' i = found i) :
    (match (visible user db).items.find? (·.id = id) with
      | none => missing
      | some i => if !itemInSnapshot (visible user db) i.id sid then missing else found' i) =
    match db.items.find? (·.id = id) with
      | none => missing
      | some i => if !itemInSnapshot db i.id sid then missing else found i := by
  have key {i : SnapshotItem} : db.items.find? (·.id = id) = some i ↔ i ∈ db.items ∧ i.id = id :=
    find?_key_eq_some c.item_ids
  cases hi : db.items.find? (·.id = id) with
  | none =>
    have gone : (visible user db).items.find? (·.id = id) = none := by
      rw [find?_eq_none] at hi ⊢
      exact fun i mem => hi i (mem_filter.mp mem).1
    rw [gone]
  | some i =>
    obtain ⟨mem, rfl⟩ := key.mp hi
    have only {j : SnapshotItem} (hj : j ∈ db.items) (same : decide (j.id = i.id) = true) : j = i :=
      inj_on_of_nodup_map c.item_ids hj mem (of_decide_eq_true same)
    cases inside : itemInSnapshot db i.id sid with
    | true =>
      have seen := sees_itemInSnapshot c sees mem inside
      have kept : (visible user db).items.find? (·.id = i.id) = some i := by
        rw [← hi]
        refine find?_view fun j hj selected => ?_
        rw [only hj selected, seen]
        rfl
      simp only [kept, visible_itemInSnapshot c sees, inside, same i mem seen]
    | false =>
      simp only [inside, Bool.not_false, if_true]
      cases hv : (visible user db).items.find? (·.id = i.id) with
      | none => rfl
      | some j =>
        have mem' := mem_of_find?_eq_some hv
        have same : j = i := only (mem_filter.mp mem').1 (decide_eq_true (of_find? hv))
        simp only [same, visible_itemInSnapshot c sees, inside, Bool.not_false, if_true]

theorem visible_getSnapshotItemDetail :
    getSnapshotItemDetail env (visible user db) sid iid = getSnapshotItemDetail env db sid iid := by
  rw [getSnapshotItemDetail, getSnapshotItemDetail, visible_powerBi c sees]
  refine bind_congr_ok fun assembled _ => ?_
  cases assembled with
  | some assembled => rfl
  | none =>
    refine bind_congr_ok fun id _ => visible_item c sees fun i hi seen => ?_
    simp only [visible_catalogueSnapshot c sees,
      visible_materialize c seen (links_of_sees c seen hi)]

end

theorem visible_plainContent (seen : Sees user db id) :
    plainContent env (visible user db) id download i = plainContent env db id download i := by
  simp only [plainContent, visible_snapshot? c seen]
  cases hs : db.snapshot? id with
  | none => rfl
  | some s => simp only [bind_some, visible_resource? c (seen.resource hs)]

theorem visible_pinnable (seen : Sees user db id) {object : Uuid} :
    pinnable (visible user db) id object = pinnable db id object := by
  have rows : ((db.snapshotItemsEffective id).any fun i => (version? (visible user db) i).any
        fun version => version.content.bind (·.objectId) = some object) =
      (db.snapshotItemsEffective id).any fun i => (version? db i).any
        fun version => version.content.bind (·.objectId) = some object := by
    rw [Bool.eq_iff_iff, any_eq_true, any_eq_true]
    exact exists_congr fun i => and_congr_right fun hi => by
      rw [visible_version? (links_effective c seen hi)]
  rw [pinnable, visible_snapshot? c seen, visible_effective c seen, rows, pinnable]
  cases referenced : (db.snapshotItemsEffective id).any _ with
  | false => simp only [Bool.and_false, Bool.false_and]
  | true =>
    obtain ⟨i, hi, link⟩ := any_eq_true.mp referenced
    obtain ⟨version, hv, names⟩ := (Option.any_eq_true _ _).mp link
    obtain ⟨mem, link⟩ := version?_mem hv
    rw [visible_object? c mem (links_effective c seen hi version mem link)
      (of_decide_eq_true names)]

end

theorem materialize_snapshotId {j : SnapshotItem} (h : materializeChatItem env db i = .ok j) :
    j.snapshotId = i.snapshotId := by
  simp only [materializeChatItem] at h
  split at h
  · split at h
    · cases h
    · cases h
      rfl
  · cases h
  · split at h
    · cases h
      rw [materialized]
      split <;> rfl
    · cases h

theorem visible_catalogueBlobResponse (c : Consistent db) (seen : Sees user db i.snapshotId)
    {path : String} : catalogueBlobResponse env (visible user db) i path download =
      catalogueBlobResponse env db i path download := by
  simp only [catalogueBlobResponse, visible_pinnable c seen]

theorem visible_getItemContent (c : Consistent db)
    (sees : ∀ id, parseUuid sid.toList = some id → Sees user db id) :
    getItemContent env (visible user db) sid iid download =
      getItemContent env db sid iid download := by
  have plain (i : SnapshotItem) : (uuid sid >>= fun id =>
      plainContent env (visible user db) id download i) =
        uuid sid >>= fun id => plainContent env db id download i :=
    bind_congr_ok fun id parsed => visible_plainContent c (sees id (parse_of_uuid parsed))
  rw [getItemContent, getItemContent]
  refine bind_congr_ok fun id _ => visible_item c sees fun i hi seen => ?_
  simp only [visible_catalogueSnapshot c sees, plain,
    visible_materialize c seen (links_of_sees c seen hi)]
  refine bind_congr_ok fun catalogue _ => ?_
  cases catalogue with
  | none => rfl
  | some catalogue =>
    refine bind_congr_ok fun j hj => ?_
    have held : Sees user db j.snapshotId := materialize_snapshotId hj ▸ seen
    simp only [visible_catalogueBlobResponse c held]

theorem visible_handle (c : Consistent db) (endpoint : Endpoint)
    (sees : ∀ id, parseUuid endpoint.snapshotId.toList = some id → Sees user db id) :
    handle env (visible user db) endpoint query = handle env db endpoint query := by
  cases endpoint with
  | listSnapshotItems sid => exact visible_listSnapshotItems c sees
  | getSnapshotItemDetail sid iid => exact visible_getSnapshotItemDetail c sees
  | getItemContent sid iid => exact visible_getItemContent c sees

def namedSnapshot (path : Path) : Option Uuid :=
  (search snapIdRe path).bind fun text => parseUuid text.toList

/-- The text the guard captures stands at the head of the id the handler is given, and nothing
before it names hosted content. -/
theorem guarded_route {text : String}
    (routed : route path = some endpoint) (matched : search snapIdRe path = some text) :
    search hostedTidRe path = none ∧
      uuidHead endpoint.snapshotId.toList = some text.toList := by
  have literal : uuidHead "snapshots".toList = none := by decide
  have captured {segment : String}
      (h : ∃ cs, uuidHead segment.toList = some cs ∧ String.ofList cs = text) :
      uuidHead segment.toList = some text.toList := by
    obtain ⟨cs, found, rfl⟩ := h
    rw [found, String.toList_ofList]
  unfold route at routed
  split at routed
  · cases routed
  · split at routed
    all_goals cases routed
    all_goals refine ⟨by simp [search, matchHere, hostedTidRe], captured ?_⟩
    any_goals simpa [search, matchHere, snapIdRe, Endpoint.snapshotId] using matched
    -- The second route is guarded only when its resource id reads `resources`.
    simp [search, matchHere, snapIdRe] at matched
    rcases matched with ⟨-, cs, found, -⟩ | ⟨-, -, found⟩
    · exact absurd (found.symm.trans literal) (by simp)
    · exact found

theorem parse_guarded {n : Uuid}
    (routed : route path = some endpoint) (named : namedSnapshot path = some id)
    (parsed : parseUuid endpoint.snapshotId.toList = some n) : n = id := by
  obtain ⟨text, matched, read⟩ := bind_eq_some_iff.mp named
  have head := (guarded_route routed matched).2
  exact some_inj.mp ((parseUuid_of_uuidHead head parsed).symm.trans read)

theorem guard_eq (nonAdmin : isAdmin (.user user) = false)
    (routed : route path = some endpoint) (named : namedSnapshot path = some id) :
    snapshotTenantGuard false db (.user user) path =
      if foreignSnapshot user db id then .error notEntitled else .ok () := by
  obtain ⟨text, matched, read⟩ := bind_eq_some_iff.mp named
  have tenant : (guardedTenant db path).any (· ∉ user.tenantIds) = foreignSnapshot user db id := by
    simp only [guardedTenant, (guarded_route routed matched).1, matched, read, bind_some]
    rw [← tenantOf_any_iff]
    cases tenantOf db id with
    | none => rfl
    | some t => simp [entitled]
  rw [snapshotTenantGuard, nonAdmin, Bool.or_self, if_neg Bool.false_ne_true]
  exact congrArg (fun foreign : Bool => if foreign then Except.error notEntitled else .ok ()) tenant

theorem serve_eq (nonAdmin : isAdmin (.user user) = false)
    (c : Consistent db) (routed : route path = some endpoint)
    (named : namedSnapshot path = some id) :
    serve env false db (some (.user user)) path endpoint query =
      authMiddleware (some (.user user)) path query >>= fun _ =>
        if foreignSnapshot user db id then .error notEntitled
        else handle env (visible user db) endpoint query := by
  rw [serve]
  cases passed : authMiddleware (some (.user user)) path query with
  | error e => rfl
  | ok principal =>
    obtain rfl : principal = .user user := by
      rw [authMiddleware] at passed
      split at passed
      · cases passed
      · exact (Except.ok.inj passed).symm
    simp only [bind, Except.bind, guard_eq nonAdmin routed named]
    cases foreign : foreignSnapshot user db id with
    | true => rfl
    | false =>
      exact (visible_handle c endpoint fun n parsed =>
        parse_guarded routed named parsed ▸ foreign).symm

def bareEnv : Env where
  canonicalVersionFingerprint _ := ""
  qualifiedChatItemKey _ := ""
  versionMetadata _ := {}
  logicalSize _ := 0
  sha256 _ := ""
  decodeBase64 _ := none
  loadsJson _ := none
  guessType _ := none
  shards := false
  downloadItemBlob _ _ := none
  store _ _ _ := none

def ann : User := { id := some "ann", tenantIds := [idText 1] }

def annDb : Db where
  resources := [{ id := 10, tenantId := 1, type := .userOnedrive, externalId := "ann" }]
  snapshots := [{ id := 100, resourceId := 10, status := some .completed }]
  items := [{ itemType := .file, externalId := "plan", id := 1000, snapshotId := 100 }]

def sharedDb (file : String) : Db where
  resources := annDb.resources ++ [{ id := 20, tenantId := 2, type := .userOnedrive, externalId := "bob" }]
  snapshots := annDb.snapshots ++ [{ id := 200, resourceId := 20, status := some .completed }]
  items := annDb.items ++ [{ itemType := .file, externalId := file, id := 2000, snapshotId := 200 }]

def itemsPath (sid : Uuid) : Path := ["api", "v1", "resources", "snapshots", idText sid, "items"]

end TmVault.SnapshotService
