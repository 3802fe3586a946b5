import TmVault.Restore.Worker

namespace TmVault.Authz

open Relational Store Restore List Option

def Authorized (db : Db) (caller : User) (rid : Uuid) : Prop :=
  ∃ res ∈ db.resources, res.id = rid ∧ MayUse db caller res

instance (db : Db) (caller : User) (rid : Uuid) : Decidable (Authorized db caller rid) :=
  inferInstanceAs (Decidable (∃ _ ∈ _, _))

structure Carried (named : List Uuid) (db db' : Db) : Prop where
  snapshots : ∀ s ∈ db.snapshots, ∀ s' ∈ db'.snapshots, s'.id = s.id → s'.resourceId = s.resourceId
  items : ∀ i' ∈ db'.items, i'.id ∈ named → ∃ i ∈ db.items, i.id = i'.id ∧
    ∀ s' ∈ db'.snapshots, s'.id = i'.snapshotId →
      ∃ s ∈ db.snapshots, s.id = i.snapshotId ∧ s.resourceId = s'.resourceId

instance (named : List Uuid) (db db' : Db) : Decidable (Carried named db db') :=
  decidable_of_iff (_ ∧ _) ⟨fun ⟨a, b⟩ => ⟨a, b⟩, fun ⟨a, b⟩ => ⟨a, b⟩⟩

variable {route : Route} {explicit : Bool} {sha : String → String} {db db' : Db} {caller : User}
  {req : RestoreRequest} {job : Job} {snapshotIds : List String} {ids : List Uuid}
  {values : List String}

theorem parseIds_of_mapM
    (h : values.mapM (uuidOr400 kind) = .ok ids) : parseIds values = .ok ids := by
  induction values generalizing ids with
  | nil =>
    cases h
    rfl
  | cons value values ih =>
    rw [mapM_cons] at h
    obtain ⟨id, hid, rest, hrest, h⟩ := of_bind₂ h
    cases h
    rw [parseIds, uuidOr400_ok.mp hid, ih hrest]

theorem authorizeExportScope_ok
    (h : authorizeExportScope db caller snapshotIds itemIds = .ok targets) :
    ∃ sids iids, parseIds snapshotIds = .ok sids ∧ parseIds itemIds = .ok iids ∧
      (∀ sid ∈ Scope.snapshots ⟨[], sids, iids⟩ db, ∃ s ∈ db.snapshots, s.id = sid) ∧
      (∀ s ∈ db.snapshots, s.id ∈ Scope.snapshots ⟨[], sids, iids⟩ db →
        Authorized db caller s.resourceId) ∧
      ∀ res ∈ targets, res ∈ db.resources ∧ MayUse db caller res := by
  rw [authorizeExportScope] at h
  split at h
  · cases h
  obtain ⟨resolved, hresolved, h⟩ := of_bind h
  split at h
  · cases h
  obtain ⟨_, allowed, h⟩ := of_bind h
  cases h
  have may := (authorizeTargets_ok.mp allowed).2
  obtain ⟨scope, hscope, hresolved⟩ := of_bind hresolved
  obtain ⟨sids, hsids, iids, hiids, hscope⟩ := of_bind₂ hscope
  cases hscope
  obtain ⟨rfl, covered, found⟩ := resolveScope_ok hresolved
  refine ⟨sids, iids, parseIds_of_mapM hsids, parseIds_of_mapM hiids, ?_, ?_, ?_⟩
  · intro sid hsid
    exact mem_map.mp (found rfl sid hsid)
  · intro s hs hsid
    have wanted : s.resourceId ∈ Scope.resources ⟨[], sids, iids⟩ db :=
      mem_append_right _ (mem_map_of_mem (mem_filter.mpr ⟨hs, decide_eq_true hsid⟩))
    obtain ⟨res, hres, same⟩ := mem_map.mp (covered s.resourceId wanted)
    exact ⟨res, mem_of_mem_filter hres, same, may res hres⟩
  · exact fun res hres => ⟨mem_of_mem_filter hres, may res hres⟩

theorem parseIds_idText {id : Uuid} (h : id < 2 ^ 128) : parseIds [idText id] = .ok [id] := by
  rw [parseIds, parse_idText h]
  rfl

theorem mem_parseIds_of_firstId {id : Uuid}
    (h : parseIds values = .ok ids) (first : firstId values = some id) : id ∈ ids := by
  cases values with
  | nil => cases first
  | cons value values =>
    rw [firstId, List.head?_cons, bind_some] at first
    rw [parseIds, first] at h
    split at h
    · rename_i hid _
      cases hid
      cases h
      exact mem_cons_self
    · cases h

theorem accepted_picks (accepted : trigger route explicit sha db caller req = .ok job)
    (bounded : ∀ s ∈ db.snapshots, s.id < 2 ^ 128)
    (hpicks : parseIds job.spec.snapshotIds = .ok picks) :
    ∀ sid ∈ picks, ∃ s ∈ db.snapshots, s.id = sid ∧ Authorized db caller s.resourceId := by
  obtain ⟨auth, gate, rfl⟩ := trigger_ok accepted
  obtain ⟨sids, iids, hsids, hiids, found, authorized, -⟩ :=
    authorizeExportScope_ok (authorize_ok gate).1
  have inScope {sid : Uuid} (h : sid ∈ Scope.snapshots ⟨[], sids, iids⟩ db) :
      ∃ s ∈ db.snapshots, s.id = sid ∧ Authorized db caller s.resourceId := by
    obtain ⟨s, hs, rfl⟩ := found sid h
    exact ⟨s, hs, rfl, authorized s hs h⟩
  change parseIds (backfilledSnapshotIds db req) = .ok picks at hpicks
  rw [backfilledSnapshotIds] at hpicks
  split at hpicks
  case isFalse =>
    cases hsids.symm.trans hpicks
    exact fun sid hsid => inScope (mem_append_left _ hsid)
  case isTrue none =>
    -- the first item's snapshot
    cases hsource : sourceSnapshot db req with
    | none =>
      rw [hsource] at hpicks
      cases hpicks
      exact fun sid hsid => absurd hsid not_mem_nil
    | some s =>
      rw [hsource] at hpicks
      rw [sourceSnapshot, none] at hsource
      obtain ⟨id, hid, hsource⟩ := bind_eq_some_iff.mp hsource
      obtain ⟨i, hi, hs⟩ := bind_eq_some_iff.mp hsource
      have named : i.id ∈ iids := by
        rw [show i.id = id from of_find? hi]
        exact mem_parseIds_of_firstId hiids hid
      have stored := mem_of_find?_eq_some hs
      have inventory : s.id ∈ Scope.snapshots ⟨[], sids, iids⟩ db := by
        rw [Db.snapshot?_id hs]
        exact mem_append_right _ (mem_map_of_mem
          (mem_filter.mpr ⟨mem_of_find?_eq_some hi, decide_eq_true named⟩))
      cases (parseIds_idText (bounded s stored)).symm.trans hpicks
      intro sid hsid
      rw [mem_singleton.mp hsid]
      exact inScope inventory

theorem accepted_items (accepted : trigger route explicit sha db caller req = .ok job)
    (hids : parseIds req.itemIds = .ok ids) :
    ∀ i ∈ db.items, i.id ∈ ids → ∀ s ∈ db.snapshots, s.id = i.snapshotId →
      Authorized db caller s.resourceId := by
  obtain ⟨auth, gate, -⟩ := trigger_ok accepted
  obtain ⟨sids, iids, hsids, hiids, -, authorized, -⟩ :=
    authorizeExportScope_ok (authorize_ok gate).1
  cases hids.symm.trans hiids
  intro i hi hid s hs same
  refine authorized s hs (mem_append_right _ (mem_map.mpr ⟨i, ?_, same.symm⟩))
  exact mem_filter.mpr ⟨hi, decide_eq_true hid⟩

section

variable {ids : List Uuid} (accepted : trigger route explicit sha db caller req = .ok job)
  (bounded : ∀ s ∈ db.snapshots, s.id < 2 ^ 128) (hids : parseIds req.itemIds = .ok ids)
  (carried : Carried ids db db')

include accepted carried

include bounded in
theorem run_picks : ∀ picks, parseIds job.spec.snapshotIds = .ok picks → ∀ sid ∈ picks,
    Covers db' (Authorized db caller) sid := by
  intro picks hpicks sid hsid s' hs'
  obtain ⟨s, hs, rfl, authorized⟩ := accepted_picks accepted bounded hpicks sid hsid
  rw [carried.snapshots s hs s' (mem_of_find?_eq_some hs') (Db.snapshot?_id hs')]
  exact authorized

include hids in
theorem run_items : ∀ named, parseIds job.spec.itemIds = .ok named → ∀ i ∈ db'.items, i.id ∈ named →
    Covers db' (Authorized db caller) i.snapshotId := by
  intro named hnamed i' hi' hid s' hs'
  obtain ⟨auth, -, rfl⟩ := trigger_ok accepted
  cases hids.symm.trans hnamed
  obtain ⟨i, hi, same, owner⟩ := carried.items i' hi' hid
  obtain ⟨s, hs, hsid, resource⟩ := owner s' (mem_of_find?_eq_some hs') (Db.snapshot?_id hs')
  rw [← resource]
  exact accepted_items accepted hids i hi (same ▸ hid) s hs hsid

end

section

variable {res : Resource}

theorem isSet_canonical (set : isSet raw = row.isSome) (h : isSet (canonical row raw) = true) :
    ∃ res ∈ row, canonical row raw = some (idText res.id) := by
  cases row with
  | none =>
    change isSet raw = true at h
    rw [set] at h
    cases h
  | some res => exact ⟨res, rfl, rfl⟩

theorem getTarget_canonical (set : isSet raw = row.isSome) (bounded : ∀ res ∈ row, res.id < 2 ^ 128)
    (h : res ∈ getTarget db' (canonical row raw)) : ∃ res' ∈ row, res'.id = res.id := by
  rw [getTarget] at h
  split at h
  · rename_i named
    obtain ⟨res', hres', text⟩ := isSet_canonical set named
    rw [text, getD_some, parse_idText (bounded res' hres'), bind_some] at h
    have same : res.id = res'.id := of_find? h
    exact ⟨res', hres', same.symm⟩
  · cases h

theorem crossUserById_canonical (hu : dest.targetUserId = canonical user rawUser)
    (hr : dest.targetResourceId = canonical resource rawResource)
    (setUser : isSet rawUser = user.isSome) (setResource : isSet rawResource = resource.isSome)
    (bounded : ∀ res, res ∈ user ∨ res ∈ resource → res.id < 2 ^ 128)
    (named : isSet (crossUserKey dest) = true) (h : res ∈ crossUserById db' dest) :
    ∃ res', (res' ∈ user ∨ res' ∈ resource) ∧ res'.id = res.id := by
  obtain ⟨res', hres', text⟩ : ∃ res', (res' ∈ user ∨ res' ∈ resource) ∧
      crossUserKey dest = some (idText res'.id) := by
    rw [crossUserKey, hu, hr] at named ⊢
    split at named
    case isTrue set =>
      rw [if_pos set]
      obtain ⟨res', hres', text⟩ := isSet_canonical setUser named
      exact ⟨res', .inl hres', text⟩
    case isFalse unset =>
      rw [if_neg unset]
      obtain ⟨res', hres', text⟩ := isSet_canonical setResource named
      exact ⟨res', .inr hres', text⟩
  rw [crossUserById, text, getD_some, parse_idText (bounded res' hres'), bind_some] at h
  have same := find?_some h
  simp only [Bool.and_eq_true, decide_eq_true_eq] at same
  exact ⟨res', hres', same.1.symm⟩

theorem crossUserTarget_of_fallback (h : crossUserFallback db' dest = some res) :
    crossUserTarget db' dest = some res := by
  rw [crossUserTarget, h]
  rw [crossUserFallback] at h
  split at h
  · cases h
  · rename_i byId
    have : crossUserById db' dest = none := by
      cases found : crossUserById db' dest with
      | none => rfl
      | some _ => simp [found] at byId
    rw [this]
    split <;> rfl

theorem authorized_of_destinations (accepted : trigger route explicit sha db caller req = .ok job)
    (owned : job.spec.restoreType = "IN_PLACE" → ∀ rid ∈ resourcesOf db' rows, Authorized db caller rid)
    (h : res ∈ destinations db' job.spec rows) :
    Authorized db caller res.id ∨ job.spec.restoreType = "CROSS_USER" ∧
      crossUserFallback db' job.spec.destinations = some res := by
  obtain ⟨auth, gate, rfl⟩ := trigger_ok accepted
  obtain ⟨may, setUser, setResource⟩ := authorizeRestoreDestinations_ok (authorize_ok gate).2
  have authorized {res' : Resource} (hres' : res' ∈ auth.user ∨ res' ∈ auth.resource)
      (same : res'.id = res.id) : Authorized db caller res.id :=
    ⟨res', (may res' hres').1, same, (may res' hres').2.1⟩
  have byUser (h : res ∈ getTarget db' (canonical auth.user req.targetUserId)) :
      Authorized db caller res.id := by
    obtain ⟨res', hres', same⟩ := getTarget_canonical setUser (fun x hx => (may x (.inl hx)).2.2) h
    exact authorized (.inl hres') same
  have byResource (h : res ∈ getTarget db' (canonical auth.resource req.targetResourceId)) :
      Authorized db caller res.id := by
    obtain ⟨res', hres', same⟩ :=
      getTarget_canonical setResource (fun x hx => (may x (.inr hx)).2.2) h
    exact authorized (.inr hres') same
  rw [destinations] at h
  split at h
  case h_1 inPlace =>
    obtain ⟨own, hown, h⟩ := mem_flatMap.mp h
    obtain ⟨rid, hrid, found⟩ := mem_filterMap.mp hown
    simp only [inPlaceTargets, mem_cons, mem_append, mem_toList] at h
    rcases h with rfl | h | h
    · have same : res.id = rid := of_find? found
      exact .inl (same ▸ owned inPlace rid hrid)
    · split at h
      · exact .inl (byResource h)
      · cases h
    · split at h
      · exact .inl (byUser h)
      · cases h
  case h_2 crossUser =>
    rw [mem_toList, crossUserTarget, or_eq_some_iff] at h
    rcases h with h | ⟨-, h⟩
    · split at h
      case isTrue named =>
        obtain ⟨res', hres', same⟩ := crossUserById_canonical rfl rfl setUser setResource
          (fun x hx => (may x hx).2.2) named h
        exact .inl (authorized hres' same)
      case isFalse => cases h
    · exact .inr ⟨crossUser, h⟩
  case h_3 => exact .inl (byResource (mem_toList.mp h))
  case h_4 => cases h

end

/-- What a queued job touches stays within what the caller was authorized for exactly when the siblings
a PST export adds, the children the selection of a chat adds, and the row a cross-user restore falls
back to, do. -/
theorem job_contained_iff {ids : List Uuid} {rows : List SnapshotItem} {aliases : Aliases}
    (accepted : trigger route explicit sha db caller req = .ok job)
    (bounded : ∀ s ∈ db.snapshots, s.id < 2 ^ 128) (hids : parseIds req.itemIds = .ok ids)
    (carried : Carried ids db db') (coherent : Coherent db')
    (read : rowsRead aliases db' job.spec = .ok rows) :
    ((∀ rid ∈ resourcesOf db' rows, Authorized db caller rid) ∧
      ∀ res ∈ destinations db' job.spec rows, Authorized db caller res.id) ↔
    (job.spec.restoreType = "EXPORT_PST" → ∀ sib ∈ pstSiblings db' job.spec,
      sib.id ∈ resourcesOf db' rows → Authorized db caller sib.id) ∧
    (∀ c ∈ chatChildren aliases db' job.spec, c ∈ rows → ∀ rid ∈ ownerOf db' c,
      Authorized db caller rid) ∧
    (job.spec.restoreType = "CROSS_USER" → ∀ res ∈ crossUserFallback db' job.spec.destinations,
      Authorized db caller res.id) := by
  constructor
  · rintro ⟨reads, writes⟩
    refine ⟨fun _ sib _ => reads sib.id, fun c _ hc rid owner => reads rid ?_,
      fun crossUser res hres => writes res ?_⟩
    · exact mem_filterMap.mpr ⟨c, mem_append_left _ hc, owner⟩
    · rw [destinations, crossUser]
      exact mem_toList.mpr (crossUserTarget_of_fallback hres)
  · rintro ⟨siblings, children, fallback⟩
    have picks := run_picks accepted bounded carried
    have reads : ∀ rid ∈ resourcesOf db' rows, Authorized db caller rid := by
      by_cases pst : job.spec.restoreType = "EXPORT_PST"
      · have owners := forall_resourcesOf.mpr (owned_pstRows coherent picks pst read)
        intro rid hrid
        rcases owners rid hrid with authorized | sibling
        · exact authorized
        · obtain ⟨sib, hsib, rfl⟩ := mem_map.mp sibling
          exact siblings pst sib hsib hrid
      · exact forall_resourcesOf.mpr
          (owned_rowsRead coherent picks (run_items accepted hids carried) pst read children)
    refine ⟨reads, fun res hres => ?_⟩
    rcases authorized_of_destinations accepted (fun _ => reads) hres with h | ⟨crossUser, h⟩
    · exact h
    · exact fallback crossUser res h

def household : Db where
  resources := [{ id := 10, tenantId := 1, type := .entraUser, externalId := "home" },
    { id := 11, tenantId := 1, type := .userMail, externalId := "home:mail", email := some "ann@x.io",
      parentResourceId := some 10 },
    { id := 12, tenantId := 1, type := .userCalendar, externalId := "home:calendar",
      email := some "ann@x.io", parentResourceId := some 10 },
    { id := 13, tenantId := 1, type := .userOnedrive, externalId := "home:drive",
      email := some "bob@x.io", parentResourceId := some 10 }]
  snapshots := [{ id := 21, resourceId := 11, status := some .completed, createdAt := some 5 },
    { id := 22, resourceId := 12, status := some .completed, createdAt := some 5 },
    { id := 23, resourceId := 13, status := some .completed, createdAt := some 5 }]
  items := [{ id := 31, snapshotId := 21, itemType := .email, externalId := "mail" },
    { id := 32, snapshotId := 22, itemType := .calendarEvent, externalId := "event" },
    { id := 33, snapshotId := 23, itemType := .onedriveFile, externalId := "file" }]

def ann : User where
  id := some "ann"
  email := some "Ann@x.io"
  tenantIds := ["00000000-0000-0000-0000-000000000001"]

def withCalendar : RestoreRequest where
  restoreType := some "EXPORT_PST"
  snapshotIds := ["00000000-0000-0000-0000-000000000015"]
  pstIncludeTypes := ["EMAIL", "CALENDAR_EVENT"]

def withDrive : RestoreRequest where
  restoreType := some "EXPORT_PST"
  snapshotIds := ["00000000-0000-0000-0000-000000000015"]
  workloads := ["Mail", "OneDrive"]

def annJob (req : RestoreRequest) : Job where
  tenantId := some 1
  resourceId := some 11
  spec := { buildSpec .export household req ⟨[], none, none⟩ with
    authorizedScope := some ⟨1, ["00000000-0000-0000-0000-00000000000b"], ""⟩ }

theorem calendar_export_contained :
    (∀ rid ∈ resourcesOf household (household.items.take 2), Authorized household ann rid) ∧
      ∀ res ∈ destinations household (annJob withCalendar).spec (household.items.take 2),
        Authorized household ann res.id := by
  have accepted : trigger .export false (fun _ => "") household ann withCalendar =
      .ok (annJob withCalendar) := by decide +kernel
  have read : rowsRead (fun _ _ _ => false) household (annJob withCalendar).spec = .ok (household.items.take 2) := by
    decide +kernel
  exact (job_contained_iff accepted (by decide) rfl (by decide) (by decide) read).mpr
    ⟨by decide +kernel, by decide +kernel, by decide +kernel⟩

/-- Ann may not use Bob's drive, but her export reads it. -/
theorem drive_export_reads_sibling :
    trigger .export false (fun _ => "") household ann withDrive = .ok (annJob withDrive) ∧
      (rowsRead (fun _ _ _ => false) household (annJob withDrive).spec).map (resourcesOf household) = .ok [11, 13, 11, 13] ∧
      ¬ Authorized household ann 13 := by
  decide +kernel

end TmVault.Authz
