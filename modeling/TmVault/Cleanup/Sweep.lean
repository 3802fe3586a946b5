import Mathlib.Data.List.ReduceOption
import TmVault.Cleanup.Blobs
import TmVault.Concurrency.Runs
import TmVault.SharePoint.Overlay
import TmVault.Work.Tables

/-! The scheduler's sweep of cancelled snapshots, a transaction at a time, among the backups that write
in between. -/

namespace TmVault.Cleanup.Sweep

open Store
open Work (JobStatus)

section

structure CacheEntry where
  tenantId : Uuid
  checksum : String
  path : Option String
  expiresAt : Time

def hitTtl : Time := 300

def missTtl : Time := 30

def maxEntries : Nat := 10000

def minSizeBytes : Int := 1024

variable (tenant : Uuid) (checksum : String) (now : Time)

def CacheEntry.isFor (e : CacheEntry) : Bool := e.tenantId = tenant && e.checksum = checksum

def lruPut (path : Option String) (cache : List CacheEntry) : List CacheEntry :=
  let ttl := if (nonEmpty path).isSome then hitTtl else missTtl
  let cache := cache.filter (!·.isFor tenant checksum) ++ [⟨tenant, checksum, path, now + ttl⟩]
  cache.drop (cache.length - maxEntries)

def storedBlob (db : Db) : Option String :=
  (db.items.find? fun i => i.tenantId = some tenant && i.contentChecksum = some checksum &&
    i.blobPath.isSome && i.contentSize.any (minSizeBytes ≤ ·)).bind (·.blobPath)

def findExistingBlob (db : Db) (cache : List CacheEntry) : Option String × List CacheEntry :=
  let cold := (storedBlob tenant checksum db, lruPut tenant checksum now
    (storedBlob tenant checksum db) cache)
  if checksum = "" then (none, cache)
  else match cache.find? (·.isFor tenant checksum) with
    | none => cold
    | some e => if e.expiresAt < now then cold
      else (e.path, cache.filter (!·.isFor tenant checksum) ++ [e])

end

/-- How far the pass is: the snapshots it has still to look at and, of the one it has claimed, the
blob paths it read and those it will delete. -/
inductive Stage
  | idle
  | chosen (todo : List Uuid)
  | claimed (sid : Uuid) (todo : List Uuid)
  | listed (sid : Uuid) (paths : List String) (todo : List Uuid)
  | cleared (sid : Uuid) (safe : List String) (todo : List Uuid)

def Stage.doomed : Stage → List Uuid
  | .idle => []
  | .chosen todo => todo
  | .claimed sid todo | .listed sid _ todo | .cleared sid _ todo => sid :: todo

def Stage.safe : Stage → List String
  | .cleared _ safe _ => safe
  | _ => []

/-- `deleted` are the blobs deleted from the storage and `taken` the snapshots a pass has claimed. -/
structure State where
  db : Db
  jobs : List (Uuid × JobStatus) := []
  cache : List CacheEntry := []
  deleted : List String := []
  taken : List Uuid := []
  stage : Stage := .idle

variable (s : State)

def State.jobStatus (x : Snapshot) : Option JobStatus :=
  x.jobId.bind fun j => (s.jobs.find? (·.1 = j)).map (·.2)

def State.jobOver (x : Snapshot) : Bool :=
  (s.jobStatus x).any (· ∈ [JobStatus.cancelled, .failed])

def readByAnother (db : Db) (id : Uuid) : Bool :=
  db.snapshots.any fun d =>
    (d.overlayBaseId = some id || d.reuseChainRootId = some id) && d.id ≠ id

def leaseDead (now : Time) (x : Snapshot) : Bool := x.leaseExpiresAt.all (· < now)

def State.candidate (now : Time) (x : Snapshot) : Bool :=
  (x.extraData.cancelledAt.isSome || (x.status = some .inProgress && s.jobOver x) ||
      x.status = some .pendingDeletion) &&
    x.id ∉ s.db.pinned && leaseDead now x && !readByAnother s.db x.id &&
    !(s.db.partitions.any fun p => p.snapshotId = x.id &&
      p.status ∈ [PartitionStatus.queued, .claimed, .inProgress])

def State.claims (now : Time) (x : Snapshot) : Bool :=
  x.id ∉ s.db.pinned && (s.jobStatus x).isSome && leaseDead now x &&
    (x.extraData.cancelledAt.isSome ||
      (x.status ∈ [some SnapshotStatus.inProgress, some .failed] && s.jobOver x) ||
      x.status = some .pendingDeletion)

def blobsSafeToDelete (candidates referenced : List String) : List String :=
  (candidates.filter fun p => p ≠ "" && p ∉ referenced && !isCatalogueBlobPath p).dedup

def pathsOf (db : Db) (sid : Uuid) : List String :=
  (db.items.filter (·.snapshotId = sid)).filterMap (·.blobPath)

def stillReferenced (db : Db) (sid : Uuid) (paths : List String) : List String :=
  (db.items.filter fun i => i.snapshotId ≠ sid && i.blobPath.any (· ∈ paths)).filterMap (·.blobPath)

def withoutSnapshot (sid : Uuid) (db : Db) : Db :=
  { db with
    snapshots := db.snapshots.filter (·.id ≠ sid), items := db.items.filter (·.snapshotId ≠ sid)
    removals := db.removals.filter (·.snapshotId ≠ sid)
    partitions := db.partitions.filter (·.snapshotId ≠ sid) }

/-- Step 2. A row that refers to the snapshot makes its DELETE fail, the one of its items with it:
the keys are `ON DELETE RESTRICT`. -/
def deleteRows (now : Time) (sid : Uuid) (db : Db) : Db :=
  if (db.snapshot? sid).any (fun x => x.status = some .pendingDeletion && x.id ∉ db.pinned &&
      leaseDead now x) && !(db.snapshots.any fun d => d.id ≠ sid && sid ∈ references d) then
    withoutSnapshot sid db
  else db

inductive Event
  | select (now : Time)
  | claim (now : Time)
  | readItems
  | readReferences
  | deleteBlob (path : String) (gone : Bool)
  | deleteRows (now : Time)
  | crash
  | reuseBlob (row : SnapshotItem) (tenant : Uuid) (checksum : String) (now : Time)
  | buildSpOverlay (tsid prior base : Uuid) (inherited skip : List String)
      (limits : Mail.OverlayLimits)
  | write (db : Db) (jobs : List (Uuid × JobStatus))

def Event.ofSweep : Event → Bool
  | .reuseBlob _ _ _ _ | .buildSpOverlay _ _ _ _ _ _ | .write _ _ => false
  | _ => true

def State.reuse (row : SnapshotItem) (found : Option String × List CacheEntry) : State :=
  match found.1 with
  | none => { s with cache := found.2 }
  | some path =>
    if path ∈ s.deleted then { s with cache := found.2 }
    else
      { s with
        cache := found.2
        db := { s.db with items := s.db.items ++ [{ row with blobPath := some path }] } }

def State.step : Event → State
  | .select now => match s.stage with
    | .idle =>
      let found := (s.db.snapshots.filter (s.candidate now)).take 200
      { s with stage := .chosen (found.map (·.id)) }
    | _ => s
  | .claim now => match s.stage with
    | .chosen (sid :: todo) =>
      if (s.db.snapshot? sid).any (s.claims now) then
        { s with
          db := s.db.setWhere [sid] Cleanup.claimed, taken := sid :: s.taken
          stage := .claimed sid todo }
      else { s with stage := .chosen todo }
    | .chosen [] => { s with stage := .idle }
    | _ => s
  | .readItems => match s.stage with
    | .claimed sid todo => { s with stage := .listed sid (pathsOf s.db sid) todo }
    | _ => s
  | .readReferences => match s.stage with
    | .listed sid paths todo =>
      let safe := blobsSafeToDelete paths (stillReferenced s.db sid paths)
      { s with stage := .cleared sid safe todo }
    | _ => s
  | .deleteBlob path gone => match s.stage with
    | .cleared sid safe todo =>
      if path ∈ safe then
        { s with
          deleted := if gone then path :: s.deleted else s.deleted
          stage := .cleared sid (safe.erase path) todo }
      else s
    | _ => s
  | .deleteRows now => match s.stage with
    | .cleared sid [] todo => { s with db := deleteRows now sid s.db, stage := .chosen todo }
    | _ => s
  | .crash => { s with stage := .idle }
  | .reuseBlob row tenant checksum now =>
    s.reuse row (findExistingBlob tenant checksum now s.db s.cache)
  | .buildSpOverlay tsid prior base inherited skip limits =>
    match SharePoint.buildSpOverlay tsid prior base inherited skip limits s.db with
    | .ok (db, _) => { s with db := db }
    | .error _ => s
  | .write db jobs => { s with db := db, jobs := jobs }

open List

def Linked (db : Db) (x : Uuid) : Prop :=
  ∃ d ∈ db.snapshots, d.id ≠ x ∧ (d.overlayBaseId = some x ∨ d.reuseChainRootId = some x)

section

variable {db : Db} {x sid : Uuid}

theorem readByAnother_iff : readByAnother db x = true ↔ Linked db x := by
  simp only [readByAnother, Linked, any_eq_true, Bool.and_eq_true, Bool.or_eq_true,
    decide_eq_true_eq]
  exact exists_congr fun d => and_congr_right fun _ => and_comm

theorem not_mem_readsFrom (h : ¬ Linked db x) (hs : sid ≠ x) : x ∉ readsFrom db sid := by
  have target : db.resolveTarget sid ≠ some x := by
    intro ht
    obtain ⟨d, hd, eq⟩ := Option.map_eq_some_iff.mp ht
    have hid := Db.snapshot?_id hd
    cases hr : d.reuseChainRootId with
    | none =>
      rw [hr, Option.getD_none, hid] at eq
      exact hs eq
    | some r =>
      rw [hr, Option.getD_some] at eq
      exact h ⟨d, mem_of_find?_eq_some hd, hid ▸ hs, .inr (eq ▸ hr)⟩
  have base : db.resolveBase sid ≠ some x := by
    intro hb
    obtain ⟨t, ht, hb⟩ := Option.bind_eq_some_iff.mp hb
    obtain ⟨d, hd, hb⟩ := Option.bind_eq_some_iff.mp hb
    have hid := Db.snapshot?_id hd
    have ne : d.id ≠ x := fun same => target (same ▸ hid ▸ ht)
    exact h ⟨d, mem_of_find?_eq_some hd, ne, .inl hb⟩
  rw [readsFrom, mem_append, Option.mem_toList, Option.mem_toList]
  rintro (h | h)
  · exact target h
  · exact base h

theorem effective_withoutSnapshot (h : ¬ Linked db x) (hs : sid ≠ x) :
    (withoutSnapshot x db).snapshotItemsEffective sid = db.snapshotItemsEffective sid := by
  have reads := not_mem_readsFrom h hs
  rw [readsFrom, mem_append, Option.mem_toList, Option.mem_toList, not_or] at reads
  let mid : Db := { withoutSnapshot x db with items := db.items }
  have found : ∀ y, y ≠ x → mid.snapshot? y = db.snapshot? y := by
    intro y hy
    rw [Db.snapshot?, Db.snapshot?]
    change (db.snapshots.filter (·.id ≠ x)).find? _ = _
    rw [find?_filter]
    refine congrArg (List.find? · db.snapshots) (funext fun d => ?_)
    by_cases hd : d.id = y
    · simp [hd, hy]
    · simp [hd]
  have target : mid.resolveTarget sid = db.resolveTarget sid :=
    congrArg (Option.map _) (found sid hs)
  have kept : mid.snapshotItemsEffective sid = db.snapshotItemsEffective sid := by
    refine Db.effective_congr rfl target ?_ fun t ht k => ?_
    · rw [Db.resolveBase, target, Db.resolveBase]
      cases ht : db.resolveTarget sid with
      | none => rfl
      | some t =>
        rw [Option.bind_some, Option.bind_some, found t fun same => reads.1 (same ▸ ht)]
    · have ne : t ≠ x := fun same => reads.1 (same ▸ ht)
      rw [Bool.eq_iff_iff, Db.removed_iff, Db.removed_iff]
      constructor
      · rintro ⟨r, hr, rest⟩
        exact ⟨r, (mem_filter.mp hr).1, rest⟩
      · rintro ⟨r, hr, hrs, hk⟩
        exact ⟨r, mem_filter.mpr ⟨hr, by simpa [hrs] using ne⟩, hrs, hk⟩
  have rows : withoutSnapshot x db = withoutRows [x] mid := by
    simp [withoutSnapshot, withoutRows, mid]
  rw [rows, ← kept]
  refine effective_withoutRows.mpr fun i hi gone => ?_
  rw [kept] at hi
  rw [mem_singleton] at gone
  exact not_mem_readsFrom h hs (gone ▸ snapshotId_mem_readsFrom hi)

end

section

variable {s : State} {sid : Uuid}

def Stage.current : Stage → Option Uuid
  | .claimed sid _ | .listed sid _ _ | .cleared sid _ _ => some sid
  | .idle | .chosen _ => none

theorem effective_deleteRows (hs : sid ≠ x) :
    (deleteRows now x db).snapshotItemsEffective sid = db.snapshotItemsEffective sid := by
  rw [deleteRows]
  split
  · rename_i ok
    rw [Bool.and_eq_true, Bool.not_eq_true', any_eq_false] at ok
    refine effective_withoutSnapshot ?_ hs
    rintro ⟨d, hd, ne, links⟩
    refine ok.2 d hd ?_
    have : x ∈ references d := by
      rcases links with h | h <;> simp [references, List.reduceOption, h]
    simp [ne, this]
  · rfl

theorem effective_step (own : e.ofSweep = true) (other : s.stage.current ≠ some sid) :
    (s.step e).db.snapshotItemsEffective sid = s.db.snapshotItemsEffective sid := by
  cases e with
  | select | readItems | readReferences =>
    simp only [State.step]
    split <;> rfl
  | claim now =>
    simp only [State.step]
    split
    · split
      · exact effective_setWhere s.db (f := Cleanup.claimed) (fun _ => rfl) (fun _ => rfl)
          (fun _ => rfl) sid
      · rfl
    · rfl
    · rfl
  | deleteBlob path gone =>
    simp only [State.step]
    split
    · split <;> rfl
    · rfl
  | deleteRows now =>
    simp only [State.step]
    split
    · rename_i x todo at'
      rw [at'] at other
      exact effective_deleteRows fun same => other (congrArg some same.symm)
    · rfl
  | crash => rfl
  | reuseBlob | buildSpOverlay | write => cases own

end

structure Harmless (s : State) : Prop where
  current : ∀ x ∈ s.stage.current, x ∈ s.taken
  unread : ∀ x ∈ s.taken ++ s.stage.doomed, ¬ Linked s.db x
  unreferenced : ∀ p ∈ s.deleted ++ s.stage.safe, ∀ i ∈ s.db.items, i.blobPath = some p →
    i.snapshotId ∈ s.taken

/-- Another transaction neither links to a snapshot that a pass has chosen or claimed, nor stores a
row for a blob that is deleted or settled to be. -/
def Undisturbed (s : State) (e : Event) : Prop :=
  e.ofSweep = false →
    (∀ x ∈ s.taken ++ s.stage.doomed, Linked (s.step e).db x → Linked s.db x) ∧
    ∀ p ∈ s.deleted ++ s.stage.safe, ∀ i ∈ (s.step e).db.items, i.blobPath = some p →
      i.snapshotId ∈ s.taken ∨ i ∈ s.db.items

section

variable {s : State} {db : Db}

theorem linked_setWhere : Linked (db.setWhere ids Cleanup.claimed) x ↔ Linked db x := by
  constructor
  · rintro ⟨d, hd, ne, links⟩
    obtain ⟨d₀, hd₀, rfl⟩ := mem_map.mp hd
    split at ne
    · rename_i claimed
      rw [if_pos claimed] at links
      exact ⟨d₀, hd₀, ne, links⟩
    · rename_i unclaimed
      rw [if_neg unclaimed] at links
      exact ⟨d₀, hd₀, ne, links⟩
  · rintro ⟨d, hd, ne, links⟩
    refine ⟨_, mem_map.mpr ⟨d, hd, rfl⟩, ?_, ?_⟩
    · split <;> exact ne
    · split <;> exact links

theorem linked_deleteRows (h : Linked (deleteRows now sid db) x) : Linked db x := by
  rw [deleteRows] at h
  split at h
  · obtain ⟨d, hd, rest⟩ := h
    exact ⟨d, (mem_filter.mp hd).1, rest⟩
  · exact h

theorem items_deleteRows : (deleteRows now sid db).items ⊆ db.items := by
  rw [deleteRows]
  split
  · exact filter_sublist.subset
  · exact Subset.refl _

section

variable (h : Harmless s)

include h

theorem Harmless.advance
    (current : ∀ x ∈ stage.current, x ∈ s.taken) (doomed : stage.doomed ⊆ s.stage.doomed)
    (safe : deleted ++ stage.safe ⊆ s.deleted ++ s.stage.safe) :
    Harmless { s with stage := stage, deleted := deleted } := by
  refine ⟨current, fun x hx => h.unread x ?_, fun p hp => h.unreferenced p (safe hp)⟩
  rcases mem_append.mp hx with taken | hx
  · exact mem_append_left _ taken
  · exact mem_append_right _ (doomed hx)

theorem select_harmless (now : Time) : Harmless (s.step (.select now)) := by
  simp only [State.step]
  split
  · rename_i idle
    refine ⟨fun x hx => (by cases hx), fun x hx => ?_, fun p hp => h.unreferenced p ?_⟩
    · rcases mem_append.mp hx with taken | hx
      · exact h.unread x (mem_append_left _ taken)
      · obtain ⟨d, hd, rfl⟩ := mem_map.mp hx
        have fits := (mem_filter.mp (mem_of_mem_take hd)).2
        simp only [State.candidate, Bool.and_eq_true, Bool.not_eq_true'] at fits
        rw [← readByAnother_iff, fits.1.2]
        exact Bool.false_ne_true
    · rw [idle]
      exact hp
  · exact h

theorem claim_harmless (now : Time) : Harmless (s.step (.claim now)) := by
  simp only [State.step]
  split
  · rename_i sid todo chosen
    have doomed : s.stage.doomed = sid :: todo := by rw [chosen]; rfl
    have safe : s.stage.safe = [] := by rw [chosen]; rfl
    split
    · refine ⟨fun x hx => ?_, fun x hx => ?_, fun p hp i hi path => ?_⟩
      · cases hx
        exact mem_cons_self
      · rw [linked_setWhere]
        refine h.unread x ?_
        rw [doomed]
        rcases mem_append.mp hx with took | hx
        · rcases mem_cons.mp took with rfl | took
          · exact mem_append_right _ mem_cons_self
          · exact mem_append_left _ took
        · exact mem_append_right _ hx
      · exact mem_cons_of_mem _ (h.unreferenced p (by rw [safe]; exact hp) i hi path)
    · exact h.advance (fun x hx => by cases hx) (doomed ▸ subset_cons_self _ _)
        (by rw [safe]; exact Subset.refl _)
  · rename_i chosen
    exact h.advance (fun x hx => by cases hx) (nil_subset _) (by rw [chosen]; exact Subset.refl _)
  · exact h

theorem readItems_harmless : Harmless (s.step .readItems) := by
  simp only [State.step]
  split
  · rename_i sid todo claimed
    have current := h.current
    rw [claimed] at current
    refine h.advance current ?_ ?_
    · rw [claimed]
      exact Subset.refl _
    · rw [claimed]
      exact Subset.refl _
  · exact h

theorem readReferences_harmless : Harmless (s.step .readReferences) := by
  simp only [State.step]
  split
  · rename_i sid paths todo listed
    have current := h.current
    rw [listed] at current
    refine ⟨current, fun x hx => h.unread x (by rw [listed]; exact hx), fun p hp i hi path => ?_⟩
    rcases mem_append.mp hp with gone | settled
    · exact h.unreferenced p (mem_append_left _ gone) i hi path
    · -- the reference check has just looked at the row
      have kept := mem_filter.mp (mem_dedup.mp settled)
      simp only [Bool.and_eq_true, decide_eq_true_eq] at kept
      by_cases own : i.snapshotId = sid
      · rw [own]
        exact current sid rfl
      · refine absurd (mem_filterMap.mpr ⟨i, mem_filter.mpr ⟨hi, ?_⟩, path⟩) kept.2.1.2
        simp [own, path, kept.1]
  · exact h

theorem deleteBlob_harmless (path : String) (gone : Bool) :
    Harmless (s.step (.deleteBlob path gone)) := by
  simp only [State.step]
  split
  · rename_i sid safe todo cleared
    split
    · rename_i mem
      have current := h.current
      rw [cleared] at current
      refine h.advance current (by rw [cleared]; exact Subset.refl _) fun p hp => ?_
      rw [cleared]
      have settled : path ∈ s.deleted ++ (Stage.cleared sid safe todo).safe :=
        mem_append_right _ mem
      rcases mem_append.mp hp with old | rest
      · split at old
        · rcases mem_cons.mp old with rfl | old
          · exact settled
          · exact mem_append_left _ old
        · exact mem_append_left _ old
      · exact mem_append_right _ (mem_of_mem_erase rest)
    · exact h
  · exact h

theorem deleteRows_harmless (now : Time) : Harmless (s.step (.deleteRows now)) := by
  simp only [State.step]
  split
  · rename_i sid todo cleared
    refine ⟨fun x hx => (by cases hx), fun x hx links => ?_, fun p hp i hi => ?_⟩
    · refine h.unread x ?_ (linked_deleteRows links)
      rw [cleared]
      rcases mem_append.mp hx with taken | hx
      · exact mem_append_left _ taken
      · exact mem_append_right _ (mem_cons_of_mem _ hx)
    · exact h.unreferenced p (by rw [cleared]; exact hp) i (items_deleteRows hi)
  · exact h

end

theorem kept_of_other (other : e.ofSweep = false) : (s.step e).stage = s.stage ∧
    (s.step e).taken = s.taken ∧ (s.step e).deleted = s.deleted := by
  cases e with
  | reuseBlob row tenant checksum now =>
    simp only [State.step, State.reuse]
    split
    · exact ⟨rfl, rfl, rfl⟩
    · split <;> exact ⟨rfl, rfl, rfl⟩
  | buildSpOverlay tsid prior base inherited skip limits =>
    simp only [State.step]
    split <;> exact ⟨rfl, rfl, rfl⟩
  | write db jobs => exact ⟨rfl, rfl, rfl⟩
  | _ => cases other

theorem step_harmless (h : Harmless s) (undisturbed : Undisturbed s e) : Harmless (s.step e) := by
  cases own : e.ofSweep with
  | false =>
    obtain ⟨links, rows⟩ := undisturbed own
    obtain ⟨stage, taken, deleted⟩ := kept_of_other (s := s) own
    refine ⟨?_, ?_, ?_⟩
    · rw [stage, taken]
      exact h.current
    · rw [stage, taken]
      exact fun x hx linked => h.unread x hx (links x hx linked)
    · rw [stage, taken, deleted]
      intro p hp i hi path
      rcases rows p hp i hi path with took | old
      · exact took
      · exact h.unreferenced p hp i old path
  | true =>
    cases e with
    | select now => exact select_harmless h now
    | claim now => exact claim_harmless h now
    | readItems => exact readItems_harmless h
    | readReferences => exact readReferences_harmless h
    | deleteBlob path gone => exact deleteBlob_harmless h path gone
    | deleteRows now => exact deleteRows_harmless h now
    | crash =>
      exact h.advance (fun x hx => by cases hx) (nil_subset _)
        (append_subset.mpr ⟨subset_append_left _ _, nil_subset _⟩)
    | _ => cases own

theorem Harmless.stored (h : Harmless s) (survives : sid ∉ s.taken)
    (hi : i ∈ s.db.snapshotItemsEffective sid) (hp : p ∈ s.deleted) : i.blobPath ≠ some p := by
  intro path
  have took := h.unreferenced p (mem_append_left _ hp) i (Db.mem_effective.mp hi).1 path
  have unread := h.unread _ (mem_append_left _ took)
  have ne : sid ≠ i.snapshotId := by
    rintro rfl
    exact survives took
  exact not_mem_readsFrom unread ne (snapshotId_mem_readsFrom hi)

theorem undisturbed_reuse (h : ∀ p ∈ (findExistingBlob tenant checksum now s.db s.cache).1,
      p ∉ s.deleted ++ s.stage.safe) : Undisturbed s (.reuseBlob row tenant checksum now) := by
  intro _
  simp only [State.step, State.reuse]
  split
  · exact ⟨fun _ _ links => links, fun _ _ _ hi _ => .inr hi⟩
  · rename_i path found
    split
    · exact ⟨fun _ _ links => links, fun _ _ _ hi _ => .inr hi⟩
    · refine ⟨fun _ _ links => links, fun p hp i hi same => ?_⟩
      rcases mem_append.mp hi with old | new
      · exact .inr old
      · rw [mem_singleton.mp new] at same
        exact absurd (Option.some.inj same ▸ hp) (h path found)

/-- Passes take no row from an inventory they are not at; and while nobody links to a chosen snapshot,
or stores a row for a blob due to be deleted, no blob that a surviving snapshot shows is deleted. -/
theorem sweep_spares_survivors (db : Db) (jobs : List (Uuid × Work.JobStatus))
    (cache : List CacheEntry) (events : List Event) :
    let start : State := { db := db, jobs := jobs, cache := cache }
    let s := Concurrency.play State.step start events
    (∀ e sid, e.ofSweep = true → s.stage.current ≠ some sid →
      (s.step e).db.snapshotItemsEffective sid = s.db.snapshotItemsEffective sid) ∧
    (Concurrency.Along State.step Undisturbed start events →
      ∀ sid, sid ∉ s.taken → ∀ i ∈ s.db.snapshotItemsEffective sid, ∀ p ∈ s.deleted,
        i.blobPath ≠ some p) := by
  intro start s
  refine ⟨fun e sid own other => effective_step own other, fun undisturbed sid survives i hi p hp => ?_⟩
  have harmless : Harmless s := by
    refine undisturbed.invariant (fun s e h u => step_harmless h u) ⟨?_, ?_, ?_⟩
    · exact fun x hx => by cases hx
    · exact fun x hx => by cases hx
    · exact fun p hp => by cases hp
  exact harmless.stored survives hi hp

end

def cancelledRun : State where
  db :=
    { snapshots :=
        [{ id := 1, resourceId := 0, jobId := some 7, status := some .failed,
           extraData := { cancelledAt := some "5" } },
          { id := 2, resourceId := 0, jobId := some 8 }]
      items :=
        [{ id := 10, snapshotId := 1, itemType := .file, externalId := "f", tenantId := some 3,
           contentChecksum := some "ab", contentSize := some 2048, blobPath := some "one" },
          { id := 11, snapshotId := 1, itemType := .file, externalId := "g", tenantId := some 3,
            contentChecksum := some "cd", contentSize := some 2048, blobPath := some "two" }] }
  jobs := [(7, .cancelled), (8, .running)]

def reusingRow : SnapshotItem where
  id := 20
  snapshotId := 2
  itemType := .file
  externalId := "f"
  tenantId := some 3
  contentChecksum := some "ab"
  contentSize := some 2048

def reuseBefore : List Event :=
  [.select 10, .claim 10, .readItems, .reuseBlob reusingRow 3 "ab" 11, .readReferences,
    .deleteBlob "two" true, .deleteRows 12]

theorem reuseBefore_kept :
    let s := Concurrency.play State.step cancelledRun reuseBefore
    s.deleted = ["two"] ∧ (s.db.snapshotItemsEffective 2).map (·.blobPath) = [some "one"] ∧
      ∀ i ∈ s.db.snapshotItemsEffective 2, ∀ p ∈ s.deleted, i.blobPath ≠ some p := by
  intro s
  have own : ∀ {s : State} {e : Event}, e.ofSweep = true → Undisturbed s e :=
    fun own other => absurd (own.symm.trans other) (by decide)
  have undisturbed : Concurrency.Along State.step Undisturbed cancelledRun reuseBefore :=
    ⟨own rfl, own rfl, own rfl, undisturbed_reuse (by decide +kernel), own rfl, own rfl, own rfl,
      trivial⟩
  refine ⟨by decide +kernel, by decide +kernel, ?_⟩
  exact (sweep_spares_survivors cancelledRun.db cancelledRun.jobs [] reuseBefore).2 undisturbed 2
    (by decide +kernel)

def reuseAfter : List Event :=
  [.select 10, .claim 10, .readItems, .readReferences, .reuseBlob reusingRow 3 "ab" 11,
    .deleteBlob "one" true]

theorem reuseAfter_deleted :
    let s := Concurrency.play State.step cancelledRun reuseAfter
    2 ∉ s.taken ∧ ∃ i ∈ s.db.snapshotItemsEffective 2, ∃ p ∈ s.deleted, i.blobPath = some p := by
  decide +kernel

end TmVault.Cleanup.Sweep
