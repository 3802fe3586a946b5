import TmVault.Cleanup.Teardown

namespace TmVault.Cleanup

open Relational Store

structure BlobCandidate where
  blobPath : String
  (snapshotId tenantId : Option Uuid := none)
  contentChecksum : Option String := none
  backendId : Option Uuid := none

inductive RetainReason
  | catalogueOwned | foreignOwner | reuseChainDescendant | pendingCopy | sharedReference
  | unverifiable
  deriving DecidableEq

def owningSnapshotId (blobPath : String) : Option Uuid :=
  let parts := Text.split '/' blobPath.toList
  if parts.length < 4 then none else parts[2]?.bind Text.parseUuid

def isCatalogueBlobPath (path : String) : Bool :=
  "chat-catalogue/v1/".toList.isPrefixOf path.toList

def nonEmpty (s : Option String) : Option String := s.filter (· ≠ "")

def blobCandidatesFromItems (items : List SnapshotItem) : List BlobCandidate :=
  items.flatMap fun i =>
    ((nonEmpty i.blobPath).toList.map fun p =>
      { blobPath := p, snapshotId := some i.snapshotId, tenantId := i.tenantId,
        contentChecksum := i.contentChecksum, backendId := some i.backendId }) ++
    ((i.metadata.attachmentBlobPaths.filter (· ≠ "")).map fun p =>
      { blobPath := p, snapshotId := some i.snapshotId, tenantId := i.tenantId,
        backendId := some i.backendId })

structure BlobSlot where
  tenants : List Uuid
  checksums : List String
  sources : List Uuid

def candidatePaths (candidates : List BlobCandidate) : List String :=
  ((candidates.map (·.blobPath)).filter (· ≠ "")).dedup

def slotOf (candidates : List BlobCandidate) (path : String) : BlobSlot :=
  let rows := candidates.filter (·.blobPath = path)
  { tenants := rows.filterMap (·.tenantId)
    checksums := rows.filterMap fun c => nonEmpty c.contentChecksum
    sources := rows.filterMap (·.snapshotId) }

def blobRetentionReason (path : String) (slot : BlobSlot) (doomed roots : List Uuid) :
    Option RetainReason :=
  let owner := owningSnapshotId path
  if isCatalogueBlobPath path then some .catalogueOwned
  else if owner.any (· ∉ doomed) then some .foreignOwner
  else if slot.sources.any (· ∈ roots) || owner.any (· ∈ roots) then some .reuseChainDescendant
  else none

structure Verdicts where
  survivors : List String
  retained : List (String × RetainReason)

namespace Verdicts

def retain (reason : RetainReason) (v : Verdicts) (path : String) : Verdicts where
  survivors := v.survivors.filter (· ≠ path)
  retained := (path, reason) :: v.retained.filter (·.1 ≠ path)

def retainAll (reason : RetainReason) (v : Verdicts) (paths : List String) : Verdicts :=
  paths.foldl (retain reason) v

end Verdicts

/-- What the outside decides about a call: whether the copy guards are on, the probe timeout, another
probe in flight, and the statements that fail. -/
structure ProbeEnv where
  copyGuards : Bool := true
  unkeyedTimeoutMs : Int := 30000
  (unkeyedInFlight rootsFail : Bool := false)
  pinnedFails : List String → Bool := fun _ => false
  keyedFails : Uuid → List String → Bool := fun _ _ => false
  unkeyedFails : List String → Bool := fun _ => false

inductive ProbeError
  | statementFailed
  deriving DecidableEq

def probeChunk : Nat := 500

def sortPaths (paths : List String) : List String := paths.insertionSort (· ≤ ·)

def blobPinned (db : Db) (path : String) : Bool :=
  path ∈ db.copyBlobs ||
    db.items.any fun i => i.blobPath = some path && i.snapshotId ∈ db.pinned

section

variable (env : ProbeEnv) (db : Db) (candidates : List BlobCandidate) (doomed roots : List Uuid)

def applyGates : Verdicts :=
  (candidatePaths candidates).foldl (fun v path =>
    match blobRetentionReason path (slotOf candidates path) doomed roots with
    | some reason => { v with retained := (path, reason) :: v.retained }
    | none => { v with survivors := v.survivors ++ [path] }) ⟨[], []⟩

def retainPendingCopyBlobs (v : Verdicts) : Except ProbeError Verdicts :=
  if env.copyGuards && v.survivors ≠ [] then
    (chunks probeChunk (sortPaths v.survivors)).foldlM (fun v chunk =>
      if env.pinnedFails chunk then throw .statementFailed
      else pure (v.retainAll .pendingCopy (chunk.filter (blobPinned db)))) v
  else pure v

def isKeyed (path : String) : Bool :=
  (slotOf candidates path).tenants ≠ [] && (slotOf candidates path).checksums ≠ []

def keyedTenants (survivors : List String) : List Uuid :=
  ((survivors.filter (isKeyed candidates)).flatMap fun p => (slotOf candidates p).tenants).dedup

def keyedChecksums (survivors : List String) (tenant : Uuid) : List String :=
  ((survivors.filter fun p => isKeyed candidates p && tenant ∈ (slotOf candidates p).tenants).flatMap
    fun p => (slotOf candidates p).checksums).dedup

def outside (doomed roots : List Uuid) (sid : Uuid) : Bool := sid ∉ doomed || sid ∈ roots

def retainRow (v : Verdicts) (row : SnapshotItem) : Verdicts :=
  match nonEmpty row.blobPath with
  | none => v
  | some path =>
    if path ∈ v.survivors && outside doomed roots row.snapshotId then v.retain .sharedReference path
    else v

def retainSharedBlobReferences (rows : List SnapshotItem) (v : Verdicts) : Verdicts :=
  rows.foldl (retainRow doomed roots) v

def keyedRows (tenant : Uuid) (checksums : List String) : List SnapshotItem :=
  db.items.filter fun i => i.tenantId = some tenant && i.contentChecksum.any (· ∈ checksums)

def probeTenant (tenant : Uuid) (checksums : List String) (v : Verdicts) :
    Except ProbeError Verdicts :=
  (chunks probeChunk (sortPaths checksums)).foldlM (fun v chunk =>
    if env.keyedFails tenant chunk then throw .statementFailed
    else pure (retainSharedBlobReferences doomed roots (keyedRows db tenant chunk) v)) v

def probeKeyedBlobReferences (tenants : List Uuid) (checksums : Uuid → List String) (v : Verdicts) :
    Except ProbeError Verdicts :=
  tenants.foldlM (fun v tenant => probeTenant env db doomed roots tenant (checksums tenant) v) v

def unkeyedRows (paths : List String) : List SnapshotItem :=
  db.items.filter fun i => i.blobPath.any (· ∈ paths)

def probeChunks : List (List String) → Nat → Verdicts → Verdicts × Nat
  | [], probed, v => (v, probed)
  | chunk :: rest, probed, v =>
    if env.unkeyedFails chunk then (v.retainAll .unverifiable (chunk :: rest).flatten, probed)
    else probeChunks rest (probed + chunk.length)
      (retainSharedBlobReferences doomed roots (unkeyedRows db chunk) v)

def probeUnkeyedBlobReferences (unkeyed : List String) (v : Verdicts) : Verdicts × Nat :=
  if unkeyed = [] then (v, 0)
  else if env.unkeyedTimeoutMs ≤ 0 || env.unkeyedInFlight then
    (v.retainAll .unverifiable unkeyed, 0)
  else probeChunks env db doomed roots (chunks probeChunk unkeyed) 0 v

structure BlobDeletionPlan where
  deletable : List String := []
  retained : List (String × RetainReason) := []
  protectedRoots : List Uuid := []
  unkeyedProbed : Nat := 0
  deriving DecidableEq

def resolveRoots (protectedRoots : Option (List Uuid)) : Except ProbeError (List Uuid) :=
  match protectedRoots with
  | some roots => pure roots
  | none =>
    if env.rootsFail then throw .statementFailed else pure (resolveProtectedReuseRoots db doomed)

def selectWithRoots (budget : Int) : Except ProbeError BlobDeletionPlan := do
  let v ← retainPendingCopyBlobs env db (applyGates candidates doomed roots)
  -- the probe keys are fixed before the first probe retains anything
  let unkeyed := sortPaths (v.survivors.filter fun p => !isKeyed candidates p)
  let v ← probeKeyedBlobReferences env db doomed roots (keyedTenants candidates v.survivors)
    (keyedChecksums candidates v.survivors) v
  let v := v.retainAll .unverifiable (unkeyed.drop budget.toNat)
  let r := probeUnkeyedBlobReferences env db doomed roots (unkeyed.take budget.toNat) v
  pure ⟨r.1.survivors, r.1.retained, roots, r.2⟩

def selectDeletableBlobPaths (protectedRoots : Option (List Uuid)) (budget : Int) :
    Except ProbeError BlobDeletionPlan :=
  if candidatePaths candidates = [] then pure {}
  else do
    let roots ← resolveRoots env db doomed protectedRoots
    selectWithRoots env db candidates doomed roots budget

end

open List

namespace Verdicts

variable {v : Verdicts} {path : String} {paths : List String}

theorem survivors_retainAll :
    (v.retainAll reason paths).survivors = v.survivors.filter (· ∉ paths) := by
  induction paths generalizing v with
  | nil => simp [retainAll]
  | cons p paths ih =>
    rw [retainAll, foldl_cons, ← retainAll, ih, retain, filter_filter]
    apply filter_congr
    intro q _
    by_cases hq : q = p <;> simp [hq]

structure Partition (paths : List String) (v : Verdicts) : Prop where
  survivors : ∀ p ∈ v.survivors, p ∈ paths
  retained : ∀ p ∈ v.retained.map Prod.fst, p ∈ paths
  cover : ∀ p ∈ paths, p ∈ v.survivors ∨ p ∈ v.retained.map Prod.fst
  disjoint : ∀ p ∈ v.survivors, p ∉ v.retained.map Prod.fst

@[simp] theorem mem_retained_retain : p ∈ (v.retain reason path).retained.map Prod.fst ↔
      p = path ∨ p ∈ v.retained.map Prod.fst := by
  by_cases h : p = path <;> simp [retain, h]

theorem Partition.retain (h : v.Partition paths) (hp : path ∈ paths) :
    (v.retain reason path).Partition paths where
  survivors p hs := h.survivors p (mem_of_mem_filter hs)
  retained p hr := by
    rcases mem_retained_retain.mp hr with rfl | hr
    · exact hp
    · exact h.retained p hr
  cover p hs := by
    rw [mem_retained_retain]
    by_cases hpath : p = path
    · exact .inr (.inl hpath)
    · rcases h.cover p hs with hs | hr
      · exact .inl (mem_filter.mpr ⟨hs, by simpa using hpath⟩)
      · exact .inr (.inr hr)
  disjoint p hs hr := by
    obtain ⟨hs, hne⟩ := mem_filter.mp hs
    rcases mem_retained_retain.mp hr with rfl | hr
    · simp at hne
    · exact h.disjoint p hs hr

theorem Partition.retainAll (h : v.Partition paths) (hp : ∀ p ∈ ps, p ∈ paths) :
    (v.retainAll reason ps).Partition paths := by
  induction ps generalizing v with
  | nil => exact h
  | cons p ps ih =>
    exact ih (h.retain (hp p mem_cons_self)) fun q hq => hp q (mem_cons_of_mem p hq)

end Verdicts

section

variable {Item : Type} {f : Verdicts → Item → Except ProbeError Verdicts}
  {v v' : Verdicts} {items : List Item}

theorem survivors_foldlM (drops : Item → String → Bool)
    (step : ∀ {v v' i}, f v i = .ok v' → v'.survivors = v.survivors.filter fun p => !drops i p)
    (h : items.foldlM f v = .ok v') :
    v'.survivors = v.survivors.filter fun p => !items.any (drops · p) := by
  induction items generalizing v with
  | nil =>
    cases h
    simp
  | cons i items ih =>
    rw [foldlM_cons] at h
    obtain ⟨v₁, h₁, h⟩ := of_bind h
    rw [ih h, step h₁, filter_filter]
    apply filter_congr
    intro p _
    rw [any_cons, Bool.not_or, Bool.and_comm]

theorem partition_foldlM {paths : List String}
    (step : ∀ {v v' i}, i ∈ items → v.Partition paths → f v i = .ok v' → v'.Partition paths)
    (hv : v.Partition paths) (h : items.foldlM f v = .ok v') : v'.Partition paths := by
  refine (foldlM_ok (fun v is => v.Partition paths ∧ ∀ i ∈ is, i ∈ items) ?_ ⟨hv, fun _ => id⟩ h).1
  rintro v₁ v₂ i is ⟨hv, hmem⟩ h
  exact ⟨step (hmem i mem_cons_self) hv h, fun j hj => hmem j (mem_cons_of_mem i hj)⟩

end

section

variable {env : ProbeEnv} {db : Db} {candidates : List BlobCandidate} {doomed roots : List Uuid}
  {v : Verdicts} {paths : List String} {p : String} {unkeyed : List String}

theorem applyGates_survivors :
    (applyGates candidates doomed roots).survivors = (candidatePaths candidates).filter fun p =>
      blobRetentionReason p (slotOf candidates p) doomed roots = none := by
  rw [applyGates]
  generalize candidatePaths candidates = paths
  suffices ∀ v : Verdicts, (paths.foldl _ v).survivors = v.survivors ++ paths.filter fun p =>
      decide (blobRetentionReason p (slotOf candidates p) doomed roots = none) from this ⟨[], []⟩
  intro v
  induction paths generalizing v with
  | nil => simp
  | cons p paths ih =>
    rw [foldl_cons, ih]
    cases h : blobRetentionReason p (slotOf candidates p) doomed roots <;> simp [h]

theorem applyGates_retained : p ∈ (applyGates candidates doomed roots).retained.map Prod.fst ↔
      p ∈ candidatePaths candidates ∧
        blobRetentionReason p (slotOf candidates p) doomed roots ≠ none := by
  rw [applyGates]
  generalize candidatePaths candidates = paths
  suffices ∀ v : Verdicts, p ∈ (paths.foldl _ v).retained.map Prod.fst ↔
      p ∈ v.retained.map Prod.fst ∨ (p ∈ paths ∧
        blobRetentionReason p (slotOf candidates p) doomed roots ≠ none) by
    simpa using this ⟨[], []⟩
  intro v
  induction paths generalizing v with
  | nil => simp
  | cons q paths ih =>
    rw [foldl_cons, ih]
    cases h : blobRetentionReason q (slotOf candidates q) doomed roots with
    | none =>
      have : p = q → blobRetentionReason p (slotOf candidates p) doomed roots = none := by
        rintro rfl
        exact h
      simp only [mem_cons]
      grind
    | some reason =>
      have : p = q → blobRetentionReason p (slotOf candidates p) doomed roots ≠ none := by
        rintro rfl
        simp [h]
      simp only [map_cons, mem_cons]
      grind

theorem applyGates_partition :
    (applyGates candidates doomed roots).Partition (candidatePaths candidates) := by
  refine ⟨?_, ?_, ?_, ?_⟩ <;>
    simp only [applyGates_survivors, applyGates_retained, mem_filter, decide_eq_true_eq]
  · exact fun p hp => hp.1
  · exact fun p hp => hp.1
  · intro p hp
    by_cases h : blobRetentionReason p (slotOf candidates p) doomed roots = none
    · exact .inl ⟨hp, h⟩
    · exact .inr ⟨hp, h⟩
  · exact fun p hp hr => hr.2 hp.2

theorem mem_chunks : p ∈ rows ↔ ∃ chunk ∈ chunks probeChunk rows, p ∈ chunk := by
  rw [← mem_flatten, chunks_flatten (by decide)]

@[simp] theorem mem_sortPaths : p ∈ sortPaths ps ↔ p ∈ ps :=
  mem_insertionSort _

theorem retainPendingCopyBlobs_survivors (h : retainPendingCopyBlobs env db v = .ok v') :
    v'.survivors = v.survivors.filter fun p => !(env.copyGuards && blobPinned db p) := by
  rw [retainPendingCopyBlobs] at h
  split at h
  case isTrue guarded =>
    rw [Bool.and_eq_true] at guarded
    rw [survivors_foldlM (fun chunk p => decide (p ∈ chunk.filter (blobPinned db))) ?_ h]
    · apply filter_congr
      intro p hp
      obtain ⟨chunk, hchunk, hp⟩ := mem_chunks.mp (mem_sortPaths.mpr hp)
      rw [guarded.1, Bool.true_and]
      congr 1
      rw [Bool.eq_iff_iff, any_eq_true]
      constructor
      · rintro ⟨chunk', -, hp'⟩
        exact (mem_filter.mp (of_decide_eq_true hp')).2
      · exact fun hpin => ⟨chunk, hchunk, decide_eq_true (mem_filter.mpr ⟨hp, hpin⟩)⟩
    · intro v v' chunk h
      split at h
      · cases h
      · cases h
        rw [Verdicts.survivors_retainAll]
        simp
  case isFalse unguarded =>
    cases h
    rw [Bool.and_eq_true, not_and_or] at unguarded
    rcases unguarded with off | empty
    · simp [Bool.eq_false_iff.mpr off]
    · have : v.survivors = [] := by simpa using empty
      simp [this]

theorem retainPendingCopyBlobs_partition (hv : v.Partition paths)
    (h : retainPendingCopyBlobs env db v = .ok v') : v'.Partition paths := by
  rw [retainPendingCopyBlobs] at h
  split at h
  · refine partition_foldlM ?_ hv h
    intro v₁ v₂ chunk hchunk hv₁ h
    split at h
    · cases h
    · cases h
      apply hv₁.retainAll
      intro p hp
      apply hv.survivors
      rw [← mem_sortPaths, mem_chunks]
      exact ⟨chunk, hchunk, mem_of_mem_filter hp⟩
  · cases h
    exact hv

def sharedBy (doomed roots : List Uuid) (rows : List SnapshotItem) (path : String) : Bool :=
  rows.any fun row => nonEmpty row.blobPath = some path && outside doomed roots row.snapshotId

theorem retainRow_survivors (row : SnapshotItem) : (retainRow doomed roots v row).survivors =
    v.survivors.filter fun p => !sharedBy doomed roots [row] p := by
  rw [retainRow]
  cases hpath : nonEmpty row.blobPath with
  | none => simp [sharedBy, hpath]
  | some path =>
    simp only [sharedBy, any_cons, any_nil, Bool.or_false, hpath, Option.some_inj]
    cases hout : outside doomed roots row.snapshotId with
    | false => simp
    | true =>
      by_cases hmem : path ∈ v.survivors
      · simp only [hmem, decide_true, Bool.and_self, if_true, Verdicts.retain]
        apply filter_congr
        intro p _
        simp [eq_comm]
      · simp only [hmem, decide_false, Bool.and_true]
        rw [if_neg Bool.false_ne_true, filter_eq_self.mpr]
        intro p hp
        have : path ≠ p := fun he => hmem (he ▸ hp)
        simp [this]

theorem retainShared_survivors (rows : List SnapshotItem) :
    (retainSharedBlobReferences doomed roots rows v).survivors =
      v.survivors.filter fun p => !sharedBy doomed roots rows p := by
  rw [retainSharedBlobReferences]
  induction rows generalizing v with
  | nil => simp [sharedBy]
  | cons row rows ih =>
    rw [foldl_cons, ih, retainRow_survivors, filter_filter]
    apply filter_congr
    intro p _
    simp [sharedBy, Bool.and_comm]

theorem retainShared_partition (rows : List SnapshotItem) (hv : v.Partition paths) :
    (retainSharedBlobReferences doomed roots rows v).Partition paths := by
  rw [retainSharedBlobReferences]
  induction rows generalizing v with
  | nil => exact hv
  | cons row rows ih =>
    refine ih ?_
    rw [retainRow]
    split
    · exact hv
    · split
      case h_2.isTrue path _ hret =>
        rw [Bool.and_eq_true, decide_eq_true_eq] at hret
        exact hv.retain (hv.survivors path hret.1)
      · exact hv

theorem sharedBy_iff : sharedBy doomed roots rows p = true ↔
      ∃ row ∈ rows, nonEmpty row.blobPath = some p ∧ outside doomed roots row.snapshotId = true := by
  simp [sharedBy]

@[simp] theorem mem_keyedRows :
    row ∈ keyedRows db tenant checksums ↔ row ∈ db.items ∧ row.tenantId = some tenant ∧
      ∃ c ∈ checksums, row.contentChecksum = some c := by
  simp only [keyedRows, mem_filter, Bool.and_eq_true, decide_eq_true_eq, Option.any_eq_true]
  grind

theorem probeTenant_survivors {tenant : Uuid} {checksums : List String}
    (h : probeTenant env db doomed roots tenant checksums v = .ok v') :
    v'.survivors = v.survivors.filter fun p =>
      !sharedBy doomed roots (keyedRows db tenant checksums) p := by
  rw [survivors_foldlM (fun chunk p => sharedBy doomed roots (keyedRows db tenant chunk) p) ?_ h]
  · apply filter_congr
    intro p _
    congr 1
    rw [Bool.eq_iff_iff, any_eq_true, sharedBy_iff]
    constructor
    · rintro ⟨chunk, hchunk, hshared⟩
      obtain ⟨row, hrow, hpath, hout⟩ := sharedBy_iff.mp hshared
      obtain ⟨hitem, htenant, c, hc, hcs⟩ := mem_keyedRows.mp hrow
      have : c ∈ checksums := mem_sortPaths.mp (mem_chunks.mpr ⟨chunk, hchunk, hc⟩)
      exact ⟨row, mem_keyedRows.mpr ⟨hitem, htenant, c, this, hcs⟩, hpath, hout⟩
    · rintro ⟨row, hrow, hpath, hout⟩
      obtain ⟨hitem, htenant, c, hc, hcs⟩ := mem_keyedRows.mp hrow
      obtain ⟨chunk, hchunk, hc⟩ := mem_chunks.mp (mem_sortPaths.mpr hc)
      exact ⟨chunk, hchunk,
        sharedBy_iff.mpr ⟨row, mem_keyedRows.mpr ⟨hitem, htenant, c, hc, hcs⟩, hpath, hout⟩⟩
  · intro v v' chunk h
    split at h
    · cases h
    · cases h
      exact retainShared_survivors _

theorem probeKeyed_survivors
    (h : probeKeyedBlobReferences env db doomed roots tenants checksums v = .ok v') :
    v'.survivors = v.survivors.filter fun p => !tenants.any fun tenant =>
      sharedBy doomed roots (keyedRows db tenant (checksums tenant)) p :=
  survivors_foldlM (fun tenant p => sharedBy doomed roots (keyedRows db tenant (checksums tenant)) p)
    probeTenant_survivors h

theorem probeKeyed_partition (hv : v.Partition paths)
    (h : probeKeyedBlobReferences env db doomed roots tenants checksums v = .ok v') :
    v'.Partition paths := by
  refine partition_foldlM ?_ hv h
  intro v₁ v₂ tenant _ hv₁ h
  refine partition_foldlM ?_ hv₁ h
  intro v₃ v₄ chunk _ hv₃ h
  split at h
  · cases h
  · cases h
    exact retainShared_partition _ hv₃

def probedPaths (env : ProbeEnv) (unkeyed : List String) : List String :=
  if env.unkeyedTimeoutMs ≤ 0 || env.unkeyedInFlight then []
  else ((chunks probeChunk unkeyed).takeWhile fun chunk => !env.unkeyedFails chunk).flatten

theorem probedPaths_subset (h : p ∈ probedPaths env unkeyed) : p ∈ unkeyed := by
  rw [probedPaths] at h
  split at h
  · cases h
  · obtain ⟨chunk, hchunk, hp⟩ := mem_flatten.mp h
    rw [← chunks_flatten (n := probeChunk) (by decide) unkeyed]
    exact mem_flatten.mpr ⟨chunk, (takeWhile_sublist _).subset hchunk, hp⟩

theorem probeChunks_survivors (cs : List (List String)) (n : Nat) :
    (probeChunks env db doomed roots cs n v).1.survivors = v.survivors.filter fun p =>
      p ∉ (cs.dropWhile fun chunk => !env.unkeyedFails chunk).flatten &&
        !(cs.takeWhile fun chunk => !env.unkeyedFails chunk).any fun chunk =>
          sharedBy doomed roots (unkeyedRows db chunk) p := by
  induction cs generalizing v n with
  | nil => simp [probeChunks]
  | cons chunk cs ih =>
    rw [probeChunks]
    cases hf : env.unkeyedFails chunk with
    | true => simp [Verdicts.survivors_retainAll, hf]
    | false =>
      rw [if_neg Bool.false_ne_true, ih, retainShared_survivors, filter_filter,
        dropWhile_cons_of_pos (by simp [hf]), takeWhile_cons_of_pos (by simp [hf])]
      apply filter_congr
      intro p _
      simp [Bool.and_assoc, Bool.and_comm]

theorem sharedBy_unkeyedRows : sharedBy doomed roots (unkeyedRows db chunk) p = true ↔
      p ∈ chunk ∧ sharedBy doomed roots db.items p = true := by
  simp only [sharedBy_iff, unkeyedRows, mem_filter]
  constructor
  · rintro ⟨row, ⟨hitem, hany⟩, hpath, hout⟩
    obtain ⟨q, hq, hmem⟩ := (Option.any_eq_true _ _).mp hany
    have hqp : q = p := by
      rw [nonEmpty, hq] at hpath
      exact (Option.filter_eq_some_iff.mp hpath).1 |> Option.some.inj
    subst hqp
    exact ⟨of_decide_eq_true hmem, row, hitem, hpath, hout⟩
  · rintro ⟨hmem, row, hitem, hpath, hout⟩
    have hp : row.blobPath = some p := (Option.filter_eq_some_iff.mp hpath).1
    exact ⟨row, ⟨hitem, by simp [hp, hmem]⟩, hpath, hout⟩

theorem probeUnkeyed_survivors (nodup : unkeyed.Nodup) :
    p ∈ (probeUnkeyedBlobReferences env db doomed roots unkeyed v).1.survivors ↔
      p ∈ v.survivors ∧ (p ∈ unkeyed → p ∈ probedPaths env unkeyed) ∧
        ¬ (p ∈ probedPaths env unkeyed ∧ sharedBy doomed roots db.items p = true) := by
  rw [probeUnkeyedBlobReferences, probedPaths]
  split
  case isTrue h =>
    subst h
    simp [chunks, chunksFuel]
  case isFalse h =>
    split
    case isTrue => simp [Verdicts.survivors_retainAll]
    case isFalse =>
      rw [probeChunks_survivors, mem_filter]
      apply and_congr_right
      intro _
      set ran := (chunks probeChunk unkeyed).takeWhile fun chunk => !env.unkeyedFails chunk
      set rest := (chunks probeChunk unkeyed).dropWhile fun chunk => !env.unkeyedFails chunk
      have split_eq : ran.flatten ++ rest.flatten = unkeyed := by
        rw [← flatten_append, takeWhile_append_dropWhile, chunks_flatten (by decide)]
      have disjoint : p ∈ ran.flatten → p ∉ rest.flatten := by
        rw [← split_eq] at nodup
        exact fun hp hp' => disjoint_of_nodup_append nodup hp hp'
      have shared : (ran.any fun chunk => sharedBy doomed roots (unkeyedRows db chunk) p) = true ↔
          p ∈ ran.flatten ∧ sharedBy doomed roots db.items p = true := by
        simp only [any_eq_true, sharedBy_unkeyedRows, mem_flatten]
        grind
      rw [Bool.and_eq_true, Bool.not_eq_true', ← Bool.not_eq_true, shared, decide_eq_true_eq]
      apply and_congr_left
      intro _
      rw [← split_eq, mem_append]
      grind

theorem probeChunks_partition (cs : List (List String)) (n : Nat) (hv : v.Partition paths)
    (hcs : ∀ p ∈ cs.flatten, p ∈ paths) :
    (probeChunks env db doomed roots cs n v).1.Partition paths := by
  induction cs generalizing v n with
  | nil => exact hv
  | cons chunk cs ih =>
    rw [probeChunks]
    split
    · exact hv.retainAll hcs
    · apply ih _ (retainShared_partition _ hv)
      intro p hp
      exact hcs p (by simp [mem_flatten.mp hp])

theorem probeUnkeyed_partition (hv : v.Partition paths) (hu : ∀ p ∈ unkeyed, p ∈ paths) :
    (probeUnkeyedBlobReferences env db doomed roots unkeyed v).1.Partition paths := by
  rw [probeUnkeyedBlobReferences]
  split
  · exact hv
  · split
    · exact hv.retainAll hu
    · apply probeChunks_partition _ _ hv
      rwa [chunks_flatten (by decide)]

end

variable (env : ProbeEnv) (db : Db) (candidates : List BlobCandidate) (doomed : List Uuid)

def gateSurvivors (roots : List Uuid) : List String :=
  (candidatePaths candidates).filter fun p =>
    blobRetentionReason p (slotOf candidates p) doomed roots = none &&
      !(env.copyGuards && blobPinned db p)

def probedUnkeyed (roots : List Uuid) (budget : Int) : List String :=
  probedPaths env ((sortPaths ((gateSurvivors env db candidates doomed roots).filter fun p =>
    !isKeyed candidates p)).take budget.toNat)

def KeyCovers (survivors : List String) (row : SnapshotItem) : Prop :=
  ∃ q ∈ survivors, isKeyed candidates q = true ∧
    (∃ t ∈ (slotOf candidates q).tenants, row.tenantId = some t) ∧
    ∃ c ∈ (slotOf candidates q).checksums, row.contentChecksum = some c

def rootsOf (protectedRoots : Option (List Uuid)) : List Uuid :=
  protectedRoots.getD (resolveProtectedReuseRoots db doomed)

variable {env db candidates doomed} {roots : List Uuid} {protectedRoots : Option (List Uuid)}
  {plan : BlobDeletionPlan}

theorem keyedProbe_iff :
    ((keyedTenants candidates survivors).any fun tenant => sharedBy doomed roots
        (keyedRows db tenant (keyedChecksums candidates survivors tenant)) p) = true ↔
      ∃ row ∈ db.items, nonEmpty row.blobPath = some p ∧
        outside doomed roots row.snapshotId = true ∧ KeyCovers candidates survivors row := by
  simp only [any_eq_true, sharedBy_iff, mem_keyedRows, keyedTenants, keyedChecksums,
    mem_dedup, mem_flatMap, mem_filter, Bool.and_eq_true, decide_eq_true_eq]
  constructor
  · rintro ⟨t, -, row, ⟨hrow, ht, c, ⟨q, ⟨hq, hkeyed, htq⟩, hc⟩, hcs⟩, hpath, hout⟩
    exact ⟨row, hrow, hpath, hout, q, hq, hkeyed, ⟨t, htq, ht⟩, c, hc, hcs⟩
  · rintro ⟨row, hrow, hpath, hout, q, hq, hkeyed, ⟨t, htq, ht⟩, c, hc, hcs⟩
    exact ⟨t, ⟨q, ⟨hq, hkeyed⟩, htq⟩, row,
      ⟨hrow, ht, c, ⟨q, ⟨hq, hkeyed, htq⟩, hc⟩, hcs⟩, hpath, hout⟩

theorem nodup_gateSurvivors (roots : List Uuid) :
    (gateSurvivors env db candidates doomed roots).Nodup :=
  (nodup_dedup _).filter _

theorem nodup_sortPaths (h : ps.Nodup) : (sortPaths ps).Nodup :=
  (perm_insertionSort _ _).nodup_iff.mpr h

theorem resolveRoots_ok (h : resolveRoots env db doomed protectedRoots = .ok roots) :
    roots = rootsOf db doomed protectedRoots := by
  cases protectedRoots with
  | some given =>
    cases h
    rfl
  | none =>
    simp only [resolveRoots] at h
    split at h
    · cases h
    · cases h
      rfl

/-- A plan deletes what passes the gates, is probed, and is found at no row outside. -/
structure Plans (env : ProbeEnv) (db : Db) (candidates : List BlobCandidate) (doomed roots : List Uuid)
    (budget : Int) (plan : BlobDeletionPlan) : Prop where
  verdicts : (⟨plan.deletable, plan.retained⟩ : Verdicts).Partition (candidatePaths candidates)
  deletable : ∀ p, p ∈ plan.deletable ↔ p ∈ gateSurvivors env db candidates doomed roots ∧
    (isKeyed candidates p = true ∨ p ∈ probedUnkeyed env db candidates doomed roots budget) ∧
    ¬ ∃ row ∈ db.items, outside doomed roots row.snapshotId = true ∧ nonEmpty row.blobPath = some p ∧
      (KeyCovers candidates (gateSurvivors env db candidates doomed roots) row ∨
        p ∈ probedUnkeyed env db candidates doomed roots budget)

theorem selectWithRoots_spec (h : selectWithRoots env db candidates doomed roots budget = .ok plan) :
    Plans env db candidates doomed roots budget plan := by
  obtain ⟨v₁, h₁, v₂, h₂, h⟩ := of_bind₂ h
  cases h
  have survivors₁ : v₁.survivors = gateSurvivors env db candidates doomed roots := by
    rw [retainPendingCopyBlobs_survivors h₁, applyGates_survivors, filter_filter, gateSurvivors]
    apply filter_congr
    intro p _
    exact Bool.and_comm _ _
  have partition₁ := retainPendingCopyBlobs_partition applyGates_partition h₁
  have partition₂ := probeKeyed_partition partition₁ h₂
  set unkeyed := sortPaths (v₁.survivors.filter fun p => !isKeyed candidates p) with hunkeyed
  have mem_unkeyed : ∀ {p}, p ∈ unkeyed ↔ p ∈ v₁.survivors ∧ isKeyed candidates p = false := by
    intro p
    rw [hunkeyed, mem_sortPaths, mem_filter, Bool.not_eq_true']
  have nodup : unkeyed.Nodup :=
    nodup_sortPaths ((survivors₁ ▸ nodup_gateSurvivors roots).filter _)
  have known : ∀ p ∈ unkeyed, p ∈ candidatePaths candidates :=
    fun p hp => partition₁.survivors p (mem_unkeyed.mp hp).1
  refine ⟨?_, fun p => ?_⟩
  · apply probeUnkeyed_partition
    · exact partition₂.retainAll fun p hp => known p (mem_of_mem_drop hp)
    · exact fun p hp => known p (mem_of_mem_take hp)
  · have probed : probedUnkeyed env db candidates doomed roots budget =
        probedPaths env (unkeyed.take budget.toNat) := by
      rw [probedUnkeyed, ← survivors₁]
    rw [probeUnkeyed_survivors (nodup.sublist (take_sublist _ _)),
      Verdicts.survivors_retainAll, mem_filter, probeKeyed_survivors h₂, mem_filter,
      Bool.not_eq_true', ← Bool.not_eq_true, keyedProbe_iff, sharedBy_iff, ← probed,
      decide_eq_true_eq, ← survivors₁]
    have ran : p ∈ probedUnkeyed env db candidates doomed roots budget →
        p ∈ unkeyed.take budget.toNat := by
      rw [probed]
      exact probedPaths_subset
    have parts : p ∈ unkeyed ↔ p ∈ unkeyed.take budget.toNat ∨ p ∈ unkeyed.drop budget.toNat := by
      rw [← mem_append, take_append_drop]
    have disjoint : p ∈ unkeyed.take budget.toNat → p ∉ unkeyed.drop budget.toNat :=
      fun h h' => disjoint_take_drop nodup le_rfl h h'
    have keyed := @mem_unkeyed p
    rw [parts] at keyed
    grind

theorem selectDeletable_spec
    (h : selectDeletableBlobPaths env db candidates doomed protectedRoots budget = .ok plan) :
    Plans env db candidates doomed (rootsOf db doomed protectedRoots) budget plan := by
  rw [selectDeletableBlobPaths] at h
  split at h
  case isTrue none_given =>
    cases h
    refine ⟨⟨by simp, by simp, by simp [none_given], by simp⟩, fun p => ?_⟩
    simp [gateSurvivors, none_given]
  case isFalse =>
    obtain ⟨roots, hroots, h⟩ := of_bind h
    rw [← resolveRoots_ok hroots]
    exact selectWithRoots_spec h

def Refers (row : SnapshotItem) (path : String) : Prop :=
  row.blobPath = some path ∨ path ∈ row.metadata.attachmentBlobPaths

instance (row : SnapshotItem) (path : String) : Decidable (Refers row path) :=
  inferInstanceAs (Decidable (_ ∨ _))

instance (candidates : List BlobCandidate) (survivors : List String) (row : SnapshotItem) :
    Decidable (KeyCovers candidates survivors row) :=
  inferInstanceAs (Decidable (∃ q ∈ survivors, _ ∧ (∃ t ∈ _, _) ∧ ∃ c ∈ _, _))

theorem ne_empty_of_gateSurvivors
    (h : p ∈ gateSurvivors env db candidates doomed roots) : p ≠ "" := by
  have hp := mem_dedup.mp (mem_of_mem_filter h)
  exact of_decide_eq_true (mem_filter.mp hp).2

/-- No deletable path is needed outside the teardown exactly when each probed path that is needed is
the own path of a row its probe reads: by tenant and checksum, or by path. -/
theorem selectDeletable_safe_iff {protectedRoots : Option (List Uuid)} {budget : Int}
    {plan : BlobDeletionPlan} {roots : List Uuid} (hroots : roots = rootsOf db doomed protectedRoots)
    (h : selectDeletableBlobPaths env db candidates doomed protectedRoots budget = .ok plan) :
    ((∀ p ∈ candidatePaths candidates, p ∈ plan.deletable ↔ p ∉ plan.retained.map (·.1)) ∧
      ∀ p ∈ plan.deletable, ∀ row ∈ db.items, outside doomed roots row.snapshotId = true →
        ¬ Refers row p) ↔
      ∀ p ∈ gateSurvivors env db candidates doomed roots,
        (isKeyed candidates p = true ∨ p ∈ probedUnkeyed env db candidates doomed roots budget) →
        (∃ row ∈ db.items, outside doomed roots row.snapshotId = true ∧ Refers row p) →
        ∃ row ∈ db.items, outside doomed roots row.snapshotId = true ∧ row.blobPath = some p ∧
          (KeyCovers candidates (gateSurvivors env db candidates doomed roots) row ∨
            p ∈ probedUnkeyed env db candidates doomed roots budget) := by
  subst hroots
  obtain ⟨verdicts, deletable⟩ := selectDeletable_spec h
  constructor
  · intro ⟨_, safe⟩ p hp probed ⟨row, hrow, out, refers⟩
    by_contra unseen
    refine safe p ((deletable p).mpr ⟨hp, probed, ?_⟩) row hrow out refers
    intro ⟨seen, hseen, hout, hpath, reach⟩
    exact unseen ⟨seen, hseen, hout, (Option.filter_eq_some_iff.mp hpath).1, reach⟩
  · intro seen
    refine ⟨fun p hp => ⟨verdicts.disjoint p, (verdicts.cover p hp).resolve_right⟩, ?_⟩
    intro p hp row hrow out refers
    obtain ⟨gates, probed, unshared⟩ := (deletable p).mp hp
    obtain ⟨other, hother, hout, hpath, reach⟩ := seen p gates probed ⟨row, hrow, out, refers⟩
    refine unshared ⟨other, hother, hout, ?_, reach⟩
    exact Option.filter_eq_some_iff.mpr ⟨hpath, by simpa using ne_empty_of_gateSurvivors gates⟩

def carriedMail : Db where
  snapshots := [{ id := 1, resourceId := 0 }, { id := 2, resourceId := 0 }]
  items :=
    [{ id := 10, snapshotId := 1, itemType := .email, externalId := "m", tenantId := some 5,
       contentChecksum := some "x", blobPath := some "mail" },
      { id := 11, snapshotId := 1, itemType := .email, externalId := "n", tenantId := some 5,
        contentChecksum := some "y", blobPath := some "note" },
      { id := 12, snapshotId := 2, itemType := .email, externalId := "m", tenantId := some 5,
        contentChecksum := some "x", blobPath := some "mail" }]

theorem carriedMail_safe : selectDeletableBlobPaths {} carriedMail
        (blobCandidatesFromItems (carriedMail.items.take 2)) [1] none 500 =
      .ok { deletable := ["note"], retained := [("mail", .sharedReference)] } ∧
    ((∀ p ∈ ["mail", "note"], p ∈ ["note"] ↔ p ∉ ["mail"]) ∧
      ∀ p ∈ ["note"], ∀ row ∈ carriedMail.items, outside [1] [] row.snapshotId = true →
        ¬ Refers row p) := by
  have call : selectDeletableBlobPaths {} carriedMail
      (blobCandidatesFromItems (carriedMail.items.take 2)) [1] none 500 =
      .ok { deletable := ["note"], retained := [("mail", .sharedReference)] } := by decide +kernel
  exact ⟨call, (selectDeletable_safe_iff (by decide +kernel) call).mpr (by decide +kernel)⟩

def carriedAttachment : Db where
  snapshots := [{ id := 1, resourceId := 0 }, { id := 2, resourceId := 0 }]
  items :=
    [{ id := 10, snapshotId := 1, itemType := .email, externalId := "m", tenantId := some 5,
       metadata := { attachmentBlobPaths := ["scan"] } },
      { id := 11, snapshotId := 2, itemType := .email, externalId := "m", tenantId := some 5,
        metadata := { attachmentBlobPaths := ["scan"] } }]

theorem carriedAttachment_deleted : selectDeletableBlobPaths {} carriedAttachment
        (blobCandidatesFromItems (carriedAttachment.items.take 1)) [1] none 500 =
      .ok { deletable := ["scan"], unkeyedProbed := 1 } ∧
    ∃ row ∈ carriedAttachment.items, outside [1] [] row.snapshotId = true ∧ Refers row "scan" := by
  decide +kernel

end TmVault.Cleanup
