import TmVault.Concurrency.Runs
import TmVault.Provider.Work

namespace TmVault.Provider

open Relational Concurrency Store Work

structure WorkKey where
  id : Uuid
  leaf : Leaf
  jobId : Uuid
  weight : Nat
  deriving DecidableEq

def workKey (r : ProviderWork) : WorkKey := ⟨r.id, r.leaf, r.jobId, r.weight⟩

def rowFence (r : ProviderWork) : Fenced (Nat × Nat) (Nat × Nat) :=
  ⟨(r.generation, r.parentLeaseToken), (r.snapshotLeaseToken, r.jobLeaseToken)⟩

def fence (w : World) (k : WorkKey) : Option (Fenced (Nat × Nat) (Nat × Nat)) :=
  ((w.work? k.id).filter (workKey · = k)).map rowFence

def ProviderClaim.ticket (c : ProviderClaim) : Ticket WorkKey (Nat × Nat) (Nat × Nat) where
  key := ⟨c.workId, c.leaf, c.jobId, c.weight⟩
  stamp := (c.generation, c.parentToken)
  detail := (c.snapshotToken, c.jobToken)

structure Sound (w : World) : Prop where
  work_ids : (w.works.map (·.id)).Nodup
  behind : ∀ r ∈ w.works, ∃ t, w.leaseToken? r.leaf = some t ∧ r.parentLeaseToken ≤ t

def Rises (w w' : World) : Prop :=
  ∀ leaf t, w.leaseToken? leaf = some t → ∃ t', w'.leaseToken? leaf = some t' ∧ t ≤ t'

/-- What every transaction does: rows keep their identity and their stamps move up, and so do the
lease tokens of the leaves. -/
def Advance (w w' : World) : Prop :=
  Sound w → Sound w' ∧ Evolves (fence w) (fence w') ∧ Rises w w'

variable {w w' : World} {id : Uuid} {k : WorkKey} {leaf : Leaf} {r : ProviderWork}

theorem Rises.refl (w : World) : Rises w w := fun _ t h => ⟨t, h, le_rfl⟩

theorem Rises.trans (h : Rises w w') (h' : Rises w' w'') : Rises w w'' := by
  intro leaf t ht
  obtain ⟨u, hu, tu⟩ := h leaf t ht
  obtain ⟨v, hv, uv⟩ := h' leaf u hu
  exact ⟨v, hv, tu.trans uv⟩

theorem Advance.refl (w : World) : Advance w w := fun sound => ⟨sound, .refl _, .refl _⟩

theorem Advance.trans (h : Advance w w') (h' : Advance w' w'') : Advance w w'' := by
  intro sound
  obtain ⟨sound', evolves, rises⟩ := h sound
  obtain ⟨sound'', evolves', rises'⟩ := h' sound'
  exact ⟨sound'', evolves.trans evolves', rises.trans rises'⟩

theorem Advance.of_rises (works : w'.works = w.works) (rises : Rises w w') : Advance w w' := by
  have rows : fence w' = fence w := by
    funext k
    simp only [fence, World.work?, works]
  intro sound
  refine ⟨⟨works ▸ sound.work_ids, fun r hr => ?_⟩, rows ▸ .refl _, rises⟩
  obtain ⟨t, ht, behind⟩ := sound.behind r (works ▸ hr)
  obtain ⟨t', ht', up⟩ := rises r.leaf t ht
  exact ⟨t', ht', behind.trans up⟩

theorem Advance.of_eq (works : w'.works = w.works) (partitions : w'.partitions = w.partitions)
    (snapshots : w'.db.snapshots = w.db.snapshots) : Advance w w' := by
  apply Advance.of_rises works
  intro leaf t ht
  refine ⟨t, ?_, le_rfl⟩
  simp only [World.leaseToken?, World.partition?, Db.snapshot?, partitions, snapshots] at ht ⊢
  exact ht

theorem fence_eq_some :
    fence w k = some b ↔ ∃ r, w.work? k.id = some r ∧ workKey r = k ∧ rowFence r = b := by
  simp [fence, Option.filter_eq_some_iff, and_assoc]

theorem token_updateKey {Row : Type} {key : Row → Uuid} {token : Row → Nat} {rows : List Row}
    {f : Row → Row} (keeps : ∀ r, key r = id → key (f r) = key r)
    (up : ∀ r, rows.find? (key · = id) = some r → token r ≤ token (f r))
    (h : (rows.find? (key · = j)).map token = some t) :
    ∃ t', ((updateKey key id f rows).find? (key · = j)).map token = some t' ∧ t ≤ t' := by
  obtain ⟨r, hr, rfl⟩ := Option.map_eq_some_iff.mp h
  rw [find?_updateKey keeps, hr]
  refine ⟨_, rfl, ?_⟩
  dsimp only
  split
  · rename_i same
    have hj : key r = j := by simpa using List.find?_some hr
    rw [← hj, same] at hr
    exact up r hr
  · exact le_rfl

theorem advance_updateSnapshot (keeps : ∀ s, s.id = id → (f s).id = s.id)
    (up : ∀ s, w.db.snapshot? id = some s → s.leaseToken ≤ (f s).leaseToken) :
    Advance w (w.updateSnapshot id f) := by
  refine .of_rises rfl fun leaf t ht => ?_
  rw [World.leaseToken?] at ht ⊢
  cases hp : leaf.partitionId with
  | some pid =>
    rw [hp] at ht
    exact ⟨t, ht, le_rfl⟩
  | none =>
    rw [hp] at ht
    exact token_updateKey keeps up ht

theorem advance_updatePartition (keeps : ∀ p, p.id = id → (f p).id = p.id)
    (up : ∀ p, w.partition? id = some p → p.leaseToken ≤ (f p).leaseToken) :
    Advance w (w.updatePartition id f) := by
  refine .of_rises rfl fun leaf t ht => ?_
  rw [World.leaseToken?] at ht ⊢
  cases hp : leaf.partitionId with
  | none =>
    rw [hp] at ht
    exact ⟨t, ht, le_rfl⟩
  | some pid =>
    rw [hp] at ht
    exact token_updateKey keeps up ht

theorem advance_writeLease (up : ∀ t, w.leaseToken? leaf = some t → t ≤ token) :
    Advance w (w.writeLease leaf token owner expiresAt) := by
  rw [World.writeLease]
  rw [World.leaseToken?] at up
  cases hp : leaf.partitionId with
  | some pid =>
    rw [hp] at up
    exact advance_updatePartition (fun _ _ => rfl) fun p h => up _ (congrArg (Option.map _) h)
  | none =>
    rw [hp] at up
    exact advance_updateSnapshot (fun _ _ => rfl) fun s h => up _ (congrArg (Option.map _) h)

theorem advance_updateWork (keeps : ∀ r, workKey (f r) = workKey r)
    (moves : ∀ r, w.work? id = some r → Moves (rowFence r) (rowFence (f r)))
    (behind : ∀ r t, w.work? id = some r → w.leaseToken? r.leaf = some t →
      r.parentLeaseToken ≤ t → (f r).parentLeaseToken ≤ t) : Advance w (w.updateWork id f) := by
  have keepsId (r : ProviderWork) : (f r).id = r.id := congrArg WorkKey.id (keeps r)
  intro sound
  refine ⟨⟨?_, ?_⟩, ?_, .refl _⟩
  · rw [World.updateWork, map_updateKey fun r _ => keepsId r]
    exact sound.work_ids
  · intro r hr
    rcases mem_updateKey.mp hr with ⟨hr, -⟩ | ⟨old, hold, hid, rfl⟩
    · exact sound.behind r hr
    · have found : w.work? id = some old := (find?_key_eq_some sound.work_ids).mpr ⟨hold, hid⟩
      obtain ⟨t, ht, le⟩ := sound.behind old hold
      have leafEq : (f old).leaf = old.leaf := congrArg WorkKey.leaf (keeps old)
      exact ⟨t, leafEq ▸ ht, behind old t found ht le⟩
  · intro k a ha
    obtain ⟨r, hr, key, rfl⟩ := fence_eq_some.mp ha
    have found : (w.updateWork id f).work? k.id = some (if r.id = id then f r else r) :=
      (find?_updateKey fun r _ => keepsId r).trans (congrArg (Option.map _) hr)
    by_cases same : r.id = id
    · rw [if_pos same] at found
      have hid : k.id = id := by rw [← key, ← same]; rfl
      exact ⟨_, fence_eq_some.mpr ⟨f r, found, (keeps r).trans key, rfl⟩, moves r (hid ▸ hr)⟩
    · rw [if_neg same] at found
      exact ⟨_, fence_eq_some.mpr ⟨r, found, key, rfl⟩, .refl _⟩

structure Touches (r r' : ProviderWork) : Prop where
  key : workKey r' = workKey r
  tenantId : r'.tenantId = r.tenantId
  token : r'.parentLeaseToken = r.parentLeaseToken
  detail : (rowFence r').detail = (rowFence r).detail
  generation : r.generation ≤ r'.generation

theorem advance_touch (touches : ∀ r, Touches r (f r)) : Advance w (w.updateWork id f) := by
  refine advance_updateWork (fun r => (touches r).key) (fun r _ => ⟨?_, ?_⟩) ?_
  · exact ⟨(touches r).generation, (touches r).token.ge⟩
  · exact fun _ => (touches r).detail.symm
  · intro r t _ _ le
    rw [(touches r).token]
    exact le

theorem advance_charge : Advance w (charge w r amount) := .of_eq rfl rfl rfl

theorem advance_failUnits : Advance w (failUnits w id state) := .of_eq rfl rfl rfl

theorem advance_release : Advance w (release w r reserved) := by
  have back : Advance w (w.updateWork r.id _) := advance_touch (f := fun r =>
    { r with
      state := reserved.prior.1, leaseOwnerId := reserved.prior.2.1
      leaseExpiresAt := reserved.prior.2.2 }) fun _ => ⟨rfl, rfl, rfl, rfl, le_rfl⟩
  exact back.trans advance_charge

open List Option

variable {w w' : World} {now : Time} {id : Uuid} {r row : ProviderWork} {claim : ProviderClaim}
  {reserved : Reservation} {owner : Uuid} {o : Option Uuid}
  {control : ProviderWorkControl} {expiresAt : Option Time} {locked busy : List Uuid}

theorem parents_leaf (h : w.parents leaf = some p) : p.leaf = leaf := by
  simp only [World.parents, bind_eq_bind, bind_eq_some_iff] at h
  obtain ⟨snapshot, hs, job, -, h⟩ := h
  have sid : snapshot.id = leaf.snapshotId := Db.snapshot?_id hs
  obtain ⟨snapshotId, partitionId⟩ := leaf
  cases partitionId with
  | none =>
    cases h
    exact congrArg (Leaf.mk · none) sid
  | some pid =>
    obtain ⟨partition, hp, rfl⟩ := map_eq_some_iff.mp h
    have key : partition.id = pid := of_find? hp
    exact congrArg₂ Leaf.mk sid (congrArg some key)

theorem parents_leaseToken (h : w.parents leaf = some p) : w.leaseToken? leaf = some p.leaseToken := by
  simp only [World.parents, bind_eq_bind, bind_eq_some_iff] at h
  obtain ⟨snapshot, hs, job, -, h⟩ := h
  obtain ⟨snapshotId, partitionId⟩ := leaf
  cases partitionId with
  | none =>
    cases h
    exact congrArg (Option.map _) hs
  | some pid =>
    obtain ⟨partition, hp, rfl⟩ := map_eq_some_iff.mp h
    exact congrArg (Option.map _) hp

theorem fence_of_work (h : w.work? id = some r) : fence w (workKey r) = some (rowFence r) := by
  obtain rfl : r.id = id := of_find? h
  exact fence_eq_some.mpr ⟨r, h, rfl, rfl⟩

theorem issued_receipt (h : w.work? id = some r) : Issued (fence w) (receipt r).ticket :=
  ⟨rowFence r, fence_of_work h, .refl _⟩

theorem work?_of_mem (sound : Sound w) (h : r ∈ w.works) : w.work? r.id = some r :=
  (find?_key_eq_some sound.work_ids).mpr ⟨h, rfl⟩

theorem issued_key (h : Issued (fence w) claim.ticket) (hrow : w.work? claim.workId = some row) :
    workKey row = claim.ticket.key := by
  obtain ⟨b, hb, -⟩ := h
  obtain ⟨row', hrow', key, -⟩ := fence_eq_some.mp hb
  cases hrow.symm.trans hrow'
  exact key

theorem owned_ok (h : owned w now b claim = .ok (row, p)) :
    w.parents claim.leaf = some p ∧ w.work? claim.workId = some row ∧
      row.generation = claim.generation ∧ row.leaseOwnerId = claim.ownerId ∧
      p.leaseToken = claim.parentToken ∧ running now row := by
  rw [owned.eq_def] at h
  split at h
  · cases h
  · cases h
  · rename_i p' row' hp hrow
    split at h
    · rename_i pass
      cases h
      simp only [Bool.and_eq_true, decide_eq_true_eq] at pass
      refine ⟨hp, hrow, pass.1.1.1.1.1.1.2, pass.1.1.1.1.1.2, pass.1.1.2, ?_⟩
      exact Bool.and_eq_true_iff.mpr ⟨pass.1.1.1.1.1.1.1, pass.1.1.1.1.2⟩
    · cases h

theorem current_of_owned (sound : Sound w) (issued : Issued (fence w) claim.ticket)
    (h : owned w now b claim = .ok (row, p)) :
    Current (fence w) claim.ticket ∧ row.leaf = claim.leaf ∧
      row.parentLeaseToken = p.leaseToken := by
  obtain ⟨hp, hrow, generation, -, token, -⟩ := owned_ok h
  obtain ⟨b, hb, moves⟩ := issued
  obtain ⟨row', hrow', key, rfl⟩ := fence_eq_some.mp hb
  cases hrow.symm.trans hrow'
  have leafEq : row.leaf = claim.leaf := congrArg WorkKey.leaf key
  obtain ⟨t, ht, behind⟩ := sound.behind row (mem_of_find?_eq_some hrow)
  rw [leafEq, parents_leaseToken hp] at ht
  cases ht
  have up : claim.parentToken ≤ row.parentLeaseToken := moves.stamp_le.2
  have tokenEq : row.parentLeaseToken = p.leaseToken := behind.antisymm (token ▸ up)
  refine ⟨⟨_, hb, ?_⟩, leafEq, tokenEq⟩
  exact Prod.ext generation.symm (token.symm.trans tokenEq.symm)

theorem writeLease_works : (w.writeLease leaf token o expiresAt).works = w.works := by
  rw [World.writeLease]
  split <;> rfl

theorem enterQueue_eq (entries : List (QueueKey × Nat)) :
    ∃ queues, entries.foldl (enterQueue now) w = { w with queues } := by
  induction entries generalizing w with
  | nil => exact ⟨w.queues, rfl⟩
  | cons entry entries ih =>
    have first : ∃ queues, enterQueue now w entry = { w with queues } := by
      unfold enterQueue
      dsimp only
      split
      · split
        · exact ⟨_, rfl⟩
        · exact ⟨w.queues, rfl⟩
      · exact ⟨_, rfl⟩
    obtain ⟨queues, first⟩ := first
    rw [foldl_cons, first]
    exact ih

theorem insertWork_eq : ∃ queues control,
    insertWork w now r = { w with queues, control, works := w.works ++ [r] } := by
  obtain ⟨queues, entered⟩ := @enterQueue_eq w now [(r.tenantQueueKey, 1),
    (r.policyQueueKey, r.weight), (r.resourceQueueKey, 1)]
  exact ⟨queues, _, by rw [insertWork, entered]⟩

theorem advance_insertWork (fresh : r.id ∉ w.works.map (·.id))
    (token : w.leaseToken? r.leaf = some r.parentLeaseToken) : Advance w (insertWork w now r) := by
  obtain ⟨queues, control, inserted⟩ := @insertWork_eq w now r
  rw [inserted]
  intro sound
  refine ⟨⟨?_, ?_⟩, ?_, .refl _⟩
  · exact nodup_snoc sound.work_ids fresh
  · intro s hs
    rcases mem_append.mp hs with hs | hs
    · exact sound.behind s hs
    · cases mem_singleton.mp hs
      exact ⟨_, token, le_rfl⟩
  · intro k a ha
    obtain ⟨s, hs, key, rfl⟩ := fence_eq_some.mp ha
    refine ⟨_, fence_eq_some.mpr ⟨s, ?_, key, rfl⟩, .refl _⟩
    rw [World.work?, find?_append]
    exact congrArg (Option.or · _) hs

def Reserved (w : World) (reserved : Reservation) : Prop :=
  ∃ k a, fence w k = some a ∧ k.id = reserved.workId ∧ k.leaf = reserved.leaf

theorem Reserved.evolves (h : Reserved w reserved) (e : Evolves (fence w) (fence w')) :
    Reserved w' reserved := by
  obtain ⟨k, a, ha, names⟩ := h
  obtain ⟨b, hb, -⟩ := e k a ha
  exact ⟨k, b, hb, names⟩

theorem Reserved.work (h : Reserved w reserved) :
    ∃ row, w.work? reserved.workId = some row ∧ row.leaf = reserved.leaf := by
  obtain ⟨k, a, ha, hid, hleaf⟩ := h
  obtain ⟨row, hrow, rfl, -⟩ := fence_eq_some.mp ha
  exact ⟨row, hid ▸ hrow, hleaf⟩

theorem advance_warmUp : Advance w (warmUp now w r) := by
  have lifted (keys : List QueueKey) (lift : World → QueueKey → World)
      (step : ∀ w key, Advance w (lift w key)) : ∀ w, Advance w (keys.foldl lift w) := by
    induction keys with
    | nil => exact .refl
    | cons key keys ih => exact fun w => (step w key).trans (ih _)
  refine (lifted _ _ (fun w key => ?_) w).trans
    (advance_touch fun _ => ⟨rfl, rfl, rfl, rfl, le_rfl⟩)
  split
  · exact .refl w
  · exact .of_eq rfl rfl rfl

theorem nextDue_mem {locked skipped : List Uuid}
    (h : nextDue w control now locked skipped = some row) : row ∈ w.works :=
  (mem_filter.mp (orderByFirst_mem h)).1

theorem advance_supersedeCaptures : Advance w (supersedeCaptures w p row) := .of_eq rfl rfl rfl

theorem leaseToken?_writeLease (h : w.leaseToken? leaf = some t) :
    (w.writeLease leaf token o expiresAt).leaseToken? leaf = some token := by
  obtain ⟨snapshotId, partitionId⟩ := leaf
  cases partitionId with
  | none =>
    obtain ⟨s, (hs : w.db.snapshot? snapshotId = some s), -⟩ := map_eq_some_iff.mp h
    simp only [World.writeLease, World.leaseToken?]
    rw [World.snapshot?_updateSnapshot hs]
    · rfl
    · exact fun _ => rfl
  | some pid =>
    obtain ⟨q, hq, -⟩ := map_eq_some_iff.mp h
    simp only [World.writeLease, World.leaseToken?]
    rw [World.partition?_updatePartition hq]
    · rfl
    · exact fun _ => rfl

theorem advance_follow {token : Nat} {e : Option Time}
    {f : ProviderWork → ProviderWork} (found : w.work? id = some row)
    (next : w.leaseToken? row.leaf = some token)
    (keeps : ∀ r, workKey (f r) = workKey r) (up : ∀ r, r.generation ≤ (f r).generation)
    (takes : ∀ r, (f r).parentLeaseToken = token + 1) :
    Advance w ((w.writeLease row.leaf (token + 1) o e).updateWork id f) := by
  have first : Advance w (w.writeLease row.leaf (token + 1) o e) :=
    advance_writeLease fun t ht => (mem_unique ht next).le.trans token.le_succ
  intro sound
  refine first.trans (advance_updateWork keeps ?_ ?_) sound
  · intro r hr
    rw [World.work?, writeLease_works] at hr
    cases found.symm.trans hr
    obtain ⟨t, ht, behind⟩ := sound.behind row (mem_of_find?_eq_some found)
    cases next.symm.trans ht
    have ahead : row.parentLeaseToken < (f row).parentLeaseToken :=
      (takes row).symm ▸ Nat.lt_succ_of_le behind
    exact .of_lt (Prod.mk_lt_mk_of_le_of_lt (up row) ahead)
  · intro r t hr ht _
    rw [World.work?, writeLease_works] at hr
    cases found.symm.trans hr
    rw [leaseToken?_writeLease next] at ht
    exact (takes row).le.trans (Option.some.inj ht).le

theorem advance_startPartition : Advance w (startPartition w leaf) := by
  rw [startPartition]
  split
  · exact advance_updatePartition (fun _ _ => rfl) fun _ _ => le_rfl
  · exact .refl w

theorem startPartition_leaseToken? (h : w.leaseToken? leaf = some t) :
    (startPartition w leaf).leaseToken? leaf = some t := by
  obtain ⟨snapshotId, partitionId⟩ := leaf
  cases partitionId with
  | none => exact h
  | some pid =>
    obtain ⟨q, hq, rfl⟩ := map_eq_some_iff.mp h
    simp only [startPartition, World.leaseToken?]
    rw [World.partition?_updatePartition hq]
    · rfl
    · exact fun _ => rfl

theorem startPartition_works : (startPartition w leaf).works = w.works := by
  rw [startPartition]
  split <;> rfl

theorem advance_takeLeaf (found : w.work? row.id = some row) (hp : w.parents row.leaf = some p) :
    Advance w (takeLeaf w p row owner) := by
  have found' : (startPartition w row.leaf).work? row.id = some row := by
    rw [World.work?, startPartition_works]
    exact found
  have taken := advance_startPartition.trans (advance_follow (o := some owner)
    (e := row.leaseExpiresAt) (f := fun r =>
      { r with
        parentLeaseToken := p.leaseToken + 1
        snapshotLeaseToken := if p.partition.isSome then p.snapshot.leaseToken else p.leaseToken + 1
        jobLeaseToken := p.job.leaseToken }) found'
    (startPartition_leaseToken? (parents_leaseToken hp)) (fun _ => rfl) (fun _ => le_rfl)
    fun _ => rfl)
  unfold takeLeaf
  dsimp only
  split
  · exact taken.trans (.of_eq rfl rfl rfl)
  · exact taken

theorem admitReserved_of_behind {busy : Bool} (h : w.work? reserved.workId = some row)
    (behind : reserved.generation < row.generation) :
    admitReserved w busy reserved owner = (w, none) := by
  have gone : reservation? w reserved owner = none := by
    rw [reservation?, h, filter_some_neg]
    simp [behind.ne']
  rw [admitReserved, gone]

theorem advance_failCopies : Advance w (failCopies w p row) := .of_eq rfl rfl rfl

theorem advance_endLeaf : Advance w (endLeaf w p) := by
  unfold endLeaf
  split
  · exact advance_updatePartition (fun _ _ => rfl) fun _ _ => le_rfl
  split
  · exact advance_updateSnapshot (fun _ _ => rfl) fun _ _ => le_rfl
  · exact .refl w

end TmVault.Provider
