import TmVault.Lease.Rows

/-! `shared/snapshot_item_writes.py`: chat rows go in under the ownership captured before their source
was read. The check takes the parents `FOR KEY SHARE`: a plain `UPDATE` passes it, a `FOR UPDATE`
waits. -/

namespace TmVault.Chats.Writes

open Concurrency Store Work List

structure ChatWriteScope where
  (snapshotId jobId resourceId tenantId backendId : Uuid)
  (snapshotToken jobToken : Nat)
  (snapshotOwner jobOwner : Option Uuid)
  partitionId : Option Uuid := none
  partitionToken : Option Nat := none
  partitionOwner : Option Uuid := none
  deriving DecidableEq

def chatItemTypes : List String :=
  ["TEAMS_CHAT_MESSAGE", "TEAMS_MESSAGE", "TEAMS_MESSAGE_REPLY", "CHAT_MESSAGE", "CHAT_ATTACHMENT",
    "CHAT_HOSTED_CONTENT"]

def lockedParents (w : World) (snapshotId jobId : Uuid) (partitionId : Option Uuid) :
    Option Parents := do
  let job ← w.job? jobId
  let snapshot ← w.db.snapshot? snapshotId
  let partition ← partitionId.mapM w.partition?
  guard (snapshot.jobId = some jobId && job.status ∈ [.running, .queued, .pending, .retrying] &&
    snapshot.status = some .inProgress && !snapshot.extraData.cancelledAt.any (· ≠ "") &&
    partition.all fun p => p.snapshotId = snapshotId && p.jobId = jobId && p.status = .inProgress)
  return ⟨job, snapshot, partition⟩

def scopeFor (p : Parents) : ChatWriteScope :=
  ⟨p.snapshot.id, p.job.id, p.snapshot.resourceId, p.job.tenantId, p.snapshot.backendId,
    p.snapshot.leaseToken, p.job.leaseToken, p.snapshot.leaseOwnerId, p.job.leaseOwnerId,
    p.partition.map (·.id), p.partition.map (·.leaseToken), p.partition.bind (·.leaseOwnerId)⟩

def validateChatWriteScope (w : World) (scope : ChatWriteScope) : Bool :=
  (lockedParents w scope.snapshotId scope.jobId scope.partitionId).map scopeFor = some scope

structure Row where
  item : SnapshotItem
  backendId : Option Uuid := none

def prepare (scope : ChatWriteScope) (rows : List Row) : Option (List SnapshotItem) :=
  rows.mapM fun row =>
    if row.item.snapshotId ≠ scope.snapshotId || row.item.tenantId.any (· ≠ scope.tenantId) ||
        row.item.itemType.name ∉ chatItemTypes then none
    else some { row.item with
      tenantId := some (row.item.tenantId.getD scope.tenantId)
      backendId := row.backendId.getD scope.backendId }

inductive Parent
  | job (id : Uuid) | snapshot (id : Uuid) | partition (id : Uuid)
  deriving DecidableEq

def ChatWriteScope.parents (scope : ChatWriteScope) : List Parent :=
  [.job scope.jobId, .snapshot scope.snapshotId] ++ (scope.partitionId.map Parent.partition).toList

structure Write where
  forUpdate : List Parent := []
  run : World → World

def reclaimForReplica (now : Time) (dead : List Uuid) (unguarded : Bool) : Write where
  run w := { w with db := { w.db with
    snapshots := w.db.snapshots.map (Leasing.reclaim · now dead unguarded) } }

def cancelJob (jobId : Uuid) (stamp : String) : Write where
  forUpdate := [.job jobId]
  run w := { w with
    jobs := Relational.updateKey (·.id) jobId ({ · with status := .cancelled }) w.jobs
    db := { w.db with snapshots := w.db.snapshots.map fun s =>
      if s.jobId = some jobId && s.status = some .inProgress then
        { s with status := some .failed, extraData := { s.extraData with cancelledAt := some stamp } }
      else s } }

/-- A transaction of `persist_chat_snapshot_rows` that has made its check: the tables it found then,
and what has been committed since. -/
structure Batch where
  scope : ChatWriteScope
  rows : List SnapshotItem
  checked : World
  since : List Write := []

structure System where
  world : World
  open_ : List Batch := []
  committed : List (Batch × World) := []

inductive Event
  | check (scope : ChatWriteScope) (rows : List Row)
  | commit (i : Nat)
  | rollback (i : Nat)
  | write (x : Write)

def System.apply (s : System) (x : Write) : System :=
  { s with
    world := x.run s.world, open_ := s.open_.map fun b => { b with since := b.since ++ [x] } }

def Write.waits (x : Write) (b : Batch) : Bool := x.forUpdate.any (· ∈ b.scope.parents)

def step (insert : List SnapshotItem → World → World) (s : System) : Event → System
  | .check scope rows =>
    match prepare scope rows with
    | some prepared =>
      if !rows.isEmpty && validateChatWriteScope s.world scope then
        { s with open_ := ⟨scope, prepared, s.world, []⟩ :: s.open_ }
      else s
    | none => s
  | .commit i =>
    match s.open_[i]? with
    | some b =>
      ({ s with
        open_ := s.open_.eraseIdx i
        committed := (b, s.world) :: s.committed } : System).apply { run := insert b.rows }
    | none => s
  | .rollback i => { s with open_ := s.open_.eraseIdx i }
  | .write x => if s.open_.any x.waits then s else s.apply x

structure Batch.Checked (b : Batch) (w : World) : Prop where
  valid : validateChatWriteScope b.checked b.scope
  rows : ∃ rows, prepare b.scope rows = some b.rows
  found : w = b.since.foldl (fun w x => x.run w) b.checked
  unlocked : ∀ x ∈ b.since, ∀ p ∈ x.forUpdate, p ∉ b.scope.parents

theorem Batch.Checked.apply {b : Batch} {w : World} {x : Write} (h : b.Checked w)
    (free : x.waits b = false) :
    ({ b with since := b.since ++ [x] } : Batch).Checked (x.run w) where
  valid := h.valid
  rows := h.rows
  found := by rw [foldl_append, ← h.found]; rfl
  unlocked y hy := by
    rcases mem_append.mp hy with hy | hy
    · exact h.unlocked y hy
    · rw [mem_singleton.mp hy]
      simpa [Write.waits] using free

structure System.Sound (s : System) : Prop where
  open_ : ∀ b ∈ s.open_, b.Checked s.world
  committed : ∀ c ∈ s.committed, c.1.Checked c.2

theorem System.Sound.apply {s : System} {x : Write} (h : s.Sound)
    (free : ∀ b ∈ s.open_, x.waits b = false) : (s.apply x).Sound where
  open_ b hb := by
    obtain ⟨c, hc, rfl⟩ := mem_map.mp hb
    exact (h.open_ c hc).apply (free c hc)
  committed := h.committed

section

variable {insert : List SnapshotItem → World → World}

theorem step_sound (h : s.Sound) (e : Event) : (step insert s e).Sound := by
  cases e with
  | check scope rows =>
    simp only [step]
    split <;> [split; skip]
    case isTrue prepared hp valid =>
      refine ⟨fun b hb => ?_, h.committed⟩
      rcases mem_cons.mp hb with rfl | hb
      · exact ⟨(Bool.and_eq_true_iff.mp valid).2, ⟨rows, hp⟩, rfl, by simp⟩
      · exact h.open_ b hb
    all_goals exact h
  | commit i =>
    simp only [step]
    split
    · rename_i b hb
      have kept : ({ s with
          open_ := s.open_.eraseIdx i, committed := (b, s.world) :: s.committed } : System).Sound :=
        ⟨fun c hc => h.open_ c (mem_of_mem_eraseIdx hc), fun c hc => by
          rcases mem_cons.mp hc with rfl | hc
          · exact h.open_ b (mem_of_getElem? hb)
          · exact h.committed c hc⟩
      exact kept.apply fun _ _ => rfl
    · exact h
  | rollback i => exact ⟨fun b hb => h.open_ b (mem_of_mem_eraseIdx hb), h.committed⟩
  | write x =>
    simp only [step]
    split
    · exact h
    · rename_i free
      exact h.apply (by simpa using free)

theorem play_sound (h : s.Sound) (events : List Event) : (play (step insert) s events).Sound := by
  induction events generalizing s with
  | nil => exact h
  | cons e events ih => exact ih (step_sound h e)

def Write.Keeps (x : Write) (scope : ChatWriteScope) : Prop :=
  ∀ w, validateChatWriteScope (x.run w) scope = validateChatWriteScope w scope

theorem validate_foldl {scope : ChatWriteScope} {xs : List Write} {w : World}
    (h : ∀ x ∈ xs, x.Keeps scope) : validateChatWriteScope (xs.foldl (fun w x => x.run w) w) scope =
      validateChatWriteScope w scope := by
  induction xs generalizing w with
  | nil => rfl
  | cons x xs ih =>
    have head := h x mem_cons_self w
    exact (ih fun y hy => h y (mem_cons_of_mem x hy)).trans head

/-- Rows are committed under a check of the whole captured scope, in one transaction. No one locks a
parent `FOR UPDATE` in between, and what plain updates keep of the scope is there at the commit. -/
theorem chat_rows_checked (w : World) (events : List Event) :
    ∀ c ∈ (play (step insert) { world := w } events).committed, c.1.Checked c.2 ∧
      ((∀ x ∈ c.1.since, x.Keeps c.1.scope) → validateChatWriteScope c.2 c.1.scope) := by
  have none_open : ({ world := w } : System).Sound := ⟨by simp, by simp⟩
  intro c hc
  have checked := (play_sound none_open events).committed c hc
  refine ⟨checked, fun keeps => ?_⟩
  rw [checked.found, validate_foldl keeps]
  exact checked.valid

end

def reading : World where
  jobs := [{ id := 1, tenantId := 3, status := .running }]
  db := {
    snapshots := [
      { id := 2, resourceId := 4, jobId := some 1, status := some .inProgress,
        leaseOwnerId := some 7, leaseToken := 1 }] }

def readingScope : ChatWriteScope := ⟨2, 1, 4, 3, 0, 1, 0, some 7, none, none, none, none⟩

def message : Row where
  item := { itemType := .teamsChatMessage, externalId := "m", id := 5, snapshotId := 2 }

def insertRows (rows : List SnapshotItem) (w : World) : World :=
  { w with db := { w.db with items := w.db.items ++ rows } }

def cancelledBetween : System :=
  play (step insertRows) { world := reading }
    [.check readingScope [message], .write (cancelJob 1 "now"), .commit 0]

def reclaimedBetween : System :=
  play (step insertRows) { world := reading }
    [.check readingScope [message], .write (reclaimForReplica 9 [7] true), .commit 0]

theorem cancelledBetween_checked :
    ∃ c ∈ cancelledBetween.committed, c.1.rows ≠ [] ∧ validateChatWriteScope c.2 readingScope := by
  have one : ∃ c, cancelledBetween.committed = [c] ∧ c.1.rows ≠ [] ∧ c.1.since = [] ∧
      c.1.scope = readingScope := ⟨_, rfl, by decide +kernel, rfl, rfl⟩
  obtain ⟨c, only, rows, quiet, scope⟩ := one
  have committed : c ∈ cancelledBetween.committed := by rw [only]; exact mem_cons_self
  refine ⟨c, committed, rows, scope ▸ (chat_rows_checked reading _ c committed).2 ?_⟩
  rw [quiet]
  simp

theorem reclaimedBetween_unchecked :
    ∃ c ∈ reclaimedBetween.committed, c.1.rows ≠ [] ∧ c.1.scope = readingScope ∧
      validateChatWriteScope c.1.checked readingScope ∧
      (c.2.db.snapshot? 2).map (·.leaseToken) = some 2 ∧
      validateChatWriteScope c.2 readingScope = false := by
  have one : ∃ c, reclaimedBetween.committed = [c] ∧ c.1.rows ≠ [] ∧ c.1.scope = readingScope ∧
      validateChatWriteScope c.1.checked readingScope ∧
      (c.2.db.snapshot? 2).map (·.leaseToken) = some 2 ∧
      validateChatWriteScope c.2 readingScope = false :=
    ⟨_, rfl, by decide +kernel, rfl, by decide +kernel, by decide +kernel, by decide +kernel⟩
  obtain ⟨c, only, rest⟩ := one
  exact ⟨c, by rw [only]; exact mem_cons_self, rest⟩

end TmVault.Chats.Writes
