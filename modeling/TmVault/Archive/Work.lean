import Mathlib.Data.String.Basic
import TmVault.Mail.Overlay
import TmVault.Relational.Paging
import TmVault.Store.Holdings

namespace TmVault.Archive

open Store

inductive Phase
  | root | items | children | receipt | membership
  deriving DecidableEq

inductive ScopeState
  | pending | reading | complete | unresolved | excluded
  deriving DecidableEq

inductive ItemState
  | discovered | copyPending | exportPending | exporting | stored | failed
  deriving DecidableEq

inductive ReceiptKind
  | copy | exported | reuse | overlay
  deriving DecidableEq

structure AttachmentEvidence where
  externalId : String
  (contentHash blobPath : Option String)
  contentSize : Option Int
  backendId : Uuid
  encryptionKeyId : Option String
  backupVersion : Option Int
  deriving DecidableEq

/-- `archive_item_work.receipt`. An attachment receipt is a hash over its lines and their number; it
is kept as the lines. -/
structure Receipt where
  kind : ReceiptKind
  hash : Option String := none
  size : Option Int := none
  blobPath : Option String := none
  backendId : Uuid := 0
  encryptionKeyId : Option String := none
  backupVersion : Option Int := none
  attachments : Option (List AttachmentEvidence) := none
  deriving DecidableEq

structure ItemWork where
  (snapshotId captureGeneration : Uuid)
  scopeKey : String
  externalId : String
  changeKey : Option String := none
  state : ItemState := .discovered
  gapKind : Option String := none
  (copyTaskId receiptItemId : Option Uuid := none)
  receipt : Option Receipt := none
  deriving DecidableEq

/-- The capture's items beside the snapshots, and the copy tasks that ended COMPLETED. -/
structure Ledger where
  db : Db
  items : List ItemWork := []
  completedTasks : List Uuid := []

structure Capture where
  (snapshotId generation : Uuid)

def ItemWork.of (i : ItemWork) (c : Capture) : Bool :=
  i.snapshotId = c.snapshotId && i.captureGeneration = c.generation

def changeKeyOf (p : Payload) : Option String := p.metadata.changeKey.or p.metadata.changeKeySnake

def sqlEq {α : Type} [DecidableEq α] : Option α → Option α → Bool
  | some a, some b => a = b
  | _, _ => false

open Relational List

def evidence (normalizeVersion : Bool) (i : SnapshotItem) : AttachmentEvidence where
  externalId := i.externalId
  contentHash := i.contentHash
  blobPath := i.blobPath
  contentSize := i.contentSize
  backendId := i.backendId
  encryptionKeyId := i.encryptionKeyId
  backupVersion :=
    -- `values[-1] or 1`
    if normalizeVersion && i.backupVersion.getD 0 = 0 then some 1 else i.backupVersion

def attachmentReceipt (db : Db) (sid : Uuid) (id : String) (normalizeVersion : Bool) :
    List AttachmentEvidence :=
  (((db.snapshotItemsEffective sid).filter fun i =>
      i.itemType = .archiveAttachment && i.parentExternalId = some id).insertionSort
    fun a b => a.externalId ≤ b.externalId).map (evidence normalizeVersion)

section

variable (l : Ledger) (c : Capture) (ids : Option (List String))

def taskDone (i : ItemWork) : Bool := i.copyTaskId.all (· ∈ l.completedTasks)

def wanted (i : ItemWork) : Bool := ids.all (i.externalId ∈ ·)

def ready (i : ItemWork) : Bool :=
  i.of c && i.state ∈ [ItemState.copyPending, .stored] && i.receipt.any (·.kind = .copy) &&
    taskDone l i && wanted ids i

def before (a b : ItemWork) : Prop :=
  a.externalId < b.externalId ∨ a.externalId = b.externalId ∧ a.scopeKey ≤ b.scopeKey

instance : DecidableRel before := fun a b =>
  inferInstanceAs (Decidable (a.externalId < b.externalId ∨
    a.externalId = b.externalId ∧ a.scopeKey ≤ b.scopeKey))

def readyRows (items : List ItemWork) : List ItemWork :=
  (items.insertionSort before).filter (ready l c ids)

def readyPage (items : List ItemWork) : String → List ItemWork :=
  pageOf (·.externalId) 128 (readyRows l c ids items)

def conflicts (i : ItemWork) : Bool :=
  i.receipt.bind (·.attachments) ≠ some (attachmentReceipt l.db c.snapshotId i.externalId false)

def failed (i : ItemWork) : ItemWork :=
  { i with state := .failed, gapKind := some "attachment_receipt_conflict" }

def compared (page : List ItemWork) (i : ItemWork) : ItemWork :=
  if i ∈ page && conflicts l c i then failed i else i

def resolvePages : Nat → String → List ItemWork → List ItemWork × List ItemWork
  | 0, _, items => (items, [])
  | fuel + 1, after, items =>
    let page := readyPage l c ids items after
    match page.getLast? with
    | none => (items, [])
    | some last =>
      let rest := resolvePages fuel last.externalId (items.map (compared l c page))
      (rest.1, page ++ rest.2)

def matches? (i : ItemWork) : Option SnapshotItem :=
  i.receipt.bind fun r => l.db.items.find? fun s =>
    s.snapshotId = i.snapshotId && s.externalId = i.externalId && s.itemType = .archiveItem &&
      changeKeyOf s.toPayload = i.changeKey && sqlEq s.contentHash r.hash &&
      sqlEq s.blobPath r.blobPath && sqlEq s.contentSize r.size && s.backendId = r.backendId &&
      s.encryptionKeyId = r.encryptionKeyId && s.backupVersion = r.backupVersion

def promotable (i : ItemWork) : Bool :=
  i.of c && i.state = .copyPending && taskDone l i && (matches? l i).isSome && wanted ids i

def promoted (i : ItemWork) : ItemWork :=
  if promotable l c ids i then
    { i with state := .stored, receiptItemId := (matches? l i).map (·.id) }
  else i

def resolveCopies : List ItemWork × List ItemWork :=
  let walked := resolvePages l c ids (l.items.length + 1) "" l.items
  (walked.1.map (promoted l c ids), walked.2)

end

section

variable {l : Ledger} {c : Capture} {ids : Option (List String)} {items page : List ItemWork}
  {after : String} {i last : ItemWork}

instance : Std.Total before where
  total a b := by
    rcases lt_trichotomy a.externalId b.externalId with h | h | h
    · exact .inl (.inl h)
    · exact (le_total a.scopeKey b.scopeKey).imp (fun le => .inr ⟨h, le⟩)
        fun le => .inr ⟨h.symm, le⟩
    · exact .inr (.inl h)

instance : IsTrans ItemWork before where
  trans a b d := by
    rintro (h | ⟨h, le⟩) (h' | ⟨h', le'⟩)
    · exact .inl (h.trans h')
    · exact .inl (h' ▸ h)
    · exact .inl (h ▸ h')
    · exact .inr ⟨h.trans h', le.trans le'⟩

theorem mem_readyPage (h : i ∈ readyPage l c ids items after) :
    i ∈ items ∧ ready l c ids i = true ∧ after < i.externalId := by
  obtain ⟨h, late⟩ := mem_filter.mp (mem_of_mem_take h)
  obtain ⟨h, rdy⟩ := mem_filter.mp h
  exact ⟨(mem_insertionSort _).mp h, rdy, of_decide_eq_true late⟩

theorem sorted_readyRows :
    (readyRows l c ids items).Pairwise fun a b => a.externalId ≤ b.externalId :=
  ((pairwise_insertionSort before items).filter _).imp fun h => h.elim le_of_lt fun h => h.1.le

theorem externalId_le_last (h : (readyPage l c ids items after).getLast? = some last)
    (hi : i ∈ readyPage l c ids items after) : i.externalId ≤ last.externalId :=
  le_getLast ((sorted_readyRows.filter _).sublist (take_sublist _ _)) h hi

theorem not_ready_failed : ready l c ids (failed i) = false := by
  simp [ready, failed]

theorem compared_eq_of_ne (h : compared l c page i ≠ i) :
    i ∈ page ∧ compared l c page i = failed i := by
  rw [compared] at h ⊢
  split
  · rename_i hc
    exact ⟨of_decide_eq_true (Bool.and_eq_true_iff.mp hc).1, rfl⟩
  · rename_i hc
    rw [if_neg hc] at h
    exact absurd rfl h

theorem readyPage_compared (earlier : ∀ i ∈ page, i.externalId ≤ after) :
    readyPage l c ids (items.map (compared l c page)) after = readyPage l c ids items after := by
  have order : ∀ a ∈ items, ∀ b ∈ items,
      before a b ↔ before (compared l c page a) (compared l c page b) := by
    have same : ∀ i, (compared l c page i).externalId = i.externalId ∧
        (compared l c page i).scopeKey = i.scopeKey := by
      intro i
      rw [compared]
      split <;> exact ⟨rfl, rfl⟩
    intro a _ b _
    rw [before, before, (same a).1, (same a).2, (same b).1, (same b).2]
  rw [readyPage, readyPage, readyRows, readyRows, ← map_insertionSort _ _ _ _ order, pageOf, pageOf,
    filter_filter, filter_filter, filter_update]
  intro i _ changed
  obtain ⟨hi, hfailed⟩ := compared_eq_of_ne changed
  have late : ¬ after < i.externalId := not_lt.mpr (earlier i hi)
  rw [hfailed, not_ready_failed]
  simp [late]

def covered (l : Ledger) (c : Capture) (ids : Option (List String)) (items : List ItemWork) :
    Nat → String → List ItemWork :=
  walkPages (readyPage l c ids items) (·.externalId)

theorem ready_of_covered (h : i ∈ covered l c ids items fuel after) : ready l c ids i = true := by
  obtain ⟨k, hk⟩ := exists_page_of_mem_walkPages h
  exact (mem_readyPage hk).2.1

theorem covered_compared (h : (readyPage l c ids items after).getLast? = some last) (fuel : Nat) :
    covered l c ids (items.map (compared l c (readyPage l c ids items after))) fuel
        last.externalId = covered l c ids items fuel last.externalId := by
  refine walkPages_congr (last.externalId ≤ ·) ?_ ?_ le_rfl
  · intro k hk
    exact readyPage_compared fun i hi => (externalId_le_last h hi).trans hk
  · intro k last' hk hlast'
    exact hk.trans (mem_readyPage (mem_of_getLast? hlast')).2.2.le

theorem compared_append (h : ∀ i ∈ page', ready l c ids i = true) :
    compared l c page' (compared l c page i) = compared l c (page ++ page') i := by
  by_cases hi : i ∈ page ∧ conflicts l c i = true
  · have hfailed : compared l c page i = failed i := by
      rw [compared, if_pos]
      simpa using hi
    have out : failed i ∉ page' := by
      intro hmem
      have contra := h _ hmem
      rw [not_ready_failed] at contra
      cases contra
    rw [hfailed, compared, if_neg (by simp [out]), compared, if_pos]
    simp [hi.1, hi.2]
  · have same : compared l c page i = i := by
      rw [compared, if_neg]
      simpa using hi
    rw [same, compared, compared]
    grind

@[simp] theorem map_compared_nil : items.map (compared l c []) = items := by
  simp [compared, map_id'']

theorem resolvePages_eq : resolvePages l c ids fuel after items =
    (items.map (compared l c (covered l c ids items fuel after)),
      covered l c ids items fuel after) := by
  induction fuel generalizing after items with
  | zero => rw [resolvePages, covered, walkPages, map_compared_nil]
  | succ fuel ih =>
    cases hlast : (readyPage l c ids items after).getLast? with
    | none => simp [resolvePages, covered, walkPages, hlast, map_compared_nil]
    | some last =>
      have hcov : covered l c ids items (fuel + 1) after = readyPage l c ids items after ++
          covered l c ids items fuel last.externalId := walkPages_succ hlast fuel
      simp only [resolvePages, hlast, ih, covered_compared hlast, hcov, map_map]
      congr 1
      apply map_congr_left
      intro i _
      exact compared_append fun j hj => ready_of_covered hj

end

section

variable (l : Ledger) (c : Capture) (ids : Option (List String))

/-- What a promotion must rest on: the copy task is done and the target's attachments are those the
row's own receipt records, as the loop found by comparing them. -/
def Proved (i : ItemWork) : Prop :=
  taskDone l i = true ∧ i ∈ (resolveCopies l c ids).2 ∧
    i.receipt.bind (·.attachments) =
      some (attachmentReceipt l.db c.snapshotId i.externalId false)

theorem state_promoted (h : i.state = .failed) : (promoted l c ids i).state = .failed := by
  rw [promoted, if_neg]
  · exact h
  · simp [promotable, h]

theorem resolveCopies_eq : resolveCopies l c ids = (l.items.map fun i => promoted l c ids
    (compared l c (covered l c ids l.items (l.items.length + 1) "") i),
    covered l c ids l.items (l.items.length + 1) "") := by
  simp only [resolveCopies, resolvePages_eq, map_map]
  rfl

theorem mem_zip_resolveCopies : r ∈ l.items.zip (resolveCopies l c ids).1 ↔ ∃ i ∈ l.items,
      (i, promoted l c ids (compared l c (resolveCopies l c ids).2 i)) = r := by
  have pairs := zip_map' (f := id) (g := fun i => promoted l c ids
    (compared l c (covered l c ids l.items (l.items.length + 1) "") i)) (l := l.items)
  rw [map_id] at pairs
  rw [resolveCopies_eq, pairs, mem_map]
  rfl

/-- A row that becomes stored was compared. -/
def Careful : Prop :=
  ∀ r ∈ l.items.zip (resolveCopies l c ids).1, r.1.state = .copyPending → r.2.state = .stored →
    Proved l c ids r.1

theorem careful_iff : Careful l c ids ↔
      ∀ i ∈ l.items, promotable l c ids i = true →
        i ∈ covered l c ids l.items (l.items.length + 1) "" := by
  have read : covered l c ids l.items (l.items.length + 1) "" = (resolveCopies l c ids).2 := by
    rw [resolveCopies_eq]
  rw [read]
  constructor
  · intro sound i hi hp
    by_contra missed
    have same : compared l c (resolveCopies l c ids).2 i = i := by
      rw [compared, if_neg (by simp [missed])]
    have pending : i.state = .copyPending := by
      simp only [promotable, Bool.and_eq_true, decide_eq_true_eq] at hp
      exact hp.1.1.1.2
    have stored : (promoted l c ids i).state = .stored := by
      rw [promoted, if_pos hp]
    have proved := sound _ ((mem_zip_resolveCopies l c ids).mpr ⟨i, hi, rfl⟩) pending
      (by rw [same]; exact stored)
    exact missed proved.2.1
  · rintro reached r hr pending stored
    obtain ⟨i, hi, rfl⟩ := (mem_zip_resolveCopies l c ids).mp hr
    by_cases same : compared l c (resolveCopies l c ids).2 i = i
    · rw [same] at stored
      have hp : promotable l c ids i = true := by
        by_contra hn
        rw [promoted, if_neg hn] at stored
        exact absurd (pending.symm.trans stored) nofun
      have hmem := reached i hi hp
      refine ⟨?_, hmem, ?_⟩
      · simp only [promotable, Bool.and_eq_true] at hp
        exact hp.1.1.2
      · by_contra conflict
        have : compared l c (resolveCopies l c ids).2 i = failed i := by
          rw [compared, if_pos]
          simpa [conflicts, hmem] using conflict
        rw [this] at same
        exact absurd (pending.symm.trans (congrArg ItemWork.state same).symm) nofun
    · obtain ⟨-, hfailed⟩ := compared_eq_of_ne same
      rw [hfailed, state_promoted l c ids rfl] at stored
      cases stored

/-- The rows to compare, an item without an id apart. -/
def namedRows : List ItemWork := (readyRows l c ids l.items).filter ("" < ·.externalId)

variable {l c ids}

@[simp] theorem mem_namedRows :
    i ∈ namedRows l c ids ↔ i ∈ l.items ∧ ready l c ids i = true ∧ "" < i.externalId := by
  rw [namedRows, readyRows, mem_filter, mem_filter, mem_insertionSort, decide_eq_true_eq, and_assoc]

theorem ready_of_promotable (h : promotable l c ids i = true)
    (copied : i.receipt.any (·.kind = .copy) = true) : ready l c ids i = true := by
  simp only [promotable, Bool.and_eq_true, decide_eq_true_eq] at h
  obtain ⟨⟨⟨⟨own, pending⟩, done⟩, -⟩, wants⟩ := h
  simp [ready, own, pending, copied, done, wants]

theorem covered_iff_unsplit (distinct : l.items.Nodup) :
    (∀ i ∈ namedRows l c ids, i ∈ covered l c ids l.items (l.items.length + 1) "") ↔
      Unsplit (·.externalId) 128 (namedRows l c ids) := by
  refine walk_iff (by decide) sorted_readyRows ?_ rfl ?_
  · exact ((perm_insertionSort before _).nodup_iff.mpr distinct).filter _
  · refine (length_filter_le _ _).trans ((length_filter_le _ _).trans ?_)
    rw [length_insertionSort]
    exact Nat.le_succ _

variable (l c ids)

def uncompared : ItemWork where
  snapshotId := 1
  captureGeneration := 1
  scopeKey := "g"
  externalId := "shared"
  state := .copyPending
  receipt := some { kind := .copy, hash := some "h", size := some 1, blobPath := some "p",
                    backupVersion := some 1,
                    attachments := some [⟨"shared::1", none, none, none, 0, none, none⟩] }

/-- An archive of 127 items in one folder and one more item that two folders list. Nothing in the
target has attachments. -/
def sharedItem : Ledger where
  db := {
    snapshots := [{ id := 1, resourceId := 0 }]
    items :=
      [{ id := 10, snapshotId := 1, itemType := .archiveItem, externalId := "shared",
         contentHash := some "h", blobPath := some "p", contentSize := some 1 }] }
  items :=
    let row (id : String) : ItemWork :=
      { snapshotId := 1, captureGeneration := 1, scopeKey := "f", externalId := id,
        state := .copyPending,
        receipt := some { kind := .copy, hash := some "h", size := some 1, blobPath := some "p",
                          backupVersion := some 1, attachments := some [] } }
    (List.range 127).map (fun n => row (String.ofList ['a', Char.ofNat (n + 32)])) ++
      [row "shared", uncompared]

end

end TmVault.Archive
