import TmVault.Catalogue.Rows

namespace TmVault.Catalogue

open Store Relational
open Work (CaptureState)

def childTypes : List ItemType := [.chatAttachment, .chatHostedContent]

inductive Gap
  | invalidChildManifest (parentGraphId : String)
  | conflictingChildManifest (key : Key)
  | incompleteChildManifest (parentGraphId : String)
  | missingChild (key : Key)
  | unmanifestedChild (key : Key)

structure Expected where
  children : List (Key × Bool) := []
  gaps : List Gap := []

def metadataOnlyAttachment (child : ChildRef) : Bool :=
  "application/vnd.microsoft.card".toList.isPrefixOf child.contentType.toList ||
    child.contentType ∈
      ["messageReference", "forwardedMessageReference", "meetingReference", "tabReference"]

structure Expectation where
  kind : Option ItemType
  graphId : Option String
  required : Option Bool

def expect (chatId : String) (parent : CapturedChatItem) (x : Expected) (c : Expectation) : Expected :=
  match c.kind, c.graphId, c.required with
  | some kind, some graphId, some required =>
    if kind ∈ childTypes && !blank graphId then
      let key : Key := ⟨chatId, kind, graphId, some parent.graphId⟩
      { children := upsert key (fun old => old.getD false || required) x.children
        gaps := if x.children.any fun e => e.1 = key && e.2 ≠ required then
          x.gaps ++ [.conflictingChildManifest key] else x.gaps }
    else { x with gaps := x.gaps ++ [.invalidChildManifest parent.graphId] }
  | _, _, _ => { x with gaps := x.gaps ++ [.invalidChildManifest parent.graphId] }

def unreadable : Expectation := ⟨none, none, none⟩

def ofManifest : Option ManifestEntry → Expectation
  | some e => ⟨e.itemType, e.graphId, e.requiresContent⟩
  | none => unreadable

def ofAttachment : Option ChildRef → Expectation
  | some c => ⟨some .chatAttachment, c.id, some (!metadataOnlyAttachment c)⟩
  | none => unreadable

def ofHosted : Option ChildRef → Expectation
  | some c => ⟨some .chatHostedContent, c.id, some true⟩
  | none => unreadable

/-- The children a message is expected to have, in the order they are read; a list that is none counts
as one unreadable element. -/
def expectations (p : Payload) : List Expectation :=
  (match p.expectedChildren with
    | some ⟨true, some items⟩ => items.map ofManifest
    | _ => []) ++
  (match p.attachments with
    | some children => children.map ofAttachment
    | none => [unreadable]) ++
  (match p.hostedContents with
    | some children => children.map ofHosted
    | none => [unreadable])

def manifestComplete (p : Payload) : Bool :=
  match p.expectedChildren with
  | some ⟨true, some _⟩ => true
  | _ => false

def expectChildren (chatId : String) (x : Expected) (parent : CapturedChatItem) : Expected :=
  let x := if manifestComplete parent.payload then x
    else { x with gaps := x.gaps ++ [.incompleteChildManifest parent.graphId] }
  (expectations parent.payload).foldl (expect chatId parent) x

def messages (items : List CapturedChatItem) : List CapturedChatItem :=
  items.filter (·.itemType ∈ messageTypes)

def expected (chatId : String) (items : List CapturedChatItem) : Expected :=
  (messages items).foldl (expectChildren chatId) {}

def actual (items : List CapturedChatItem) : List CapturedChatItem :=
  items.filter (·.itemType ∈ childTypes)

def unavailable (chatId : String) (items : List CapturedChatItem) (key : Key) : Bool :=
  (actual items).any fun i => i.key chatId = key && i.content.isNone && i.payload.sourceUnavailable

def requiredKeys (chatId : String) (items : List CapturedChatItem) : List Key :=
  ((((expected chatId items).children.filter fun e => e.2 && !unavailable chatId items e.1).map
    (·.1)) ++ ((items.filter (·.content.isSome)).map (·.key chatId))).dedup

def coverage (chatId : String) (items : List CapturedChatItem) : Nat × List Gap :=
  let x := expected chatId items
  let present := (actual items).map (·.key chatId)
  ((requiredKeys chatId items).length,
    x.gaps ++ ((x.children.map (·.1)).filter (· ∉ present)).map .missingChild ++
      (present.filter (· ∉ x.children.map (·.1))).map .unmanifestedChild)

def durable (w : World) (item : CapturedChatItem) : Bool :=
  match item.content with
  | none => false
  | some c => c.objectId.all fun id => (w.object? id).any (·.state = .live)

structure Staged where
  rows : List (Entry × Version)
  logicalBytes : Int
  (durable required : Nat)
  gaps : List Gap
  (sourceHash representationHash : String)

def stagedRows (env : Env) (w : World) (inventory : Uuid) : List (Entry × Version) :=
  ((w.items inventory).filterMap fun e => (w.version? e.versionId).map (e, ·)).mergeSort
    fun a b => env.rank a.1.logicalKey ≤ env.rank b.1.logicalKey

def identified (scope : Scope) (e : Entry) (v : Version) : Bool :=
  v.tenantId = scope.tenantId && v.chatId = scope.chatId && e.logicalKey = v.logicalKey &&
    e.logicalKey = v.item.key scope.chatId && v.versionSha256 = scope.fingerprint v.item

def linked (env : Env) (w : World) (scope : Scope) (items : List CapturedChatItem) (e : Entry)
    (v : Version) : Bool :=
  match (w.rows scope.snapshotId).filter (·.externalId = e.logicalKey) with
  | [l] => l.chatVersionId = v.id && l.tenantId = scope.tenantId && l.itemType = v.item.itemType &&
      !l.isDeleted && l.contentSize = logicalSize env v.item && l.chatId = scope.chatId &&
      parentKey scope.chatId items v.item = .ok l.parentExternalId
  | _ => false

def World.chatLinks (w : World) (snapshot : Uuid) (chatId : String) : List Link :=
  (w.rows snapshot).filter fun l =>
    l.chatId = chatId || (w.version? l.chatVersionId).any (·.chatId = chatId)

def staged (env : Env) (w : World) (inventory : Inventory) (scope : Scope) :
    Except Refusal Staged := do
  let rows := stagedRows env w inventory.id
  let items := rows.map (·.2.item)
  let _ ← failIf (!rows.all fun r => identified scope r.1 r.2) .integrity
  let _ ← failIf (¬ (rows.map (·.1.logicalKey)).Nodup) .integrity
  let _ ← failIf (!rows.all fun r => linked env w scope items r.1 r.2) .integrity
  let _ ← failIf (!(items.filterMap (·.content)).all (usable w scope)) .integrity
  let _ ← failIf ((w.chatLinks scope.snapshotId scope.chatId).length ≠ rows.length) .integrity
  let cover := coverage scope.chatId items
  .ok {
    rows := rows, logicalBytes := (items.map (logicalSize env)).sum
    durable := items.countP (durable w), required := cover.1, gaps := cover.2
    sourceHash := env.sourceHash inventory.observationHashVersion scope.auth
      (rows.map fun r => (r.1.logicalKey, env.observation inventory.observationHashVersion r.2.item))
    representationHash := env.representationHash
      (rows.map fun r => (r.1.logicalKey, r.2.versionSha256)) }

def complete (a : Attempt) (s : Staged) : Bool :=
  a.failureReason.all (· = "") && a.evidence.any fun e =>
    e.satisfiesCompletenessConditions && e.membershipSha256 = s.sourceHash &&
      e.requiredContentCount = s.required && e.durableContentCount = s.durable &&
      s.required = s.durable && s.gaps.isEmpty

def incompleteReason : String := "source coverage, reconciliation or durable content is incomplete"

def association (a : Attempt) (inventory : Uuid) (coverage : Coverage) (reason : Option String)
    (started finished : Time) : Association where
  snapshotId := a.scope.snapshotId
  chatId := a.scope.chatId
  tenantId := a.scope.tenantId
  inventoryId := inventory
  captureAttemptId := a.id
  coverage := coverage
  startedAt := started
  finishedAt := finished
  failureReason := reason

def Inventory.measured (i : Inventory) (s : Staged) (state : InventoryState)
    (reason : Option String) : Inventory :=
  { i with
    membershipSha256 := some s.sourceHash, representationSha256 := some s.representationHash
    itemCount := s.rows.length, logicalBytes := s.logicalBytes, state := state
    failureReason := reason }

def World.reusable? (w : World) (scope : Scope) (i : Inventory) (s : Staged) : Option Inventory :=
  w.inventories.find? fun c => c.tenantId = scope.tenantId && c.chatId = scope.chatId &&
    c.auth = scope.auth && c.observationHashVersion = i.observationHashVersion &&
    c.membershipSha256 = some s.sourceHash && c.representationSha256 = some s.representationHash &&
    c.state = .complete

def sameMembers (w : World) (chosen : Uuid) (s : Staged) : Bool :=
  (w.items chosen).all (fun e => s.rows.any fun r =>
      r.1.logicalKey = e.logicalKey && r.1.versionId = e.versionId) &&
    s.rows.all fun r => (w.items chosen).any fun e =>
      e.logicalKey = r.1.logicalKey && e.versionId = r.1.versionId

def settle (w : World) (a : Attempt) (i : Inventory) (s : Staged) (r : Reads) :
    Except Refusal World :=
  let started := (a.evidence.map (·.startedAt)).getD a.createdAt
  let finished := (a.evidence.map (·.finishedAt)).getD r.late
  let reason := some (match a.failureReason with
    | some text => if text = "" then incompleteReason else text
    | none => incompleteReason)
  let publish (w : World) (p : Association) (state : CaptureState) (inventory : Uuid) : World :=
    { (w.setAttempt a.id fun a => { a with
        state := state, reusedInventory := a.reusedInventory || inventory ≠ i.id
        stagedInventoryId := inventory }) with associations := w.associations ++ [p] }
  if complete a s then
    match w.reusable? a.scope i s with
    | none =>
      .ok (publish (w.setInventory i.id (·.measured s .complete none))
        (association a i.id .complete none started finished) .published i.id)
    | some chosen => do
      let _ ← failIf (!sameMembers w chosen.id s) .integrity
      .ok (publish (w.deleteInventory i.id)
        (association a chosen.id .complete none started finished) .published chosen.id)
  else if s.rows.isEmpty then
    .ok (w.setAttempt a.id fun a => { a with state := .failed, failureReason := reason })
  else
    .ok (publish (w.setInventory i.id (·.measured s .partialRun reason))
      (association a i.id .partialRun reason started finished) .partialRun i.id)

def publishInventory (env : Env) (w : World) (lease : CaptureLease) (r : Reads) :
    Except Refusal World := do
  let a ← fence w lease r true
  match w.association? a.scope.fence with
  | some p => do
    let _ ← failIf (p.captureAttemptId ≠ a.id || ¬ Terminal a.state) .conflict
    .ok w
  | none => do
    let _ ← failIf (Terminal a.state) .integrity
    let i ← orFail .integrity (w.inventory? a.stagedInventoryId)
    let _ ← failIf (i.state ≠ .staging || i.captureAttemptId ≠ a.id ||
      i.tenantId ≠ a.scope.tenantId || i.chatId ≠ a.scope.chatId || i.auth ≠ a.scope.auth) .integrity
    let s ← staged env w i a.scope
    let _ ← checkExpiry a r
    let _ ← failIf (a.evidence.any (·.observationHashVersion ≠ i.observationHashVersion)) .integrity
    settle w a i s r

def unchangedLinks (w : World) (a : Attempt) (inventory source : Uuid) : List Link :=
  ((w.effective source).filter (w.listed inventory)).map fun l =>
    { l with
      snapshotId := a.scope.snapshotId, folderPath := a.folderPath, writer := a.id }

/-- A call that links nothing leaves the tables as they are; `evidence` is `none` when it cannot be
read. -/
def publishUnchangedInventory (w : World) (lease : CaptureLease) (inventory source : Uuid)
    (evidence : Option CaptureEvidence) (r : Reads) : Except Refusal World := do
  let a ← fence w lease r
  match evidence, w.inventory? inventory with
  | some e, some i =>
    if i.state ≠ .complete ∨ i.tenantId ≠ a.scope.tenantId ∨ i.chatId ≠ a.scope.chatId ∨
        i.auth ≠ a.scope.auth then .ok w
    else do
      let links := unchangedLinks w a i.id source
      let _ ← failIf (!w.fits links) .constraint
      if links.length ≠ i.itemCount then .ok w
      else do
        let w₁ := { w with links := w.links ++ links }.deleteInventory a.stagedInventoryId
        let w₂ := w₁.setAttempt a.id fun a => { a with
          evidence := some e, reusedInventory := true, stagedInventoryId := i.id
          state := .published }
        -- the primary key of the association
        let _ ← failIf (w.association? a.scope.fence).isSome .constraint
        let _ ← checkExpiry a r
        .ok { w₂ with associations := w.associations ++
          [association a i.id .complete none e.startedAt e.finishedAt] }
  | _, _ => .ok w

def abortCapture (env : Env) (w : World) (lease : CaptureLease) (reason : String) (r : Reads) :
    Except Refusal World := do
  let _ ← failIf (blank reason) .value
  let a ← fence w lease r
  publishInventory env (w.setAttempt a.id fun a => { a with failureReason := some reason }) lease r

open List

def Requires (chatId : String) (m : CapturedChatItem) (k : Key) : Prop :=
  m.itemType ∈ messageTypes ∧ ∃ c ∈ expectations m.payload, ∃ kind graphId,
    c = ⟨some kind, some graphId, some true⟩ ∧ k = ⟨chatId, kind, graphId, some m.graphId⟩

def Preserved (w : World) (i : CapturedChatItem) : Prop :=
  durable w i = true ∨ i.content = none ∧ i.payload.sourceUnavailable = true

def Covers (w : World) (chatId : String) (items : List CapturedChatItem) : Prop :=
  ∀ m ∈ items, ∀ k, Requires chatId m k → ∃ i ∈ items, i.key chatId = k ∧ Preserved w i

variable {chatId : String} {m : CapturedChatItem} {x : Expected} {c : Expectation} {k : Key}
  {kind : ItemType} {graphId : String} {ms : List CapturedChatItem} {cs : List Expectation}

theorem expect_gaps (h : (expect chatId m x c).gaps = []) : x.gaps = [] := by
  unfold expect at h
  split at h
  · split at h
    · simp only at h
      split at h
      · simp at h
      · exact h
    · simp at h
  · simp at h

theorem expect_keeps (h : (k, true) ∈ x.children) : (k, true) ∈ (expect chatId m x c).children := by
  unfold expect
  split
  · split
    · simp only
      rcases mem_upsert_of_mem h with kept | ⟨same, set⟩
      · exact kept
      · rw [show k = _ from same]
        exact set
    · exact h
  · exact h

theorem expect_adds (h : (expect chatId m x ⟨some kind, some graphId, some true⟩).gaps = []) :
    (⟨chatId, kind, graphId, some m.graphId⟩, true) ∈
      (expect chatId m x ⟨some kind, some graphId, some true⟩).children := by
  unfold expect at h ⊢
  simp only at h ⊢
  split at h
  case isTrue valid =>
    rw [if_pos valid]
    have set : ∃ old, ((⟨chatId, kind, graphId, some m.graphId⟩ : Key), Option.getD old false || true) ∈
        upsert ⟨chatId, kind, graphId, some m.graphId⟩ (fun old => old.getD false || true) x.children :=
      exists_mem_upsert
    simpa using set
  case isFalse => simp at h

theorem foldl_expect_gaps (h : (cs.foldl (expect chatId m) x).gaps = []) : x.gaps = [] := by
  induction cs generalizing x with
  | nil => exact h
  | cons c cs ih => exact expect_gaps (ih h)

theorem foldl_expect_keeps (h : (k, true) ∈ x.children) :
    (k, true) ∈ (cs.foldl (expect chatId m) x).children := by
  induction cs generalizing x with
  | nil => exact h
  | cons c cs ih => exact ih (expect_keeps h)

theorem foldl_expect_adds (h : (cs.foldl (expect chatId m) x).gaps = [])
    (hc : ⟨some kind, some graphId, some true⟩ ∈ cs) :
    (⟨chatId, kind, graphId, some m.graphId⟩, true) ∈ (cs.foldl (expect chatId m) x).children := by
  induction cs generalizing x with
  | nil => cases hc
  | cons c cs ih =>
    rcases mem_cons.mp hc with rfl | hc
    · rw [foldl_cons] at h ⊢
      exact foldl_expect_keeps (expect_adds (foldl_expect_gaps h))
    · exact ih h hc

theorem expectChildren_gaps (h : (expectChildren chatId x m).gaps = []) : x.gaps = [] := by
  have h := foldl_expect_gaps h
  split at h
  · exact h
  · simp at h

theorem expectChildren_keeps (h : (k, true) ∈ x.children) :
    (k, true) ∈ (expectChildren chatId x m).children := by
  apply foldl_expect_keeps
  split
  · exact h
  · exact h

theorem foldl_expectChildren_gaps
    (h : (ms.foldl (expectChildren chatId) x).gaps = []) : x.gaps = [] := by
  induction ms generalizing x with
  | nil => exact h
  | cons m ms ih => exact expectChildren_gaps (ih h)

theorem foldl_expectChildren_keeps (h : (k, true) ∈ x.children) :
    (k, true) ∈ (ms.foldl (expectChildren chatId) x).children := by
  induction ms generalizing x with
  | nil => exact h
  | cons m ms ih => exact ih (expectChildren_keeps h)

theorem foldl_expectChildren_adds (h : (ms.foldl (expectChildren chatId) x).gaps = []) (hm : m ∈ ms)
    (required : Requires chatId m k) :
    (k, true) ∈ (ms.foldl (expectChildren chatId) x).children := by
  induction ms generalizing x with
  | nil => cases hm
  | cons m' ms ih =>
    rcases mem_cons.mp hm with rfl | hm
    · obtain ⟨-, c, hc, kind, graphId, rfl, rfl⟩ := required
      rw [foldl_cons] at h ⊢
      exact foldl_expectChildren_keeps (foldl_expect_adds (foldl_expectChildren_gaps h) hc)
    · exact ih h hm

variable {items : List CapturedChatItem} {w : World}

theorem mem_expected (h : (coverage chatId items).2 = []) (hm : m ∈ items)
    (required : Requires chatId m k) :
    (k, true) ∈ (expected chatId items).children ∧ ∃ i ∈ actual items, i.key chatId = k := by
  simp only [coverage, append_eq_nil_iff, map_eq_nil_iff, filter_eq_nil_iff] at h
  obtain ⟨⟨gaps, missing⟩, -⟩ := h
  have message : m ∈ messages items := mem_filter.mpr ⟨hm, decide_eq_true required.1⟩
  have child : (k, true) ∈ (expected chatId items).children :=
    foldl_expectChildren_adds gaps message required
  refine ⟨child, ?_⟩
  have present := missing k (mem_map_of_mem child)
  simp only [decide_eq_true_eq, not_not] at present
  exact mem_map.mp present

theorem durable_of_required (nodup : (items.map (·.key chatId)).Nodup)
    (count : (requiredKeys chatId items).length = items.countP (durable w))
    (hk : k ∈ requiredKeys chatId items) : ∃ i ∈ items, i.key chatId = k ∧ durable w i = true := by
  let kept := items.filter (durable w)
  have distinct : (kept.map (·.key chatId)).Nodup := nodup.sublist (filter_sublist.map _)
  have sub : kept.map (·.key chatId) ⊆ requiredKeys chatId items := by
    intro k hk
    obtain ⟨i, hi, rfl⟩ := mem_map.mp hk
    obtain ⟨hi, lasting⟩ := mem_filter.mp hi
    have content : i.content.isSome = true := by
      cases none : i.content with
      | none => simp [durable, none] at lasting
      | some c => rfl
    rw [requiredKeys, mem_dedup, mem_append]
    exact .inr (mem_map_of_mem (mem_filter.mpr ⟨hi, content⟩))
  have perm := (List.Nodup.subperm distinct sub).perm_of_length_le (by
    rw [count, length_map, countP_eq_length_filter])
  obtain ⟨i, hi, same⟩ := mem_map.mp (perm.mem_iff.mpr hk)
  obtain ⟨hi, lasting⟩ := mem_filter.mp hi
  exact ⟨i, hi, same, lasting⟩

theorem covers_of_coverage (nodup : (items.map (·.key chatId)).Nodup)
    (gaps : (coverage chatId items).2 = [])
    (count : (coverage chatId items).1 = items.countP (durable w)) : Covers w chatId items := by
  intro m hm k required
  obtain ⟨child, i, hi, same⟩ := mem_expected gaps hm required
  by_cases gone : unavailable chatId items k = true
  · obtain ⟨j, hj, marked⟩ := any_eq_true.mp gone
    simp only [Bool.and_eq_true, decide_eq_true_eq, Option.isNone_iff_eq_none] at marked
    exact ⟨j, (mem_filter.mp hj).1, marked.1.1, .inr ⟨marked.1.2, marked.2⟩⟩
  · have needed : k ∈ requiredKeys chatId items := by
      rw [requiredKeys, mem_dedup, mem_append]
      refine .inl (mem_map.mpr ⟨(k, true), mem_filter.mpr ⟨child, ?_⟩, rfl⟩)
      simpa using gone
    obtain ⟨j, hj, same, lasting⟩ := durable_of_required nodup count needed
    exact ⟨j, hj, same, .inl lasting⟩

end TmVault.Catalogue
