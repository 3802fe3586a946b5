import Mathlib.Data.String.Basic
import TmVault.Copy.Selection

namespace TmVault.Copy

open Relational Store Work

/-- What a batch did: whether the manifest is exhausted, the new checkpoint, and the rows and bytes it
counts. -/
structure BatchOutcome where
  done : Bool
  cursor : Int
  rows : Nat
  bytes : Int

def insertManifest (w : World) (rows : List CopyWorkItem) : Except Failure World :=
  if rows.any fun r => w.copyItems.any (·.uniqueKey = r.uniqueKey) then .error .integrity
  else .ok { w with copyItems := w.copyItems ++ rows }

def numbered (taskId : Uuid) (rows : List Selected) : List CopyWorkItem :=
  rows.zipIdx.map fun (r, i) => ⟨taskId, (i + 1 : Int), r.payload, r.sourceSnapshotId, r.phase⟩

def setPrepared (w : World) (taskId : Uuid) : World :=
  w.updateTask taskId fun t => { t with prepared := true }

def labelSource (w : World) (t : CopyWorkTask) : Except Failure CopyWorkflow :=
  orFail (.valueError "chat label source capture is no longer authoritative")
    ((w.workflow? t.workflowId).filter fun f =>
      t.captureAttempt = f.captureAttempt && f.state ∈ [.draining, .waiting])

def messageChatId (i : SnapshotItem) : Option String :=
  match nonEmpty i.metadata.chatIdSnake, nonEmpty i.metadata.chatId with
  | some snake, some camel => if snake = camel then some snake else none
  | some snake, none => some snake
  | none, some camel => some camel
  | none, none =>
    if i.itemType ∈ messageTypes.take 2 then nonEmpty i.parentExternalId else none

def knownPath (chatId path : String) : Bool :=
  Text.like '\\' "chats/%".toList path.toList && path ≠ "chats/" ++ chatId && !legacyFolder path

structure ChatIdentity where
  chatId : String
  (storedPath knownPath : Option String)

def targetMessages (w : World) (target : Uuid) : List SnapshotItem :=
  w.db.items.filter fun i => i.snapshotId = target && i.itemType ∈ messageTypes

def identities (w : World) (target : Uuid) : List ChatIdentity :=
  let messages := targetMessages w target
  let chats := (messages.filterMap messageChatId).dedup.insertionSort (· ≤ ·)
  chats.map fun chatId =>
    let paths := (messages.filter (messageChatId · = some chatId)).filterMap fun i =>
      nonEmpty i.folderPath
    ⟨chatId, paths.max?, (paths.filter (knownPath chatId)).max?⟩

section

variable (w : World) (f : CopyWorkflow) (chatId : String)

def liveDrafts : List ChatPresentationDraft :=
  w.presentationDrafts.filter fun d => d.snapshotId = f.leaf.snapshotId && d.chatId = chatId &&
    (w.workflow? d.workflowId).any fun c => c.leaf.snapshotId = f.leaf.snapshotId &&
      d.captureAttempt = c.captureAttempt && c.state ≠ .cancelled

def winner : Option ChatPresentationDraft :=
  orderByFirst (fun a b : ChatPresentationDraft => b.quality < a.quality || a.quality = b.quality &&
    (a.acceptedAt < b.acceptedAt || a.acceptedAt = b.acceptedAt && a.workflowId < b.workflowId))
    (liveDrafts w f chatId)

def captureSources : List Uuid :=
  (w.workflows.filter (·.leaf.snapshotId = f.leaf.snapshotId)).flatMap fun c =>
    (w.tasksOf c).flatMap fun t => (w.itemsOf t.id).filterMap (·.sourceSnapshotId)

def newerSnapshot (a b : Snapshot) : Bool :=
  match a.createdAt, b.createdAt with
  | none, none => b.id < a.id
  | none, some _ => true
  | some _, none => false
  | some x, some y => y < x || x = y && b.id < a.id

def priorPresentation : Option SnapshotChatPresentation :=
  let saved := (w.presentations.filter (·.chatId = chatId)).flatMap fun p =>
    ((w.db.snapshot? p.snapshotId).filter fun s => s.id ∈ captureSources w f &&
      s.resourceId = f.resourceId && s.extraData.chatPresentationFormat = some 1).toList.map (p, ·)
  (orderByFirst (fun a b => newerSnapshot a.2 b.2) saved).map (·.1)

def publishedLabel (identity : ChatIdentity) : ChatLabel :=
  let won := winner w f identity.chatId
  let cleared : Bool := won.any (·.provenance = "current_topic_cleared")
  let retained := (priorPresentation w f identity.chatId).filter fun p =>
    (won.elim (-1) (·.quality) < p.quality) && (!cleared || p.quality < 3)
  let stored := identity.knownPath.filter fun _ => won.elim 0 (·.quality) < 2 && !cleared
  let path := (retained.map (·.folderPath)).or (stored.or (won.map (·.folderPath)))
  let clash (d : ChatPresentationDraft) : Bool := (liveDrafts w f identity.chatId).any fun other =>
    other.quality = d.quality && other.folderPath ≠ d.folderPath
  { chatId := identity.chatId
    folderPath := path.getD (identity.storedPath.getD ("chats/" ++ identity.chatId))
    quality := (retained.map (·.quality)).getD (if stored.isSome then 2 else won.elim 0 (·.quality))
    provenance := if retained.isSome then "retained_history" else if stored.isSome then "legacy_stored"
      else won.elim "legacy_stored" (·.provenance)
    conflicted := won.any fun d => d.conflicted || clash d }

def publication : List Selected :=
  (identities w f.leaf.snapshotId).map fun identity => ⟨none, 0, .label (publishedLabel w f identity)⟩

end

def labelRows (w : World) (t : CopyWorkTask) : Except Failure (List CopyWorkItem) :=
  if .labels ∈ t.params.inputKeys then
    .ok ((w.copyInputs.filter fun r => r.taskId = t.id && r.inputKey = .labels).filterMap fun r =>
      match r.value with
      | .label l => some ⟨t.id, (r.ordinal + 1 : Int), .label l, none, 0⟩
      | .text _ => none)
  else do
    validateLabels t.params.labels
    .ok (numbered t.id ((t.params.labels.getD []).map fun l => ⟨none, 0, .label l⟩))

def unsettled (w : World) (t : CopyWorkTask) (f : CopyWorkflow) : Bool :=
  (w.tasksOf f).any (fun u => u.id ≠ t.id && !u.state.isTerminal) ||
    w.workflows.any fun c => c.leaf.snapshotId = f.leaf.snapshotId && c.id ≠ f.id && c.state.isActive

def preparePublication (w : World) (t : CopyWorkTask) (f : CopyWorkflow) : Except Failure World := do
  let target := f.leaf.snapshotId
  failIf (unsettled w t f) (.valueError "chat presentation source work has not settled")
  let plan ← orFail .integrity (w.plan? target)
  failIf (plan.state = .published) (.valueError "chat presentation is already immutable")
  let w := { w with presentations :=
      w.presentations.filter fun p => plan.taskId = some t.id || p.snapshotId ≠ target }
  failIf ((targetMessages w target).any (messageChatId · = none))
    (.chatSelection "CHAT_IDENTITY_UNAVAILABLE")
  let w ← insertManifest w (numbered t.id (publication w f))
  .ok (w.putPlan { plan with
    state := .publishing, taskId := some t.id
    expectedCount := (w.itemsOf t.id).length, publishedCount := 0 })

def fillManifest (w : World) (t : CopyWorkTask) (f : CopyWorkflow) : Except Failure World :=
  if t.kind = .chatLabels then labelRows w t >>= insertManifest w else preparePublication w t f

def preparePresentationManifest (w : World) (t : CopyWorkTask) : Except Failure World := do
  let f ← labelSource w t
  let w ← fillManifest w t f
  .ok (setPrepared w t.id)

def remaining (w : World) (t : CopyWorkTask) : List CopyWorkItem :=
  ((w.itemsOf t.id).filter (t.checkpoint < ·.ordinal)).insertionSort fun a b => a.ordinal ≤ b.ordinal

def cursorOf (t : CopyWorkTask) (batch : List CopyWorkItem) : Int :=
  (batch.getLast?.map (·.ordinal)).getD t.checkpoint

def exhausted (w : World) (t : CopyWorkTask) (cursor : Int) : Bool :=
  (w.itemsOf t.id).all (·.ordinal ≤ cursor)

def mergeDraft (old new : ChatPresentationDraft) : ChatPresentationDraft :=
  let better : Bool := old.quality < new.quality
  { old with
    folderPath := if better then new.folderPath else old.folderPath
    provenance := if better then new.provenance else old.provenance
    acceptedAt := if better then new.acceptedAt else old.acceptedAt
    quality := max old.quality new.quality, conflicted := old.conflicted ||
      (new.quality = old.quality && new.folderPath ≠ old.folderPath : Bool) }

def putDraft (drafts : List ChatPresentationDraft) (new : ChatPresentationDraft) :
    List ChatPresentationDraft :=
  if drafts.any (·.uniqueKey = new.uniqueKey) then
    updateKey (·.uniqueKey) new.uniqueKey (mergeDraft · new) drafts
  else drafts ++ [new]

def draftLabels (w : World) (now : Time) (f : CopyWorkflow) (labels : List ChatLabel) :
    Except Failure World :=
  let drafts : List ChatPresentationDraft :=
    labels.map fun l => ⟨l, f.leaf.snapshotId, f.id, f.captureAttempt, now⟩
  if (labels.map (·.chatId)).Nodup then
    .ok { w with presentationDrafts := drafts.foldl putDraft w.presentationDrafts }
  else .error .integrity

def publishLabels (w : World) (f : CopyWorkflow) (labels : List ChatLabel) : World :=
  let rows : List SnapshotChatPresentation := labels.map fun l => ⟨l, f.leaf.snapshotId⟩
  { w with presentations := insertAllIgnore (fun p => (p.snapshotId, p.chatId)) w.presentations rows }

def countPublished (w : World) (t : CopyWorkTask) (f : CopyWorkflow) (done : Bool) :
    Except Failure World := do
  let target := f.leaf.snapshotId
  let plan ← orFail .integrity (w.plan? target)
  failIf (plan.taskId ≠ some t.id) (.valueError "chat presentation publication capture changed")
  let count := (w.presentations.filter (·.snapshotId = target)).length
  if done then
    failIf (count ≠ plan.expectedCount) (.valueError "chat presentation publication coverage gap")
    let w := w.updateSnapshot target fun s =>
      { s with extraData := { s.extraData with chatPresentationFormat := some 1 } }
    let w := w.putPlan { plan with state := .published, publishedCount := count }
    .ok { w with presentationDrafts := w.presentationDrafts.filter (·.snapshotId ≠ target) }
  else .ok (w.putPlan { plan with publishedCount := count })

def applyLabels (w : World) (now : Time) (t : CopyWorkTask) (f : CopyWorkflow)
    (labels : List ChatLabel) (done : Bool) : Except Failure World :=
  if t.kind = .chatLabels then draftLabels w now f labels
  else countPublished (publishLabels w f labels) t f done

def applyLabelBatch (w : World) (now : Time) (t : CopyWorkTask) (limit : Nat) :
    Except Failure (World × BatchOutcome) := do
  let f ← labelSource w t
  let batch := (remaining w t).take limit
  let labels := batch.filterMap fun r => r.payload.label?
  let cursor := cursorOf t batch
  let done := exhausted w t cursor
  let w ← applyLabels w now t f labels done
  .ok (w, ⟨done, cursor, batch.length, 0⟩)

open List

/-- One call of `apply_label_batch`, on the task as it is then. -/
structure LabelBatch where
  now : Time
  task : CopyWorkTask
  limit : Nat

section

variable (w : World) (f : CopyWorkflow)

def LabelBatch.labels (b : LabelBatch) : List ChatLabel :=
  ((remaining w b.task).take b.limit).filterMap (·.payload.label?)

def applyLabelBatches (batches : List LabelBatch) : Except Failure World :=
  batches.foldlM (fun w b => Prod.fst <$> applyLabelBatch w b.now b.task b.limit) w

def draftOf (drafts : List ChatPresentationDraft) (chatId : String) : Option ChatPresentationDraft :=
  drafts.find? (·.uniqueKey = (f.leaf.snapshotId, f.id, f.captureAttempt, chatId))

/-- Batches of the capture that the workflow is in, each with a chat at most once, as
`validate_labels` sees to for a whole task. -/
structure InCapture (b : LabelBatch) : Prop where
  kind : b.task.kind = .chatLabels
  source : labelSource w b.task = .ok f
  distinct : ((b.labels w).map (·.chatId)).Nodup

end

/-- A draft says what was observed of its chat, whatever the order: the highest quality, a path seen with
it, and whether another path was. -/
structure Reflects (seen : List ChatLabel) (d : ChatPresentationDraft) : Prop where
  highest : ∀ l ∈ seen, l.chatId = d.chatId → l.quality ≤ d.quality
  path : ∃ l ∈ seen, l.chatId = d.chatId ∧ l.quality = d.quality ∧ l.folderPath = d.folderPath
  conflict : d.conflicted = true ↔
    ∃ l ∈ seen, l.chatId = d.chatId ∧ l.quality = d.quality ∧ l.folderPath ≠ d.folderPath

/-- Labels come without a conflict, and two paths of a chat with one quality only if none is better. -/
def Clear (seen : List ChatLabel) : Prop :=
  ∀ a ∈ seen, a.conflicted = false ∧ ∀ b ∈ seen, a.chatId = b.chatId → a.quality = b.quality →
    a.folderPath ≠ b.folderPath → ∀ c ∈ seen, c.chatId = a.chatId → c.quality ≤ a.quality

section

variable {w : World} {f : CopyWorkflow} {seen labels : List ChatLabel} {d : ChatPresentationDraft}
  {drafts : List ChatPresentationDraft} {batches : List LabelBatch} {now : Time}

theorem Clear.mono (h : Clear labels) (sub : seen ⊆ labels) : Clear seen := fun a ha =>
  ⟨(h a (sub ha)).1, fun b hb chat quality path c hc =>
    (h a (sub ha)).2 b (sub hb) chat quality path c (sub hc)⟩

theorem Reflects.merge (h : Reflects seen d) (new : ChatPresentationDraft) (chat : new.chatId = d.chatId)
    (clear : Clear (seen ++ [new.toChatLabel])) : Reflects (seen ++ [new.toChatLabel]) (mergeDraft d new) := by
  obtain ⟨highest, ⟨best, hbest, same, quality, path⟩, conflict⟩ := h
  rcases lt_or_ge d.quality new.quality with better | worse
  · -- a conflict among what is now surpassed is what `Clear` rules out
    have clean : d.conflicted = false := by
      rw [Bool.eq_false_iff, ne_eq, conflict]
      rintro ⟨other, hother, same', quality', path'⟩
      have := (clear best (mem_append_left _ hbest)).2 other (mem_append_left _ hother)
        (same.trans same'.symm) (quality.trans quality'.symm) (path ▸ path'.symm) new.toChatLabel (by simp)
        (chat.trans same.symm)
      exact this.not_gt (quality ▸ better)
    constructor <;> grind [mergeDraft]
  · constructor <;> grind [mergeDraft]

def drafted (f : CopyWorkflow) (now : Time) (l : ChatLabel) : ChatPresentationDraft :=
  ⟨l, f.leaf.snapshotId, f.id, f.captureAttempt, now⟩

structure Tracks (f : CopyWorkflow) (seen : List ChatLabel) (drafts : List ChatPresentationDraft) :
    Prop where
  found : ∀ l ∈ seen, ∃ d, draftOf f drafts l.chatId = some d
  settled : ∀ {chatId d}, draftOf f drafts chatId = some d → d.chatId = chatId ∧ Reflects seen d

theorem draftOf_putDraft (l : ChatLabel) (chatId : String) :
    draftOf f (putDraft drafts (drafted f now l)) chatId =
      if l.chatId = chatId then
        some ((draftOf f drafts chatId).elim (drafted f now l) (mergeDraft · (drafted f now l)))
      else draftOf f drafts chatId := by
  generalize hnew : drafted f now l = new
  have key : new.uniqueKey = (f.leaf.snapshotId, f.id, f.captureAttempt, l.chatId) := hnew ▸ rfl
  have keeps : ∀ old, (mergeDraft old new).uniqueKey = old.uniqueKey := fun _ => rfl
  rw [putDraft, draftOf, draftOf]
  split
  · rw [find?_updateKey fun old _ => keeps old]
    cases found : drafts.find? (·.uniqueKey = (f.leaf.snapshotId, f.id, f.captureAttempt, chatId)) with
    | none => grind
    | some old => grind [of_find? found]
  · rw [find?_append]
    grind

theorem Tracks.put (h : Tracks f seen drafts) {l : ChatLabel} (clear : Clear (seen ++ [l])) :
    Tracks f (seen ++ [l]) (putDraft drafts (drafted f now l)) := by
  refine ⟨fun o ho => ?_, fun {chatId d} hd => ?_⟩
  · rw [draftOf_putDraft]
    split
    · exact ⟨_, rfl⟩
    · grind [h.found]
  · rw [draftOf_putDraft] at hd
    split at hd
    next own =>
      cases found : draftOf f drafts chatId with
      | none =>
        have unseen : ∀ o ∈ seen, o.chatId ≠ l.chatId := by grind [h.found]
        have plain := (clear l (by simp)).1
        obtain rfl : drafted f now l = d := by simpa [found] using hd
        exact ⟨own, by constructor <;> grind [drafted]⟩
      | some old =>
        obtain ⟨chat, settled⟩ := h.settled found
        obtain rfl : mergeDraft old (drafted f now l) = d := by simpa [found] using hd
        exact ⟨chat, settled.merge (drafted f now l) (own.trans chat.symm) clear⟩
    next other =>
      obtain ⟨chat, highest, path, conflict⟩ := h.settled hd
      exact ⟨chat, by constructor <;> grind⟩

theorem Tracks.putAll (h : Tracks f seen drafts) (clear : Clear (seen ++ labels)) :
    Tracks f (seen ++ labels) ((labels.map (drafted f now)).foldl putDraft drafts) := by
  induction labels generalizing seen drafts with
  | nil => simpa using h
  | cons l labels ih =>
    rw [append_cons] at clear ⊢
    exact ih (h.put (clear.mono (subset_append_left ..))) clear

theorem applyLabelBatch_ok {b : LabelBatch} (h : InCapture w f b) :
    Prod.fst <$> applyLabelBatch { w with presentationDrafts := drafts } b.now b.task b.limit =
      .ok { w with presentationDrafts := ((b.labels w).map (drafted f b.now)).foldl putDraft drafts } := by
  have source : labelSource { w with presentationDrafts := drafts } b.task = .ok f := h.source
  simp only [applyLabelBatch, source, applyLabels, h.kind, draftLabels, bind, Except.bind, if_pos]
  rw [if_pos (by exact h.distinct)]
  rfl

theorem Tracks.run (h : Tracks f seen drafts) (own : ∀ b ∈ batches, InCapture w f b)
    (clear : Clear (seen ++ batches.flatMap (·.labels w))) :
    ∃ after, applyLabelBatches { w with presentationDrafts := drafts } batches =
      .ok { w with presentationDrafts := after } ∧ Tracks f (seen ++ batches.flatMap (·.labels w)) after := by
  induction batches generalizing seen drafts with
  | nil => exact ⟨drafts, rfl, by simpa using h⟩
  | cons b batches ih =>
    obtain ⟨here, rest⟩ := forall_mem_cons.mp own
    rw [flatMap_cons, ← append_assoc] at clear ⊢
    rw [applyLabelBatches, foldlM_cons, applyLabelBatch_ok here]
    exact ih (h.putAll (clear.mono (subset_append_left ..))) rest clear

theorem labels_settle (w : World) (f : CopyWorkflow) (batches : List LabelBatch)
    (own : ∀ b ∈ batches, InCapture w f b) (clear : Clear (batches.flatMap (·.labels w)))
    (fresh : ∀ d ∈ w.presentationDrafts, d.workflowId = f.id → d.captureAttempt ≠ f.captureAttempt) :
    ∃ w', applyLabelBatches w batches = .ok w' ∧ ∀ l ∈ batches.flatMap (·.labels w),
      ∃ d, draftOf f w'.presentationDrafts l.chatId = some d ∧ d.chatId = l.chatId ∧
        Reflects (batches.flatMap (·.labels w)) d := by
  have start : Tracks f [] w.presentationDrafts := by
    refine ⟨by simp, fun hd => absurd (of_find? hd) fun key => ?_⟩
    exact fresh _ (mem_of_find?_eq_some hd) (congrArg (·.2.1) key) (congrArg (·.2.2.1) key)
  obtain ⟨after, applied, tracks⟩ := start.run own clear
  refine ⟨_, applied, fun l hl => ?_⟩
  obtain ⟨d, found⟩ := tracks.found l hl
  exact ⟨d, found, tracks.settled found⟩

end

def chatCopy : CopyWorkflow :=
  { id := 30, leaf := ⟨10, none⟩, tenantId := 1, resourceId := 5, jobId := 1 }

def renamedTwice : World where
  workflows := [chatCopy]
  copyItems := [("chats/a", 1), ("chats/b", 1), ("chats/c", 2)].zipIdx.map fun ((path, quality), i) =>
    ⟨i, 1, .label ⟨"x", path, quality, "topic", false⟩, none, 0⟩

def labelTask (id : Uuid) : LabelBatch where
  now := 0
  task := { id, workflowId := 30, tenantId := 1, resourceId := 5, kind := .chatLabels, lane := .micro
            idempotencyKey := ⟨30, 0, .chatLabels, {}⟩ }
  limit := 10

theorem labels_settle_renamed :
    let batches := [labelTask 2, labelTask 0]
    ∃ w', applyLabelBatches renamedTwice batches = .ok w' ∧
      ∀ l ∈ batches.flatMap (·.labels renamedTwice), ∃ d,
        draftOf chatCopy w'.presentationDrafts l.chatId = some d ∧ d.chatId = l.chatId ∧
          Reflects (batches.flatMap (·.labels renamedTwice)) d := by
  refine labels_settle renamedTwice chatCopy _ ?_ (by unfold Clear; decide) (by simp [renamedTwice])
  simp only [forall_mem_cons]
  exact ⟨⟨rfl, rfl, by decide⟩, ⟨rfl, rfl, by decide⟩, by simp⟩

/-- The flag stays although a better label has come, unless that label comes first. -/
theorem conflict_depends_on_order :
    let conflicted (ids : List Uuid) := (applyLabelBatches renamedTwice (ids.map labelTask)).map fun w =>
      (draftOf chatCopy w.presentationDrafts "x").map fun d => (d.folderPath, d.quality, d.conflicted)
    conflicted [0, 1, 2] = .ok (some ("chats/c", 2, true)) ∧
      conflicted [2, 0, 1] = .ok (some ("chats/c", 2, false)) :=
  ⟨rfl, rfl⟩

section

section

def payloadOrder : ManifestPayload → String ×ₗ String ×ₗ Uuid
  | .row i => toLex (i.externalId, toLex (i.itemType.name, i.id))
  | .rename id _ _ => toLex ("", toLex ("", id))
  | _ => toLex ("", toLex ("", 0))

def manifestOrder (r : Selected) : Int ×ₗ String ×ₗ String ×ₗ Uuid := toLex (r.phase, payloadOrder r.payload)

def unsourced (kind : CopyKind) : Bool := kind ∈ [.legacyChatAttachments, .chatRename]

variable (w : World) (t : CopyWorkTask) (f : CopyWorkflow)

def predecessor : Option Uuid := if unsourced t.kind then none else sourceChoice w t f

def provenanceValid : Bool :=
  match t.kind with
  | .legacyChatAttachments =>
    provenanceKnown w (t.params.chatId.getD "") (attachmentCandidates w t f)
  | .chatRename => true
  | _ => (frozenSource w t).all (·.isNone) || (predecessor w t f).isSome

def ofTenant (tid : Uuid) : ManifestPayload → Bool
  | .row i => i.tenantId.all (· = tid)
  | _ => true

def manifestValid (rows : List Selected) : Bool :=
  provenanceValid w t f &&
    (t.params.explicitPrior.isNone || unsourced t.kind || (predecessor w t f).isSome) &&
    (rows.filterMap (·.sourceSnapshotId) ++ (predecessor w t f).toList).all
      (lockable w f.tenantId (unsourced t.kind) false) &&
    rows.all fun r => ofTenant f.tenantId r.payload

def checkPrepare : Except Failure Unit := do
  failIf (t.kind ∈ [.fileVersions, .archiveCarry] && t.params.explicitPrior.isNone)
    (.valueError "copy source snapshot must be fixed explicitly")
  failIf (t.kind = .legacyChatAttachments && t.params.chatId.all (· = ""))
    (.valueError "legacy chat provenance requires chat_id")
  failIf (t.kind = .chatRename && !checkRename t.params)
    (.valueError "rename requires distinct chat ids and matching nonempty names")
  failIf (.labels ∈ t.params.inputKeys) (.valueError "unsupported durable copy selector")

def prepareManifest : Except Failure World := do
  let f ← scope w t
  if t.prepared then .ok w
  else if labelKind t.kind then preparePresentationManifest w t
  else
    checkPrepare t
    let choice := predecessor w t f
    let rows := (selected w t f choice).insertionSort fun a b => manifestOrder a ≤ manifestOrder b
    failIf (!manifestValid w t f rows) (if t.kind = .legacyChatAttachments then
      .provenanceGap "legacy chat attachment provenance is ambiguous"
      else .valueError "copy source snapshot or row tenant ownership is invalid")
    let w ← insertManifest w (numbered t.id rows)
    let w := insertPins w t.id choice.toList
    let prior (u : CopyWorkTask) : Option (Option Uuid) :=
      if unsourced u.kind then u.params.priorSnapshotId else some choice
    .ok (w.updateTask t.id fun u =>
      { u with prepared := true, params := { u.params with priorSnapshotId := prior u } })

end

/-- `run_bytes - pg_column_size(payload) < max_bytes`: the rows that less than the limit goes before. -/
def withinBytes (size : CopyWorkItem → Nat) (maxBytes : Int) : Nat → List CopyWorkItem → List CopyWorkItem
  | _, [] => []
  | used, r :: rows =>
    let rest := withinBytes size maxBytes (used + size r) rows
    if (used : Int) < maxBytes then r :: rest else rest

variable (env : Env) (w : World) (t : CopyWorkTask) (f : CopyWorkflow)

def batchOf (limit : Nat) : List CopyWorkItem :=
  match remaining w t with
  | [] => []
  | first :: rest => withinBytes (fun r => env.columnSize r.payload) env.batchMaxBytes 0
      (((first :: rest).filter (·.phase = first.phase)).take limit)

def parentsPresent (batch : List CopyWorkItem) : Bool :=
  batch.all fun r =>
    match r.payload with
    | .row i => i.itemType ≠ .emailAttachment ||
        w.db.owns f.leaf.snapshotId (.email, i.parentExternalIdOrHead)
    | _ => true

def copiedRow (tid : Uuid) (now : Time) (i : SnapshotItem) : SnapshotItem :=
  { i with
    tenantId := some (i.tenantId.getD tid), backupVersion := some (i.backupVersion.getD 1)
    isDeleted := some (i.isDeleted.getD false), createdAt := some now }

def copiedRows (now : Time) (batch : List CopyWorkItem) : List SnapshotItem :=
  let rows := batch.filterMap fun r =>
    r.payload.row?.map fun i => (toLex (i.externalId, toLex (i.itemType.name, r.ordinal)), i)
  (rows.insertionSort fun a b => a.1 ≤ b.1).map fun row => copiedRow f.tenantId now row.2

def insertedRows (before after : Db) : List SnapshotItem := after.items.drop before.items.length

def countedRows (kind : CopyKind) (rows : List SnapshotItem) : Nat :=
  if kind = .archiveCarry then rows.countP (·.itemType = .archiveItem) else rows.length

def contentBytes (rows : List SnapshotItem) : Int := (rows.map fun i => i.contentSize.getD 0).sum

def renamed (batch : List CopyWorkItem) (i : SnapshotItem) : Option SnapshotItem :=
  batch.findSome? fun r =>
    match r.payload with
    | .rename id cid name =>
      if i.id = id && i.snapshotId = f.leaf.snapshotId && i.metadata.chatId = some cid &&
          i.folderPath.any (fun path => path ≠ "chats/" ++ name &&
            (!t.params.legacyPatternsOnly || legacyFolder path)) then
        some { i with
          folderPath := some ("chats/" ++ name)
          metadata := { i.metadata with chatTopic := some name } }
      else none
    | _ => none

def renameRows (batch : List CopyWorkItem) : Db :=
  { w.db with items := w.db.items.map fun i => (renamed t f batch i).getD i }

def copyManifestBatch (now : Time) (limit : Nat) : Except Failure (World × BatchOutcome) := do
  failIf (limit = 0) (.valueError "supported copy kind and positive integer batch limit required")
  let f ← scope w t
  failIf (!t.prepared) (.valueError "copy manifest is not prepared")
  if labelKind t.kind then applyLabelBatch w now t limit
  else
    let batch := batchOf env w t limit
    let cursor := cursorOf t batch
    let done := exhausted w t cursor
    failIf (!parentsPresent w f batch)
      (.runtimeError "required mail attachment parent is missing from target")
    if t.kind = .chatRename then
      let rows := w.db.items.countP fun i => (renamed t f batch i).isSome
      .ok ({ w with db := renameRows w t f batch }, ⟨done, cursor, rows, 0⟩)
    else
      let db := w.db.copyInto f.leaf.snapshotId (copiedRows f now batch)
      let rows := insertedRows w.db db
      .ok ({ w with db }, ⟨done, cursor, countedRows t.kind rows, contentBytes rows⟩)

end

structure CopyClaim where
  (taskId ownerId : Uuid)
  generation : Nat

inductive Abort
  | stale
  | cancelled
  | parentEnded
  | deferred (code : String)
  | executionUnsettled
  | failed (failure : Failure)

def truthy (value : Option String) : Bool := value.any (· ≠ "")

def leafUntouched (w : World) (f : CopyWorkflow) (job : Job) (s : Snapshot) : Bool :=
  let sealed (owner : Option Uuid) (expiresAt : Option Time) (token : Nat) : Bool :=
    owner = none && expiresAt = none && token = f.parentLeaseToken
  s.leaseToken = f.snapshotLeaseToken && job.leaseToken = f.jobLeaseToken &&
    match f.leaf.partitionId with
    | none => sealed s.leaseOwnerId s.leaseExpiresAt s.leaseToken
    | some pid => (w.partition? pid).any fun p =>
        p.snapshotId = s.id && p.jobId = job.id && p.resourceId = f.resourceId &&
          p.tenantId = f.tenantId && p.status = .inProgress &&
          sealed p.leaseOwnerId p.leaseExpiresAt p.leaseToken

def heldTask (w : World) (claim : CopyClaim) : Option (CopyWorkTask × CopyWorkflow × Job × Snapshot) := do
  let t ← w.copyTask? claim.taskId
  let f ← w.workflow? t.workflowId
  let job ← w.job? f.jobId
  let s ← w.db.snapshot? f.leaf.snapshotId
  if f.state = .waiting ∧ t.state = .running ∧ t.generation = claim.generation ∧
      t.captureAttempt = f.captureAttempt ∧ t.leaseOwnerId = some claim.ownerId ∧
      s.jobId = some job.id ∧ s.resourceId = f.resourceId ∧ job.tenantId = f.tenantId ∧
      t.tenantId = f.tenantId ∧ t.resourceId = f.resourceId then
    some (t, f, job, s)
  else none

def owned (w : World) (claim : CopyClaim) : Except Abort (CopyWorkTask × CopyWorkflow) :=
  match heldTask w claim with
  | none => .error .stale
  | some (t, f, job, s) =>
    if job.status = .cancelled || truthy s.extraData.cancelledAt then .error .cancelled
    else if !jobActive job.status || s.status ≠ some .inProgress then .error .parentEnded
    else if !leafUntouched w f job s then .error .stale
    else .ok (t, f)

structure Guards where
  (resource target tenant lane aggregate : Bool := true)

def physicalGuards (g : Guards) : Except Abort Unit := do
  failIf (!g.resource) (.deferred "copy_resource_busy")
  failIf (!g.target) (.deferred "copy_target_busy")
  failIf (!g.tenant) (.deferred "copy_tenant_busy")
  failIf (!g.lane) (.deferred "copy_lane_busy")
  failIf (!g.aggregate) (.deferred "copy_aggregate_busy")

structure BatchCall where
  claim : CopyClaim
  batchSize : Nat := 512
  statementTimeoutMs : Nat := 60000
  keepClaim : Bool := false
  guards : Guards := {}

def waitedOut (t : CopyWorkTask) : Bool := t.waitMaxS ≠ 0 && t.waitMaxS ≤ t.cumulativeWaitS

def leaseOutlasts (now : Time) (timeoutMs : Nat) (t : CopyWorkTask) : Bool :=
  t.leaseExpiresAt.any (now + timeoutMs * 1000 < ·)

def recordBatch (now : Time) (call : BatchCall) (out : BatchOutcome) (t : CopyWorkTask) : CopyWorkTask :=
  let t := { t with
    checkpoint := out.cursor, rowCount := t.rowCount + out.rows
    bytesCount := t.bytesCount + out.bytes, error := none }
  if out.done then
    { t with state := .completed, leaseOwnerId := none, leaseExpiresAt := none, attempts := 0 }
  else if call.keepClaim && leaseOutlasts now call.statementTimeoutMs t then { t with attempts := 1 }
  else { t with
    state := .ready, leaseOwnerId := none, leaseExpiresAt := none, attempts := 0
    readyAt := now, queueEnteredAt := now }

def protocolEnabled (w : World) : Bool := w.copyControl.any (·.enabled)

def admitBatch (w : World) (t : CopyWorkTask) (guards : Guards) : Except Abort Unit := do
  failIf (!protocolEnabled w) (.deferred "copy_protocol_disabled")
  failIf (waitedOut t) (.deferred "copy_admission_timeout")
  physicalGuards guards
  failIf (t.params.executionBudgetV1 && 3 < t.attempts) .executionUnsettled

def ensurePrepared (w : World) (t : CopyWorkTask) : Except Failure (World × CopyWorkTask) :=
  if t.prepared then .ok (w, t)
  else do
    let w ← prepareManifest w t
    let t ← orFail .integrity (w.copyTask? t.id)
    .ok (w, t)

def batchTransaction (env : Env) (w : World) (now : Time) (call : BatchCall) : Except Abort World := do
  let (t, _) ← owned w call.claim
  admitBatch w t call.guards
  let (w, t) ← (ensurePrepared w t).mapError .failed
  let (w, out) ← (copyManifestBatch env w t now call.batchSize).mapError .failed
  failIf (t.bytesCount + out.bytes < 0) (.failed .integrity)
  .ok (w.updateTask t.id (recordBatch now call out))

inductive SettleStatus
  | deferred | failed | cancelled

structure Settlement where
  status : SettleStatus
  error : TaskError
  queuedSeconds : ℚ := 0
  spendAttempt : Bool := true

inductive SqlState
  | lockTimeout | statementTimeout | deadlock | serializationFailure | other (code : Option String)

def SqlState.code : SqlState → Option String
  | lockTimeout => some "55P03"
  | statementTimeout => some "57014"
  | deadlock => some "40P01"
  | serializationFailure => some "40001"
  | other code => code

inductive Phase
  | settings | ownership | admission | execution
  deriving DecidableEq

def Phase.name : Phase → String
  | settings => "settings"
  | ownership => "ownership"
  | admission => "admission"
  | execution => "execution"

inductive Cause
  | abort (abort : Abort) (queuedSeconds : ℚ)
  | sql (state : SqlState) (phase : Phase) (attempt : Nat) (queuedSeconds : ℚ)

inductive Next
  | retry
  | leave
  | settle (s : Settlement)

def deferUnexecuted (code : String) (state : SqlState) (phase : Phase) (queued : ℚ) : Next :=
  .settle ⟨.deferred, { code, sqlstate := state.code, phase := some phase.name }, queued, false⟩

def failExecution (code : String) (sqlstate : Option String) (attempt : Nat) : Next :=
  .settle ⟨.failed, { code, sqlstate, attempts := sqlstate.map fun _ => attempt }, 0, true⟩

def afterFailure : Cause → Next
  | .abort .stale _ => .leave
  | .abort .executionUnsettled _ =>
    .settle ⟨.failed, { code := "copy_execution_unsettled", executionFailures := some 3 }, 0, true⟩
  | .abort .cancelled _ => .settle ⟨.cancelled, { code := "copy_parent_cancelled" }, 0, true⟩
  | .abort .parentEnded _ => .settle ⟨.failed, { code := "copy_parent_terminal" }, 0, true⟩
  | .abort (.deferred code) queued => .settle ⟨.deferred, { code }, queued, false⟩
  | .abort (.failed _) _ => failExecution "copy_execution_failed" none 0
  | .sql state phase attempt queued =>
    match state, decide (phase = .execution) with
    | .lockTimeout, false => deferUnexecuted "copy_lock_timeout" state phase queued
    | .statementTimeout, false => deferUnexecuted "copy_statement_timeout" state phase queued
    | .deadlock, false => deferUnexecuted "copy_deadlock" state phase queued
    | .serializationFailure, false => deferUnexecuted "copy_serialization_failure" state phase queued
    | .statementTimeout, true =>
      if attempt < 3 then .retry else failExecution "copy_statement_timeout" state.code attempt
    | .deadlock, true => .settle ⟨.deferred, { code := "copy_deadlock", sqlstate := state.code }, 0, true⟩
    | .serializationFailure, true =>
      .settle ⟨.deferred, { code := "copy_serialization_failure", sqlstate := state.code }, 0, true⟩
    | .lockTimeout, true =>
      .settle ⟨.deferred, { code := "copy_lock_timeout", sqlstate := state.code
                            phase := some phase.name }, 0, true⟩
    | .other code, _ => failExecution "copy_execution_failed" code attempt

def knownFailures (t : CopyWorkTask) : Nat :=
  match t.error.bind (·.executionFailures) with
  | some n => if 0 ≤ n ∧ n ≤ 3 then n.toNat else 0
  | none => 0

def settledFailures (s : Settlement) (t : CopyWorkTask) : Nat :=
  if s.spendAttempt then
    (if t.params.executionBudgetV1 then max (knownFailures t) (t.attempts - 1) else knownFailures t) + 1
  else knownFailures t

def waitAgain (now : Time) (s : Settlement) (t : CopyWorkTask) : CopyWorkTask :=
  { t with
    cumulativeWaitS := t.cumulativeWaitS + max 0 s.queuedSeconds, queueEnteredAt := now
    readyAt := now + seconds 1, attempts := if s.spendAttempt then t.attempts else t.attempts - 1 }

def deferError (s : Settlement) (failures : Nat) : TaskError :=
  if failures = 0 then s.error else { s.error with executionFailures := some failures }

def deferTask (now : Time) (s : Settlement) (t : CopyWorkTask) : CopyWorkTask :=
  if waitedOut (waitAgain now s t) then
    { waitAgain now s t with state := .failed, error := some { code := "copy_admission_timeout" } }
  else if 3 ≤ settledFailures s t then
    { waitAgain now s t with state := .failed, error := some (deferError s (settledFailures s t)) }
  else { waitAgain now s t with state := .ready, error := some (deferError s (settledFailures s t)) }

def settleTask (now : Time) (s : Settlement) (t : CopyWorkTask) : CopyWorkTask :=
  match s.status with
  | .deferred => { deferTask now s t with leaseOwnerId := none, leaseExpiresAt := none }
  | .failed =>
    { t with state := .failed, error := some s.error, leaseOwnerId := none, leaseExpiresAt := none }
  | .cancelled =>
    { t with state := .cancelled, error := some s.error, leaseOwnerId := none, leaseExpiresAt := none }

def settleOnce (w : World) (now : Time) (claim : CopyClaim) (s : Settlement) : World :=
  match owned w claim with
  | .ok _ => w.updateTask claim.taskId (settleTask now s)
  | .error .cancelled => w.updateTask claim.taskId
      (settleTask now ⟨.cancelled, { code := "copy_parent_cancelled" }, 0, true⟩)
  | .error .parentEnded => w.updateTask claim.taskId
      (settleTask now ⟨.failed, { code := "copy_parent_terminal" }, 0, true⟩)
  | .error _ => w

def releaseCancelledClaim (w : World) (now : Time) (claim : CopyClaim) : World :=
  w.updateTask claim.taskId fun t =>
    if t.state = .running && t.leaseOwnerId = some claim.ownerId && t.generation = claim.generation then
      { t with
        state := .ready, leaseOwnerId := none, leaseExpiresAt := none
        readyAt := now, queueEnteredAt := now
        attempts := if t.params.executionBudgetV1 then t.attempts else t.attempts - 1 }
    else t

end TmVault.Copy
