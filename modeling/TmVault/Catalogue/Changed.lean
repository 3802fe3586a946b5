import TmVault.Catalogue.Rows

namespace TmVault.Catalogue

open Store Relational List

/-- A `chatMessage` of Graph, in the delta feed or in the listing of its chat; an empty `id` is a
missing one, and `rest` is everything else. -/
structure Message where
  (id chatId : String)
  lastModified : Option Time
  removed : Bool := false
  replyToId : String := ""
  messageType : String := "message"
  rest : String := ""

def Message.modified (m : Message) : Time := m.lastModified.getD 0

inductive FeedRefusal
  | removedRecord | unplacedRecord | replyOrSystemEvent | noFeedRecords

def keepNewest (newest : List Message) (r : Message) : List Message :=
  if r.id ∈ newest.map (·.id) then
    updateKey (·.id) r.id (fun x => if x.modified ≤ r.modified then r else x) newest
  else newest ++ [r]

def placeRecord (chatId : String) (newest : List Message) (r : Message) :
    Except FeedRefusal (List Message) :=
  if r.removed then .error .removedRecord
  else if r.chatId ≠ chatId || r.id = "" || r.lastModified = none then .error .unplacedRecord
  else if r.replyToId ≠ "" || r.messageType ≠ "message" then .error .replyOrSystemEvent
  else .ok (keepNewest newest r)

def feedMessages (chatId : String) (records : List Message) :
    Except FeedRefusal (List Message) := do
  let newest ← records.foldlM (placeRecord chatId) []
  if newest.isEmpty then .error .noFeedRecords else .ok newest

structure Child where
  id : String
  payload : Payload := {}
  metadataOnly : Bool := false

inductive Binary
  | stored (payload : Payload) (content : ChatContent)
  | unavailable
  | failed

structure Source where
  payload : Message → Payload
  attachments : Message → List Child := fun _ => []
  hostedContents : Message → Option (List Child) := fun _ => some []
  binary : Message → ItemType → Child → Binary := fun _ _ _ => .unavailable

section

variable (src : Source) (exclude : Message → Bool) (m : Message)

def captureChild (kind : ItemType) (child : Child) : Option CapturedChatItem :=
  if kind = .chatAttachment && child.metadataOnly then
    some ⟨kind, child.id, some m.id, child.payload, none⟩
  else
    match src.binary m kind child with
    | .stored payload content => some ⟨kind, child.id, some m.id, payload, some content⟩
    | .unavailable =>
      some ⟨kind, child.id, some m.id, { child.payload with sourceUnavailable := true }, none⟩
    | .failed => none

def messageItem : CapturedChatItem := ⟨.teamsChatMessage, m.id, none, src.payload m, none⟩

def captureChildren : List (Option CapturedChatItem) :=
  (src.attachments m).map (captureChild src m .chatAttachment) ++
    ((src.hostedContents m).getD []).map (captureChild src m .chatHostedContent)

def captureMessage : List CapturedChatItem :=
  messageItem src m :: (captureChildren src m).filterMap id

def observe (messages : List Message) : Option (List CapturedChatItem) :=
  let kept := messages.filter (!exclude ·)
  if kept.all fun m => (src.hostedContents m).isSome && (captureChildren src m).all (·.isSome) then
    some (kept.flatMap (captureMessage src))
  else none

end

def CapturedChatItem.message? (i : CapturedChatItem) : Option String :=
  if i.itemType ∈ messageTypes then some i.graphId else i.parentGraphId

/-- The COMPLETE capture of the snapshot the feed's cursor started in; `sameScope` compares its
principal, authentication, observation version and the rules of its filter, not the chat's label that
the rules were applied to. -/
structure PriorCapture where
  items : List CapturedChatItem
  sameScope : Bool
  (observedAt fullAt : Option Time)

section

variable (chatId : String) (records : List Message) (latest : Time) (gap : Option (List Message))

def newestChange (newest : List Message) : Time := (newest.map (·.modified)).foldl max 0

def heard : Option (List Message) := do
  let newest ← (feedMessages chatId records).toOption
  if newestChange newest < latest then return records ++ (← gap) else return records

/-- `capture_changed_only`: the items it publishes, or nothing when the whole chat is to be read.
`verifies` is the catalogue's validation of the staged rows. -/
def captureChangedOnly (src : Source) (exclude : Message → Bool) (prior : Option PriorCapture)
    (now reconcile : Time) (verifies : List CapturedChatItem → Bool) :
    Option (List CapturedChatItem) := do
  let prior ← prior
  let _ ← prior.observedAt
  let full ← prior.fullAt
  guard (prior.sameScope && now - full < reconcile)
  let newest ← (feedMessages chatId (← heard chatId records latest gap)).toOption
  guard (latest ≤ newestChange newest)
  let read ← observe src exclude newest
  let reused := prior.items.filter fun i => i.message?.all (· ∉ newest.map (·.id))
  guard (verifies (read ++ reused))
  return read ++ reused

end

def selected (exclude : CapturedChatItem → Bool) (items : List CapturedChatItem) :
    List CapturedChatItem :=
  let messages := items.filter fun i => i.itemType ∈ messageTypes && !exclude i
  messages ++ items.filter fun i =>
    i.itemType ∉ messageTypes && i.parentGraphId.all (· ∈ messages.map (·.graphId))

def publishCopy (exclude : CapturedChatItem → Bool) (verifies : List CapturedChatItem → Bool)
    (items : List CapturedChatItem) : Option (List CapturedChatItem) :=
  if verifies (selected exclude items) then some (selected exclude items) else none

section

variable {chatId : String} {records newest : List Message}

structure Newest (records newest : List Message) : Prop where
  ids : (newest.map (·.id)).Nodup
  subset : ∀ x ∈ newest, x ∈ records
  covers : ∀ r ∈ records, ∃ x ∈ newest, x.id = r.id ∧ r.modified ≤ x.modified

theorem Newest.keepNewest (h : Newest records newest) (r : Message) :
    Newest (records ++ [r]) (keepNewest newest r) := by
  unfold Catalogue.keepNewest
  split
  · rename_i known
    refine ⟨?_, fun x hx => ?_, fun y hy => ?_⟩
    · rw [map_updateKey]
      · exact h.ids
      · intro x hid
        split
        · exact hid.symm
        · rfl
    · rcases mem_updateKey.mp hx with ⟨hx, -⟩ | ⟨old, hold, -, rfl⟩
      · exact mem_append_left _ (h.subset x hx)
      · split
        · simp
        · exact mem_append_left _ (h.subset old hold)
    · have older : ∃ x ∈ newest, x.id = y.id ∧ (y.modified ≤ x.modified ∨ y = r) := by
        rcases mem_append.mp hy with hy | hy
        · obtain ⟨x, hx, hid, le⟩ := h.covers y hy
          exact ⟨x, hx, hid, .inl le⟩
        · obtain ⟨x, hx, hid⟩ := mem_map.mp known
          rw [mem_singleton.mp hy]
          exact ⟨x, hx, hid, .inr rfl⟩
      obtain ⟨x, hx, hid, le⟩ := older
      by_cases same : x.id = r.id
      · refine ⟨_, mem_updateKey.mpr (.inr ⟨x, hx, same, rfl⟩), ?_⟩
        split
        · rename_i newer
          exact ⟨same.symm.trans hid, le.elim (·.trans newer) fun eq => eq ▸ le_rfl⟩
        · rename_i newer
          exact ⟨hid, le.elim id fun eq => eq ▸ (not_le.mp newer).le⟩
      · have other : y ≠ r := fun eq => same (eq ▸ hid)
        exact ⟨x, mem_updateKey.mpr (.inl ⟨hx, same⟩), hid, le.resolve_right other⟩
  · rename_i fresh
    refine ⟨?_, fun x hx => ?_, fun y hy => ?_⟩
    · rw [map_append]
      exact (nodup_append_comm.mp (nodup_cons.mpr ⟨fresh, h.ids⟩))
    · exact (mem_append.mp hx).elim (fun hx => mem_append_left _ (h.subset x hx))
        (mem_append_right _)
    · rcases mem_append.mp hy with hy | hy
      · obtain ⟨x, hx, rest⟩ := h.covers y hy
        exact ⟨x, mem_append_left _ hx, rest⟩
      · exact ⟨y, mem_append_right _ hy, rfl, le_rfl⟩

theorem feedMessages_newest (h : feedMessages chatId records = .ok newest) :
    Newest records newest := by
  obtain ⟨placed, hp, h⟩ := of_bind h
  have empty : Newest [] [] := ⟨nodup_nil, by simp, by simp⟩
  have all : ∃ before, before ++ [] = records ∧ Newest before placed :=
    foldlM_ok (fun newest rest => ∃ before, before ++ rest = records ∧ Newest before newest)
      (fun {s s' r rest} ⟨before, split, inv⟩ step => by
        refine ⟨before ++ [r], by simpa using split, ?_⟩
        unfold placeRecord at step
        split at step <;> [cases step; split at step] <;> [cases step; split at step] <;> cases step
        exact inv.keepNewest r) ⟨[], rfl, empty⟩ hp
  obtain ⟨before, same, newest'⟩ := all
  rw [append_nil] at same
  split at h <;> cases h
  exact same ▸ newest'

end

section

variable {src src₀ : Source} {exclude exclude₀ : Message → Bool} {m : Message} {i : CapturedChatItem}
  {history history₀ records newest : List Message} {items full : List CapturedChatItem}

theorem of_captureChild (h : captureChild src m kind child = some i) :
    i.itemType = kind ∧ i.parentGraphId = some m.id := by
  unfold captureChild at h
  split at h
  · cases h
    exact ⟨rfl, rfl⟩
  · split at h <;> cases h <;> exact ⟨rfl, rfl⟩

theorem mem_captureMessage (h : i ∈ captureMessage src m) : i = messageItem src m ∨
    i.itemType ∉ messageTypes ∧ i.parentGraphId = some m.id := by
  rcases mem_cons.mp h with rfl | h
  · exact .inl rfl
  · obtain ⟨_, h, rfl⟩ := mem_filterMap.mp h
    rw [captureChildren, mem_append, mem_map, mem_map] at h
    obtain ⟨_, -, h⟩ | ⟨_, -, h⟩ := h <;> obtain ⟨type, parent⟩ := of_captureChild h <;>
      exact .inr ⟨type ▸ by decide, parent⟩

theorem message?_of_mem (h : i ∈ captureMessage src m) : i.message? = some m.id := by
  rcases mem_captureMessage h with rfl | ⟨child, parent⟩
  · rfl
  · rw [CapturedChatItem.message?, if_neg child, parent]

theorem mem_observe (h : observe src exclude history = some items) :
    i ∈ items ↔ ∃ m ∈ history, exclude m = false ∧ i ∈ captureMessage src m := by
  simp only [observe] at h
  split at h <;> cases h
  simp [and_assoc]

/-- Since the prior capture was read, every message whose capture is another one or that the filter
judges otherwise, and every one the records name, is among the records as it now is. -/
structure Reported (src₀ src : Source) (exclude₀ exclude : Message → Bool)
    (history₀ history records : List Message) : Prop where
  current : ∀ r ∈ records, ∃ m ∈ records, m ∈ history ∧ m.id = r.id ∧
    (r = m ∨ r.modified < m.modified)
  changed : ∀ m ∈ history, m ∈ records ∨
    m ∈ history₀ ∧ captureMessage src m = captureMessage src₀ m ∧ exclude m = exclude₀ m
  stays : ∀ m ∈ history₀, m.id ∈ records.map (·.id) ∨ m ∈ history

section

variable (h : Newest records newest)

include h

theorem Newest.mem_history
    (reported : Reported src₀ src exclude₀ exclude history₀ history records) (hm : m ∈ newest) :
    m ∈ history := by
  obtain ⟨c, hc, now, hid, rfl | older⟩ := reported.current m (h.subset m hm)
  · exact now
  · obtain ⟨x, hx, same, le⟩ := h.covers c hc
    have : x = m := inj_on_of_nodup_map h.ids hx hm (same.trans hid)
    exact absurd (this ▸ le) (not_le.mpr older)

theorem Newest.mem_ids (id : String) : id ∈ newest.map (·.id) ↔ id ∈ records.map (·.id) := by
  simp only [mem_map]
  constructor
  · rintro ⟨x, hx, rfl⟩
    exact ⟨x, h.subset x hx, rfl⟩
  · rintro ⟨r, hr, rfl⟩
    obtain ⟨x, hx, same, -⟩ := h.covers r hr
    exact ⟨x, hx, same⟩

theorem Newest.mem_of_named (ids : (history.map (·.id)).Nodup)
    (reported : Reported src₀ src exclude₀ exclude history₀ history records) (hm : m ∈ history)
    (named : m.id ∈ newest.map (·.id)) : m ∈ newest := by
  obtain ⟨x, hx, same⟩ := mem_map.mp named
  have : x = m := inj_on_of_nodup_map ids (h.mem_history reported hx) hm same
  exact this ▸ hx

theorem Newest.mem_full (ids : (history.map (·.id)).Nodup)
    (reported : Reported src₀ src exclude₀ exclude history₀ history records) :
    ((∃ m ∈ newest, exclude m = false ∧ i ∈ captureMessage src m) ∨
      (∃ m ∈ history₀, exclude₀ m = false ∧ i ∈ captureMessage src₀ m) ∧
        i.message?.all (· ∉ newest.map (·.id)) = true) ↔
      ∃ m ∈ history, exclude m = false ∧ i ∈ captureMessage src m := by
  constructor
  · rintro (⟨m, hm, seen, hi⟩ | ⟨⟨m, hm, seen, hi⟩, kept⟩)
    · exact ⟨m, h.mem_history reported hm, seen, hi⟩
    · rw [message?_of_mem hi, Option.all_some, decide_eq_true_eq, h.mem_ids] at kept
      have now : m ∈ history := (reported.stays m hm).resolve_left kept
      rcases reported.changed m now with changed | ⟨-, same, judged⟩
      · exact absurd (mem_map_of_mem changed) kept
      · exact ⟨m, now, judged ▸ seen, same ▸ hi⟩
  · rintro ⟨m, hm, seen, hi⟩
    by_cases named : m.id ∈ newest.map (·.id)
    · exact .inl ⟨m, h.mem_of_named ids reported hm named, seen, hi⟩
    · rcases reported.changed m hm with changed | ⟨before, same, judged⟩
      · exact absurd ((h.mem_ids m.id).mpr (mem_map_of_mem changed)) named
      · refine .inr ⟨⟨m, before, judged ▸ seen, same ▸ hi⟩, ?_⟩
        rw [message?_of_mem hi, Option.all_some]
        exact decide_eq_true named

end

theorem message_unique (keys : (items.map (·.key chatId)).Nodup)
    (captured : ∀ i ∈ items, ∃ src m, i ∈ captureMessage src m) (hi : i ∈ items) (hj : j ∈ items)
    (mi : i.itemType ∈ messageTypes) (mj : j.itemType ∈ messageTypes)
    (same : i.graphId = j.graphId) : i = j := by
  apply inj_on_of_nodup_map keys hi hj
  obtain ⟨src, m, hm⟩ := captured i hi
  obtain ⟨src', n, hn⟩ := captured j hj
  obtain rfl := (mem_captureMessage hm).resolve_right fun child => child.1 mi
  obtain rfl := (mem_captureMessage hn).resolve_right fun child => child.1 mj
  exact congrArg (Key.mk chatId .teamsChatMessage · none) same

theorem not_excluded_of_mem_selected (keys : (items.map (·.key chatId)).Nodup)
    (captured : ∀ i ∈ items, ∃ src m, i ∈ captureMessage src m)
    (hi : i ∈ selected hides items) (hx : x ∈ items)
    (message : x.itemType ∈ messageTypes) (hidden : hides x) :
    i ≠ x ∧ i.parentGraphId ≠ some x.graphId := by
  simp only [selected, mem_append, mem_filter, Bool.and_eq_true, decide_eq_true_eq,
    Bool.not_eq_true'] at hi
  rcases hi with ⟨hi, isMessage, seen⟩ | ⟨hi, isChild, parent⟩
  · refine ⟨fun eq => ?_, fun child => ?_⟩
    · rw [eq, hidden] at seen
      cases seen
    · obtain ⟨src, m, hm⟩ := captured i hi
      obtain rfl := (mem_captureMessage hm).resolve_right fun child => child.1 isMessage
      cases child
  · refine ⟨fun eq => isChild (eq ▸ message), fun child => ?_⟩
    rw [child, Option.all_some, decide_eq_true_eq] at parent
    obtain ⟨y, hy, same⟩ := mem_map.mp parent
    obtain ⟨hy, isMessage, seen⟩ : y ∈ items ∧ y.itemType ∈ messageTypes ∧ hides y = false := by
      simpa using hy
    obtain rfl := message_unique keys captured hy hx isMessage message same
    rw [hidden] at seen
    cases seen

end

def hello : Message := ⟨"1", "c", some 1, false, "", "message", "hello"⟩

def edited : Message := ⟨"1", "c", some 5, false, "", "message", "edited"⟩

def withFile : Message := ⟨"2", "c", some 2, false, "", "message", "see the file"⟩

def chatWith (digest : String) : Source where
  payload m := { rest := m.rest }
  attachments m := if m.id = "2" then [{ id := "f" }] else []
  binary _ _ child := .stored child.payload ⟨digest, 1, "chats", digest, none, none, none, none⟩

def helloCapture : PriorCapture where
  items := [hello, withFile].flatMap (captureMessage (chatWith "a"))
  sameScope := true
  observedAt := some 3
  fullAt := some 3

def hidesFolder (label : String) (_ : Message) : Bool := label = "private"

def editCaptured (digest label : String) : Option (List CapturedChatItem) :=
  captureChangedOnly "c" [edited] 5 none (chatWith digest) (hidesFolder label) (some helloCapture) 6 9
    fun _ => true

def editFull : List CapturedChatItem :=
  [edited, withFile].flatMap (captureMessage (chatWith "a"))

end TmVault.Catalogue
