import TmVault.Catalogue.Attempts

namespace TmVault.Catalogue

open Store Relational List
open Work (CaptureState)

def Link.fence (l : Link) : Uuid × String := (l.snapshotId, l.externalId.chatId)

def Identified (w : World) (k : Key) (version : Uuid) : Prop :=
  ∃ v, w.version? version = some v ∧ v.chatId = k.chatId ∧ v.item.key k.chatId = k

def Settled (w : World) (i : Inventory) : Prop :=
  i.itemCount = (w.items i.id).length ∧ Covers w i.chatId (w.captured i.id)

structure Exact (w : World) (p : Association) : Prop where
  inventory : ∃ i ∈ w.inventories, i.id = p.inventoryId ∧ i.state = .complete ∧ i.chatId = p.chatId
  listed : ∀ l ∈ w.links, l.fence = p.fence →
    ⟨p.inventoryId, l.externalId, l.chatVersionId⟩ ∈ w.entries
  linked : ∀ e ∈ w.entries, e.inventoryId = p.inventoryId → ∃ l ∈ w.links, l.fence = p.fence ∧
    l.externalId = e.logicalKey ∧ l.chatVersionId = e.versionId

structure Whole (w : World) : Prop where
  sound : Sound w
  versionIds : (w.versions.map (·.id)).Nodup
  versionKeys : ∀ v ∈ w.versions, v.versionSha256.key = v.item.key v.chatId
  unpublished : ∀ a ∈ w.attempts, Active a.state → ∀ p ∈ w.associations, p.fence ≠ a.scope.fence
  staged : ∀ a ∈ w.attempts, Active a.state → ∀ i ∈ w.inventories, i.id = a.stagedInventoryId →
    i.chatId = a.scope.chatId
  entryOf : ∀ e ∈ w.entries, Identified w e.logicalKey e.versionId ∧
    ∃ i ∈ w.inventories, i.id = e.inventoryId ∧ i.chatId = e.logicalKey.chatId
  linkOf : ∀ l ∈ w.links, Identified w l.externalId l.chatVersionId ∧ l.chatId = l.externalId.chatId
  homed : ∀ l ∈ w.links, (∃ p ∈ w.associations, p.fence = l.fence) ∨
    ∃ a ∈ w.attempts, Active a.state ∧ a.scope.fence = l.fence ∧ l.writer = a.id
  settled : ∀ i ∈ w.inventories, i.state = .complete → Settled w i
  exact : ∀ p ∈ w.associations, p.coverage = .complete → Exact w p

structure Works (a : Attempt) (w w' : World) : Prop where
  acts : Acts a w w'
  keeps : ∀ x ∈ w'.attempts, x.id = a.id → Active x.state →
    x.stagedInventoryId = a.stagedInventoryId
  versions : w'.versions = w.versions
  objects : w'.objects = w.objects
  inventories : ∀ i ∈ w'.inventories, i.id ≠ a.stagedInventoryId → i ∈ w.inventories
  items : ∀ id, id ≠ a.stagedInventoryId → w'.items id = w.items id
  entryOf : ∀ e ∈ w'.entries, e.inventoryId = a.stagedInventoryId →
    Identified w' e.logicalKey e.versionId ∧ e.logicalKey.chatId = a.scope.chatId
  inventory : ∀ i ∈ w'.inventories, i.id = a.stagedInventoryId → i.chatId = a.scope.chatId ∧
    (i.state = .complete → Settled w' i)
  linkOf : ∀ l ∈ w'.links, l.writer = a.id → l.fence = a.scope.fence ∧
    Identified w' l.externalId l.chatVersionId ∧ l.chatId = l.externalId.chatId ∧
    ((∃ p ∈ w'.associations, p.fence = a.scope.fence) ∨ ∃ x ∈ w'.attempts, Active x.state ∧ x.id = a.id)
  kept : w.associations ⊆ w'.associations
  published : ∀ p ∈ w'.associations, p ∈ w.associations ∨ p.fence = a.scope.fence ∧
    (p.coverage = .complete → Exact w' p) ∧ ∀ x ∈ w'.attempts, x.id = a.id → ¬ Active x.state

variable {w w' : World} {a x : Attempt} {l : Link} {k : Key} {version : Uuid}
  {items : List CapturedChatItem}

theorem Identified.mono (h : Identified w k version)
    (versions : ∀ id v, w.version? id = some v → w'.version? id = some v) :
    Identified w' k version := by
  obtain ⟨v, found, rest⟩ := h
  exact ⟨v, versions _ v found, rest⟩

theorem durable_congr (objects : w'.objects = w.objects) (i : CapturedChatItem) :
    durable w' i = durable w i := by
  simp only [durable, World.object?, objects]

theorem Covers.congr (h : Covers w chatId items)
    (lasting : ∀ i, durable w i = true → durable w' i = true) : Covers w' chatId items := by
  intro m hm k required
  obtain ⟨i, hi, key, kept⟩ := h m hm k required
  exact ⟨i, hi, key, kept.imp_left (lasting i)⟩

theorem captured_congr (items : w'.items inventory = w.items inventory)
    (versions : ∀ id v, w.version? id = some v → w'.version? id = some v)
    (found : ∀ e ∈ w.entries, Identified w e.logicalKey e.versionId) :
    w'.captured inventory = w.captured inventory := by
  rw [World.captured, World.captured, items]
  apply filterMap_congr
  intro e he
  obtain ⟨v, known, -⟩ := found e (World.mem_items.mp he).1
  rw [known, versions _ v known]

theorem Settled.congr (h : Settled w i) (items : w'.items i.id = w.items i.id)
    (versions : ∀ id v, w.version? id = some v → w'.version? id = some v)
    (found : ∀ e ∈ w.entries, Identified w e.logicalKey e.versionId)
    (lasting : ∀ i, durable w i = true → durable w' i = true) : Settled w' i := by
  refine ⟨items ▸ h.1, ?_⟩
  rw [captured_congr items versions found]
  exact h.2.congr lasting

theorem Whole.fence_of_writer (whole : Whole w) (live : Runs w a)
    (hl : l ∈ w.links) (writer : l.writer = a.id) : l.fence = a.scope.fence := by
  obtain ⟨snapshot, entry⟩ := whole.sound.written a live.1 live.2 l hl writer
  obtain ⟨-, i, hi, id, chat⟩ := whole.entryOf _ entry
  have := whole.staged a live.1 live.2 i hi id
  rw [Link.fence, Scope.fence, snapshot, ← this, chat]

theorem Acts.mem_attempts (acts : Acts a w w') (hx : x ∈ w.attempts) (other : x.id ≠ a.id) :
    x ∈ w'.attempts := by
  obtain ⟨f, -, attempts⟩ := acts.attempts
  rw [attempts]
  exact mem_updateKey.mpr (.inl ⟨hx, other⟩)

theorem Whole.complete_ne (whole : Whole w) (live : Runs w a)
    (hi : i ∈ w.inventories) (complete : i.state = .complete) : i.id ≠ a.stagedInventoryId := by
  intro same
  obtain ⟨j, hj, id, -, state⟩ := whole.sound.staging a live.1 live.2
  have : i = j := inj_on_of_nodup_map whole.sound.inventoryIds hi hj (same.trans id.symm)
  rw [this, state] at complete
  cases complete

theorem Works.version? (works : Works a w w') (id : Uuid) (v : Version) (h : w.version? id = some v) :
    w'.version? id = some v := by
  rw [World.version?, works.versions]
  exact h

theorem Works.exact (works : Works a w w') (whole : Whole w) (live : Runs w a)
    (hp : p ∈ w.associations) (complete : p.coverage = .complete) : Exact w' p := by
  obtain ⟨⟨i, hi, id, state, chat⟩, listed, linked⟩ := whole.exact p hp complete
  have apart := whole.unpublished a live.1 live.2 p hp
  have other : p.inventoryId ≠ a.stagedInventoryId := id ▸ whole.complete_ne live hi state
  refine ⟨⟨i, works.acts.inventories i hi (id ▸ other), id, state, chat⟩, ?_, ?_⟩
  · intro l hl fence
    have foreign : l.writer ≠ a.id := fun writer =>
      apart (fence.symm.trans (works.linkOf l hl writer).1)
    exact (works.acts.entries _ other).mpr
      (listed l ((works.acts.links l foreign).mp hl) fence)
  · intro e he inventory
    obtain ⟨l, hl, fence, rest⟩ := linked e
      ((works.acts.entries e (inventory ▸ other)).mp he) inventory
    have foreign : l.writer ≠ a.id := fun writer =>
      apart (fence.symm.trans (whole.fence_of_writer live hl writer))
    exact ⟨l, (works.acts.links l foreign).mpr hl, fence, rest⟩

theorem Whole.works (whole : Whole w) (live : Runs w a)
    (works : Works a w w') (sound : Sound w') : Whole w' := by
  have found : ∀ e ∈ w.entries, Identified w e.logicalKey e.versionId :=
    fun e he => (whole.entryOf e he).1
  refine ⟨sound, works.versions ▸ whole.versionIds, works.versions ▸ whole.versionKeys, ?_, ?_, ?_,
    ?_, ?_, ?_, ?_⟩
  · intro x hx activeX p hp fences
    obtain ⟨y, hy, id, scope, -, wasActive, -⟩ := works.acts.origin whole.sound live hx
    rcases works.published p hp with old | ⟨fence, -, retired⟩
    · exact whole.unpublished y hy (wasActive activeX) p old (fences.trans (congrArg _ scope))
    · have same : y.scope.fence = a.scope.fence :=
        (congrArg _ scope.symm).trans (fences.symm.trans fence)
      have : y = a := whole.sound.eq_of_fence live ⟨hy, wasActive activeX⟩ same
      exact retired x hx (id.trans (congrArg _ this)) activeX
  · intro x hx activeX i hi staged
    by_cases own : x.id = a.id
    · obtain ⟨y, hy, id, scope, -, -⟩ := works.acts.origin whole.sound live hx
      rw [scope, whole.sound.eq_of_id hy live.1 (id.symm.trans own)]
      exact (works.inventory i hi (staged.trans (works.keeps x hx own activeX))).1
    · obtain ⟨y, hy, -, -, -, wasActive, eq⟩ := works.acts.origin whole.sound live hx
      obtain rfl := eq own
      have apart := whole.sound.staged_ne live ⟨hy, activeX⟩ own
      exact whole.staged x hy activeX i (works.inventories i hi (staged ▸ apart)) staged
  · intro e he
    by_cases own : e.inventoryId = a.stagedInventoryId
    · obtain ⟨identified, chat⟩ := works.entryOf e he own
      obtain ⟨i, hi, id⟩ := mem_map.mp (works.acts.held e he own)
      exact ⟨identified, i, hi, id, (works.inventory i hi (id.trans own)).1.trans chat.symm⟩
    · obtain ⟨identified, i, hi, id, chat⟩ := whole.entryOf e ((works.acts.entries e own).mp he)
      exact ⟨identified.mono works.version?, i, works.acts.inventories i hi (id ▸ own), id, chat⟩
  · intro l hl
    by_cases own : l.writer = a.id
    · obtain ⟨-, identified, chat, -⟩ := works.linkOf l hl own
      exact ⟨identified, chat⟩
    · obtain ⟨identified, chat⟩ := whole.linkOf l ((works.acts.links l own).mp hl)
      exact ⟨identified.mono works.version?, chat⟩
  · intro l hl
    by_cases own : l.writer = a.id
    · obtain ⟨fence, -, -, ⟨p, hp, published⟩ | ⟨x, hx, activeX, id⟩⟩ := works.linkOf l hl own
      · exact .inl ⟨p, hp, published.trans fence.symm⟩
      · obtain ⟨y, hy, id', scope, -, -⟩ := works.acts.origin whole.sound live hx
        refine .inr ⟨x, hx, activeX, ?_, own.trans id.symm⟩
        rw [scope, whole.sound.eq_of_id hy live.1 (id'.symm.trans id)]
        exact fence.symm
    · rcases whole.homed l ((works.acts.links l own).mp hl) with ⟨p, hp, fence⟩ | ⟨x, hx, rest⟩
      · exact .inl ⟨p, works.kept hp, fence⟩
      · exact .inr ⟨x, works.acts.mem_attempts hx (rest.2.2 ▸ own), rest⟩
  · intro i hi complete
    by_cases own : i.id = a.stagedInventoryId
    · exact (works.inventory i hi own).2 complete
    · exact (whole.settled i (works.inventories i hi own) complete).congr (works.items i.id own)
        works.version? found fun j => (durable_congr works.objects j).symm ▸ id
  · intro p hp complete
    rcases works.published p hp with old | ⟨-, new, -⟩
    · exact works.exact whole live old complete
    · exact new complete

variable {e : Entry} {i : Inventory}

section

variable (whole : Whole w) (live : Runs w a)

include whole live

theorem Whole.entry_chat (he : e ∈ w.entries) (inventory : e.inventoryId = a.stagedInventoryId) :
    e.logicalKey.chatId = a.scope.chatId := by
  obtain ⟨-, i, hi, id, chat⟩ := whole.entryOf e he
  exact chat.symm.trans (whole.staged a live.1 live.2 i hi (id.trans inventory))

theorem Whole.entry_own (he : e ∈ w.entries) (inventory : e.inventoryId = a.stagedInventoryId) :
    Identified w e.logicalKey e.versionId ∧ e.logicalKey.chatId = a.scope.chatId :=
  ⟨(whole.entryOf e he).1, whole.entry_chat live he inventory⟩

theorem Whole.inventory_own {P : Prop} (hi : i ∈ w.inventories) (own : i.id = a.stagedInventoryId) :
    i.chatId = a.scope.chatId ∧ (i.state = .complete → P) :=
  ⟨whole.staged a live.1 live.2 i hi own, fun complete =>
    absurd own (whole.complete_ne live hi complete)⟩

theorem Whole.setAttempt (kept : Kept f)
    (staged : Active (f a).state → (f a).stagedInventoryId = a.stagedInventoryId)
    (alive : Active (f a).state ∨ ∀ l ∈ w.links, l.writer ≠ a.id) :
    Whole (w.setAttempt a.id f) := by
  refine whole.works live ⟨Acts.setAttempt whole.sound kept, ?_, rfl, rfl, fun _ hi _ => hi,
    fun _ _ => rfl, ?_, ?_, ?_, Subset.refl _, fun p hp => .inl hp⟩
    (whole.sound.setAttempt live kept staged)
  · intro x hx id activeX
    rw [whole.sound.mem_setAttempt live.1 kept hx id] at activeX ⊢
    exact staged activeX
  · exact fun _ => whole.entry_own live
  · exact fun _ => whole.inventory_own live
  · intro l hl writer
    obtain ⟨identified, chat⟩ := whole.linkOf l hl
    refine ⟨whole.fence_of_writer live hl writer, identified, chat, ?_⟩
    rcases alive with alive | none
    · exact .inr ⟨f a, mem_map.mpr ⟨a, live.1, if_pos rfl⟩, alive, (kept a).1⟩
    · exact absurd writer (none l hl)

theorem Whole.append (new : Appends a w entries links)
    (staged : ∀ e ∈ entries, Identified w e.logicalKey e.versionId ∧
      e.logicalKey.chatId = a.scope.chatId)
    (own : ∀ l ∈ links, l.fence = a.scope.fence ∧ Identified w l.externalId l.chatVersionId ∧
      l.chatId = l.externalId.chatId) : Whole (w.append entries links) := by
  refine whole.works live ⟨Acts.append whole.sound live new, ?_, rfl, rfl, fun _ hi _ => hi, ?_, ?_, ?_, ?_,
    Subset.refl _, fun p hp => .inl hp⟩ (whole.sound.append live new)
  · intro x hx id _
    rw [whole.sound.eq_of_id hx live.1 id]
  · intro id other
    rw [World.items, World.items, World.append, filter_append]
    have none : entries.filter (·.inventoryId = id) = [] := by
      rw [filter_eq_nil_iff]
      intro e he same
      exact other ((of_decide_eq_true same).symm.trans (new.staged e he))
    rw [none, append_nil]
  · intro e he inventory
    rcases mem_append.mp he with he | he
    · exact whole.entry_own live he inventory
    · exact staged e he
  · exact fun _ => whole.inventory_own live
  · intro l hl writer
    rcases mem_append.mp hl with hl | hl
    · obtain ⟨identified, chat⟩ := whole.linkOf l hl
      exact ⟨whole.fence_of_writer live hl writer, identified, chat, .inr ⟨a, live.1, live.2, rfl⟩⟩
    · obtain ⟨fence, identified, chat⟩ := own l hl
      exact ⟨fence, identified, chat, .inr ⟨a, live.1, live.2, rfl⟩⟩

theorem Whole.reparent {p : Link → Prop} [DecidablePred p] (parent : Parent)
    (own : ∀ l ∈ w.links, p l → l.writer = a.id) :
    Whole { w with links := w.links.map (·.reparent p parent) } := by
  refine whole.works live ⟨Acts.reparent whole.sound parent own, ?_, rfl, rfl,
    fun _ hi _ => hi, fun _ _ => rfl, ?_, ?_, ?_, Subset.refl _, fun p hp => .inl hp⟩
    (whole.sound.reparent live parent own)
  · intro x hx id _
    rw [whole.sound.eq_of_id hx live.1 id]
  · exact fun _ => whole.entry_own live
  · exact fun _ => whole.inventory_own live
  · intro l hl writer
    obtain ⟨l₀, hl₀, rfl⟩ := mem_map.mp hl
    obtain ⟨snapshot, key, -, version, chatId, writer'⟩ := Link.reparent_same p parent l₀
    obtain ⟨identified, chat⟩ := whole.linkOf l₀ hl₀
    have fence := whole.fence_of_writer live hl₀ (writer'.symm.trans writer)
    refine ⟨?_, ?_, ?_, .inr ⟨a, live.1, live.2, rfl⟩⟩
    · rw [← fence, Link.fence, Link.fence, snapshot, key]
    · rw [key, version]
      exact identified
    · rw [chatId, key]
      exact chat

theorem Whole.unlink (kept : Kept f) (inactive : ∀ x, ¬ Active (f x).state) :
    Whole ((w.unlink a.scope.snapshotId a.stagedInventoryId).setAttempt a.id f) := by
  have acts := Acts.unlink whole.sound live kept
  refine whole.works live ⟨acts, ?_, rfl, rfl, fun _ hi _ => hi, fun _ _ => rfl, ?_, ?_, ?_,
    Subset.refl _, fun p hp => .inl hp⟩
    (whole.sound.retire live acts whole.sound.associationKeys rfl inactive)
  · intro x hx id activeX
    rcases mem_updateKey.mp hx with ⟨-, other⟩ | ⟨y, -, -, rfl⟩
    · exact absurd id other
    · exact absurd activeX (inactive y)
  · exact fun _ => whole.entry_own live
  · exact fun _ => whole.inventory_own live
  · intro l hl writer
    obtain ⟨hl, kept⟩ := World.mem_unlink.mp hl
    exact absurd ((whole.sound.wrote_iff live hl).mp writer) kept

end

section

variable (whole : Whole w)

include whole

theorem Whole.version?_of_mem (hv : v ∈ w.versions) : w.version? v.id = some v :=
  (find?_key_eq_some whole.versionIds).mpr ⟨hv, rfl⟩

theorem Whole.identified
    (h : w.versionOf? a.scope item = some v) : Identified w (item.key a.scope.chatId) v.id := by
  have hv := mem_of_find?_eq_some h
  have same := find?_some h
  simp only [Bool.and_eq_true, decide_eq_true_eq] at same
  obtain ⟨⟨-, chat⟩, fingerprint⟩ := same
  refine ⟨v, whole.version?_of_mem hv, chat, ?_⟩
  have key := whole.versionKeys v hv
  rw [fingerprint, chat] at key
  exact key.symm

theorem stageOne_whole (live : Runs w a) (h : stageOne env a known w item = .ok w') :
    Whole w' ∧ w'.attempts = w.attempts := by
  obtain ⟨v, parent, version, ⟨own, rfl⟩ | ⟨new, rfl⟩⟩ := stageOne_ok whole.sound live h
  · exact ⟨whole.reparent live parent own, rfl⟩
  · have identified := whole.identified version
    refine ⟨whole.append live new ?_ ?_, rfl⟩
    · intro e he
      rw [mem_singleton.mp he]
      exact ⟨identified, rfl⟩
    · intro l hl
      rw [mem_singleton.mp hl]
      exact ⟨rfl, identified, rfl⟩

theorem Whole.addVersions (nodup : (new.map (·.id)).Nodup)
    (fresh : ∀ v ∈ new, w.version? v.id = none)
    (keys : ∀ v ∈ new, v.versionSha256.key = v.item.key v.chatId) :
    Whole { w with versions := w.versions ++ new } := by
  have kept : ∀ id v, w.version? id = some v →
      World.version? { w with versions := w.versions ++ new } id = some v := by
    intro id v found
    rw [World.version?, find?_append]
    rw [World.version?] at found
    rw [found, Option.some_or]
  have found : ∀ e ∈ w.entries, Identified w e.logicalKey e.versionId :=
    fun e he => (whole.entryOf e he).1
  refine ⟨whole.sound.of_tables rfl rfl rfl rfl rfl, ?_, ?_, whole.unpublished, whole.staged, ?_, ?_,
    whole.homed, ?_, ?_⟩
  · rw [map_append]
    refine whole.versionIds.append nodup ?_
    intro id known repeated
    obtain ⟨v, hv, rfl⟩ := mem_map.mp known
    obtain ⟨v', hv', same⟩ := mem_map.mp repeated
    have none := fresh v' hv'
    rw [same, whole.version?_of_mem hv] at none
    cases none
  · intro v hv
    rcases mem_append.mp hv with hv | hv
    · exact whole.versionKeys v hv
    · exact keys v hv
  · intro e he
    obtain ⟨identified, rest⟩ := whole.entryOf e he
    exact ⟨identified.mono kept, rest⟩
  · intro l hl
    obtain ⟨identified, chat⟩ := whole.linkOf l hl
    exact ⟨identified.mono kept, chat⟩
  · intro i hi complete
    exact (whole.settled i hi complete).congr rfl kept found fun _ lasting => lasting
  · intro p hp complete
    obtain ⟨inventory, listed, linked⟩ := whole.exact p hp complete
    exact ⟨inventory, listed, linked⟩

theorem stageVersions_whole (h : stageVersions env w lease items ids r = .ok w') : Whole w' := by
  obtain ⟨a, batch, fenced, -, -, -, rfl | ⟨w₂, nodup, fresh, staged, rfl⟩⟩ := stageVersions_ok h
  · exact whole
  have live := fence_active fenced
  have start : Whole { w with versions := w.versions ++ missing w a.scope ids batch } := by
    refine whole.addVersions nodup fresh ?_
    intro v hv
    obtain ⟨i, -, rfl⟩ := mem_map.mp hv
    rfl
  obtain ⟨whole₂, attempts⟩ := foldlM_ok
    (fun (s : World) _ => Whole s ∧ s.attempts = w.attempts)
    (fun {s s' _ _} inv one => by
      obtain ⟨whole', same⟩ := stageOne_whole inv.1 ⟨inv.2 ▸ live.1, live.2⟩ one
      exact ⟨whole', same.trans inv.2⟩) ⟨start, rfl⟩ staged
  exact whole₂.setAttempt ⟨attempts ▸ live.1, live.2⟩ (kept_state _) (fun _ => rfl) (.inl trivial)

theorem copyVersions_whole {keys : List Key}
    (sameChat : ∀ a ∈ w.attempts, a.id = lease.attemptId → ∀ i ∈ w.inventories, i.id = inventory →
      i.chatId = a.scope.chatId)
    (h : copyVersions w lease inventory source keys r = .ok w') : Whole w' := by
  rcases copyVersions_ok whole.sound h with rfl | ⟨a, links, fenced, -, copied, new, rfl⟩
  · exact whole
  have live := fence_active fenced
  have entries : ∀ e ∈ copiedEntries w a inventory keys, Identified w e.logicalKey e.versionId ∧
      e.logicalKey.chatId = a.scope.chatId := by
    intro e he
    obtain ⟨e₀, he₀, rfl⟩ := mem_map.mp he
    obtain ⟨he₀, same⟩ := World.mem_items.mp (mem_filter.mp he₀).1
    obtain ⟨identified, i, hi, id, chat⟩ := whole.entryOf e₀ he₀
    exact ⟨identified, chat.symm.trans (sameChat a live.1 (fence_ok fenced).2.1 i hi (id.trans same))⟩
  refine Whole.setAttempt (whole.append live new entries ?_) live (kept_state _)
    (fun _ => rfl) (.inl trivial)
  intro l hl
  obtain ⟨-, snapshot, -, l₀, hl₀, -, key, version, chatId⟩ := of_mem_copiedLinks (copied l hl)
  obtain ⟨identified, chat⟩ := whole.linkOf l₀ hl₀
  have entry : l.externalId.chatId = a.scope.chatId := by
    rcases mem_append.mp (new.own l hl).2.2.2 with old | added
    · exact whole.entry_chat live old rfl
    · exact (entries _ added).2
  refine ⟨?_, ?_, ?_⟩
  · rw [Link.fence, Scope.fence, snapshot, entry]
  · rw [key, version]
    exact identified
  · rw [chatId, key]
    exact chat

theorem renewCapture_whole (h : renewCapture w lease seconds r = .ok w') : Whole w' := by
  obtain ⟨a, fenced, rfl⟩ := renewCapture_ok h
  have live := fence_active fenced
  exact whole.setAttempt live (fun _ => ⟨rfl, rfl, rfl⟩) (fun _ => rfl) (.inl live.2)

theorem recordCaptureEvidence_whole
    (h : recordCaptureEvidence w lease evidence r = .ok w') : Whole w' := by
  obtain ⟨a, fenced, rfl⟩ := recordCaptureEvidence_ok h
  have live := fence_active fenced
  exact whole.setAttempt live (fun _ => ⟨rfl, rfl, rfl⟩) (fun _ => rfl) (.inl trivial)

theorem suspendCapture_whole (h : suspendCapture w lease owned related r = .ok w') : Whole w' := by
  obtain ⟨a, fenced, rfl⟩ := suspendCapture_ok h
  have live := fence_active fenced
  exact whole.unlink live (fun _ => ⟨rfl, rfl, rfl⟩) fun _ => id

end

end TmVault.Catalogue
