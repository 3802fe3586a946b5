import TmVault.Catalogue.Membership

namespace TmVault.Catalogue

open Store Relational List
open Bool hiding and_assoc or_self
open Work (CaptureState)

section

variable {w : World} {a : Attempt} {i : Inventory} {scope : Scope} {env : Env} {s : Staged}
  {l : Link} {x : Entry × Version}

theorem Whole.mem_chatLinks (whole : Whole w) :
    l ∈ w.chatLinks snapshot chatId ↔ l ∈ w.links ∧ l.fence = (snapshot, chatId) := by
  rw [World.chatLinks, World.rows, mem_filter, mem_filter, and_assoc]
  apply and_congr_right
  intro hl
  obtain ⟨⟨v, found, chat, -⟩, same⟩ := whole.linkOf l hl
  simp only [found, Option.any_some, or_eq_true, decide_eq_true_eq, Link.fence, Prod.mk.injEq]
  rw [same, chat, or_self]

structure Checked (env : Env) (w : World) (i : Inventory) (scope : Scope) (s : Staged) : Prop where
  rows : s.rows = stagedRows env w i.id
  identified : ∀ x ∈ s.rows, identified scope x.1 x.2 = true
  nodup : (s.rows.map (·.1.logicalKey)).Nodup
  linked : ∀ x ∈ s.rows, linked env w scope (s.rows.map (·.2.item)) x.1 x.2 = true
  count : (w.chatLinks scope.snapshotId scope.chatId).length = s.rows.length
  required : s.required = (coverage scope.chatId (s.rows.map (·.2.item))).1
  gaps : s.gaps = (coverage scope.chatId (s.rows.map (·.2.item))).2
  durable : s.durable = (s.rows.map (·.2.item)).countP (durable w)

theorem staged_ok (h : staged env w i scope = .ok s) : Checked env w i scope s := by
  obtain ⟨identified, h⟩ := of_failIf h
  obtain ⟨nodup, h⟩ := of_failIf h
  obtain ⟨linked, h⟩ := of_failIf h
  obtain ⟨_, -, h⟩ := of_bind h
  obtain ⟨count, h⟩ := of_failIf h
  cases h
  rw [not_eq_false'] at identified linked
  exact ⟨rfl, all_eq_true.mp identified, not_not.mp (of_decide_eq_false nodup),
    all_eq_true.mp linked, not_not.mp (of_decide_eq_false count), rfl, rfl, rfl⟩

theorem mem_stagedRows :
    x ∈ stagedRows env w inventory ↔ x.1 ∈ w.items inventory ∧ w.version? x.1.versionId = some x.2 := by
  rw [stagedRows, mem_mergeSort, mem_filterMap]
  constructor
  · rintro ⟨e, he, h⟩
    obtain ⟨v, found, rfl⟩ := Option.map_eq_some_iff.mp h
    exact ⟨he, found⟩
  · rintro ⟨he, found⟩
    exact ⟨x.1, he, by rw [found, Option.map_some]⟩

theorem version_id {id : Uuid} {v : Version} (h : w.version? id = some v) : v.id = id := by
  simpa using find?_some h

theorem linked_ok
    (h : linked env w scope items e v = true) : ∃ l ∈ w.links, l.snapshotId = scope.snapshotId ∧
      l.externalId = e.logicalKey ∧ l.chatVersionId = v.id ∧
      ∀ l' ∈ w.links, l'.snapshotId = scope.snapshotId → l'.externalId = e.logicalKey → l' = l := by
  unfold linked at h
  split at h
  case h_1 l only =>
    simp only [and_eq_true, decide_eq_true_eq] at h
    have mem : ∀ l', l' ∈ w.links → l'.snapshotId = scope.snapshotId → l'.externalId = e.logicalKey →
        l' ∈ [l] := by
      intro l' hl' snapshot key
      rw [← only]
      exact mem_filter.mpr ⟨mem_filter.mpr ⟨hl', decide_eq_true snapshot⟩, decide_eq_true key⟩
    have hl : l ∈ (w.rows scope.snapshotId).filter (·.externalId = e.logicalKey) := by
      rw [only]
      exact mem_singleton.mpr rfl
    obtain ⟨hl, key⟩ := mem_filter.mp hl
    obtain ⟨hl, snapshot⟩ := mem_filter.mp hl
    exact ⟨l, hl, of_decide_eq_true snapshot, of_decide_eq_true key, h.1.1.1.1.1.1,
      fun l' hl' snapshot key => mem_singleton.mp (mem l' hl' snapshot key)⟩
  case h_2 => cases h

section

variable (checked : Checked env w i scope s)

include checked

theorem Checked.key_eq (hx : x ∈ s.rows) : x.1.logicalKey = x.2.item.key scope.chatId := by
  have h := checked.identified x hx
  simp only [Catalogue.identified, and_eq_true, decide_eq_true_eq] at h
  exact h.1.2

theorem Checked.link (hx : x ∈ s.rows) :
    ∃ l ∈ w.links, l.fence = scope.fence ∧ l.externalId = x.1.logicalKey ∧
      l.chatVersionId = x.1.versionId := by
  obtain ⟨l, hl, snapshot, key, version, -⟩ := linked_ok (checked.linked x hx)
  have found := (mem_stagedRows.mp (checked.rows ▸ hx)).2
  refine ⟨l, hl, ?_, key, version.trans (version_id found)⟩
  rw [Link.fence, Scope.fence, snapshot, key, checked.key_eq hx]
  rfl

theorem Checked.row (whole : Whole w) (hl : l ∈ w.links)
    (fence : l.fence = scope.fence) : ∃ x ∈ s.rows, x.1.logicalKey = l.externalId ∧
      x.1.versionId = l.chatVersionId := by
  have named : ∀ x ∈ s.rows, ∃ l ∈ w.chatLinks scope.snapshotId scope.chatId,
      l.externalId = x.1.logicalKey := by
    intro x hx
    obtain ⟨l, hl, fence, key, -⟩ := checked.link hx
    exact ⟨l, whole.mem_chatLinks.mpr ⟨hl, fence⟩, key⟩
  obtain ⟨x, hx, same⟩ := exists_key_eq checked.nodup named checked.count.le
    (whole.mem_chatLinks.mpr ⟨hl, fence⟩)
  obtain ⟨own, -, snapshot, -, version, only⟩ := linked_ok (checked.linked x hx)
  have found := (mem_stagedRows.mp (checked.rows ▸ hx)).2
  refine ⟨x, hx, same, ?_⟩
  rw [only l hl (Prod.mk.inj fence).1 same.symm, version, version_id found]

theorem Checked.mem_rows (whole : Whole w)
    (he : e ∈ w.entries) (inventory : e.inventoryId = i.id) : ∃ v, (e, v) ∈ s.rows := by
  obtain ⟨⟨v, found, -⟩, -⟩ := whole.entryOf e he
  exact ⟨v, checked.rows ▸ mem_stagedRows.mpr ⟨World.mem_items.mpr ⟨he, inventory⟩, found⟩⟩

theorem Checked.length_rows (whole : Whole w) : s.rows.length = (w.items i.id).length := by
  rw [checked.rows, stagedRows, length_mergeSort, filterMap_length_eq_length]
  intro e he
  obtain ⟨⟨v, found, -⟩, -⟩ := whole.entryOf e (World.mem_items.mp he).1
  rw [found]
  rfl

theorem Checked.mem_items : m ∈ s.rows.map (·.2.item) ↔ m ∈ w.captured i.id := by
  rw [World.captured, mem_filterMap, mem_map]
  constructor
  · rintro ⟨x, hx, rfl⟩
    obtain ⟨he, found⟩ := mem_stagedRows.mp (checked.rows ▸ hx)
    exact ⟨x.1, he, by rw [found, Option.map_some]⟩
  · rintro ⟨e, he, h⟩
    obtain ⟨v, found, rfl⟩ := Option.map_eq_some_iff.mp h
    exact ⟨(e, v), checked.rows ▸ mem_stagedRows.mpr ⟨he, found⟩, rfl⟩

theorem Checked.covers (whole : complete a s = true) : Covers w scope.chatId (w.captured i.id) := by
  obtain ⟨-, evidence⟩ := and_eq_true_iff.mp whole
  obtain ⟨e, -, h⟩ : ∃ e, a.evidence = some e ∧ _ := by
    cases recorded : a.evidence with
    | none =>
      rw [recorded] at evidence
      cases evidence
    | some e =>
      rw [recorded] at evidence
      exact ⟨e, rfl, evidence⟩
  simp only [Option.any_some, and_eq_true, decide_eq_true_eq, List.isEmpty_iff] at h
  obtain ⟨⟨-, counts⟩, gaps⟩ := h
  have nodup : ((s.rows.map (·.2.item)).map (·.key scope.chatId)).Nodup := by
    have same : (s.rows.map (·.2.item)).map (·.key scope.chatId) = s.rows.map (·.1.logicalKey) := by
      rw [map_map]
      apply map_congr_left
      intro x hx
      exact (checked.key_eq hx).symm
    exact same ▸ checked.nodup
  have covers : Covers w scope.chatId (s.rows.map (·.2.item)) :=
    covers_of_coverage nodup (checked.gaps ▸ gaps)
      (checked.required.symm.trans (counts.trans checked.durable))
  intro m hm k required
  obtain ⟨j, hj, rest⟩ := covers m (checked.mem_items.mpr hm) k required
  exact ⟨j, checked.mem_items.mp hj, rest⟩

end

end

section

variable {w w' : World} {a : Attempt} {i : Inventory} {env : Env} {s : Staged} {l : Link}
  {lease : CaptureLease} {p : Association} {f : Attempt → Attempt}

theorem inactive_of_update (attempts : w'.attempts = updateKey Attempt.id a.id f w.attempts)
    (inactive : ∀ x, ¬ Active (f x).state) : ∀ x ∈ w'.attempts, x.id = a.id → ¬ Active x.state := by
  intro x hx id
  rw [attempts] at hx
  rcases mem_updateKey.mp hx with ⟨-, other⟩ | ⟨y, -, -, rfl⟩
  · exact absurd id other
  · exact inactive y

theorem mem_published (associations : w'.associations = w.associations ++ [p])
    (fence : p.fence = a.scope.fence) (exact : p.coverage = .complete → Exact w' p)
    (retired : ∀ x ∈ w'.attempts, x.id = a.id → ¬ Active x.state) :
    ∀ q ∈ w'.associations, q ∈ w.associations ∨ q.fence = a.scope.fence ∧
      (q.coverage = .complete → Exact w' q) ∧ ∀ x ∈ w'.attempts, x.id = a.id → ¬ Active x.state := by
  intro q hq
  rw [associations] at hq
  rcases mem_append.mp hq with old | new
  · exact .inl old
  · rw [mem_singleton.mp new]
    exact .inr ⟨fence, exact, retired⟩

theorem Identified.of_versions (versions : w'.versions = w.versions) (h : Identified w k version) :
    Identified w' k version :=
  h.mono fun id v known => by rwa [World.version?, versions]

theorem Works.measure (whole : Whole w) (live : Runs w a)
    (attempts : w'.attempts = updateKey Attempt.id a.id f w.attempts) (kept : Kept f)
    (inactive : ∀ x, ¬ Active (f x).state) {k : Uuid} (staged : k = a.stagedInventoryId)
    {g : Inventory → Inventory}
    (inventories : w'.inventories = updateKey Inventory.id k g w.inventories)
    (ids : ∀ i, (g i).id = i.id) (chats : ∀ i, (g i).chatId = i.chatId)
    (settled : ∀ i ∈ w.inventories, i.id = k → (g i).state = .complete → Settled w' (g i))
    (entries : w'.entries = w.entries) (links : w'.links = w.links)
    (versions : w'.versions = w.versions) (objects : w'.objects = w.objects)
    (associations : w'.associations = w.associations ++ [p]) (fence : p.fence = a.scope.fence)
    (exact : p.coverage = .complete → Exact w' p) : Works a w w' := by
  have retired := inactive_of_update attempts inactive
  refine ⟨Acts.measure whole.sound attempts kept staged inventories ids entries links,
    fun x hx id activeX => absurd activeX (retired x hx id), versions, objects, ?_, ?_, ?_, ?_, ?_,
    associations ▸ subset_append_left _ _, mem_published associations fence exact retired⟩
  · intro i hi other
    rw [inventories] at hi
    rcases mem_updateKey.mp hi with ⟨hi, -⟩ | ⟨j, -, same, rfl⟩
    · exact hi
    · exact absurd ((ids j).trans (same.trans staged)) other
  · intro id _
    rw [World.items, World.items, entries]
  · intro e he inventory
    rw [entries] at he
    exact ⟨(whole.entryOf e he).1.of_versions versions, whole.entry_chat live he inventory⟩
  · intro i hi own
    rw [inventories] at hi
    rcases mem_updateKey.mp hi with ⟨-, other⟩ | ⟨j, hj, same, rfl⟩
    · exact absurd (own.trans staged.symm) other
    · exact ⟨(chats j).trans (whole.staged a live.1 live.2 j hj (same.trans staged)), settled j hj same⟩
  · intro l hl writer
    rw [links] at hl
    obtain ⟨identified, chat⟩ := whole.linkOf l hl
    refine ⟨whole.fence_of_writer live hl writer, identified.of_versions versions, chat, .inl ⟨p, ?_, fence⟩⟩
    rw [associations]
    exact mem_append_right _ (mem_singleton.mpr rfl)

theorem Works.replace (whole : Whole w) (live : Runs w a)
    (acts : Acts a w w') (attempts : w'.attempts = updateKey Attempt.id a.id f w.attempts)
    (inactive : ∀ x, ¬ Active (f x).state) {k : Uuid} (staged : k = a.stagedInventoryId)
    (inventories : w'.inventories = w.inventories.filter (·.id ≠ k))
    (entries : w'.entries = w.entries.filter (·.inventoryId ≠ k)) {links : List Link}
    (linked : w'.links = w.links ++ links)
    (own : ∀ l ∈ links, l.fence = a.scope.fence ∧ Identified w l.externalId l.chatVersionId ∧
      l.chatId = l.externalId.chatId)
    (versions : w'.versions = w.versions) (objects : w'.objects = w.objects)
    (associations : w'.associations = w.associations ++ [p]) (fence : p.fence = a.scope.fence)
    (exact : p.coverage = .complete → Exact w' p) : Works a w w' := by
  subst staged
  have retired := inactive_of_update attempts inactive
  have published : ∃ q ∈ w'.associations, q.fence = a.scope.fence := by
    refine ⟨p, ?_, fence⟩
    rw [associations]
    exact mem_append_right _ (mem_singleton.mpr rfl)
  refine ⟨acts, fun x hx id activeX => absurd activeX (retired x hx id), versions, objects, ?_, ?_,
    ?_, ?_, ?_, associations ▸ subset_append_left _ _,
    mem_published associations fence exact retired⟩
  · intro i hi _
    rw [inventories] at hi
    exact (mem_filter.mp hi).1
  · intro id other
    rw [World.items, World.items, entries, filter_filter]
    apply filter_congr
    intro e _
    by_cases same : e.inventoryId = id
    · simp [same, other]
    · simp [same]
  · intro e he inventory
    rw [entries] at he
    exact absurd inventory (of_decide_eq_true (mem_filter.mp he).2)
  · intro i hi own
    rw [inventories] at hi
    exact absurd own (of_decide_eq_true (mem_filter.mp hi).2)
  · intro l hl writer
    rw [linked] at hl
    rcases mem_append.mp hl with hl | hl
    · obtain ⟨identified, chat⟩ := whole.linkOf l hl
      exact ⟨whole.fence_of_writer live hl writer, identified.of_versions versions, chat, .inl published⟩
    · obtain ⟨fence, identified, chat⟩ := own l hl
      exact ⟨fence, identified.of_versions versions, chat, .inl published⟩

theorem sameMembers_iff (h : sameMembers w chosen s = true) :
    ⟨chosen, k, version⟩ ∈ w.entries ↔ ∃ x ∈ s.rows, x.1.logicalKey = k ∧ x.1.versionId = version := by
  obtain ⟨listed, found⟩ := and_eq_true_iff.mp h
  constructor
  · intro he
    have row := all_eq_true.mp listed _ (World.mem_items.mpr ⟨he, rfl⟩)
    simpa using row
  · rintro ⟨x, hx, rfl, rfl⟩
    obtain ⟨e, he, same⟩ := any_eq_true.mp (all_eq_true.mp found x hx)
    obtain ⟨he', rfl⟩ := World.mem_items.mp he
    simp only [and_eq_true, decide_eq_true_eq] at same
    rw [← same.1, ← same.2]
    exact he'

theorem settle_whole (whole : Whole w) (live : Runs w a)
    (hi : i ∈ w.inventories) (staged : i.id = a.stagedInventoryId)
    (checked : Checked env w i a.scope s) (none : w.association? a.scope.fence = none)
    (h : settle w a i s r = .ok w') : Whole w' := by
  have sound := settle_sound whole.sound live staged none h
  have chat := whole.staged a live.1 live.2 i hi staged
  simp only [settle] at h
  split at h
  case isTrue finished =>
    split at h
    case h_1 =>
      cases h
      refine whole.works live (Works.measure whole live rfl (fun _ => ⟨rfl, rfl, rfl⟩)
        (fun _ => id) staged rfl (fun _ => rfl) (fun _ => rfl) ?_ rfl rfl rfl rfl rfl rfl ?_) sound
      · intro j hj same _
        obtain rfl : j = i := inj_on_of_nodup_map whole.sound.inventoryIds hj hi same
        refine ⟨checked.length_rows whole, ?_⟩
        show Covers w j.chatId (w.captured j.id)
        rw [chat]
        exact checked.covers finished
      · intro _
        refine ⟨⟨_, mem_updateKey.mpr (.inr ⟨i, hi, rfl, rfl⟩), rfl, rfl, chat⟩, ?_, ?_⟩
        · intro l hl fence
          obtain ⟨x, hx, key, version⟩ := checked.row whole hl fence
          obtain ⟨he, -⟩ := mem_stagedRows.mp (checked.rows ▸ hx)
          obtain ⟨he, inventory⟩ := World.mem_items.mp he
          rw [← key, ← version]
          exact inventory ▸ he
        · intro e he inventory
          obtain ⟨v, hx⟩ := checked.mem_rows whole he inventory
          exact checked.link hx
    case h_2 chosen reusable =>
      obtain ⟨same, h⟩ := of_failIf h
      cases h
      have members := same
      rw [not_eq_false'] at members
      have hc := mem_of_find?_eq_some reusable
      have matches' := find?_some reusable
      simp only [and_eq_true, decide_eq_true_eq] at matches'
      obtain ⟨⟨⟨⟨⟨⟨-, chosenChat⟩, -⟩, -⟩, -⟩, -⟩, complete⟩ := matches'
      have other : chosen.id ≠ i.id := staged ▸ whole.complete_ne live hc complete
      refine whole.works live (Works.replace whole live (Acts.replace whole.sound rfl
        (fun _ => ⟨rfl, rfl, rfl⟩) staged rfl rfl (append_nil _).symm (by simp) (by simp)
        (by simp)) rfl (fun _ => id) staged rfl rfl (append_nil _).symm (by simp) rfl rfl rfl rfl
        ?_) sound
      intro _
      refine ⟨⟨chosen, mem_filter.mpr ⟨hc, decide_eq_true other⟩, rfl, complete, chosenChat⟩,
        ?_, ?_⟩
      · intro l hl fence
        have row := checked.row whole hl fence
        exact mem_filter.mpr ⟨(sameMembers_iff members).mpr row, decide_eq_true other⟩
      · intro e he inventory
        obtain ⟨he, -⟩ := mem_filter.mp he
        have inventory : e.inventoryId = chosen.id := inventory
        have entry : ⟨chosen.id, e.logicalKey, e.versionId⟩ ∈ w.entries := inventory ▸ he
        obtain ⟨x, hx, key, version⟩ := (sameMembers_iff members).mp entry
        rw [← key, ← version]
        exact checked.link hx
  case isFalse =>
    split at h
    case isTrue empty =>
      cases h
      refine whole.setAttempt live (fun _ => ⟨rfl, rfl, rfl⟩) (fun no => absurd no id) (.inr ?_)
      intro l hl writer
      obtain ⟨-, entry⟩ := whole.sound.written a live.1 live.2 l hl writer
      obtain ⟨v, hx⟩ := checked.mem_rows whole entry staged.symm
      rw [isEmpty_iff.mp empty] at hx
      cases hx
    case isFalse =>
      cases h
      refine whole.works live (Works.measure whole live rfl (fun _ => ⟨rfl, rfl, rfl⟩)
        (fun _ => id) staged rfl (fun _ => rfl) (fun _ => rfl) ?_ rfl rfl rfl rfl rfl rfl ?_) sound
      · intro j _ _ no
        cases no
      · intro no
        cases no

theorem publishInventory_whole (whole : Whole w) (h : publishInventory env w lease r = .ok w') :
    Whole w' := by
  rcases publishInventory_ok h with ⟨rfl, -⟩ | ⟨a, i, s, fenced, -, none, found, staged, h⟩
  · exact whole
  · have live := fence_active fenced
    obtain ⟨hi, id⟩ := mem_of_inventory? found
    exact settle_whole whole live hi id (staged_ok staged) none h

theorem abortCapture_whole (whole : Whole w)
    (h : abortCapture env w lease reason r = .ok w') : Whole w' := by
  obtain ⟨a, fenced, h⟩ := abortCapture_ok h
  have live := fence_active fenced
  have whole₁ : Whole (w.setAttempt a.id fun a => { a with failureReason := some reason }) :=
    whole.setAttempt live (fun _ => ⟨rfl, rfl, rfl⟩) (fun _ => rfl) (.inl live.2)
  exact publishInventory_whole whole₁ h

theorem unchangedLinks_covers
    (entryKeys : (w.entries.map fun e => (e.inventoryId, e.logicalKey)).Nodup)
    (nodup : ((unchangedLinks w a i.id source).map (·.externalId)).Nodup)
    (count : (unchangedLinks w a i.id source).length = (w.items i.id).length)
    (he : e ∈ w.items i.id) : ∃ l ∈ unchangedLinks w a i.id source, l.externalId = e.logicalKey ∧
      l.chatVersionId = e.versionId := by
  have listed : ∀ l ∈ unchangedLinks w a i.id source, ∃ e ∈ w.items i.id,
      e.logicalKey = l.externalId ∧ e.versionId = l.chatVersionId := by
    intro l hl
    obtain ⟨-, -, l₀, -, listed, rfl⟩ := of_mem_unchangedLinks hl
    exact ⟨_, World.mem_items.mpr ⟨World.listed_iff.mp listed, rfl⟩, rfl, rfl⟩
  obtain ⟨l, hl, same⟩ := exists_key_eq nodup
    (fun l hl => (listed l hl).imp fun _ => .imp_right And.left) count.ge he
  obtain ⟨e', he', key, version⟩ := listed l hl
  have : e' = e := inj_on_of_nodup_map (nodup_items entryKeys i.id) he' he (key.trans same)
  exact ⟨l, hl, same, this ▸ version.symm⟩

theorem publishUnchangedInventory_whole (whole : Whole w)
    (empty : w.items lease.stagedInventoryId = [])
    (h : publishUnchangedInventory w lease inventory source evidence r = .ok w') : Whole w' := by
  have sound := publishUnchangedInventory_sound whole.sound h
  rcases publishUnchangedInventory_ok h with
    rfl | ⟨a, i, e, fenced, -, found, complete, chat, fits, count, -, rfl⟩
  · exact whole
  · have live := fence_active fenced
    have own : a.stagedInventoryId = lease.stagedInventoryId := by
      obtain ⟨-, -, -, ⟨no, -⟩ | ⟨-, staged, -⟩⟩ := fence_ok fenced
      · cases no
      · exact staged
    have hi := (mem_of_inventory? found).1
    obtain ⟨written, nodup, apart⟩ := unchangedLinks_fit whole.sound.typed fits
    have counted := count.trans (whole.settled i hi complete).1
    have other : i.id ≠ a.stagedInventoryId := whole.complete_ne live hi complete
    -- the chat has no link yet: it would be the attempt's, which has staged nothing
    have unlinked : ∀ l ∈ w.links, l.fence ≠ a.scope.fence := by
      intro l hl fence
      rcases whole.homed l hl with ⟨q, hq, published⟩ | ⟨x, hx, activeX, fenceX, writer⟩
      · exact whole.unpublished a live.1 live.2 q hq (published.trans fence)
      · have : x = a := whole.sound.eq_of_fence live ⟨hx, activeX⟩ (fenceX.trans fence)
        obtain ⟨-, entry⟩ := whole.sound.written a live.1 live.2 l hl (this ▸ writer)
        have staged := World.mem_items.mpr ⟨entry, rfl⟩
        rw [own, empty] at staged
        cases staged
    have links : ∀ l ∈ unchangedLinks w a i.id source, l.fence = a.scope.fence ∧
        Identified w l.externalId l.chatVersionId ∧ l.chatId = l.externalId.chatId := by
      intro l hl
      obtain ⟨-, -, l₀, hl₀, listed, rfl⟩ := of_mem_unchangedLinks hl
      obtain ⟨identified, same⟩ := whole.linkOf l₀ hl₀
      obtain ⟨-, j, hj, id, chatJ⟩ := whole.entryOf _ (World.listed_iff.mp listed)
      obtain rfl : j = i := inj_on_of_nodup_map whole.sound.inventoryIds hj hi id
      refine ⟨?_, identified, same⟩
      rw [Link.fence, Scope.fence, ← chat, chatJ]
    refine whole.works live (Works.replace whole live (Acts.replace whole.sound rfl
      (fun _ => ⟨rfl, rfl, rfl⟩) rfl rfl rfl rfl written nodup apart) rfl (fun _ => id) rfl rfl
      rfl rfl links rfl rfl rfl rfl ?_) sound
    intro _
    refine ⟨⟨i, mem_filter.mpr ⟨hi, decide_eq_true other⟩, rfl, complete, chat⟩, ?_, ?_⟩
    · intro l hl fence
      rcases mem_append.mp hl with hl | hl
      · exact absurd fence (unlinked l hl)
      · obtain ⟨-, -, l₀, -, listed, rfl⟩ := of_mem_unchangedLinks hl
        exact mem_filter.mpr ⟨World.listed_iff.mp listed, decide_eq_true other⟩
    · intro e he inventory
      have inventory : e.inventoryId = i.id := inventory
      have he := World.mem_items.mpr ⟨(mem_filter.mp he).1, inventory⟩
      obtain ⟨l, hl, key, version⟩ := unchangedLinks_covers whole.sound.entryKeys nodup counted he
      exact ⟨l, mem_append_right _ hl, (links l hl).1, key, version⟩

end

section

variable {w : World} {b : Begin}

theorem supersede_whole (whole : Whole w) : Whole (supersede w b) := by
  cases found : w.previous? b.scope.fence with
  | none =>
    rw [show supersede w b = w by simp only [supersede, found]]
    exact whole
  | some p =>
    by_cases active : Active p.state
    · obtain ⟨hp, fence, -⟩ := previous?_eq_some found
      have snapshot : b.scope.snapshotId = p.scope.snapshotId := (Prod.mk.inj fence).1.symm
      rw [supersede_active found active, snapshot]
      exact whole.unlink ⟨hp, active⟩ (kept_state .superseded) fun _ => id
    · rw [supersede_inactive found active]
      exact whole

theorem beginCapture_whole (whole : Whole w)
    (current : (w.association? b.scope.fence).isSome = true → b.published = true)
    (h : beginCapture w b r = .ok w') : Whole w' := by
  have sound := beginCapture_sound whole.sound h
  obtain ⟨_, -, read⟩ := of_bind h
  obtain ⟨_, -, read⟩ := of_bind read
  obtain ⟨_, published, -⟩ := of_bind read
  have published := failIf_eq_ok.mp published
  obtain ⟨rfl, -, fresh⟩ := beginCapture_ok h
  obtain ⟨-, -, -, -, inventories, -, associations⟩ :=
    supersede_sound (r := r) (b := b) whole.sound
  have whole' : Whole (supersede w b) := supersede_whole whole
  rw [← inventories] at fresh
  have unpublished : ∀ p ∈ w.associations, p.fence ≠ b.scope.fence := by
    intro p hp fence
    have found : (w.association? b.scope.fence).isSome = true := by
      rw [World.association?, find?_isSome]
      exact ⟨p, hp, decide_eq_true fence⟩
    rw [current found] at published
    cases published
  refine ⟨sound, whole'.versionIds, whole'.versionKeys, ?_, ?_, ?_, whole'.linkOf, ?_, ?_, ?_⟩
  · intro x hx active p hp
    rcases mem_append.mp hx with hx | hx
    · exact whole'.unpublished x hx active p hp
    · rw [mem_singleton.mp hx]
      exact unpublished p (associations ▸ hp)
  · intro x hx active i hi staged
    rcases mem_append.mp hx with hx | hx <;> rcases mem_append.mp hi with hi | hi
    · exact whole'.staged x hx active i hi staged
    · obtain ⟨j, hj, id, -⟩ := whole'.sound.staging x hx active
      rw [mem_singleton.mp hi] at staged
      exact absurd (mem_map.mpr ⟨j, hj, id.trans staged.symm⟩) fresh
    · rw [mem_singleton.mp hx] at staged
      exact absurd (mem_map.mpr ⟨i, hi, staged⟩) fresh
    · rw [mem_singleton.mp hx, mem_singleton.mp hi]
      rfl
  · intro e he
    obtain ⟨identified, i, hi, rest⟩ := whole'.entryOf e he
    exact ⟨identified, i, mem_append_left _ hi, rest⟩
  · intro l hl
    rcases whole'.homed l hl with done | ⟨x, hx, rest⟩
    · exact .inl done
    · exact .inr ⟨x, mem_append_left _ hx, rest⟩
  · intro i hi complete
    rcases mem_append.mp hi with hi | hi
    · exact whole'.settled i hi complete
    · rw [mem_singleton.mp hi] at complete
      cases complete
  · intro p hp complete
    obtain ⟨⟨i, hi, rest⟩, listed, linked⟩ := whole'.exact p hp complete
    exact ⟨⟨i, mem_append_left _ hi, rest⟩, listed, linked⟩

end

section

variable {w : World} {env : Env} {op : Op}

/-- What is left to the callers and the moment: a new capture's look-up is up to date, items are copied
within one chat, an unchanged inventory is published by an attempt that staged nothing, and a live
object stays live. -/
def Proper (w : World) (e : Op × Reads) : Prop :=
  match e.1 with
  | .beginCapture b => (w.association? b.scope.fence).isSome = true → b.published = true
  | .copyVersions lease inventory _ _ => ∀ a ∈ w.attempts, a.id = lease.attemptId →
      ∀ i ∈ w.inventories, i.id = inventory → i.chatId = a.scope.chatId
  | .publishUnchangedInventory lease _ _ _ => w.items lease.stagedInventoryId = []
  | .storeObjects objects => ∀ id, (w.object? id).any (·.state = .live) = true →
      (objects.find? (·.id = id)).any (·.state = .live) = true
  | _ => True

theorem Whole.storeObjects (whole : Whole w) {objects : List ChatBlobObject}
    (live : ∀ id, (w.object? id).any (·.state = .live) = true →
      (objects.find? (·.id = id)).any (·.state = .live) = true) :
    Whole { w with objects := objects } := by
  have lasting : ∀ i, durable w i = true → durable { w with objects := objects } i = true := by
    intro i h
    unfold durable at h ⊢
    cases content : i.content with
    | none => simp only [content, false_eq_true] at h
    | some c =>
      simp only [content] at h ⊢
      cases object : c.objectId with
      | none => rfl
      | some id =>
        rw [object] at h
        exact live id h
  refine ⟨whole.sound.of_tables rfl rfl rfl rfl rfl, whole.versionIds, whole.versionKeys,
    whole.unpublished, whole.staged, whole.entryOf, whole.linkOf, whole.homed, ?_, ?_⟩
  · intro i hi complete
    obtain ⟨count, covers⟩ := whole.settled i hi complete
    exact ⟨count, covers.congr lasting⟩
  · intro p hp complete
    obtain ⟨inventory, listed, linked⟩ := whole.exact p hp complete
    exact ⟨inventory, listed, linked⟩

theorem transaction_whole (whole : Whole w) (proper : Proper w (op, r))
    (h : transaction env w op r = .ok w') : Whole w' := by
  cases op with
  | beginCapture b => exact beginCapture_whole whole proper h
  | renewCapture lease seconds => exact renewCapture_whole whole h
  | stageVersions lease items ids => exact stageVersions_whole whole h
  | copyVersions lease inventory source keys => exact copyVersions_whole whole proper h
  | recordCaptureEvidence lease evidence => exact recordCaptureEvidence_whole whole h
  | publishInventory lease => exact publishInventory_whole whole h
  | publishUnchangedInventory lease inventory source evidence =>
    exact publishUnchangedInventory_whole whole proper h
  | suspendCapture lease owned related => exact suspendCapture_whole whole h
  | abortCapture lease reason => exact abortCapture_whole whole h
  | storeObjects objects =>
    cases h
    exact whole.storeObjects proper

theorem step_whole (whole : Whole w) (proper : Proper w e) : Whole (step env w e) := by
  unfold step
  split
  case h_1 w' ran => exact transaction_whole whole proper ran
  case h_2 => exact whole

theorem Whole.empty (layout : Layout) : Whole (World.empty layout) := by
  refine ⟨Sound.empty layout, ?_, ?_, ?_, ?_, ?_, ?_, ?_, ?_, ?_⟩ <;> simp [World.empty]

/-- What a complete publication stands for: the snapshot's links of the chat are the inventory's
items, and the children its messages require are linked and kept. -/
structure Published (w : World) (p : Association) : Prop where
  membership : ∀ k version, (∃ l ∈ w.chatLinks p.snapshotId p.chatId, l.externalId = k ∧
    l.chatVersionId = version) ↔ ⟨p.inventoryId, k, version⟩ ∈ w.entries
  children : ∀ l ∈ w.chatLinks p.snapshotId p.chatId, ∀ v, w.version? l.chatVersionId = some v →
    ∀ k, Requires p.chatId v.item k → ∃ l' ∈ w.chatLinks p.snapshotId p.chatId, ∃ v',
      w.version? l'.chatVersionId = some v' ∧ l'.externalId = k ∧ Preserved w v'.item

theorem Whole.published (whole : Whole w) (hp : p ∈ w.associations)
    (complete : p.coverage = .complete) : Published w p := by
  obtain ⟨⟨i, hi, id, state, chat⟩, listed, linked⟩ := whole.exact p hp complete
  have membership : ∀ k version, (∃ l ∈ w.chatLinks p.snapshotId p.chatId, l.externalId = k ∧
      l.chatVersionId = version) ↔ ⟨p.inventoryId, k, version⟩ ∈ w.entries := by
    intro k version
    constructor
    · rintro ⟨l, hl, rfl, rfl⟩
      obtain ⟨hl, fence⟩ := whole.mem_chatLinks.mp hl
      exact listed l hl fence
    · intro he
      obtain ⟨l, hl, fence, key, version⟩ := linked _ he rfl
      exact ⟨l, whole.mem_chatLinks.mpr ⟨hl, fence⟩, key, version⟩
  refine ⟨membership, ?_⟩
  intro l hl v found k required
  have entry := (membership _ _).mp ⟨l, hl, rfl, rfl⟩
  have captured : v.item ∈ w.captured i.id := by
    rw [World.captured, mem_filterMap]
    exact ⟨_, World.mem_items.mpr ⟨entry, id.symm⟩, by rw [found, Option.map_some]⟩
  obtain ⟨j, hj, key, kept⟩ := (whole.settled i hi state).2 v.item captured k (chat ▸ required)
  obtain ⟨e, he, item⟩ := mem_filterMap.mp hj
  obtain ⟨v', found', rfl⟩ := Option.map_eq_some_iff.mp item
  obtain ⟨entry', inventory⟩ := World.mem_items.mp he
  -- the item's key is the one its entry and its link have
  obtain ⟨⟨v'', known, -, same⟩, i', hi', id', chat'⟩ := whole.entryOf e entry'
  obtain rfl : v'' = v' := Option.mem_unique known found'
  obtain rfl : i' = i :=
    inj_on_of_nodup_map whole.sound.inventoryIds hi' hi (id'.trans inventory)
  obtain ⟨l', hl', fence, external, version⟩ := linked e entry' (inventory.trans id)
  refine ⟨l', whole.mem_chatLinks.mpr ⟨hl', fence⟩, v'', version ▸ found', ?_, kept⟩
  rw [external, ← same, ← chat', key]

/-- Whatever is captured, copied, suspended, aborted and published, properly, a complete publication
is what it stands for. -/
theorem publications_exact (env : Env) (layout : Layout) (events : List (Op × Reads))
    (proper : Concurrency.Along (step env) Proper (World.empty layout) events) :
    ∀ p ∈ (Concurrency.play (step env) (World.empty layout) events).associations,
      p.coverage = .complete →
        Published (Concurrency.play (step env) (World.empty layout) events) p := by
  have whole : Whole (Concurrency.play (step env) (World.empty layout) events) :=
    proper.invariant (fun _ _ whole proper => step_whole whole proper) (Whole.empty layout)
  exact fun p hp complete => whole.published hp complete

/-- A link shows a version of its chat under its own key, and stands under a publication or with the
live attempt that wrote and listed it. -/
def Homed (w : World) (l : Link) : Prop :=
  Identified w l.externalId l.chatVersionId ∧ ((∃ p ∈ w.associations, p.fence = l.fence) ∨
    ∃ a ∈ w.attempts, Active a.state ∧ a.scope.fence = l.fence ∧ l.writer = a.id ∧
      ⟨a.stagedInventoryId, l.externalId, l.chatVersionId⟩ ∈ w.entries)

theorem links_homed (env : Env) (layout : Layout) (events : List (Op × Reads))
    (proper : Concurrency.Along (step env) Proper (World.empty layout) events) :
    let w := Concurrency.play (step env) (World.empty layout) events
    ∀ l ∈ w.links, Homed w l := by
  intro w l hl
  have whole : Whole w := proper.invariant (fun _ _ => step_whole) (Whole.empty layout)
  refine ⟨(whole.linkOf l hl).1, (whole.homed l hl).imp_right ?_⟩
  rintro ⟨a, ha, active, fence, writer⟩
  exact ⟨a, ha, active, fence, writer, (whole.sound.written a ha active l hl writer).2⟩

end

def plainEnv : Env where
  observation := fun _ _ => ""
  sourceHash := fun _ _ _ => "observed"
  representationHash := fun _ => ""
  payloadSize := fun _ => 1
  rank := fun _ => 0

def noOverlay : Layout where
  reuseOf := fun _ => none
  overlayBase := fun _ => none
  removed := fun _ _ => false

def chatOf (snapshot : Uuid) : Scope where
  snapshotId := snapshot
  tenantId := 1
  chatId := "chat"
  principalId := "user"
  permissionScopeHash := "scope"
  backendId := 9

def plainMessage (graphId : String) : CapturedChatItem where
  itemType := .teamsChatMessage
  graphId := graphId
  payload := { expectedChildren := some ⟨true, some []⟩ }

def plainEvidence : CaptureEvidence where
  enumerationComplete := true
  reconciliationComplete := true
  membershipSha256 := "observed"
  reconciliationSha256 := "observed"
  conflictingObservations := 0
  requiredContentCount := 0
  durableContentCount := 0
  unresolvedRequiredCount := 0
  startedAt := 0
  finishedAt := 0

def atOnce (op : Op) : Op × Reads := (op, ⟨0, 0, .ok ()⟩)

def firstCapture : List (Op × Reads) :=
  [atOnce (.beginCapture ⟨chatOf 1, false, none, 1, 10, 20⟩),
    atOnce (.stageVersions ⟨10, 1, 20⟩ [plainMessage "m1"] fun _ => 100),
    atOnce (.recordCaptureEvidence ⟨10, 1, 20⟩ plainEvidence),
    atOnce (.publishInventory ⟨10, 1, 20⟩)]

def stagedThenLinked : List (Op × Reads) :=
  firstCapture ++
    [atOnce (.beginCapture ⟨chatOf 2, false, none, 1, 11, 21⟩),
      atOnce (.stageVersions ⟨11, 1, 21⟩ [plainMessage "m2"] fun _ => 101),
      atOnce (.publishUnchangedInventory ⟨11, 1, 21⟩ 20 1 (some plainEvidence))]

theorem links_homed_staged :
    let w := Concurrency.play (step plainEnv) (World.empty noOverlay) (stagedThenLinked.take 6)
    w.links.length = 2 ∧ ∀ l ∈ w.links, Homed w l := by
  refine ⟨by decide +kernel, links_homed plainEnv noOverlay (stagedThenLinked.take 6)
    ⟨?_, trivial, trivial, trivial, ?_, by trivial⟩⟩ <;>
  exact fun found => absurd found (by decide +kernel)

def racedCapture : List (Op × Reads) :=
  firstCapture ++
    [atOnce (.beginCapture ⟨chatOf 1, false, none, 1, 11, 21⟩),
      atOnce (.stageVersions ⟨11, 2, 21⟩ [plainMessage "m2"] fun _ => 101)]

def stray (w : World) : Bool :=
  w.associations.any fun p => p.coverage = .complete && (w.chatLinks p.snapshotId p.chatId).any
    fun l => !decide (⟨p.inventoryId, l.externalId, l.chatVersionId⟩ ∈ w.entries)

theorem not_published_of_stray (h : stray w = true) :
    ∃ p ∈ w.associations, p.coverage = .complete ∧ ¬ Published w p := by
  obtain ⟨p, hp, h⟩ := any_eq_true.mp h
  obtain ⟨complete, h⟩ := and_eq_true_iff.mp h
  obtain ⟨l, hl, unlisted⟩ := any_eq_true.mp h
  refine ⟨p, hp, of_decide_eq_true complete, fun published => ?_⟩
  rw [not_eq_true', decide_eq_false_iff_not] at unlisted
  exact unlisted ((published.membership _ _).mp ⟨l, hl, rfl, rfl⟩)

/-- Both leave a link beside the published inventory. -/
theorem publication_not_exact :
    (∃ p ∈ (Concurrency.play (step plainEnv) (World.empty noOverlay) stagedThenLinked).associations,
      p.coverage = .complete ∧ ¬ Published
        (Concurrency.play (step plainEnv) (World.empty noOverlay) stagedThenLinked) p) ∧
    ∃ p ∈ (Concurrency.play (step plainEnv) (World.empty noOverlay) racedCapture).associations,
      p.coverage = .complete ∧ ¬ Published
        (Concurrency.play (step plainEnv) (World.empty noOverlay) racedCapture) p :=
  ⟨not_published_of_stray (by decide +kernel), not_published_of_stray (by decide +kernel)⟩

def linkedCapture : List (Op × Reads) :=
  firstCapture ++
    [atOnce (.beginCapture ⟨chatOf 2, false, none, 1, 11, 21⟩),
      atOnce (.publishUnchangedInventory ⟨11, 1, 21⟩ 20 1 (some plainEvidence))]

theorem publications_exact_linked :
    (Concurrency.play (step plainEnv) (World.empty noOverlay) linkedCapture).associations.length = 2 ∧
    ∀ p ∈ (Concurrency.play (step plainEnv) (World.empty noOverlay) linkedCapture).associations,
      p.coverage = .complete →
        Published (Concurrency.play (step plainEnv) (World.empty noOverlay) linkedCapture) p := by
  refine ⟨by decide +kernel, publications_exact plainEnv noOverlay linkedCapture ?_⟩
  refine ⟨?_, trivial, trivial, trivial, ?_, ?_, trivial⟩
  · intro found
    exact absurd found (by decide +kernel)
  · intro found
    exact absurd found (by decide +kernel)
  · show World.items _ _ = []
    decide +kernel

end TmVault.Catalogue
