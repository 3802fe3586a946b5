import TmVault.Catalogue.Publishing
import TmVault.Concurrency.Runs

namespace TmVault.Catalogue

open Store Relational List Except
open Work (CaptureState)

inductive Op
  | beginCapture (b : Begin)
  | renewCapture (lease : CaptureLease) (seconds : Nat)
  | stageVersions (lease : CaptureLease) (items : List CapturedChatItem) (ids : Key → Uuid)
  | copyVersions (lease : CaptureLease) (inventory source : Uuid) (keys : List Key)
  | recordCaptureEvidence (lease : CaptureLease) (evidence : CaptureEvidence)
  | publishInventory (lease : CaptureLease)
  | publishUnchangedInventory (lease : CaptureLease) (inventory source : Uuid)
      (evidence : Option CaptureEvidence)
  | suspendCapture (lease : CaptureLease) (owned : Except Refusal Unit) (related : Bool)
  | abortCapture (lease : CaptureLease) (reason : String)
  | storeObjects (objects : List ChatBlobObject)

def Op.lease? : Op → Option CaptureLease
  | .beginCapture _ | .storeObjects _ => none
  | .renewCapture lease _ | .stageVersions lease _ _ | .copyVersions lease _ _ _
  | .recordCaptureEvidence lease _ | .publishInventory lease
  | .publishUnchangedInventory lease _ _ _ | .suspendCapture lease _ _ | .abortCapture lease _ =>
    some lease

def transaction (env : Env) (w : World) (op : Op) (r : Reads) : Except Refusal World :=
  match op with
  | .beginCapture b => Catalogue.beginCapture w b r
  | .renewCapture lease seconds => Catalogue.renewCapture w lease seconds r
  | .stageVersions lease items ids => Catalogue.stageVersions env w lease items ids r
  | .copyVersions lease inventory source keys =>
    Catalogue.copyVersions w lease inventory source keys r
  | .recordCaptureEvidence lease evidence => Catalogue.recordCaptureEvidence w lease evidence r
  | .publishInventory lease => Catalogue.publishInventory env w lease r
  | .publishUnchangedInventory lease inventory source evidence =>
    Catalogue.publishUnchangedInventory w lease inventory source evidence r
  | .suspendCapture lease owned related => Catalogue.suspendCapture w lease owned related r
  | .abortCapture lease reason => Catalogue.abortCapture env w lease reason r
  | .storeObjects objects => .ok { w with objects := objects }

def step (env : Env) (w : World) (e : Op × Reads) : World :=
  match transaction env w e.1 e.2 with
  | .ok w' => w'
  | .error _ => w

def World.empty (layout : Layout) : World := { layout := layout }

structure Sound (w : World) : Prop where
  attemptIds : (w.attempts.map (·.id)).Nodup
  inventoryIds : (w.inventories.map (·.id)).Nodup
  associationKeys : (w.associations.map (·.fence)).Nodup
  latest : ∀ a ∈ w.attempts, Active a.state → ∀ b ∈ w.attempts, b.scope.fence = a.scope.fence →
    b = a ∨ b.generation < a.generation
  staging : ∀ a ∈ w.attempts, Active a.state → ∃ i ∈ w.inventories, i.id = a.stagedInventoryId ∧
    i.captureAttemptId = a.id ∧ i.state = .staging
  held : ∀ e ∈ w.entries, e.inventoryId ∈ w.inventories.map (·.id)
  entryKeys : (w.entries.map fun e => (e.inventoryId, e.logicalKey)).Nodup
  writers : ∀ l ∈ w.links, l.writer ∈ w.attempts.map (·.id)
  typed : ∀ l ∈ w.links, l.itemType = l.externalId.itemType
  keyed : ∀ l ∈ w.links, ∀ l' ∈ w.links, l.snapshotId = l'.snapshotId →
    l.externalId = l'.externalId → l = l'
  written : ∀ a ∈ w.attempts, Active a.state → ∀ l ∈ w.links, l.writer = a.id →
    l.snapshotId = a.scope.snapshotId ∧
      ⟨a.stagedInventoryId, l.externalId, l.chatVersionId⟩ ∈ w.entries
  covered : ∀ a ∈ w.attempts, Active a.state → ∀ e ∈ w.entries,
    e.inventoryId = a.stagedInventoryId → ∃ l ∈ w.links, l.writer = a.id ∧
      l.snapshotId = a.scope.snapshotId ∧ l.externalId = e.logicalKey ∧ l.chatVersionId = e.versionId

theorem Sound.empty (layout : Layout) : Sound (World.empty layout) := by
  constructor <;> simp [World.empty]

variable {w w' : World} {a b : Attempt} {l : Link} {env : Env} {lease : CaptureLease} {r : Reads}
  {f : Attempt → Attempt} {inventory source : Uuid} {links : List Link} {keys : List Key}
  {evidence : Option CaptureEvidence} {items : List CapturedChatItem} {owned : Except Refusal Unit}
  {entries : List Entry}

theorem Sound.eq_of_id (sound : Sound w) (ha : a ∈ w.attempts) (hb : b ∈ w.attempts)
    (h : a.id = b.id) : a = b :=
  inj_on_of_nodup_map sound.attemptIds ha hb h

def Runs (w : World) (a : Attempt) : Prop := a ∈ w.attempts ∧ Active a.state

theorem Sound.eq_of_fence (sound : Sound w) (live : Runs w a) (liveB : Runs w b)
    (fence : b.scope.fence = a.scope.fence) : b = a := by
  rcases sound.latest a live.1 live.2 b liveB.1 fence with same | older
  · exact same
  · rcases sound.latest b liveB.1 liveB.2 a live.1 fence.symm with same | older'
    · exact same.symm
    · omega

theorem mem_of_attempt? {id : Uuid} (h : w.attempt? id = some a) : a ∈ w.attempts ∧ a.id = id :=
  ⟨mem_of_find?_eq_some h, of_find? h⟩

theorem mem_of_inventory? {id : Uuid} {i : Inventory} (h : w.inventory? id = some i) :
    i ∈ w.inventories ∧ i.id = id :=
  ⟨mem_of_find?_eq_some h, of_find? h⟩

theorem Sound.staged_ne (sound : Sound w) (live : Runs w a) (liveB : Runs w b) (h : b.id ≠ a.id) :
    b.stagedInventoryId ≠ a.stagedInventoryId := by
  obtain ⟨i, hi, idA, ownerA, -⟩ := sound.staging a live.1 live.2
  obtain ⟨j, hj, idB, ownerB, -⟩ := sound.staging b liveB.1 liveB.2
  intro same
  have : j = i := inj_on_of_nodup_map sound.inventoryIds hj hi (by rw [idA, idB, same])
  rw [← ownerA, ← ownerB, this] at h
  exact h rfl

theorem Sound.wrote_iff (sound : Sound w) (live : Runs w a)
    (hl : l ∈ w.links) : l.writer = a.id ↔ l.snapshotId = a.scope.snapshotId ∧
      ⟨a.stagedInventoryId, l.externalId, l.chatVersionId⟩ ∈ w.entries := by
  constructor
  · exact sound.written a live.1 live.2 l hl
  · rintro ⟨snapshot, entry⟩
    obtain ⟨own, hown, writer, snapshot', key, -⟩ := sound.covered a live.1 live.2 _ entry rfl
    rw [sound.keyed l hl own hown (snapshot.trans snapshot'.symm) key.symm]
    exact writer

theorem fence_ok (h : fence w lease r t = .ok a) : a ∈ w.attempts ∧
    a.id = lease.attemptId ∧ a.generation = lease.generation ∧
    (t = true ∧ Terminal a.state ∨
      Active a.state ∧ a.stagedInventoryId = lease.stagedInventoryId ∧ r.now < a.expiresAt) := by
  obtain ⟨a', found, h⟩ := of_orFail h
  obtain ⟨ha, id⟩ := mem_of_attempt? found
  obtain ⟨generation, h⟩ := of_failIf h
  have generation : a'.generation = lease.generation := by simpa using generation
  split at h
  case isTrue terminal =>
    cases h
    have terminal : t = true ∧ Terminal a.state := by simpa using terminal
    exact ⟨ha, id, generation, .inl terminal⟩
  case isFalse =>
    obtain ⟨live, h⟩ := of_failIf h
    obtain ⟨_, _, _, _, h⟩ := of_bind₂ h
    cases h
    simp only [Bool.or_eq_false_iff, decide_eq_false_iff_not, not_not, not_le] at live
    exact ⟨ha, id, generation, .inr ⟨live.1.1, live.1.2, live.2⟩⟩

theorem fence_active (h : fence w lease r = .ok a) : Runs w a := by
  obtain ⟨ha, -, -, ⟨no, -⟩ | ⟨active, -⟩⟩ := fence_ok h
  · cases no
  · exact ⟨ha, active⟩

theorem checkExpiry_ok (h : checkExpiry a r = .ok u) : r.late < a.expiresAt :=
  not_le.mp (of_decide_eq_false (failIf_eq_ok.mp h))

theorem fence_of_active (h : fence w lease r t = .ok a) (active : ¬ Terminal a.state) :
    fence w lease r = .ok a := by
  obtain ⟨a', found, _, generation, h⟩ := of_bind₂ h
  refine bind_eq_ok.mpr ⟨a', found, bind_eq_ok.mpr ⟨_, generation, ?_⟩⟩
  split at h
  case isTrue terminal =>
    cases h
    simp [active] at terminal
  case isFalse => exact h

theorem renewCapture_ok (h : renewCapture w lease seconds r = .ok w') :
    ∃ a, fence w lease r = .ok a ∧
      w' = w.setAttempt a.id fun a => { a with expiresAt := r.late + Work.seconds seconds } := by
  obtain ⟨_, -, a, fenced, h⟩ := of_bind₂ h
  exact ⟨a, fenced, (ok.inj h).symm⟩

theorem recordCaptureEvidence_ok {evidence : CaptureEvidence}
    (h : recordCaptureEvidence w lease evidence r = .ok w') : ∃ a, fence w lease r = .ok a ∧
      w' = w.setAttempt a.id fun a => { a with evidence := some evidence, state := .verifying } := by
  obtain ⟨a, fenced, _, -, _, -, h⟩ := of_bind₃ h
  exact ⟨a, fenced, (ok.inj h).symm⟩

theorem suspendCapture_ok
    (h : suspendCapture w lease owned related r = .ok w') : ∃ a, fence w lease r = .ok a ∧
      w' = (w.unlink a.scope.snapshotId a.stagedInventoryId).setAttempt a.id fun a =>
        { a with state := .superseded, failureReason := some "provider_deferred" } := by
  obtain ⟨_, -, a, fenced, _, -, h⟩ := of_bind₃ h
  exact ⟨a, fenced, (ok.inj h).symm⟩

theorem stageVersions_ok (h : stageVersions env w lease items ids r = .ok w') :
    ∃ a batch, fence w lease r = .ok a ∧ r.late < a.expiresAt ∧
      keyed a.scope items [] = .ok batch ∧ objects w a.scope items = .ok () ∧
      (w' = w ∨ ∃ w₂, ((missing w a.scope ids batch).map (·.id)).Nodup ∧
        (∀ v ∈ missing w a.scope ids batch, w.version? v.id = none) ∧
        batch.foldlM (stageOne env a (items ++ w.captured a.stagedInventoryId))
          { w with versions := w.versions ++ missing w a.scope ids batch } = .ok w₂ ∧
        w' = w₂.setAttempt a.id fun a => { a with state := .enumerating }) := by
  obtain ⟨_, -, a, fenced, _, -, h⟩ := of_bind₃ h
  obtain ⟨batch, keyed, _, checked, _, late, h⟩ := of_bind₃ h
  refine ⟨a, batch, fenced, checkExpiry_ok late, keyed, checked, ?_⟩
  split at h
  · exact .inl (ok.inj h).symm
  · obtain ⟨fresh, h⟩ := of_failIf h
    obtain ⟨w₂, staged, _, -, h⟩ := of_bind₂ h
    rw [Bool.or_eq_false_iff] at fresh
    refine .inr ⟨w₂, not_not.mp (of_decide_eq_false fresh.1), ?_, staged, (ok.inj h).symm⟩
    intro v hv
    simpa using any_eq_false.mp fresh.2 v hv

theorem publishInventory_ok (h : publishInventory env w lease r = .ok w') :
    (w' = w ∧ ∃ a ∈ w.attempts, a.id = lease.attemptId ∧ Terminal a.state) ∨
    ∃ a i s, fence w lease r = .ok a ∧ r.late < a.expiresAt ∧
      w.association? a.scope.fence = none ∧ w.inventory? a.stagedInventoryId = some i ∧
      staged env w i a.scope = .ok s ∧ settle w a i s r = .ok w' := by
  obtain ⟨a, fenced, h⟩ := of_bind h
  obtain ⟨ha, id, -⟩ := fence_ok fenced
  split at h
  case h_1 =>
    obtain ⟨terminal, h⟩ := of_failIf h
    rw [Bool.or_eq_false_iff] at terminal
    exact .inl ⟨(ok.inj h).symm, a, ha, id, not_not.mp (of_decide_eq_false terminal.2)⟩
  case h_2 none =>
    obtain ⟨terminal, h⟩ := of_failIf h
    obtain ⟨i, found, h⟩ := of_orFail h
    obtain ⟨_, -, s, staged, _, late, h⟩ := of_bind₃ h
    obtain ⟨_, -, h⟩ := of_bind h
    have terminal : ¬ Terminal a.state := of_decide_eq_false terminal
    exact .inr ⟨a, i, s, fence_of_active fenced terminal, checkExpiry_ok late, none, found, staged, h⟩

theorem publishUnchangedInventory_ok
    (h : publishUnchangedInventory w lease inventory source evidence r = .ok w') : w' = w ∨
    ∃ a i e, fence w lease r = .ok a ∧ r.late < a.expiresAt ∧ w.inventory? inventory = some i ∧
      i.state = .complete ∧ i.chatId = a.scope.chatId ∧
      w.fits (unchangedLinks w a i.id source) = true ∧
      (unchangedLinks w a i.id source).length = i.itemCount ∧
      w.association? a.scope.fence = none ∧
      w' = { (({ w with links := w.links ++ unchangedLinks w a i.id source }.deleteInventory
          a.stagedInventoryId).setAttempt a.id fun a => { a with
            evidence := some e, reusedInventory := true, stagedInventoryId := i.id
            state := .published }) with
        associations := w.associations ++
          [association a i.id .complete none e.startedAt e.finishedAt] } := by
  obtain ⟨a, fenced, h⟩ := of_bind h
  split at h
  case h_2 => exact .inl (ok.inj h).symm
  case h_1 e i found _ =>
    split at h
    · exact .inl (ok.inj h).symm
    case isFalse fit =>
    obtain ⟨fits, h⟩ := of_failIf h
    split at h
    · exact .inl (ok.inj h).symm
    case isFalse count =>
    obtain ⟨unpublished, h⟩ := of_failIf h
    obtain ⟨_, late, h⟩ := of_bind h
    rw [Bool.not_eq_false'] at fits
    simp only [not_or, not_not] at fit
    exact .inr ⟨a, i, e, fenced, checkExpiry_ok late, found, fit.1, fit.2.2.1, fits, not_not.mp count,
      by simpa using unpublished, (ok.inj h).symm⟩

theorem abortCapture_ok (h : abortCapture env w lease reason r = .ok w') :
    ∃ a, fence w lease r = .ok a ∧ publishInventory env
      (w.setAttempt a.id fun a => { a with failureReason := some reason }) lease r = .ok w' := by
  obtain ⟨_, -, h⟩ := of_bind h
  exact of_bind h

def Kept (f : Attempt → Attempt) : Prop :=
  ∀ x, (f x).id = x.id ∧ (f x).scope = x.scope ∧ (f x).generation = x.generation

structure Acts (a : Attempt) (w w' : World) : Prop where
  attempts : ∃ f, Kept f ∧ w'.attempts = updateKey Attempt.id a.id f w.attempts
  inventoryIds : (w'.inventories.map (·.id)).Sublist (w.inventories.map (·.id))
  inventories : ∀ i ∈ w.inventories, i.id ≠ a.stagedInventoryId → i ∈ w'.inventories
  entries : ∀ e, e.inventoryId ≠ a.stagedInventoryId → (e ∈ w'.entries ↔ e ∈ w.entries)
  held : ∀ e ∈ w'.entries, e.inventoryId = a.stagedInventoryId →
    e.inventoryId ∈ w'.inventories.map (·.id)
  entryKeys : (w'.entries.map fun e => (e.inventoryId, e.logicalKey)).Nodup
  links : ∀ l, l.writer ≠ a.id → (l ∈ w'.links ↔ l ∈ w.links)
  typed : ∀ l ∈ w'.links, l.itemType = l.externalId.itemType
  keyed : ∀ l ∈ w'.links, ∀ l' ∈ w'.links, l.snapshotId = l'.snapshotId →
    l.externalId = l'.externalId → l = l'

structure Owns (w : World) (a : Attempt) : Prop where
  staging : ∃ i ∈ w.inventories, i.id = a.stagedInventoryId ∧ i.captureAttemptId = a.id ∧
    i.state = .staging
  written : ∀ l ∈ w.links, l.writer = a.id → l.snapshotId = a.scope.snapshotId ∧
    ⟨a.stagedInventoryId, l.externalId, l.chatVersionId⟩ ∈ w.entries
  covered : ∀ e ∈ w.entries, e.inventoryId = a.stagedInventoryId → ∃ l ∈ w.links, l.writer = a.id ∧
    l.snapshotId = a.scope.snapshotId ∧ l.externalId = e.logicalKey ∧ l.chatVersionId = e.versionId

theorem Sound.owns (sound : Sound w) (live : Runs w a) : Owns w a :=
  ⟨sound.staging a live.1 live.2, sound.written a live.1 live.2, sound.covered a live.1 live.2⟩

theorem Acts.owns (acts : Acts a w w') (sound : Sound w) (live : Runs w a)
    (hb : b ∈ w.attempts) (activeB : Active b.state) (ne : b.id ≠ a.id) : Owns w' b := by
  have apart := sound.staged_ne live ⟨hb, activeB⟩ ne
  obtain ⟨i, hi, id, owner, state⟩ := sound.staging b hb activeB
  refine ⟨⟨i, acts.inventories i hi (id ▸ apart), id, owner, state⟩, ?_, ?_⟩
  · intro l hl writer
    have hl := (acts.links l (writer ▸ ne)).mp hl
    obtain ⟨snapshot, entry⟩ := sound.written b hb activeB l hl writer
    exact ⟨snapshot, (acts.entries _ apart).mpr entry⟩
  · intro e he inventory
    have he := (acts.entries e (inventory ▸ apart)).mp he
    obtain ⟨l, hl, writer, rest⟩ := sound.covered b hb activeB e he inventory
    exact ⟨l, (acts.links l (writer ▸ ne)).mpr hl, writer, rest⟩

/-- Each row comes from one with the same id, pair and generation, active before if it still is. -/
theorem Acts.origin {x : Attempt} (acts : Acts a w w') (sound : Sound w) (live : Runs w a)
    (hx : x ∈ w'.attempts) : ∃ y ∈ w.attempts, x.id = y.id ∧ x.scope = y.scope ∧
      x.generation = y.generation ∧ (Active x.state → Active y.state) ∧ (x.id ≠ a.id → x = y) := by
  obtain ⟨f, kept, attempts⟩ := acts.attempts
  rw [attempts, updateKey, mem_map] at hx
  obtain ⟨y, hy, rfl⟩ := hx
  by_cases own : y.id = a.id
  · obtain ⟨id, scope, generation⟩ := kept y
    rw [if_pos own]
    refine ⟨y, hy, id, scope, generation, fun _ => ?_, fun other => absurd (id.trans own) other⟩
    rw [sound.eq_of_id hy live.1 own]
    exact live.2
  · rw [if_neg own]
    exact ⟨y, hy, rfl, rfl, rfl, id, fun _ => rfl⟩

section

variable (sound : Sound w)

include sound

theorem Sound.acts (live : Runs w a)
    (acts : Acts a w w') (associationKeys : (w'.associations.map (·.fence)).Nodup)
    (own : ∀ a' ∈ w'.attempts, a'.id = a.id → Active a'.state → Owns w' a') : Sound w' := by
  obtain ⟨f, kept, attempts⟩ := acts.attempts
  have ids : w'.attempts.map (·.id) = w.attempts.map (·.id) := by
    rw [attempts]
    exact map_updateKey fun x _ => (kept x).1
  have distinct : (w'.attempts.map (·.id)).Nodup := ids ▸ sound.attemptIds
  have owns : ∀ x ∈ w'.attempts, Active x.state → Owns w' x := by
    intro x hx activeX
    by_cases same : x.id = a.id
    · exact own x hx same activeX
    · obtain ⟨y, hy, -, -, -, -, eq⟩ := acts.origin sound live hx
      obtain rfl := eq same
      exact acts.owns sound live hy activeX same
  refine ⟨distinct, sound.inventoryIds.sublist acts.inventoryIds, associationKeys,
    ?_, fun x hx h => (owns x hx h).staging, ?_, acts.entryKeys, ?_, acts.typed, acts.keyed,
    fun x hx h => (owns x hx h).written, fun x hx h => (owns x hx h).covered⟩
  · intro x hx activeX y hy fences
    obtain ⟨x₀, hx₀, idX, scopeX, generationX, wasActive, -⟩ := acts.origin sound live hx
    obtain ⟨y₀, hy₀, idY, scopeY, generationY, -⟩ := acts.origin sound live hy
    rw [scopeX, scopeY] at fences
    rcases sound.latest x₀ hx₀ (wasActive activeX) y₀ hy₀ fences with rfl | older
    · exact .inl (inj_on_of_nodup_map distinct hy hx (idY.trans idX.symm))
    · exact .inr (by omega)
  · intro e he
    by_cases own : e.inventoryId = a.stagedInventoryId
    · exact acts.held e he own
    · obtain ⟨i, hi, id⟩ := mem_map.mp (sound.held e ((acts.entries e own).mp he))
      exact mem_map.mpr ⟨i, acts.inventories i hi (id ▸ own), id⟩
  · intro l hl
    rw [ids]
    by_cases own : l.writer = a.id
    · rw [own]
      exact mem_map_of_mem live.1
    · exact sound.writers l ((acts.links l own).mp hl)

theorem Sound.of_tables (attempts : w'.attempts = w.attempts)
    (inventories : w'.inventories = w.inventories) (entries : w'.entries = w.entries)
    (links : w'.links = w.links) (associations : w'.associations = w.associations) : Sound w' := by
  obtain ⟨h₁, h₂, h₃, h₄, h₅, h₆, h₇, h₈, h₉, h₁₀, h₁₁, h₁₂⟩ := sound
  constructor <;> simp only [attempts, inventories, entries, links, associations] <;> assumption

theorem Acts.setAttempt (kept : Kept f) : Acts a w (w.setAttempt a.id f) :=
  ⟨⟨f, kept, rfl⟩, List.Sublist.refl _, fun _ hi _ => hi, fun _ _ => Iff.rfl,
    fun e he _ => sound.held e he, sound.entryKeys, fun _ _ => Iff.rfl, sound.typed, sound.keyed⟩

theorem Sound.mem_setAttempt (ha : a ∈ w.attempts)
    (kept : Kept f) (hb : b ∈ (w.setAttempt a.id f).attempts) (id : b.id = a.id) : b = f a := by
  rcases mem_updateKey.mp hb with ⟨-, other⟩ | ⟨y, hy, same, rfl⟩
  · exact absurd id other
  · rw [sound.eq_of_id hy ha ((kept y).1.symm.trans id)]

theorem Sound.setAttempt (live : Runs w a) (kept : Kept f)
    (staged : Active (f a).state → (f a).stagedInventoryId = a.stagedInventoryId) :
    Sound (w.setAttempt a.id f) := by
  refine sound.acts live (Acts.setAttempt sound kept) sound.associationKeys ?_
  intro x hx id activeX
  obtain rfl := sound.mem_setAttempt live.1 kept hx id
  obtain ⟨hid, hscope, -⟩ := kept a
  obtain ⟨staging, written, covered⟩ := sound.owns live
  constructor
  · rw [staged activeX, hid]
    exact staging
  · rw [staged activeX, hid, hscope]
    exact written
  · rw [staged activeX, hid, hscope]
    exact covered

theorem Sound.staged_mem (live : Runs w a) : a.stagedInventoryId ∈ w.inventories.map (·.id) := by
  obtain ⟨i, hi, id, -⟩ := sound.staging a live.1 live.2
  exact mem_map.mpr ⟨i, hi, id⟩

end

structure Appends (a : Attempt) (w : World) (entries : List Entry) (links : List Link) : Prop where
  staged : ∀ e ∈ entries, e.inventoryId = a.stagedInventoryId
  fresh : ((w.entries ++ entries).map fun e => (e.inventoryId, e.logicalKey)).Nodup
  own : ∀ l ∈ links, l.writer = a.id ∧ l.snapshotId = a.scope.snapshotId ∧
    l.itemType = l.externalId.itemType ∧
    ⟨a.stagedInventoryId, l.externalId, l.chatVersionId⟩ ∈ w.entries ++ entries
  keyed : ∀ l ∈ links, ∀ l' ∈ links, l.externalId = l'.externalId → l = l'
  apart : ∀ l ∈ links, ∀ l' ∈ w.links, l'.snapshotId = l.snapshotId → l'.externalId ≠ l.externalId
  linked : ∀ e ∈ entries, ∃ l ∈ links, l.externalId = e.logicalKey ∧ l.chatVersionId = e.versionId

def World.append (w : World) (entries : List Entry) (links : List Link) : World :=
  { w with entries := w.entries ++ entries, links := w.links ++ links }

section

variable (sound : Sound w) (live : Runs w a) (new : Appends a w entries links)

include sound live new

theorem Acts.append : Acts a w (w.append entries links) := by
  refine ⟨⟨id, fun x => ⟨rfl, rfl, rfl⟩, ?_⟩, List.Sublist.refl _, fun i hi _ => hi, ?_, ?_,
    new.fresh, ?_, ?_, ?_⟩
  · simp [updateKey, World.append]
  · intro e other
    exact mem_append.trans (or_iff_left fun he => other (new.staged e he))
  · intro e _ inventory
    rw [inventory]
    exact sound.staged_mem live
  · intro l other
    exact mem_append.trans (or_iff_left fun hl => other (new.own l hl).1)
  · exact forall_mem_append.mpr ⟨sound.typed, fun l hl => (new.own l hl).2.2.1⟩
  · intro l hl l' hl' snapshot key
    rcases mem_append.mp hl with hl | hl <;> rcases mem_append.mp hl' with hl' | hl'
    · exact sound.keyed l hl l' hl' snapshot key
    · exact absurd key (new.apart l' hl' l hl snapshot)
    · exact absurd key.symm (new.apart l hl l' hl' snapshot.symm)
    · exact new.keyed l hl l' hl' key

theorem Sound.append : Sound (w.append entries links) := by
  refine sound.acts live (Acts.append sound live new) sound.associationKeys ?_
  intro x hx same _
  obtain rfl := sound.eq_of_id hx live.1 same
  refine ⟨sound.staging x hx live.2, ?_, ?_⟩
  · intro l hl writer
    rcases mem_append.mp hl with hl | hl
    · obtain ⟨snapshot, entry⟩ := sound.written x hx live.2 l hl writer
      exact ⟨snapshot, mem_append_left _ entry⟩
    · exact ⟨(new.own l hl).2.1, (new.own l hl).2.2.2⟩
  · intro e he inventory
    rcases mem_append.mp he with he | he
    · obtain ⟨l, hl, rest⟩ := sound.covered x hx live.2 e he inventory
      exact ⟨l, mem_append_left _ hl, rest⟩
    · obtain ⟨l, hl, key, version⟩ := new.linked e he
      exact ⟨l, mem_append_right _ hl, (new.own l hl).1, (new.own l hl).2.1, key, version⟩

end

theorem find?_items_eq_none (h : (w.items inventory).find? (·.logicalKey = key) = none) :
    (inventory, key) ∉ w.entries.map fun e => (e.inventoryId, e.logicalKey) := by
  intro used
  obtain ⟨e, he, same⟩ := mem_map.mp used
  cases same
  have := find?_eq_none.mp h e (World.mem_items.mpr ⟨he, rfl⟩)
  simp at this

theorem Sound.writer_of_staged (sound : Sound w) (live : Runs w a)
    (he : e ∈ w.items a.stagedInventoryId) (hl : l ∈ w.links)
    (snapshot : l.snapshotId = a.scope.snapshotId) (key : l.externalId = e.logicalKey) :
    l.writer = a.id := by
  obtain ⟨he, inventory⟩ := World.mem_items.mp he
  obtain ⟨own, hown, writer, snapshot', key', -⟩ := sound.covered a live.1 live.2 e he inventory
  rw [sound.keyed l hl own hown (snapshot.trans snapshot'.symm) (key.trans key'.symm)]
  exact writer

def Link.reparent (p : Link → Prop) [DecidablePred p] (parent : Parent) (l : Link) : Link :=
  if p l then { l with parentExternalId := parent } else l

theorem Link.reparent_same (p : Link → Prop) [DecidablePred p] (parent : Parent) (l : Link) :
    (l.reparent p parent).snapshotId = l.snapshotId ∧
      (l.reparent p parent).externalId = l.externalId ∧
      (l.reparent p parent).itemType = l.itemType ∧
      (l.reparent p parent).chatVersionId = l.chatVersionId ∧
      (l.reparent p parent).chatId = l.chatId ∧ (l.reparent p parent).writer = l.writer := by
  by_cases h : p l
  · simp only [Link.reparent, if_pos h, and_self]
  · simp only [Link.reparent, if_neg h, and_self]

theorem Acts.reparent (sound : Sound w) {p : Link → Prop} [DecidablePred p] (parent : Parent)
    (own : ∀ l ∈ w.links, p l → l.writer = a.id) :
    Acts a w { w with links := w.links.map (·.reparent p parent) } := by
  refine ⟨⟨id, fun x => ⟨rfl, rfl, rfl⟩, by simp [updateKey]⟩, List.Sublist.refl _,
    fun i hi _ => hi, fun _ _ => Iff.rfl, fun e he _ => sound.held e he, sound.entryKeys, ?_, ?_, ?_⟩
  · intro l other
    constructor
    · intro hl
      obtain ⟨l₀, hl₀, rfl⟩ := mem_map.mp hl
      by_cases h : p l₀
      · exact absurd ((Link.reparent_same p parent l₀).2.2.2.2.2.trans (own l₀ hl₀ h)) other
      · rw [Link.reparent, if_neg h]
        exact hl₀
    · intro hl
      exact mem_map.mpr ⟨l, hl, if_neg fun h => other (own l hl h)⟩
  · intro l hl
    obtain ⟨l₀, hl₀, rfl⟩ := mem_map.mp hl
    exact (Link.reparent_same p parent l₀).2.2.1.trans
      ((sound.typed l₀ hl₀).trans (congrArg _ (Link.reparent_same p parent l₀).2.1.symm))
  · intro l hl l' hl' snapshot key
    obtain ⟨l₀, hl₀, rfl⟩ := mem_map.mp hl
    obtain ⟨l₁, hl₁, rfl⟩ := mem_map.mp hl'
    have : l₀ = l₁ := sound.keyed l₀ hl₀ l₁ hl₁
      ((Link.reparent_same p parent l₀).1.symm.trans (snapshot.trans (Link.reparent_same p parent l₁).1))
      ((Link.reparent_same p parent l₀).2.1.symm.trans (key.trans (Link.reparent_same p parent l₁).2.1))
    rw [this]

theorem Sound.reparent (sound : Sound w) (live : Runs w a)
    {p : Link → Prop} [DecidablePred p] (parent : Parent)
    (own : ∀ l ∈ w.links, p l → l.writer = a.id) :
    Sound { w with links := w.links.map (·.reparent p parent) } := by
  refine sound.acts live (Acts.reparent sound parent own) sound.associationKeys ?_
  intro x hx id _
  obtain rfl := sound.eq_of_id hx live.1 id
  refine ⟨sound.staging x hx live.2, ?_, ?_⟩
  · intro l hl writer
    obtain ⟨l₀, hl₀, rfl⟩ := mem_map.mp hl
    obtain ⟨snapshot, key, -, version, -, writer'⟩ := Link.reparent_same p parent l₀
    obtain ⟨snapshot₀, entry⟩ := sound.written x hx live.2 l₀ hl₀ (writer'.symm.trans writer)
    refine ⟨snapshot.trans snapshot₀, ?_⟩
    show ⟨_, (l₀.reparent p parent).externalId, (l₀.reparent p parent).chatVersionId⟩ ∈ w.entries
    rw [key, version]
    exact entry
  · intro e he inventory
    obtain ⟨l, hl, writer, snapshot, key, version⟩ := sound.covered x hx live.2 e he inventory
    obtain ⟨snapshot', key', -, version', -, writer'⟩ := Link.reparent_same p parent l
    exact ⟨l.reparent p parent, mem_map_of_mem hl, writer'.trans writer, snapshot'.trans snapshot,
      key'.trans key, version'.trans version⟩

theorem stageOne_ok (sound : Sound w) (live : Runs w a) (h : stageOne env a known w item = .ok w') :
    ∃ v parent, w.versionOf? a.scope item = some v ∧
      ((∀ l ∈ w.links, l.snapshotId = a.scope.snapshotId ∧ l.externalId = item.key a.scope.chatId →
          l.writer = a.id) ∧
        w' = { w with links := w.links.map (·.reparent (fun l =>
          l.snapshotId = a.scope.snapshotId ∧ l.externalId = item.key a.scope.chatId) parent) } ∨
      Appends a w [⟨a.stagedInventoryId, item.key a.scope.chatId, v.id⟩] [link env a item v parent] ∧
        w' = w.append [⟨a.stagedInventoryId, item.key a.scope.chatId, v.id⟩]
          [link env a item v parent]) := by
  obtain ⟨v, version, h⟩ := of_orFail h
  obtain ⟨_, -, _, -, h⟩ := of_bind₂ h
  obtain ⟨agree, h⟩ := of_failIf h
  obtain ⟨parent, -, h⟩ := of_bind h
  refine ⟨v, parent, version, ?_⟩
  cases found : (w.items a.stagedInventoryId).find? (·.logicalKey = item.key a.scope.chatId) with
  | some e =>
    rw [found, Option.isSome_some, if_pos rfl] at h
    cases h
    have key : e.logicalKey = item.key a.scope.chatId := of_find? found
    refine .inl ⟨?_, rfl⟩
    rintro l hl ⟨snapshot, external⟩
    exact sound.writer_of_staged live (mem_of_find?_eq_some found) hl snapshot
      (external.trans key.symm)
  | none =>
    rw [found, Option.isSome_none, if_neg Bool.false_ne_true] at h
    cases h
    rw [found] at agree
    have unlinked : (w.rows a.scope.snapshotId).find?
        (·.externalId = item.key a.scope.chatId) = none := by
      simpa using agree
    refine .inr ⟨⟨?_, ?_, ?_, ?_, ?_, ?_⟩, rfl⟩
    · intro e he
      rw [mem_singleton.mp he]
    · exact nodup_snoc sound.entryKeys (find?_items_eq_none found)
    · intro l hl
      rw [mem_singleton.mp hl]
      exact ⟨rfl, rfl, rfl, mem_append_right _ (mem_singleton.mpr rfl)⟩
    · intro l hl l' hl' _
      rw [mem_singleton.mp hl, mem_singleton.mp hl']
    · intro l hl l' hl' snapshot key
      rw [mem_singleton.mp hl] at snapshot key
      have shown : l' ∈ w.rows a.scope.snapshotId :=
        mem_filter.mpr ⟨hl', decide_eq_true snapshot⟩
      exact find?_eq_none.mp unlinked l' shown (decide_eq_true key)
    · intro e he
      rw [mem_singleton.mp he]
      exact ⟨_, mem_singleton.mpr rfl, rfl, rfl⟩

theorem stageOne_sound (sound : Sound w)
    (live : Runs w a) (h : stageOne env a known w item = .ok w') :
    Sound w' ∧ w'.attempts = w.attempts := by
  obtain ⟨v, parent, -, ⟨own, rfl⟩ | ⟨new, rfl⟩⟩ := stageOne_ok sound live h
  · exact ⟨sound.reparent live parent own, rfl⟩
  · exact ⟨sound.append live new, rfl⟩

theorem kept_state (state : CaptureState) : Kept fun a => { a with state := state } :=
  fun _ => ⟨rfl, rfl, rfl⟩

theorem stageVersions_sound (sound : Sound w)
    (h : stageVersions env w lease items ids r = .ok w') : Sound w' := by
  obtain ⟨a, batch, fenced, -, -, -, rfl | ⟨w₂, -, -, staged, rfl⟩⟩ := stageVersions_ok h
  · exact sound
  have live := fence_active fenced
  have start : Sound { w with versions := w.versions ++ missing w a.scope ids batch } :=
    sound.of_tables rfl rfl rfl rfl rfl
  -- each key leaves the attempt rows alone, so the attempt stays the one that was fenced
  obtain ⟨sound₂, attempts⟩ := foldlM_ok
    (fun (s : World) _ => Sound s ∧ s.attempts = w.attempts)
    (fun {s s' _ _} inv one => by
      obtain ⟨sound', same⟩ := stageOne_sound inv.1 ⟨inv.2 ▸ live.1, live.2⟩ one
      exact ⟨sound', same.trans inv.2⟩) ⟨start, rfl⟩ staged
  exact sound₂.setAttempt ⟨attempts ▸ live.1, live.2⟩ (kept_state _) fun _ => rfl

theorem fits_ok (fits : w.fits links = true) (typed : ∀ l ∈ w.links,
    l.itemType = l.externalId.itemType) (types : ∀ l ∈ links, l.itemType = l.externalId.itemType)
    (snapshot : ∀ l ∈ links, l.snapshotId = a.scope.snapshotId) :
    (links.map (·.externalId)).Nodup ∧ ∀ l ∈ links, ∀ l' ∈ w.links,
      l'.snapshotId = l.snapshotId → l'.externalId ≠ l.externalId := by
  rw [World.fits, Bool.and_eq_true, decide_eq_true_eq] at fits
  constructor
  · have same : (links.map fun l => (l.snapshotId, l.externalId, l.itemType)) =
        (links.map (·.externalId)).map fun k => (a.scope.snapshotId, k, k.itemType) := by
      rw [map_map]
      apply map_congr_left
      intro l hl
      simp only [Function.comp_apply, snapshot l hl, types l hl]
    exact (same ▸ fits.1).of_map _
  · intro l hl l' hl' snapshot key
    have apart := all_eq_true.mp (all_eq_true.mp fits.2 l hl) l' hl'
    have type : l'.itemType = l.itemType := by rw [typed l' hl', types l hl, key]
    simp [snapshot, key, type] at apart

theorem of_mem_copiedLinks
    (h : l ∈ copiedLinks w a source keys) : l.writer = a.id ∧ l.snapshotId = a.scope.snapshotId ∧
      (∃ e ∈ (w.items a.stagedInventoryId).filter (·.logicalKey ∈ keys),
        l.externalId = e.logicalKey ∧ l.chatVersionId = e.versionId) ∧
      ∃ l₀ ∈ w.links, l.itemType = l₀.itemType ∧ l.externalId = l₀.externalId ∧
        l.chatVersionId = l₀.chatVersionId ∧ l.chatId = l₀.chatId := by
  obtain ⟨e, he, hl⟩ := mem_flatMap.mp h
  obtain ⟨l₀, hl₀, rfl⟩ := mem_map.mp hl
  obtain ⟨shown, same⟩ := mem_filter.mp hl₀
  simp only [Bool.and_eq_true, decide_eq_true_eq] at same
  exact ⟨rfl, rfl, ⟨e, he, same⟩, l₀, World.mem_effective shown, rfl, rfl, rfl, rfl⟩

theorem nodup_items (sound : (w.entries.map fun e => (e.inventoryId, e.logicalKey)).Nodup)
    (inventory : Uuid) : ((w.items inventory).map (·.logicalKey)).Nodup := by
  have nodup := sound.sublist ((filter_sublist (p := (·.inventoryId = inventory))).map
    fun e : Entry => (e.inventoryId, e.logicalKey))
  have same : ((w.items inventory).map fun e => (e.inventoryId, e.logicalKey)) =
      ((w.items inventory).map (·.logicalKey)).map fun k => (inventory, k) := by
    rw [map_map]
    apply map_congr_left
    intro e he
    simp only [Function.comp_apply, (World.mem_items.mp he).2]
  exact (same ▸ nodup).of_map _

theorem copiedLinks_covers
    (entryKeys : (w.entries.map fun e => (e.inventoryId, e.logicalKey)).Nodup)
    (nodup : ((copiedLinks w a source keys).map (·.externalId)).Nodup)
    (count : (copiedLinks w a source keys).length = keys.length)
    (he : e ∈ w.items a.stagedInventoryId) (key : e.logicalKey ∈ keys) :
    ∃ l ∈ copiedLinks w a source keys, l.externalId = e.logicalKey ∧
      l.chatVersionId = e.versionId := by
  let named := (w.items a.stagedInventoryId).filter (·.logicalKey ∈ keys)
  have distinct : (named.map (·.logicalKey)).Nodup :=
    (nodup_items entryKeys _).sublist (filter_sublist.map _)
  have few : named.length ≤ keys.length := by
    have sub : named.map (·.logicalKey) ⊆ keys := by
      intro k hk
      obtain ⟨e, he, rfl⟩ := mem_map.mp hk
      simpa using (mem_filter.mp he).2
    simpa using (List.Nodup.subperm distinct sub).length_le
  have sub : ∀ l ∈ copiedLinks w a source keys, ∃ e ∈ named, e.logicalKey = l.externalId := by
    intro l hl
    obtain ⟨-, -, ⟨e, he, same, -⟩, -⟩ := of_mem_copiedLinks hl
    exact ⟨e, he, same.symm⟩
  have he : e ∈ named := mem_filter.mpr ⟨he, by simpa using key⟩
  obtain ⟨l, hl, same⟩ := exists_key_eq nodup sub (few.trans count.ge) he
  obtain ⟨-, -, ⟨e', he', key', version⟩, -⟩ := of_mem_copiedLinks hl
  have : e' = e := inj_on_of_nodup_map distinct he' he (key'.symm.trans same)
  exact ⟨l, hl, same, this ▸ version⟩

def copiedEntries (w : World) (a : Attempt) (inventory : Uuid) (keys : List Key) : List Entry :=
  ((w.items inventory).filter (·.logicalKey ∈ keys)).map fun e =>
    { e with inventoryId := a.stagedInventoryId }

section

variable (sound : Sound w)

include sound

section

variable (h : copyVersions w lease inventory source keys r = .ok w')

include h

theorem copyVersions_ok : w' = w ∨
    ∃ a links, fence w lease r = .ok a ∧ r.late < a.expiresAt ∧
      (∀ l ∈ links, l ∈ copiedLinks
        { w with entries := w.entries ++ copiedEntries w a inventory keys } a source keys) ∧
      Appends a w (copiedEntries w a inventory keys) links ∧
      w' = (w.append (copiedEntries w a inventory keys) links).setAttempt a.id
        fun a => { a with state := .enumerating } := by
  obtain ⟨a, fenced, _, -, _, late, h⟩ := of_bind₃ h
  obtain ⟨fresh, h⟩ := of_failIf h
  obtain ⟨fits, h⟩ := of_failIf h
  split at h
  · cases h
    exact .inl rfl
  case isFalse counts =>
    obtain ⟨-, count⟩ := not_or.mp counts
    obtain ⟨_, -, h⟩ := of_bind h
    cases h
    rw [Bool.not_eq_false'] at fits
    rw [← copiedEntries] at fresh fits count
    set entries := copiedEntries w a inventory keys with hentries
    set w₁ : World := { w with entries := w.entries ++ entries } with hw₁
    set links := copiedLinks w₁ a source keys with hlinks
    have staged : ∀ e ∈ entries, e.inventoryId = a.stagedInventoryId ∧ e.logicalKey ∈ keys := by
      intro e he
      obtain ⟨e₀, he₀, rfl⟩ := mem_map.mp he
      exact ⟨rfl, by simpa using (mem_filter.mp he₀).2⟩
    have types : ∀ l ∈ links, l.itemType = l.externalId.itemType := by
      intro l hl
      obtain ⟨-, -, -, l₀, hl₀, type, key, -⟩ := of_mem_copiedLinks hl
      rw [type, key]
      exact sound.typed l₀ hl₀
    obtain ⟨nodup, apart⟩ := fits_ok fits sound.typed types
      fun l hl => (of_mem_copiedLinks hl).2.1
    have distinct : (entries.map (·.logicalKey)).Nodup := by
      rw [hentries, copiedEntries, map_map]
      exact (nodup_items sound.entryKeys inventory).sublist (filter_sublist.map _)
    have entryKeys : ((w.entries ++ entries).map fun e => (e.inventoryId, e.logicalKey)).Nodup := by
      rw [map_append]
      refine sound.entryKeys.append ?_ ?_
      · exact List.Nodup.of_map Prod.snd (by rw [map_map]; exact distinct)
      · rintro k hk hk'
        obtain ⟨e, he, rfl⟩ := mem_map.mp hk
        obtain ⟨e', he', same⟩ := mem_map.mp hk'
        obtain ⟨inventory', key⟩ := Prod.mk.inj same
        have used : e ∈ w.items a.stagedInventoryId :=
          World.mem_items.mpr ⟨he, inventory'.symm.trans (staged e' he').1⟩
        exact any_eq_false.mp fresh e' he'
          (any_eq_true.mpr ⟨e, used, decide_eq_true key.symm⟩)
    refine .inr ⟨a, links, fenced, checkExpiry_ok late, fun l hl => hl,
      ⟨fun e he => (staged e he).1, entryKeys, ?_, ?_,
      apart, ?_⟩, rfl⟩
    · intro l hl
      obtain ⟨writer, snapshot, ⟨e, he, key, version⟩, -⟩ := of_mem_copiedLinks hl
      obtain ⟨he, inventory'⟩ := World.mem_items.mp (mem_filter.mp he).1
      refine ⟨writer, snapshot, types l hl, ?_⟩
      rw [key, version, ← inventory']
      exact he
    · intro l hl l' hl' same
      exact inj_on_of_nodup_map nodup hl hl' same
    · intro e he
      have he₁ : e ∈ w₁.items a.stagedInventoryId :=
        World.mem_items.mpr ⟨mem_append_right _ he, (staged e he).1⟩
      exact copiedLinks_covers entryKeys nodup (not_not.mp count) he₁ (staged e he).2

theorem copyVersions_sound : Sound w' := by
  rcases copyVersions_ok sound h with rfl | ⟨a, links, fenced, -, -, new, rfl⟩
  · exact sound
  · have live := fence_active fenced
    exact (sound.append live new).setAttempt live (kept_state _) fun _ => rfl

end

theorem renewCapture_sound (h : renewCapture w lease seconds r = .ok w') : Sound w' := by
  obtain ⟨a, fenced, rfl⟩ := renewCapture_ok h
  have live := fence_active fenced
  exact sound.setAttempt live (fun _ => ⟨rfl, rfl, rfl⟩) fun _ => rfl

theorem recordCaptureEvidence_sound {evidence : CaptureEvidence}
    (h : recordCaptureEvidence w lease evidence r = .ok w') : Sound w' := by
  obtain ⟨a, fenced, rfl⟩ := recordCaptureEvidence_ok h
  have live := fence_active fenced
  exact sound.setAttempt live (fun _ => ⟨rfl, rfl, rfl⟩) fun _ => rfl

theorem Sound.retire (live : Runs w a)
    (acts : Acts a w w') (associationKeys : (w'.associations.map (·.fence)).Nodup)
    (attempts : w'.attempts = updateKey Attempt.id a.id f w.attempts)
    (inactive : ∀ x, ¬ Active (f x).state) : Sound w' := by
  refine sound.acts live acts associationKeys ?_
  intro x hx id activeX
  rw [attempts] at hx
  rcases mem_updateKey.mp hx with ⟨-, other⟩ | ⟨y, -, -, rfl⟩
  · exact absurd id other
  · exact absurd activeX (inactive y)

theorem Acts.unlink (live : Runs w a) (kept : Kept f) :
    Acts a w ((w.unlink a.scope.snapshotId a.stagedInventoryId).setAttempt a.id f) := by
  have sub : ∀ l, l ∈ (w.unlink a.scope.snapshotId a.stagedInventoryId).links → l ∈ w.links :=
    fun l hl => (World.mem_unlink.mp hl).1
  refine ⟨⟨f, kept, rfl⟩, List.Sublist.refl _, fun i hi _ => hi, fun _ _ => Iff.rfl,
    fun e he _ => sound.held e he, sound.entryKeys, ?_, fun l hl => sound.typed l (sub l hl),
    fun l hl l' hl' => sound.keyed l (sub l hl) l' (sub l' hl')⟩
  intro l other
  constructor
  · exact sub l
  · intro hl
    exact World.mem_unlink.mpr ⟨hl, fun listed => other ((sound.wrote_iff live hl).mpr listed)⟩

theorem suspendCapture_sound (h : suspendCapture w lease owned related r = .ok w') : Sound w' := by
  obtain ⟨a, fenced, rfl⟩ := suspendCapture_ok h
  have live := fence_active fenced
  exact sound.retire live (Acts.unlink sound live fun _ => ⟨rfl, rfl, rfl⟩)
    sound.associationKeys rfl fun _ => id

section

variable (attempts : w'.attempts = updateKey Attempt.id a.id f w.attempts) (kept : Kept f)
  (staged : k = a.stagedInventoryId)

include attempts kept staged

theorem Acts.measure (inventories : w'.inventories = updateKey Inventory.id k g w.inventories)
    (ids : ∀ i, (g i).id = i.id) (entries : w'.entries = w.entries) (links : w'.links = w.links) :
    Acts a w w' := by
  subst staged
  have same : w'.inventories.map (·.id) = w.inventories.map (·.id) := by
    rw [inventories]
    exact map_updateKey fun i _ => ids i
  refine ⟨⟨f, kept, attempts⟩, same ▸ List.Sublist.refl _, ?_, fun _ _ => entries ▸ Iff.rfl, ?_,
    entries ▸ sound.entryKeys, fun _ _ => links ▸ Iff.rfl, links ▸ sound.typed, links ▸ sound.keyed⟩
  · intro i hi other
    rw [inventories]
    exact mem_updateKey.mpr (.inl ⟨hi, other⟩)
  · intro e he _
    rw [same]
    exact sound.held e (entries ▸ he)

theorem Acts.replace (inventories : w'.inventories = w.inventories.filter (·.id ≠ k))
    (entries : w'.entries = w.entries.filter (·.inventoryId ≠ k)) (linked : w'.links = w.links ++ links)
    (own : ∀ l ∈ links, l.writer = a.id ∧ l.itemType = l.externalId.itemType)
    (keys : (links.map (·.externalId)).Nodup)
    (apart : ∀ l ∈ links, ∀ l' ∈ w.links, l'.snapshotId = l.snapshotId → l'.externalId ≠ l.externalId) :
    Acts a w w' := by
  subst staged
  refine ⟨⟨f, kept, attempts⟩, inventories ▸ filter_sublist.map _, ?_, ?_, ?_, ?_, ?_, ?_, ?_⟩
  · intro i hi other
    rw [inventories]
    exact mem_filter.mpr ⟨hi, decide_eq_true other⟩
  · intro e other
    rw [entries, mem_filter]
    exact ⟨And.left, fun he => ⟨he, decide_eq_true other⟩⟩
  · intro e he own
    rw [entries] at he
    exact absurd own (of_decide_eq_true (mem_filter.mp he).2)
  · rw [entries]
    exact sound.entryKeys.sublist (filter_sublist.map _)
  · intro l other
    rw [linked, mem_append]
    exact or_iff_left fun hl => other (own l hl).1
  · rw [linked]
    exact forall_mem_append.mpr ⟨sound.typed, fun l hl => (own l hl).2⟩
  · intro l hl l' hl' snapshot key
    rw [linked] at hl hl'
    rcases mem_append.mp hl with hl | hl <;> rcases mem_append.mp hl' with hl' | hl'
    · exact sound.keyed l hl l' hl' snapshot key
    · exact absurd key (apart l' hl' l hl snapshot)
    · exact absurd key.symm (apart l hl l' hl' snapshot.symm)
    · exact inj_on_of_nodup_map keys hl hl' key

end

theorem Sound.publish {p : Association} (none : w.association? p.fence = none) :
    ((w.associations ++ [p]).map (·.fence)).Nodup := by
  refine nodup_snoc sound.associationKeys ?_
  intro used
  obtain ⟨q, hq, same⟩ := mem_map.mp used
  exact find?_eq_none.mp none q hq (decide_eq_true same)

theorem settle_sound (live : Runs w a) (staged : i.id = a.stagedInventoryId)
    (none : w.association? a.scope.fence = none) (h : settle w a i s r = .ok w') : Sound w' := by
  simp only [settle] at h
  split at h
  case isTrue =>
    split at h
    case h_1 =>
      cases h
      exact sound.retire live (Acts.measure sound rfl (fun _ => ⟨rfl, rfl, rfl⟩)
        staged rfl (fun _ => rfl) rfl rfl) (sound.publish none) rfl fun _ => id
    case h_2 chosen _ =>
      obtain ⟨_, -, h⟩ := of_bind h
      cases h
      exact sound.retire live (Acts.replace sound rfl (fun _ => ⟨rfl, rfl, rfl⟩)
        staged rfl rfl (append_nil _).symm (by simp) (by simp) (by simp))
        (sound.publish none) rfl fun _ => id
  case isFalse =>
    split at h
    · cases h
      exact sound.setAttempt live (fun _ => ⟨rfl, rfl, rfl⟩) fun _ => rfl
    · cases h
      exact sound.retire live (Acts.measure sound rfl (fun _ => ⟨rfl, rfl, rfl⟩)
        staged rfl (fun _ => rfl) rfl rfl) (sound.publish none) rfl fun _ => id

theorem publishInventory_sound (h : publishInventory env w lease r = .ok w') : Sound w' := by
  rcases publishInventory_ok h with ⟨rfl, -⟩ | ⟨a, i, s, fenced, -, none, found, -, h⟩
  · exact sound
  · have live := fence_active fenced
    exact settle_sound sound live (mem_of_inventory? found).2 none h

end

theorem of_mem_unchangedLinks (h : l ∈ unchangedLinks w a inventory source) : l.writer = a.id ∧
      l.snapshotId = a.scope.snapshotId ∧ ∃ l₀ ∈ w.links, w.listed inventory l₀ = true ∧
        l = { l₀ with snapshotId := a.scope.snapshotId, folderPath := a.folderPath, writer := a.id } := by
  obtain ⟨l₀, hl₀, rfl⟩ := mem_map.mp h
  obtain ⟨shown, listed⟩ := mem_filter.mp hl₀
  exact ⟨rfl, rfl, l₀, World.mem_effective shown, listed, rfl⟩

theorem unchangedLinks_fit (typed : ∀ l ∈ w.links, l.itemType = l.externalId.itemType)
    (fits : w.fits (unchangedLinks w a inventory source) = true) :
    (∀ l ∈ unchangedLinks w a inventory source, l.writer = a.id ∧
      l.itemType = l.externalId.itemType) ∧
    ((unchangedLinks w a inventory source).map (·.externalId)).Nodup ∧
    ∀ l ∈ unchangedLinks w a inventory source, ∀ l' ∈ w.links, l'.snapshotId = l.snapshotId →
      l'.externalId ≠ l.externalId := by
  have types : ∀ l ∈ unchangedLinks w a inventory source, l.itemType = l.externalId.itemType := by
    intro l hl
    obtain ⟨-, -, l₀, hl₀, -, rfl⟩ := of_mem_unchangedLinks hl
    exact typed l₀ hl₀
  exact ⟨fun l hl => ⟨(of_mem_unchangedLinks hl).1, types l hl⟩,
    fits_ok fits typed types fun l hl => (of_mem_unchangedLinks hl).2.1⟩

theorem publishUnchangedInventory_sound
    (sound : Sound w) (h : publishUnchangedInventory w lease inventory source evidence r = .ok w') :
    Sound w' := by
  rcases publishUnchangedInventory_ok h with
    rfl | ⟨a, i, e, fenced, -, -, -, -, fits, -, unpublished, rfl⟩
  · exact sound
  · have live := fence_active fenced
    obtain ⟨own, nodup, apart⟩ := unchangedLinks_fit sound.typed fits
    exact sound.retire live (Acts.replace sound rfl (fun _ => ⟨rfl, rfl, rfl⟩) rfl rfl rfl rfl
      own nodup apart) (sound.publish unpublished) rfl fun _ => id

theorem abortCapture_sound (sound : Sound w)
    (h : abortCapture env w lease reason r = .ok w') : Sound w' := by
  obtain ⟨a, fenced, h⟩ := abortCapture_ok h
  have live := fence_active fenced
  have sound₁ : Sound (w.setAttempt a.id fun a => { a with failureReason := some reason }) :=
    sound.setAttempt live (fun _ => ⟨rfl, rfl, rfl⟩) fun _ => rfl
  exact publishInventory_sound sound₁ h

variable {b : Begin} {p : Attempt}

theorem previous?_eq_some (h : w.previous? b.scope.fence = some p) : p ∈ w.attempts ∧
    p.scope.fence = b.scope.fence ∧
    ∀ a ∈ w.attempts, a.scope.fence = b.scope.fence → a.generation ≤ p.generation := by
  obtain ⟨hp, fence⟩ := mem_filter.mp (orderByFirst_mem h)
  refine ⟨hp, of_decide_eq_true fence, ?_⟩
  intro a ha same
  have first := orderByFirst_first (by simp; omega) (by simp; omega) h a
    (mem_filter.mpr ⟨ha, decide_eq_true same⟩)
  simpa using first

theorem previous?_eq_none (h : w.previous? b.scope.fence = none) :
    ∀ a ∈ w.attempts, a.scope.fence ≠ b.scope.fence := by
  intro a ha same
  have some : a ∈ w.attempts.filter (·.scope.fence = b.scope.fence) :=
    mem_filter.mpr ⟨ha, decide_eq_true same⟩
  rw [orderByFirst_eq_none h] at some
  cases some

theorem Sound.previous (sound : Sound w) (live : Runs w a)
    (fence : a.scope.fence = b.scope.fence) : w.previous? b.scope.fence = some a := by
  cases found : w.previous? b.scope.fence with
  | none => exact absurd fence (previous?_eq_none found a live.1)
  | some p =>
    obtain ⟨hp, same, first⟩ := previous?_eq_some found
    rcases sound.latest a live.1 live.2 p hp (same.trans fence.symm) with rfl | older
    · rfl
    · exact absurd (first a live.1 fence) (by omega)

theorem supersede_active (h : w.previous? b.scope.fence = some p) (active : Active p.state) :
    supersede w b = (w.setAttempt p.id fun a => { a with state := .superseded }).unlink
      b.scope.snapshotId p.stagedInventoryId := by
  simp only [supersede, h, if_pos active]

theorem supersede_inactive (h : w.previous? b.scope.fence = some p) (inactive : ¬ Active p.state) :
    supersede w b = w := by
  simp only [supersede, h, if_neg inactive]

theorem supersede_sound (sound : Sound w) : Sound (supersede w b) ∧
    (∀ a ∈ (supersede w b).attempts, a.scope.fence = b.scope.fence → ¬ Active a.state) ∧
    (supersede w b).attempts.map (·.id) = w.attempts.map (·.id) ∧
    (∀ a ∈ (supersede w b).attempts, a.scope.fence = b.scope.fence →
      a.generation < (b.attempt w r.now).generation) ∧
    (supersede w b).inventories = w.inventories ∧ (supersede w b).entries = w.entries ∧
    (supersede w b).associations = w.associations := by
  cases found : w.previous? b.scope.fence with
  | none =>
    have none := previous?_eq_none found
    rw [supersede, found]
    exact ⟨sound, fun a ha same => absurd same (none a ha), rfl,
      fun a ha same => absurd same (none a ha), rfl, rfl, rfl⟩
  | some p =>
    obtain ⟨hp, fence, first⟩ := previous?_eq_some found
    have generation : (b.attempt w r.now).generation = p.generation + 1 := by
      simp only [Begin.attempt, found, Option.map_some, Option.getD_some]
    rw [generation]
    by_cases active : Active p.state
    · rw [supersede_active found active]
      have snapshot : b.scope.snapshotId = p.scope.snapshotId := (Prod.mk.inj fence).1.symm
      have acts : Acts p w (((w.setAttempt p.id fun a => { a with state := .superseded }).unlink
          b.scope.snapshotId p.stagedInventoryId)) := by
        rw [snapshot]
        exact Acts.unlink sound ⟨hp, active⟩ (kept_state .superseded)
      refine ⟨sound.retire ⟨hp, active⟩ acts sound.associationKeys rfl fun _ => id, ?_, ?_, ?_, rfl, rfl,
        rfl⟩
      · intro a ha same activeA
        rcases mem_updateKey.mp ha with ⟨ha, other⟩ | ⟨y, -, -, rfl⟩
        · rcases sound.latest a ha activeA p hp (fence.trans same.symm) with rfl | older
          · exact other rfl
          · exact absurd (first a ha same) (by omega)
        · exact activeA
      · exact map_updateKey fun _ _ => rfl
      · intro a ha same
        rcases mem_updateKey.mp ha with ⟨ha, -⟩ | ⟨y, hy, -, rfl⟩
        · exact Nat.lt_succ_of_le (first a ha same)
        · exact Nat.lt_succ_of_le (first y hy same)
    · rw [supersede_inactive found active]
      refine ⟨sound, ?_, rfl, fun a ha same => Nat.lt_succ_of_le (first a ha same), rfl, rfl, rfl⟩
      intro a ha same activeA
      have := sound.previous ⟨ha, activeA⟩ same
      rw [found] at this
      cases this
      exact active activeA

theorem beginCapture_ok (h : beginCapture w b r = .ok w') : w' = { supersede w b with
      attempts := (supersede w b).attempts ++ [b.attempt w r.now]
      inventories := (supersede w b).inventories ++ [b.inventory] } ∧
    b.attemptId ∉ w.attempts.map (·.id) ∧ b.inventoryId ∉ w.inventories.map (·.id) := by
  obtain ⟨_, -, _, -, _, -, h⟩ := of_bind₃ h
  obtain ⟨_, -, h⟩ := of_bind h
  obtain ⟨fresh, h⟩ := of_failIf h
  cases h
  rw [Bool.or_eq_false_iff] at fresh
  exact ⟨rfl, of_decide_eq_false fresh.1, of_decide_eq_false fresh.2⟩

theorem beginCapture_sound (sound : Sound w) (h : beginCapture w b r = .ok w') : Sound w' := by
  obtain ⟨rfl, freshAttempt, freshInventory⟩ := beginCapture_ok h
  obtain ⟨sound', retired, ids, older, inventories, entries, -⟩ := supersede_sound (r := r) (b := b) sound
  rw [← ids] at freshAttempt
  rw [← inventories] at freshInventory
  set v := supersede w b with hv
  have split : ∀ x ∈ v.attempts ++ [b.attempt w r.now], x ∈ v.attempts ∨ x = b.attempt w r.now := by
    intro x hx
    rcases mem_append.mp hx with hx | hx
    · exact .inl hx
    · exact .inr (mem_singleton.mp hx)
  refine ⟨?_, ?_, sound'.associationKeys, ?_, ?_, ?_, sound'.entryKeys, ?_, sound'.typed,
    sound'.keyed, ?_, ?_⟩
  · exact nodup_snoc sound'.attemptIds freshAttempt
  · exact nodup_snoc sound'.inventoryIds freshInventory
  · intro x hx active y hy same
    rcases split x hx with hx | rfl <;> rcases split y hy with hy | rfl
    · exact sound'.latest x hx active y hy same
    · exact absurd active (retired x hx same.symm)
    · exact .inr (older y hy same)
    · exact .inl rfl
  · intro x hx active
    rcases split x hx with hx | rfl
    · obtain ⟨i, hi, rest⟩ := sound'.staging x hx active
      exact ⟨i, mem_append_left _ hi, rest⟩
    · exact ⟨b.inventory, mem_append_right _ (mem_singleton.mpr rfl), rfl, rfl, rfl⟩
  · intro e he
    rw [map_append]
    exact mem_append_left _ (sound'.held e he)
  · intro l hl
    rw [map_append]
    exact mem_append_left _ (sound'.writers l hl)
  · intro x hx active l hl writer
    rcases split x hx with hx | rfl
    · exact sound'.written x hx active l hl writer
    · have writer : l.writer = b.attemptId := writer
      exact absurd (writer ▸ sound'.writers l hl) freshAttempt
  · intro x hx active e he inventory
    rcases split x hx with hx | rfl
    · exact sound'.covered x hx active e he inventory
    · have inventory : e.inventoryId = b.inventoryId := inventory
      exact absurd (inventory ▸ sound'.held e he) freshInventory

theorem mem_links_beginCapture (sound : Sound w) (h : beginCapture w b r = .ok w') :
    l ∈ w'.links ↔ l ∈ w.links ∧ ∀ a ∈ w.attempts, a.scope.fence = b.scope.fence →
      Active a.state → l.writer ≠ a.id := by
  obtain ⟨rfl, -, -⟩ := beginCapture_ok h
  show l ∈ (supersede w b).links ↔ _
  cases found : w.previous? b.scope.fence with
  | none =>
    rw [show supersede w b = w by simp only [supersede, found]]
    exact ⟨fun hl => ⟨hl, fun a ha same => absurd same (previous?_eq_none found a ha)⟩, And.left⟩
  | some p =>
    obtain ⟨hp, fence, -⟩ := previous?_eq_some found
    by_cases active : Active p.state
    · have snapshot : b.scope.snapshotId = p.scope.snapshotId := (Prod.mk.inj fence).1.symm
      rw [supersede_active found active, snapshot]
      constructor
      · intro hl
        obtain ⟨hl, kept⟩ := World.mem_unlink.mp hl
        refine ⟨hl, fun a ha same activeA writer => kept ?_⟩
        have : a = p := by
          have := sound.previous ⟨ha, activeA⟩ same
          rw [found] at this
          exact (Option.some.inj this).symm
        subst this
        exact (sound.wrote_iff ⟨ha, activeA⟩ hl).mp writer
      · rintro ⟨hl, kept⟩
        refine World.mem_unlink.mpr ⟨hl, fun listed => ?_⟩
        exact kept p hp fence active ((sound.wrote_iff ⟨hp, active⟩ hl).mpr listed)
    · rw [supersede_inactive found active]
      refine ⟨fun hl => ⟨hl, fun a ha same activeA => ?_⟩, And.left⟩
      have := sound.previous ⟨ha, activeA⟩ same
      rw [found] at this
      cases this
      exact absurd activeA active

end TmVault.Catalogue
