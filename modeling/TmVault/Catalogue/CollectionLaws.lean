import TmVault.Catalogue.Effects
import TmVault.Catalogue.Publications

namespace TmVault.Catalogue

open Store Relational List

structure Orderly (s : Shelf) : Prop where
  attemptIds : (s.world.attempts.map (·.id)).Nodup
  objectIds : (s.world.objects.map (·.id)).Nodup
  owners : ∀ o ∈ s.world.objects, ∀ a ∈ o.captureAttemptId, a ∈ s.world.attempts.map (·.id)
  unused : ∀ o ∈ s.world.objects, Marked o → ∀ v ∈ s.world.versions, v.objectId ≠ some o.id
  tasks : ∀ t ∈ s.tasks, ∃ o ∈ s.world.objects, o.id = t.objectId ∧ Marked o

def Unneeded (s : Shelf) : Prop :=
  ∀ o ∈ s.world.objects, Marked o → ∃ t, o.deletionRequestedAt = some t ∧
    (∀ p ∈ s.pins, p.objectId = some o.id → p.live t = false) ∧
    ∀ a ∈ s.world.attempts, o.captureAttemptId = some a.id → a.running t = false

def Since (s : Shelf) (now : Time) : Prop :=
  ∀ o ∈ s.world.objects, ∀ t ∈ o.deletionRequestedAt, t ≤ now

def Available (s : Shelf) (id : Uuid) : Prop := ∃ o ∈ s.world.objects, o.id = id ∧ ¬ Marked o

structure Moves (renews : Prop) (now : Time) (s s' : Shelf) : Prop where
  attemptIds : (s'.world.attempts.map (·.id)).Nodup
  objectIds : (s'.world.objects.map (·.id)).Nodup
  owners : ∀ o ∈ s'.world.objects, ∀ a ∈ o.captureAttemptId, a ∈ s'.world.attempts.map (·.id)
  attempts : ∀ a' ∈ s'.world.attempts, a'.id ∉ s.world.attempts.map (·.id) ∨
    ∃ a ∈ s.world.attempts, Continues renews now a a'
  marked : ∀ o' ∈ s'.world.objects, Marked o' → ∃ o ∈ s.world.objects, o.id = o'.id ∧ Marked o ∧
    o'.deletionRequestedAt = o.deletionRequestedAt ∧
    ∀ a ∈ o'.captureAttemptId, a ∈ o.captureAttemptId
  stays : ∀ o ∈ s.world.objects, Marked o → ∃ o' ∈ s'.world.objects, o'.id = o.id ∧ Marked o'
  versions : ∀ v ∈ s'.world.versions, v ∈ s.world.versions ∨ ∀ id ∈ v.objectId, Available s id
  pins : ∀ p' ∈ s'.pins, (∀ id ∈ p'.objectId, Available s id) ∨
    ∃ p ∈ s.pins, p.id = p'.id ∧ p.objectId = p'.objectId ∧
      (p'.expiresAt = p.expiresAt ∨ renews ∧ p.live now = true)
  tasks : s'.tasks ⊆ s.tasks

section

variable {env : Env} {s s' : Shelf} {renews : Prop} {now : Time} {pins : List Pin} {w' : World}
  {objectIds : Option (List Uuid)} {owner : Uuid} {r : Reads}

theorem Orderly.not_available (h : Orderly s) (ho : o ∈ s.world.objects)
    (marked : Marked o) : ¬ Available s o.id := by
  rintro ⟨o', ho', id, no⟩
  exact no (inj_on_of_nodup_map h.objectIds ho' ho id ▸ marked)

theorem Moves.refl (h : Orderly s) : Moves renews now s s where
  attemptIds := h.attemptIds
  objectIds := h.objectIds
  owners := h.owners
  attempts := fun a ha => .inr ⟨a, ha, Continues.refl a⟩
  marked := fun o ho m => ⟨o, ho, rfl, m, rfl, fun _ h => h⟩
  stays := fun o ho m => ⟨o, ho, rfl, m⟩
  versions := fun _ hv => .inl hv
  pins := fun p hp => .inr ⟨p, hp, rfl, rfl, .inl rfl⟩
  tasks := Subset.refl _

theorem Moves.orderly (h : Orderly s) (m : Moves renews now s s') : Orderly s' := by
  refine ⟨m.attemptIds, m.objectIds, m.owners, ?_, ?_⟩
  · intro o' ho' marked v hv refers
    obtain ⟨o, ho, id, marked, -⟩ := m.marked o' ho' marked
    rw [← id] at refers
    rcases m.versions v hv with old | new
    · exact h.unused o ho marked v old refers
    · exact h.not_available ho marked (new o.id refers)
  · intro t ht
    obtain ⟨o, ho, id, marked⟩ := h.tasks t (m.tasks ht)
    obtain ⟨o', ho', id', marked'⟩ := m.stays o ho marked
    exact ⟨o', ho', id'.trans id, marked'⟩

theorem Pin.live_mono {p : Pin} {t now : Time} (le : t ≤ now) (h : p.live t = false) :
    p.live now = false := by
  rw [← Bool.not_eq_true] at h ⊢
  intro live
  apply h
  rw [Pin.live] at live ⊢
  cases he : p.expiresAt with
  | none => rfl
  | some e =>
    simp only [he, Option.all_some, decide_eq_true_eq] at live ⊢
    exact lt_of_le_of_lt le live

/-- A marked object stays unneeded when renewals read the clock after its claim: what they renew had
not run out by then, so it is nothing of the object's. -/
theorem Moves.unneeded (h : Orderly s) (u : Unneeded s) (m : Moves renews now s s')
    (since : renews → Since s now) : Unneeded s' := by
  intro o' ho' marked
  obtain ⟨o, ho, id, marked, requested, owner⟩ := m.marked o' ho' marked
  obtain ⟨t, ht, pins, attempts⟩ := u o ho marked
  refine ⟨t, requested.trans ht, ?_, ?_⟩
  · intro p' hp' covers
    rw [← id] at covers
    rcases m.pins p' hp' with new | ⟨p, hp, -, same, expires⟩
    · exact absurd (new o.id covers) (h.not_available ho marked)
    · have ended := pins p hp (same.trans covers)
      rcases expires with kept | ⟨renewed, live⟩
      · rw [Pin.live, kept]
        exact ended
      · cases live.symm.trans (Pin.live_mono (since renewed o ho t ht) ended)
  · intro a' ha' owns
    have owns : o.captureAttemptId = some a'.id := owner a'.id owns
    rcases m.attempts a' ha' with new | ⟨a, ha, id, continues⟩
    · exact absurd (h.owners o ho a'.id owns) new
    · have ended := attempts a ha (id ▸ owns)
      rw [← Bool.not_eq_true] at ended ⊢
      simp only [Attempt.running, Bool.and_eq_true, decide_eq_true_eq] at ended ⊢
      rintro ⟨active, unexpired⟩
      obtain ⟨active, same | ⟨renewed, unexpired⟩⟩ := continues active
      · exact ended ⟨active, same ▸ unexpired⟩
      · exact ended ⟨active, lt_of_le_of_lt (since renewed o ho t ht) unexpired⟩

theorem Effect.attempt_mem (e : Effect renews now w w')
    (ha : a ∈ w.attempts.map (·.id)) : a ∈ w'.attempts.map (·.id) := by
  obtain ⟨kept, inPlace, added⟩ := e.attempts
  have ids : kept.map (·.id) = w.attempts.map (·.id) := inPlace.map_eq fun h => h.1
  rw [← ids] at ha
  rcases added with same | ⟨n, -, same⟩
  · exact same ▸ ha
  · rw [same, map_append]
    exact mem_append_left _ ha

theorem Effect.moves (h : Orderly s) (e : Effect renews now s.world w') :
    Moves renews now s { s with world := w' } := by
  obtain ⟨kept, inPlace, added⟩ := e.attempts
  have ids : kept.map (·.id) = s.world.attempts.map (·.id) := inPlace.map_eq fun h => h.1
  refine { Moves.refl h with
    attemptIds := ?_, objectIds := ?_, owners := ?_, attempts := ?_, marked := ?_, stays := ?_,
    versions := e.versions }
  · rcases added with same | ⟨n, fresh, same⟩
    · exact same ▸ ids ▸ h.attemptIds
    · change (w'.attempts.map (·.id)).Nodup
      rw [same, map_append, ids]
      exact h.attemptIds.append (nodup_singleton _) (by simpa using fresh)
  · exact e.objects ▸ h.objectIds
  · intro o ho a ha
    exact e.attempt_mem (h.owners o (e.objects ▸ ho) a ha)
  · intro a' ha'
    rcases added with same | ⟨n, fresh, same⟩
    · exact .inr (inPlace.of_mem (same ▸ ha'))
    · rcases mem_append.mp (same ▸ ha' : a' ∈ kept ++ [n]) with old | new
      · exact .inr (inPlace.of_mem old)
      · exact .inl (mem_singleton.mp new ▸ fresh)
  · intro o ho m
    exact ⟨o, e.objects ▸ ho, rfl, m, rfl, fun _ h => h⟩
  · intro o ho m
    exact ⟨o, (e.objects ▸ ho : o ∈ w'.objects), rfl, m⟩

def Alike (x y : ChatBlobObject) : Prop :=
  y.id = x.id ∧ (Marked y ↔ Marked x) ∧ y.deletionRequestedAt = x.deletionRequestedAt ∧
    ∀ a ∈ y.captureAttemptId, a ∈ x.captureAttemptId

theorem Moves.rewrite {objects : List ChatBlobObject} (m : Moves renews now s s')
    (inPlace : InPlace Alike s'.world.objects objects) :
    Moves renews now s { s' with world := { s'.world with objects := objects } } := by
  refine { m with objectIds := ?_, owners := ?_, marked := ?_, stays := ?_ }
  · exact (inPlace.map_eq fun h => h.1) ▸ m.objectIds
  · intro o ho a ha
    obtain ⟨x, hx, -, -, -, owner⟩ := inPlace.of_mem ho
    exact m.owners x hx a (owner a ha)
  · intro y hy marked
    obtain ⟨x, hx, id, marks, requested, owner⟩ := inPlace.of_mem hy
    obtain ⟨o, ho, same, marked, req, own⟩ := m.marked x hx (marks.mp marked)
    exact ⟨o, ho, same.trans id.symm, marked, requested.trans req, fun a ha => own a (owner a ha)⟩
  · intro o ho marked
    obtain ⟨x, hx, same, marked⟩ := m.stays o ho marked
    have back : InPlace (flip Alike) objects s'.world.objects := List.Forall₂.flip inPlace
    obtain ⟨y, hy, id, marks, -⟩ := back.of_mem hx
    exact ⟨y, hy, id.trans same, marks.mpr marked⟩

theorem catalogue_moves (h : Orderly s)
    (other : ¬ op.StoresObjects) (ran : transaction env s.world op r = .ok w') :
    Moves op.Renews r.now s { s with world := w' } :=
  (transaction_effect h.attemptIds other ran).moves h

theorem reserve_moves (h : Orderly s) (ran : reserve s.world lease u clock r = .ok w') :
    Moves True r.now s { s with world := w' } := by
  obtain ⟨w₁, renewed, ran⟩ := of_bind ran
  obtain ⟨a, ha, ran⟩ := of_orFail ran
  obtain ⟨_, fresh, ran⟩ := of_bind ran
  cases ran
  have effect := renewCapture_effect h.attemptIds renewed
  have m := effect.moves h
  have fresh : u.id ∉ w₁.objects.map (·.id) := by
    rw [effect.objects]
    exact of_decide_eq_false (failIf_eq_ok.mp fresh)
  have owner : lease.attemptId ∈ w₁.attempts.map (·.id) := by
    obtain ⟨hmem, hid⟩ := mem_of_attempt? ha
    exact effect.attempt_mem (mem_map.mpr ⟨a, hmem, hid⟩)
  have split : ∀ {o : ChatBlobObject} {n}, o ∈ w₁.objects ++ [n] → o ∈ w₁.objects ∨ o = n :=
    fun ho => (mem_append.mp ho).imp_right mem_singleton.mp
  refine { m with objectIds := ?_, owners := ?_, marked := ?_, stays := ?_ }
  · rw [map_append]
    exact m.objectIds.append (nodup_singleton _) (by simpa using fresh)
  · intro o ho b hb
    rcases split ho with old | rfl
    · exact m.owners o old b hb
    · cases hb
      exact owner
  · intro o ho marked
    rcases split ho with old | rfl
    · exact m.marked o old marked
    · rcases marked with no | no <;> cases no
  · intro o ho marked
    obtain ⟨o', ho', same⟩ := m.stays o ho marked
    exact ⟨o', mem_append_left _ ho', same⟩

theorem makeLive_moves {id : Uuid} {key : Option String} {version : Option Int} (h : Orderly s)
    (ran : makeLive s.world lease id key version clock r = .ok w') :
    Moves True r.now s { s with world := w' } := by
  obtain ⟨w₁, renewed, ran⟩ := of_bind ran
  obtain ⟨o, ho, ran⟩ := of_orFail ran
  obtain ⟨staging, ran⟩ := of_failIf ran
  cases ran
  have effect := renewCapture_effect h.attemptIds renewed
  simp only [Bool.or_eq_false_iff, decide_eq_false_iff_not, not_not] at staging
  obtain ⟨ho, hid⟩ := mem_of_object? ho
  refine (effect.moves h).rewrite (InPlace.updateKey (fun _ => ⟨rfl, .rfl, rfl, fun _ h => h⟩)
    fun x hx same => ⟨rfl, ?_, rfl, fun _ h => h⟩)
  have hx : x ∈ s.world.objects := effect.objects ▸ hx
  obtain rfl := inj_on_of_nodup_map h.objectIds hx ho (same.trans hid.symm)
  rw [Marked, Marked, staging.1.1]
  simp

theorem acquirePins_available
    (ran : acquirePins w scope owner seconds objectIds draw now = .ok pins) :
    ∀ p ∈ pins, ∀ id ∈ p.objectId, ∃ o ∈ w.objects, o.id = id ∧ ¬ Marked o := by
  obtain ⟨_, -, snapshots, -, _, -, ran⟩ := of_bind₃ ran
  obtain ⟨_, -, ran⟩ := of_bind ran
  obtain ⟨live, ran⟩ := of_failIf ran
  cases ran
  simp only [Bool.not_eq_false', all_append, Bool.and_eq_true] at live
  intro p hp id hid
  rcases mem_append.mp hp with hp | hp
  · obtain ⟨i, -, rfl⟩ := mem_map.mp hp
    cases hid
  · obtain ⟨o, ho, rfl⟩ := mem_map.mp hp
    obtain rfl : o = id := Option.some.inj hid
    have found := all_eq_true.mp live.1 o (mem_dedup.mp ho)
    cases hx : w.object? o with
    | none =>
      rw [hx] at found
      cases found
    | some x =>
      rw [hx, Option.any_some, decide_eq_true_eq] at found
      obtain ⟨hmem, hid⟩ := mem_of_object? hx
      refine ⟨x, hmem, hid, ?_⟩
      rw [Marked, found]
      simp

theorem acquirePins_moves (h : Orderly s)
    (ran : acquirePins s.world scope owner seconds objectIds draw clock = .ok pins) :
    Moves renews now s { s with pins := s.pins ++ pins } := by
  refine { Moves.refl h with pins := fun p hp => ?_ }
  rcases mem_append.mp hp with old | new
  · exact .inr ⟨p, old, rfl, rfl, .inl rfl⟩
  · exact .inl (acquirePins_available ran p new)

theorem renewPins_moves (h : Orderly s) (ran : renewPins s.pins ids owner seconds now = .ok pins) :
    Moves True now s { s with pins := pins } := by
  obtain ⟨_, -, _, -, ran⟩ := of_bind₂ ran
  obtain ⟨valid, ran⟩ := of_failIf ran
  cases ran
  rw [any_eq_false] at valid
  refine { Moves.refl h with pins := fun p' hp' => .inr ?_ }
  obtain ⟨p, hp, rfl⟩ := mem_map.mp hp'
  by_cases renewed : p.id ∈ ids
  · rw [if_pos renewed]
    refine ⟨p, hp, rfl, rfl, .inr ⟨trivial, ?_⟩⟩
    have ok := valid p hp
    rw [Pin.live]
    cases he : p.expiresAt with
    | none => simp [renewed, he] at ok
    | some e =>
      simp only [renewed, he, decide_true, Option.all_some, Bool.true_and, Bool.or_eq_true,
        decide_eq_true_eq, not_or, not_le] at ok
      simpa using ok.2
  · rw [if_neg renewed]
    exact ⟨p, hp, rfl, rfl, .inl rfl⟩

theorem Moves.fewer {tasks done : List Task}
    (m : Moves renews now s s') (attempts : w'.attempts = s'.world.attempts)
    (objects : w'.objects = s'.world.objects) (versions : w'.versions ⊆ s'.world.versions)
    (hpins : pins ⊆ s'.pins) (htasks : tasks ⊆ s'.tasks) :
    Moves renews now s ⟨w', pins, tasks, done⟩ where
  attemptIds := attempts ▸ m.attemptIds
  objectIds := objects ▸ m.objectIds
  owners := attempts ▸ objects ▸ m.owners
  attempts := attempts ▸ m.attempts
  marked := objects ▸ m.marked
  stays := objects ▸ m.stays
  versions := fun v hv => m.versions v (versions hv)
  pins := fun p hp => m.pins p (hpins hp)
  tasks := fun _ ht => m.tasks (htasks ht)

theorem retireInventory_moves {locked : List Uuid} {id : Uuid} (m : Moves renews now s s') :
    Moves renews now s { s' with world := retireInventory pins locked clock s'.world id } := by
  rw [retireInventory]
  split
  · exact m
  · split
    · exact m
    · set ids := (s'.world.attempts.filter (·.stagedInventoryId = id)).map (·.id)
      have disowned : InPlace Alike s'.world.objects (s'.world.deleteAttempts ids).objects := by
        refine InPlace.of_map fun o _ => ?_
        split
        · exact ⟨rfl, .rfl, rfl, nofun⟩
        · exact ⟨rfl, .rfl, rfl, fun _ h => h⟩
      have rewritten := m.rewrite disowned
      refine { rewritten with attemptIds := ?_, owners := ?_, attempts := ?_ }
      · exact m.attemptIds.sublist (filter_sublist.map _)
      · intro o ho a ha
        obtain ⟨x, hx, rfl⟩ := mem_map.mp ho
        by_cases owned : x.captureAttemptId.any (· ∈ ids) = true
        · rw [if_pos owned] at ha
          cases ha
        · rw [if_neg owned] at ha
          have kept : a ∉ ids := by
            intro gone
            exact owned (by rw [Option.mem_def.mp ha]; simpa using gone)
          obtain ⟨y, hy, rfl⟩ := mem_map.mp (m.owners x hx a ha)
          exact mem_map.mpr ⟨y, mem_filter.mpr ⟨hy, by simpa using kept⟩, rfl⟩
      · intro a ha
        exact m.attempts a (mem_filter.mp ha).1

theorem collect_moves (h : Orderly s) : Moves renews now s (collect s limit locked clock) := by
  have retired : ∀ (pins : List Pin) (ids : List Uuid) (s' : Shelf), Moves renews now s s' →
      Moves renews now s
        { s' with world := ids.foldl (retireInventory pins locked clock) s'.world } := by
    intro pins ids
    induction ids with
    | nil => exact fun s' m => m
    | cons id ids ih => exact fun s' m => ih _ (retireInventory_moves m)
  exact (retired _ _ s (Moves.refl h)).fewer rfl rfl filter_sublist.subset
    filter_sublist.subset (Subset.refl _)

theorem finish_moves (h : Orderly s) :
    Moves renews now s { s with world := finish s.world t clock } := by
  refine (Moves.refl h).rewrite (InPlace.updateKey (fun _ => ⟨rfl, .rfl, rfl, fun _ h => h⟩)
    fun x _ _ => ?_)
  split
  · rename_i own
    exact ⟨rfl, by simp [Marked, own.2], rfl, fun _ h => h⟩
  · exact ⟨rfl, .rfl, rfl, fun _ h => h⟩

end

structure Claims (s s' : Shelf) (o : ChatBlobObject) (task : Uuid) (now : Time) : Prop where
  mem : o ∈ s.world.objects
  spared : spared s.world s.pins o now = false
  unused : ∀ v ∈ s'.world.versions, v.objectId ≠ some o.id
  versions : s'.world.versions ⊆ s.world.versions
  attempts : s'.world.attempts = s.world.attempts
  objects : s'.world.objects = updateKey ChatBlobObject.id o.id (marks task now) s.world.objects
  pins : s'.pins = s.pins
  tasks : ∀ t ∈ s'.tasks, t ∈ s.tasks ∨ t.objectId = o.id

section

variable {s s' : Shelf} {o : ChatBlobObject} {renews : Prop} {id task : Uuid} {now : Time}

theorem claimObject_cases (h : Orderly s) : Moves renews clock s (claimObject s id task now) ∨
      ∃ o, Claims s (claimObject s id task now) o task now := by
  rw [claimObject]
  split
  · exact .inl (Moves.refl h)
  · rename_i o found
    obtain ⟨ho, rfl⟩ := mem_of_object? found
    split
    · exact .inl (Moves.refl h)
    · rename_i passed
      dsimp only
      split
      · exact .inl ((Moves.refl h).fewer rfl rfl filter_sublist.subset (Subset.refl _)
          (Subset.refl _))
      · rename_i unused
        refine .inr ⟨o, ho, eq_false_of_ne_true passed, ?_, filter_sublist.subset, rfl, rfl, rfl,
          fun t ht => ?_⟩
        · intro v hv refers
          exact unused (any_eq_true.mpr ⟨v, hv, decide_eq_true refers⟩)
        · rcases mem_append.mp ht with old | new
          · exact .inl old
          · rw [mem_singleton.mp new]
            exact .inr rfl

theorem mem_claimed (c : Claims s s' o task now) (h : Orderly s) :
    x ∈ s'.world.objects ↔ x ∈ s.world.objects ∧ x.id ≠ o.id ∨ x = marks task now o := by
  rw [c.objects, mem_updateKey]
  refine or_congr_right ⟨?_, ?_⟩
  · rintro ⟨old, hold, id, rfl⟩
    rw [inj_on_of_nodup_map h.objectIds hold c.mem id]
  · rintro rfl
    exact ⟨o, c.mem, rfl, rfl⟩

theorem Claims.orderly (h : Orderly s) (c : Claims s s' o task now) : Orderly s' := by
  have ids : s'.world.objects.map (·.id) = s.world.objects.map (·.id) := by
    rw [c.objects]
    exact map_updateKey fun _ _ => rfl
  refine ⟨c.attempts ▸ h.attemptIds, ids ▸ h.objectIds, ?_, ?_, ?_⟩
  · intro x hx a ha
    rw [c.attempts]
    rcases (mem_claimed c h).mp hx with ⟨old, -⟩ | rfl
    · exact h.owners x old a ha
    · exact h.owners o c.mem a ha
  · intro x hx marked v hv
    rcases (mem_claimed c h).mp hx with ⟨old, -⟩ | rfl
    · exact h.unused x old marked v (c.versions hv)
    · exact c.unused v hv
  · have claimed : marks task now o ∈ s'.world.objects := (mem_claimed c h).mpr (.inr rfl)
    intro t ht
    rcases c.tasks t ht with old | own
    · obtain ⟨x, hx, id, marked⟩ := h.tasks t old
      by_cases same : x.id = o.id
      · exact ⟨_, claimed, same.symm.trans id, .inl rfl⟩
      · exact ⟨x, (mem_claimed c h).mpr (.inl ⟨hx, same⟩), id, marked⟩
    · exact ⟨_, claimed, own.symm, .inl rfl⟩

theorem Claims.unneeded (h : Orderly s) (u : Unneeded s) (c : Claims s s' o task now) :
    Unneeded s' := by
  intro x hx marked
  rw [c.pins, c.attempts]
  rcases (mem_claimed c h).mp hx with ⟨old, -⟩ | rfl
  · exact u x old marked
  · have passed := c.spared
    simp only [Catalogue.spared, Bool.or_eq_false_iff] at passed
    refine ⟨now, rfl, ?_, ?_⟩
    · intro p hp covers
      have := any_eq_false.mp passed.1.1.2 p hp
      simpa [show p.objectId = some o.id from covers] using this
    · intro a ha owns
      have found : s.world.attempt? a.id = some a :=
        (find?_key_eq_some h.attemptIds).mpr ⟨ha, rfl⟩
      have ended := passed.1.2
      rw [show o.captureAttemptId = some a.id from owns, Option.bind_some, found] at ended
      exact ended

end

def Prompt (s : Shelf) : Event → Prop
  | .catalogue op r => op.Renews → Since s r.now
  | .reserve _ _ _ r | .makeLive _ _ _ _ _ r => Since s r.now
  | .renewPins _ _ _ now => Since s now
  | _ => True

def Protects (w : World) (p : Pin) (id : Uuid) : Prop :=
  p.objectId = some id ∨ ∃ e ∈ w.entries, p.inventoryId = some e.inventoryId ∧
    ∃ v ∈ w.versions, v.id = e.versionId ∧ v.objectId = some id

section

variable {env : Env} {s : Shelf} {layout : Layout} {o : ChatBlobObject}

theorem step_cases (h : Orderly s) (e : Event) :
    (∃ renews now, Moves renews now s (s.step env e) ∧ (Prompt s e → renews → Since s now)) ∨
      ∃ o task now, Claims s (s.step env e) o task now := by
  have quiet {s' : Shelf} (m : Moves False 0 s s') :
      ∃ renews now, Moves renews now s s' ∧ (Prompt s e → renews → Since s now) :=
    ⟨False, 0, m, fun _ no => no.elim⟩
  have still := quiet (Moves.refl h)
  cases e with
  | catalogue op r =>
    by_cases stores : op.StoresObjects
    · cases op with
      | storeObjects objects => exact .inl still
      | _ => exact stores.elim
    · have same : s.step env (.catalogue op r) = s.commit (transaction env s.world op r) := by
        cases op with
        | storeObjects objects => exact absurd trivial stores
        | _ => rfl
      rw [same]
      cases ran : transaction env s.world op r with
      | error _ => exact .inl still
      | ok w' => exact .inl ⟨_, _, catalogue_moves h stores ran, id⟩
  | reserve lease u clock r =>
    rw [Shelf.step]
    cases ran : Catalogue.reserve s.world lease u clock r with
    | error _ => exact .inl still
    | ok w' => exact .inl ⟨_, _, reserve_moves h ran, fun prompt _ => prompt⟩
  | makeLive lease id key version clock r =>
    rw [Shelf.step]
    cases ran : Catalogue.makeLive s.world lease id key version clock r with
    | error _ => exact .inl still
    | ok w' => exact .inl ⟨_, _, makeLive_moves h ran, fun prompt _ => prompt⟩
  | acquirePins scope owner seconds objectIds draw now =>
    rw [Shelf.step]
    cases ran : Catalogue.acquirePins s.world scope owner seconds objectIds draw now with
    | error _ => exact .inl still
    | ok pins => exact .inl (quiet (acquirePins_moves h ran))
  | renewPins ids owner seconds now =>
    rw [Shelf.step]
    cases ran : Catalogue.renewPins s.pins ids owner seconds now with
    | error _ => exact .inl still
    | ok pins => exact .inl ⟨_, _, renewPins_moves h ran, fun prompt _ => prompt⟩
  | releasePins ids owner =>
    exact .inl (quiet ((Moves.refl h).fewer rfl rfl (Subset.refl _)
      filter_sublist.subset (Subset.refl _)))
  | deleteSnapshots ids =>
    exact .inl (quiet ((Moves.refl h).fewer rfl rfl (Subset.refl _) (Subset.refl _)
      (Subset.refl _)))
  | collect limit locked now => exact .inl (quiet (collect_moves h))
  | claim id task now =>
    rcases claimObject_cases h with m | ⟨o, c⟩
    · exact .inl (quiet m)
    · exact .inr ⟨o, task, now, c⟩
  | deleteBlob t gone now =>
    rw [Shelf.step]
    split
    · exact .inl (quiet ((Moves.refl h).fewer rfl rfl (Subset.refl _) (Subset.refl _) erase_subset))
    · exact .inl still
  | finish t now =>
    rw [Shelf.step]
    split
    · exact .inl (quiet (finish_moves h))
    · exact .inl still

theorem step_orderly (h : Orderly s) (e : Event) : Orderly (s.step env e) := by
  rcases step_cases h e with ⟨_, _, m, -⟩ | ⟨_, _, _, c⟩
  · exact m.orderly h
  · exact c.orderly h

theorem step_unneeded (h : Orderly s) (u : Unneeded s) (prompt : Prompt s e) :
    Unneeded (s.step env e) := by
  rcases step_cases h e with ⟨_, _, m, since⟩ | ⟨_, _, _, c⟩
  · exact m.unneeded h u (since prompt)
  · exact c.unneeded h u

def Shelf.empty (layout : Layout) : Shelf := { world := World.empty layout }

theorem orderly_empty : Orderly (Shelf.empty layout) := by
  constructor <;> simp [Shelf.empty, World.empty]

theorem play_orderly (env : Env) (layout : Layout) (events : List Event) :
    Orderly (Concurrency.play (Shelf.step env) (Shelf.empty layout) events) := by
  exact foldlRecOn (motive := Orderly) events _ orderly_empty fun _ h e _ => step_orderly h e

section

variable (h : Orderly s) (ho : o ∈ s.world.objects) (marked : Marked o)

include h ho marked

theorem marked_step (e : Event) : ∃ o' ∈ (s.step env e).world.objects, o'.id = o.id ∧ Marked o' := by
  rcases step_cases h e with ⟨_, _, m, -⟩ | ⟨x, task, now, c⟩
  · exact m.stays o ho marked
  · by_cases same : o.id = x.id
    · exact ⟨_, (mem_claimed c h).mpr (.inr rfl), same.symm, .inl rfl⟩
    · exact ⟨o, (mem_claimed c h).mpr (.inl ⟨ho, same⟩), rfl, marked⟩

theorem Orderly.names_of_protects (covers : Protects s.world p o.id) : p.objectId = some o.id := by
  rcases covers with named | ⟨_, -, -, v, hv, -, refers⟩
  · exact named
  · exact absurd refers (h.unused o ho marked v hv)

theorem pins_step (e : Event) (hp : p' ∈ (s.step env e).pins)
    (named : p'.objectId = some o.id) : ∃ p ∈ s.pins, p.id = p'.id ∧ p.objectId = some o.id := by
  rcases step_cases h e with ⟨_, _, m, -⟩ | ⟨x, task, now, c⟩
  · rcases m.pins p' hp with new | ⟨p, hp, id, same, -⟩
    · exact absurd (new o.id named) (h.not_available ho marked)
    · exact ⟨p, hp, id, same.trans named⟩
  · exact ⟨p', c.pins ▸ hp, rfl, named⟩

end

theorem Attempt.running_mono {a : Attempt} {t now : Time} (le : t ≤ now)
    (h : a.running t = false) : a.running now = false := by
  rw [← Bool.not_eq_true] at h ⊢
  simp only [Attempt.running, Bool.and_eq_true, decide_eq_true_eq] at h ⊢
  exact fun ⟨active, unexpired⟩ => h ⟨active, lt_of_le_of_lt le unexpired⟩

/-- In every run, a marked object is referred to by no version and gains no pin; and where renewals are
prompt, it is deleted only when its pins have run out and its capture is over. -/
theorem collected_when_unneeded (env : Env) (layout : Layout) (events : List Event) :
    let s := Concurrency.play (Shelf.step env) (Shelf.empty layout) events
    (∀ o ∈ s.world.objects, Marked o → ∀ e,
      (∀ v ∈ (s.step env e).world.versions, v.objectId ≠ some o.id) ∧
      (∀ p' ∈ (s.step env e).pins, Protects (s.step env e).world p' o.id →
        ∃ p ∈ s.pins, p.id = p'.id ∧ Protects s.world p o.id) ∧
      ∃ o' ∈ (s.step env e).world.objects, o'.id = o.id ∧ Marked o') ∧
    (∀ t now, s.Deletes t now → ∃ o ∈ s.world.objects, o.id = t.objectId ∧ Marked o ∧
      ∀ v ∈ s.world.versions, v.objectId ≠ some o.id) ∧
    (Concurrency.Along (Shelf.step env) Prompt (Shelf.empty layout) events →
      ∀ t now, s.Deletes t now → ∀ o ∈ s.world.objects, o.id = t.objectId →
        (∀ p ∈ s.pins, Protects s.world p o.id → p.live now = false) ∧
        ∀ a ∈ s.world.attempts, o.captureAttemptId = some a.id → a.running now = false) := by
  intro s
  have orderly : Orderly s := play_orderly env layout events
  refine ⟨?_, ?_, ?_⟩
  · intro o ho marked e
    have next : Orderly (s.step env e) := step_orderly orderly e
    obtain ⟨o', ho', id, marked'⟩ := marked_step orderly ho marked e
    refine ⟨fun v hv => id ▸ next.unused o' ho' marked' v hv, fun p' hp' covers => ?_,
      o', ho', id, marked'⟩
    have named := id ▸ next.names_of_protects ho' marked' (id.symm ▸ covers)
    obtain ⟨p, hp, same, named⟩ := pins_step orderly ho marked e hp' named
    exact ⟨p, hp, same, .inl named⟩
  · intro t now deletes
    obtain ⟨o, ho, id, marked⟩ := orderly.tasks t deletes.1
    exact ⟨o, ho, id, marked, orderly.unused o ho marked⟩
  · intro prompt t now deletes o ho id
    have keeps : ∀ s e, Orderly s ∧ Unneeded s → Prompt s e →
        Orderly (s.step env e) ∧ Unneeded (s.step env e) :=
      fun s e h p => ⟨step_orderly h.1 e, step_unneeded h.1 h.2 p⟩
    have unneeded : Unneeded s := (prompt.invariant keeps
      ⟨orderly_empty, fun o ho => absurd ho not_mem_nil⟩).2
    obtain ⟨x, hx, idx, marked⟩ := orderly.tasks t deletes.1
    obtain rfl := inj_on_of_nodup_map orderly.objectIds ho hx (id.trans idx.symm)
    obtain ⟨at', requested, pins, attempts⟩ := unneeded o ho marked
    have le : at' ≤ now := deletes.2 o ho id at' requested
    refine ⟨fun p hp covers => ?_, fun a ha owns => ?_⟩
    · exact Pin.live_mono le (pins p hp (orderly.names_of_protects ho marked covers))
    · exact Attempt.running_mono le (attempts a ha owns)

end

def storedFile : CapturedChatItem where
  itemType := .chatAttachment
  graphId := "f1"
  parentGraphId := some "m1"
  content := some
    { sha256 := "ab"
      size := 3, container := "chats", path := "chat-catalogue/v1/1/30", backendId := some 9
      objectId := some 30 }

open Work (seconds)

def readAt (n : Nat) : Reads := ⟨seconds n, seconds n, .ok ()⟩

def pinnedFile : List Event :=
  [.catalogue (.beginCapture ⟨chatOf 1, false, none, 1, 10, 20⟩) (readAt 0),
    .reserve ⟨10, 1, 20⟩ ⟨30, "chats", "ab", 3⟩ (seconds 1) (readAt 1),
    .makeLive ⟨10, 1, 20⟩ 30 none none (seconds 2) (readAt 2),
    .catalogue (.stageVersions ⟨10, 1, 20⟩ [storedFile] fun _ => 100) (readAt 3),
    .acquirePins (.ok [1]) 5 300 (some [30]) (fun _ => 40) (seconds 10),
    .deleteSnapshots [1],
    .collect 100 [] (seconds 305)]

def fileTask : Task := ⟨30, 50, 9, "chats", "chat-catalogue/v1/1/30"⟩

def promptRenewal : List Event :=
  pinnedFile ++ [.renewPins [40] 5 300 (seconds 306), .claim 30 50 (seconds 311),
    .claim 30 50 (seconds 606)]

theorem promptRenewal_unpinned :
    let s := Concurrency.play (Shelf.step plainEnv) (Shelf.empty noOverlay) promptRenewal
    s.Deletes fileTask (seconds 607) ∧ ∃ o ∈ s.world.objects, o.id = 30 ∧
      (∀ p ∈ s.pins, Protects s.world p o.id → p.live (seconds 607) = false) ∧
      ∀ a ∈ s.world.attempts, o.captureAttemptId = some a.id → a.running (seconds 607) = false := by
  intro s
  have prompt : Concurrency.Along (Shelf.step plainEnv) Prompt (Shelf.empty noOverlay)
      promptRenewal :=
    ⟨False.elim, by unfold Prompt Since; decide +kernel, by unfold Prompt Since; decide +kernel,
      False.elim, trivial, trivial, trivial, by unfold Prompt Since; decide +kernel, trivial, trivial,
      trivial⟩
  have deletes : s.Deletes fileTask (seconds 607) := by
    unfold Shelf.Deletes
    decide +kernel
  obtain ⟨-, marked, unneeded⟩ := collected_when_unneeded plainEnv noOverlay promptRenewal
  obtain ⟨o, ho, id, -⟩ := marked fileTask (seconds 607) deletes
  exact ⟨deletes, o, ho, id, unneeded prompt fileTask (seconds 607) deletes o ho id⟩

def lateRenewal : List Event :=
  pinnedFile ++ [.claim 30 50 (seconds 311), .renewPins [40] 5 300 (seconds 309)]

/-- The file is deleted under a pin that holds until the second 609. -/
theorem lateRenewal_pinned :
    let s := Concurrency.play (Shelf.step plainEnv) (Shelf.empty noOverlay) lateRenewal
    s.Deletes fileTask (seconds 312) ∧ ∃ p ∈ s.pins, Protects s.world p 30 ∧ p.live (seconds 312) = true := by
  unfold Shelf.Deletes Protects
  decide +kernel

end TmVault.Catalogue
