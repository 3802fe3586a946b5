import TmVault.Catalogue.Collection
import TmVault.Catalogue.Publications

namespace TmVault.Catalogue

open Store Relational List

def Marked (o : ChatBlobObject) : Prop := o.state = .deleting ∨ o.state = .deleted

/-- An attempt's row before and after a transaction: it does not come to life, and its lease grows
only by a renewal while it has not run out. -/
def Continues (renews : Prop) (now : Time) (x y : Attempt) : Prop :=
  y.id = x.id ∧
    (Active y.state → Active x.state ∧ (y.expiresAt = x.expiresAt ∨ renews ∧ now < x.expiresAt))

def Live (w : World) (lease : CaptureLease) (t : Time) : Prop :=
  ∃ a ∈ w.attempts, a.id = lease.attemptId ∧ a.generation = lease.generation ∧ Active a.state ∧
    t < a.expiresAt

def Op.Rechecks : Op → Prop
  | .stageVersions _ _ _ | .copyVersions _ _ _ _ | .publishInventory _
  | .publishUnchangedInventory _ _ _ _ | .abortCapture _ _ => True
  | _ => False

section

variable {env : Env} {w w' : World} {lease : CaptureLease} {r : Reads} {a : Attempt} {renews : Prop}
  {now : Time}

theorem Continues.refl (x : Attempt) : Continues renews now x x := ⟨rfl, fun h => ⟨h, .inl rfl⟩⟩

theorem Continues.trans (h : Continues renews now x y)
    (h' : Continues renews now y z) : Continues renews now x z := by
  refine ⟨h'.1.trans h.1, fun active => ?_⟩
  obtain ⟨active, later⟩ := h'.2 active
  obtain ⟨active, earlier⟩ := h.2 active
  refine ⟨active, ?_⟩
  rcases later with same | ⟨renewed, unexpired⟩
  · rw [same]
    exact earlier
  · rcases earlier with same | renewed
    · exact .inr ⟨renewed, same ▸ unexpired⟩
    · exact .inr renewed

structure Effect (renews : Prop) (now : Time) (w w' : World) : Prop where
  objects : w'.objects = w.objects
  versions : ∀ v ∈ w'.versions, v ∈ w.versions ∨
    ∀ id ∈ v.objectId, ∃ o ∈ w.objects, o.id = id ∧ ¬ Marked o
  attempts : ∃ kept, InPlace (Continues renews now) w.attempts kept ∧
    (w'.attempts = kept ∨ ∃ n : Attempt, n.id ∉ w.attempts.map (·.id) ∧ w'.attempts = kept ++ [n])

theorem Effect.refl (w : World) : Effect renews now w w :=
  ⟨rfl, fun _ h => .inl h, w.attempts, .of_eq Continues.refl rfl, .inl rfl⟩

theorem Effect.of_tables (objects : w'.objects = w.objects) (versions : w'.versions = w.versions)
    (attempts : InPlace (Continues renews now) w.attempts w'.attempts) : Effect renews now w w' :=
  ⟨objects, fun _ h => .inl (versions ▸ h), w'.attempts, attempts, .inl rfl⟩

theorem Effect.after (h : Effect renews now w₁ w')
    (attempts : InPlace (Continues renews now) w.attempts w₁.attempts)
    (objects : w₁.objects = w.objects) (versions : w₁.versions = w.versions) :
    Effect renews now w w' := by
  obtain ⟨kept, inPlace, added⟩ := h.attempts
  refine ⟨h.objects.trans objects, versions ▸ objects ▸ h.versions, kept,
    attempts.trans Continues.trans inPlace, ?_⟩
  have ids : w₁.attempts.map (·.id) = w.attempts.map (·.id) := attempts.map_eq fun h => h.1
  rw [← ids]
  exact added

section

variable (ids : (w.attempts.map (·.id)).Nodup) (live : Runs w a)

include ids live

theorem inPlace_setAttempt (id : ∀ x, (f x).id = x.id)
    (expiresAt : ∀ x, (f x).expiresAt = x.expiresAt) :
    InPlace (Continues renews now) w.attempts (updateKey Attempt.id a.id f w.attempts) := by
  refine InPlace.updateKey Continues.refl fun x hx same => ⟨id x, fun _ => ⟨?_, .inl (expiresAt x)⟩⟩
  rw [inj_on_of_nodup_map ids hx live.1 same]
  exact live.2

theorem Effect.of_setAttempt (objects : w'.objects = w.objects)
    (versions : w'.versions = w.versions)
    (attempts : w'.attempts = updateKey Attempt.id a.id f w.attempts) (id : ∀ x, (f x).id = x.id)
    (expiresAt : ∀ x, (f x).expiresAt = x.expiresAt) : Effect renews now w w' :=
  .of_tables objects versions (attempts ▸ inPlace_setAttempt ids live id expiresAt)

end

theorem beginCapture_effect (h : beginCapture w b r = .ok w') : Effect renews now w w' := by
  obtain ⟨rfl, fresh, -⟩ := beginCapture_ok h
  have supersedes : (supersede w b).objects = w.objects ∧ (supersede w b).versions = w.versions ∧
      InPlace (Continues renews now) w.attempts (supersede w b).attempts := by
    rw [supersede]
    split
    · split
      · refine ⟨rfl, rfl, InPlace.updateKey Continues.refl fun x _ _ => ⟨rfl, fun h => ?_⟩⟩
        cases h
      · exact ⟨rfl, rfl, .of_eq Continues.refl rfl⟩
    · exact ⟨rfl, rfl, .of_eq Continues.refl rfl⟩
  obtain ⟨objects, versions, attempts⟩ := supersedes
  exact ⟨objects, fun v hv => .inl (versions ▸ hv), _, attempts, .inr ⟨_, fresh, rfl⟩⟩

theorem renewCapture_effect (ids : (w.attempts.map (·.id)).Nodup)
    (h : renewCapture w lease seconds r = .ok w') : Effect True r.now w w' := by
  obtain ⟨a, fenced, rfl⟩ := renewCapture_ok h
  obtain ⟨ha, -, -, ⟨no, -⟩ | ⟨active, -, unexpired⟩⟩ := fence_ok fenced
  · cases no
  refine .of_tables rfl rfl (InPlace.updateKey Continues.refl fun x hx same => ?_)
  rw [inj_on_of_nodup_map ids hx ha same]
  exact ⟨rfl, fun _ => ⟨active, .inr ⟨trivial, unexpired⟩⟩⟩

theorem mem_of_keyed (h : keyed scope items kept = .ok batch) (hi : i ∈ batch) :
    i ∈ kept ∨ i ∈ items := by
  induction items generalizing kept with
  | nil =>
    cases h
    exact .inl hi
  | cons item items ih =>
    rw [keyed] at h
    split at h
    · rcases ih h with hk | hr
      · rcases mem_append.mp hk with hk | hk
        · exact .inl hk
        · exact .inr (mem_singleton.mp hk ▸ mem_cons_self)
      · exact .inr (mem_cons_of_mem _ hr)
    · split at h
      · exact (ih h).imp_right (mem_cons_of_mem _)
      · cases h

theorem mem_of_object? {id : Uuid} {o : ChatBlobObject} (h : w.object? id = some o) :
    o ∈ w.objects ∧ o.id = id :=
  ⟨mem_of_find?_eq_some h, of_find? h⟩

theorem unmarked_of_missing
    (keyed : keyed scope items [] = .ok batch) (checked : objects w scope items = .ok u)
    (hv : v ∈ missing w scope ids batch) :
    ∀ id ∈ v.objectId, ∃ o ∈ w.objects, o.id = id ∧ ¬ Marked o := by
  intro id hid
  obtain ⟨i, hi, rfl⟩ := mem_map.mp hv
  obtain ⟨c, hc, hcid⟩ := Option.bind_eq_some_iff.mp hid
  have hitem : i ∈ items :=
    (mem_of_keyed keyed (mem_filter.mp hi).1).resolve_left not_mem_nil
  have all := failIf_eq_ok.mp checked
  simp only [Bool.not_eq_false', all_eq_true] at all
  have ok := all c (mem_filterMap.mpr ⟨i, hitem, hc⟩)
  rw [usable, hcid] at ok
  dsimp only at ok
  cases ho : w.object? id with
  | none =>
    rw [ho] at ok
    cases ok
  | some o =>
    rw [ho, Option.any_some] at ok
    simp only [Bool.and_eq_true, decide_eq_true_eq] at ok
    obtain ⟨hmem, hid⟩ := mem_of_object? ho
    refine ⟨o, hmem, hid, ?_⟩
    rintro (h | h)
    · exact ok.1.2 h
    · exact ok.2 h

theorem stageOne_tables (h : stageOne env a known w item = .ok w') :
    w'.objects = w.objects ∧ w'.versions = w.versions ∧ w'.attempts = w.attempts ∧
      w'.associations = w.associations := by
  obtain ⟨v, -, _, -, _, -, h⟩ := of_bind₃ h
  obtain ⟨_, -, parent, -, h⟩ := of_bind₂ h
  split at h <;> cases h <;> exact ⟨rfl, rfl, rfl, rfl⟩

def Op.Renews : Op → Prop
  | .renewCapture _ _ => True
  | _ => False

def Op.StoresObjects : Op → Prop
  | .storeObjects _ => True
  | _ => False

section

variable {late : Prop}

/-- What a transaction under a lease does: it writes only while the lease's attempt holds its fence,
and takes no terminal inventory back. -/
structure Ran (renews late : Prop) (lease : CaptureLease) (r : Reads) (w w' : World) : Prop where
  effect : Effect renews r.now w w'
  associations : w.associations ⊆ w'.associations
  live : w' = w ∨ Live w lease r.now ∧ (late → Live w lease r.late)

theorem Ran.refl (w : World) : Ran renews late lease r w w :=
  ⟨.refl w, Subset.refl _, .inl rfl⟩

theorem Ran.of_fence (fenced : fence w lease r = .ok a) (unexpired : late → r.late < a.expiresAt)
    (effect : Effect renews r.now w w') (associations : w.associations ⊆ w'.associations) :
    Ran renews late lease r w w' := by
  refine ⟨effect, associations, .inr ?_⟩
  obtain ⟨ha, id, generation, ⟨no, -⟩ | ⟨active, -, now⟩⟩ := fence_ok fenced
  · cases no
  · exact ⟨⟨a, ha, id, generation, active, now⟩,
      fun h => ⟨a, ha, id, generation, active, unexpired h⟩⟩

section

variable (ids : (w.attempts.map (·.id)).Nodup)

include ids

theorem Ran.of_row (fenced : fence w lease r = .ok a) (unexpired : late → r.late < a.expiresAt)
    (objects : w'.objects = w.objects) (versions : w'.versions = w.versions)
    (attempts : w'.attempts = updateKey Attempt.id a.id f w.attempts) (id : ∀ x, (f x).id = x.id)
    (expiresAt : ∀ x, (f x).expiresAt = x.expiresAt)
    (associations : w.associations ⊆ w'.associations) : Ran renews late lease r w w' := by
  have live := fence_active fenced
  exact .of_fence fenced unexpired
    (.of_setAttempt ids live objects versions attempts id expiresAt) associations

theorem stageVersions_ran (h : stageVersions env w lease items vids r = .ok w') :
    Ran renews late lease r w w' := by
  obtain ⟨a, batch, fenced, unexpired, keyed, checked, rfl | ⟨w₂, -, -, staged, rfl⟩⟩ :=
    stageVersions_ok h
  · exact .refl _
  have live := fence_active fenced
  set w₁ : World := { w with versions := w.versions ++ missing w a.scope vids batch }
  have same : w₂.objects = w₁.objects ∧ w₂.versions = w₁.versions ∧ w₂.attempts = w₁.attempts ∧
      w₂.associations = w₁.associations := by
    refine foldlM_ok (fun (s : World) _ => s.objects = w₁.objects ∧ s.versions = w₁.versions ∧
      s.attempts = w₁.attempts ∧ s.associations = w₁.associations) (fun inv one => ?_)
      ⟨rfl, rfl, rfl, rfl⟩ staged
    obtain ⟨objects, versions, attempts, associations⟩ := stageOne_tables one
    exact ⟨objects.trans inv.1, versions.trans inv.2.1, attempts.trans inv.2.2.1,
      associations.trans inv.2.2.2⟩
  obtain ⟨objects, versions, attempts, associations⟩ := same
  refine .of_fence fenced (fun _ => unexpired) ⟨objects, fun v hv => ?_, _, inPlace_setAttempt
    (f := fun a => { a with state := .enumerating }) ids live (fun _ => rfl) fun _ => rfl,
    .inl (congrArg (updateKey Attempt.id a.id _) attempts)⟩ (associations ▸ List.Subset.refl _)
  have hv : v ∈ w₂.versions := hv
  rw [versions] at hv
  rcases mem_append.mp hv with old | new
  · exact .inl old
  · exact .inr (unmarked_of_missing keyed checked new)

theorem copyVersions_ran {keys : List Key}
    (h : copyVersions w lease inventory source keys r = .ok w') : Ran renews late lease r w w' := by
  obtain ⟨a, fenced, _, -, _, unexpired, h⟩ := of_bind₃ h
  obtain ⟨_, -, _, -, h⟩ := of_bind₂ h
  split at h
  · cases h
    exact .refl w
  · obtain ⟨_, -, h⟩ := of_bind h
    cases h
    exact .of_row ids fenced (fun _ => checkExpiry_ok unexpired) rfl rfl rfl (fun _ => rfl)
      (fun _ => rfl) (Subset.refl _)

theorem settle_effect (live : Runs w a) (h : settle w a i s r = .ok w') :
    Effect renews now w w' ∧ w.associations ⊆ w'.associations := by
  simp only [settle] at h
  split at h
  · split at h
    · cases h
      exact ⟨.of_setAttempt ids live rfl rfl rfl (fun _ => rfl) fun _ => rfl,
        subset_append_left _ _⟩
    · obtain ⟨_, -, h⟩ := of_bind h
      cases h
      exact ⟨.of_setAttempt ids live rfl rfl rfl (fun _ => rfl) fun _ => rfl,
        subset_append_left _ _⟩
  · split at h
    · cases h
      exact ⟨.of_setAttempt ids live rfl rfl rfl (fun _ => rfl) fun _ => rfl, Subset.refl _⟩
    · cases h
      exact ⟨.of_setAttempt ids live rfl rfl rfl (fun _ => rfl) fun _ => rfl,
        subset_append_left _ _⟩

theorem publishInventory_ran
    (h : publishInventory env w lease r = .ok w') : Ran renews late lease r w w' := by
  rcases publishInventory_ok h with ⟨rfl, -⟩ | ⟨a, i, s, fenced, unexpired, -, -, -, h⟩
  · exact .refl _
  · have live := fence_active fenced
    obtain ⟨effect, associations⟩ := settle_effect ids live h
    exact .of_fence fenced (fun _ => unexpired) effect associations

theorem publishUnchangedInventory_ran
    (h : publishUnchangedInventory w lease inventory source evidence r = .ok w') :
    Ran renews late lease r w w' := by
  rcases publishUnchangedInventory_ok h with rfl | ⟨a, i, e, fenced, unexpired, -, -, -, -, -, -, rfl⟩
  · exact .refl _
  · exact .of_row ids fenced (fun _ => unexpired) rfl rfl rfl (fun _ => rfl) (fun _ => rfl)
      (subset_append_left _ _)

theorem abortCapture_ran
    (h : abortCapture env w lease reason r = .ok w') : Ran renews late lease r w w' := by
  obtain ⟨a, fenced, h⟩ := abortCapture_ok h
  have live := fence_active fenced
  obtain ⟨-, id, -⟩ := fence_ok fenced
  set w₁ := w.setAttempt a.id fun a => { a with failureReason := some reason }
  have ids₁ : w₁.attempts.map (·.id) = w.attempts.map (·.id) := map_updateKey fun _ _ => rfl
  -- the publication finds the attempt again, now with the reason in its row
  have again : ∀ a' ∈ w₁.attempts, a'.id = lease.attemptId →
      a' = { a with failureReason := some reason } := by
    intro a' ha' id'
    rcases mem_updateKey.mp ha' with ⟨-, other⟩ | ⟨old, hold, same, rfl⟩
    · exact absurd (id'.trans id.symm) other
    · rw [inj_on_of_nodup_map ids hold live.1 same]
  rcases publishInventory_ok h with ⟨-, a', ha', id', terminal⟩ |
    ⟨a', i, s, fenced', unexpired, -, -, -, h⟩
  · rw [again a' ha' id'] at terminal
    exact absurd terminal live.2.not_terminal
  · have live' := fence_active fenced'
    obtain ⟨effect, associations⟩ := settle_effect (ids₁ ▸ ids) live' h
    rw [again a' live'.1 (fence_ok fenced').2.1] at unexpired
    exact .of_fence fenced (fun _ => unexpired) (effect.after (inPlace_setAttempt ids live
      (fun _ => rfl) fun _ => rfl) rfl rfl) associations

end

end

theorem transaction_ran (ids : (w.attempts.map (·.id)).Nodup)
    (leased : op.lease? = some lease) (h : transaction env w op r = .ok w') :
    Ran op.Renews op.Rechecks lease r w w' := by
  cases op with
  | beginCapture | storeObjects => cases leased
  | renewCapture _ seconds =>
    cases leased
    have effect := renewCapture_effect ids h
    obtain ⟨a, fenced, rfl⟩ := renewCapture_ok h
    exact .of_fence fenced False.elim effect (Subset.refl _)
  | stageVersions _ items vids =>
    cases leased
    exact stageVersions_ran ids h
  | copyVersions _ inventory source keys =>
    cases leased
    exact copyVersions_ran ids h
  | recordCaptureEvidence _ evidence =>
    cases leased
    obtain ⟨a, fenced, rfl⟩ := recordCaptureEvidence_ok h
    exact .of_row ids fenced False.elim rfl rfl rfl (fun _ => rfl) (fun _ => rfl) (Subset.refl _)
  | publishInventory _ =>
    cases leased
    exact publishInventory_ran ids h
  | publishUnchangedInventory _ inventory source evidence =>
    cases leased
    exact publishUnchangedInventory_ran ids h
  | suspendCapture _ owned related =>
    cases leased
    obtain ⟨a, fenced, rfl⟩ := suspendCapture_ok h
    exact .of_row ids fenced False.elim rfl rfl rfl (fun _ => rfl) (fun _ => rfl) (Subset.refl _)
  | abortCapture _ reason =>
    cases leased
    exact abortCapture_ran ids h

theorem transaction_effect (ids : (w.attempts.map (·.id)).Nodup)
    (other : ¬ op.StoresObjects) (h : transaction env w op r = .ok w') :
    Effect op.Renews r.now w w' := by
  cases leased : op.lease? with
  | some lease => exact (transaction_ran ids leased h).effect
  | none =>
    cases op with
    | beginCapture b => exact beginCapture_effect h
    | storeObjects objects => exact absurd trivial other
    | _ => cases leased

theorem transaction_associations (sound : Sound w) (h : transaction env w op r = .ok w') :
    w.associations ⊆ w'.associations := by
  cases leased : op.lease? with
  | some lease => exact (transaction_ran sound.attemptIds leased h).associations
  | none =>
    cases op with
    | beginCapture b =>
      obtain ⟨rfl, -, -⟩ := beginCapture_ok h
      obtain ⟨-, -, -, -, -, -, associations⟩ := supersede_sound (r := r) (b := b) sound
      exact associations ▸ List.Subset.refl _
    | storeObjects objects =>
      cases h
      exact Subset.refl _
    | _ => cases leased

end

variable {w w' : World} {env : Env} {lease : CaptureLease} {r : Reads}

theorem transaction_sound (sound : Sound w) (h : transaction env w op r = .ok w') : Sound w' := by
  cases op with
  | beginCapture b => exact beginCapture_sound sound h
  | renewCapture lease seconds => exact renewCapture_sound sound h
  | stageVersions lease items ids => exact stageVersions_sound sound h
  | copyVersions lease inventory source keys => exact copyVersions_sound sound h
  | recordCaptureEvidence lease evidence => exact recordCaptureEvidence_sound sound h
  | publishInventory lease => exact publishInventory_sound sound h
  | publishUnchangedInventory lease inventory source evidence =>
    exact publishUnchangedInventory_sound sound h
  | suspendCapture lease owned related => exact suspendCapture_sound sound h
  | abortCapture lease reason => exact abortCapture_sound sound h
  | storeObjects objects =>
    cases h
    exact sound.of_tables rfl rfl rfl rfl rfl

theorem step_sound (env : Env) (sound : Sound w) (e : Op × Reads) : Sound (step env w e) := by
  unfold step
  split
  case h_1 w' ran => exact transaction_sound sound ran
  case h_2 => exact sound

theorem play_sound (sound : Sound w) (events : List (Op × Reads)) :
    Sound (Concurrency.play (step env) w events) := by
  induction events generalizing w with
  | nil => exact sound
  | cons e events ih => exact ih (step_sound env sound e)

/-- A turn of a worker: a transaction of the catalogue, the discard of an attempt that was rejected,
or the restart of a capture. -/
inductive Turn
  | transaction (op : Op) (r : Reads)
  | reject (lease : CaptureLease) (reason : String) (r : Reads)
  | restart (lease : CaptureLease) (r : Reads)

-- the scope is the one the attempt was begun with
def discard (w : World) (lease : CaptureLease) (reason : String) : Except Refusal World := do
  let a ← orFail .conflict (w.attempt? lease.attemptId)
  discardAttempt w lease a.scope reason

def restart (w : World) (lease : CaptureLease) (r : Reads) : Except Refusal World := do
  let w ← renewCapture w lease 300 r
  discard w lease "source changed during bounded reconciliation"

namespace Turn

def lease? : Turn → Option CaptureLease
  | .transaction op _ => op.lease?
  | .reject lease _ _ | .restart lease _ => some lease

def reads : Turn → Reads
  | .transaction _ r | .reject _ _ r | .restart _ r => r

def Rechecks : Turn → Prop
  | .transaction op _ => op.Rechecks
  | _ => False

def run (env : Env) (w : World) : Turn → Except Refusal World
  | .transaction op r => Catalogue.transaction env w op r
  | .reject lease reason _ => discard w lease reason
  | .restart lease r => Catalogue.restart w lease r

/-- A rejected attempt is discarded under the lease it was made with. -/
def Held (w : World) : Turn → Prop
  | .reject lease _ r => ∃ a, fence w lease r = .ok a
  | _ => True

end Turn

def turn (env : Env) (w : World) (t : Turn) : World :=
  match t.run env w with
  | .ok w' => w'
  | .error _ => w

/-- The lease is that of the running attempt `a`. -/
def Holds (w : World) (lease : CaptureLease) (a : Attempt) : Prop :=
  Runs w a ∧ a.id = lease.attemptId ∧ a.stagedInventoryId = lease.stagedInventoryId

theorem fence_holds {a : Attempt} (h : fence w lease r = .ok a) :
    Holds w lease a ∧ Live w lease r.now := by
  obtain ⟨ha, id, generation, ⟨no, -⟩ | ⟨active, staged, unexpired⟩⟩ := fence_ok h
  · cases no
  · exact ⟨⟨⟨ha, active⟩, id, staged⟩, a, ha, id, generation, active, unexpired⟩

theorem discard_sound {a : Attempt} (sound : Sound w) (holds : Holds w lease a)
    (h : discard w lease reason = .ok w') : Sound w' ∧ w'.associations = w.associations := by
  obtain ⟨live, same, staged⟩ := holds
  obtain ⟨a', found, h⟩ := of_orFail h
  obtain ⟨ha', same'⟩ := mem_of_attempt? found
  obtain rfl := sound.eq_of_id ha' live.1 (same'.trans same.symm)
  obtain ⟨-, h⟩ := of_failIf h
  rw [← same, ← staged] at h
  cases h
  exact ⟨sound.retire live (Acts.unlink sound live fun _ => ⟨rfl, rfl, rfl⟩)
    sound.associationKeys rfl fun _ => id, rfl⟩

theorem renewCapture_holds {a : Attempt} (sound : Sound w) (holds : Holds w lease a)
    (h : renewCapture w lease seconds r = .ok w') : ∃ a', Holds w' lease a' := by
  obtain ⟨live, id, staged⟩ := holds
  obtain ⟨a', fenced, rfl⟩ := renewCapture_ok h
  obtain rfl := sound.eq_of_id (fence_active fenced).1 live.1 ((fence_ok fenced).2.1.trans id.symm)
  exact ⟨_, ⟨mem_updateKey.mpr (.inr ⟨a', live.1, rfl, rfl⟩), live.2⟩, id, staged⟩

theorem turn_sound (env : Env) (w : World) (t : Turn) (sound : Sound w) (held : t.Held w) :
    Sound (turn env w t) ∧ w.associations ⊆ (turn env w t).associations := by
  unfold turn
  split
  case h_2 => exact ⟨sound, Subset.refl _⟩
  case h_1 w' ran =>
    cases t with
    | transaction op r => exact ⟨transaction_sound sound ran, transaction_associations sound ran⟩
    | reject lease reason r =>
      obtain ⟨a, fenced⟩ := held
      obtain ⟨sound', kept⟩ := discard_sound sound (fence_holds fenced).1 ran
      exact ⟨sound', kept ▸ Subset.refl _⟩
    | restart lease r =>
      obtain ⟨w₁, renewed, ran⟩ := Relational.of_bind ran
      obtain ⟨a, fenced, -⟩ := renewCapture_ok renewed
      obtain ⟨a', holds⟩ := renewCapture_holds sound (fence_holds fenced).1 renewed
      obtain ⟨sound', kept⟩ := discard_sound (renewCapture_sound sound renewed) holds ran
      have renewed : transaction env w (.renewCapture lease 300) r = .ok w₁ := renewed
      exact ⟨sound', kept ▸ transaction_associations sound renewed⟩

theorem turns_sound (sound : Sound w) {turns : List Turn}
    (held : Concurrency.Along (turn env) (fun w t => t.Held w) w turns) :
    Sound (Concurrency.play (turn env) w turns) ∧
      w.associations ⊆ (Concurrency.play (turn env) w turns).associations :=
  ⟨held.invariant (fun w t sound held => (turn_sound env w t sound held).1) sound,
    held.related (R := fun w w' : World => w.associations ⊆ w'.associations)
      (fun _ => Subset.refl _) List.Subset.trans (turn_sound env) sound⟩

theorem turn_live (sound : Sound w) {t : Turn} (leased : t.lease? = some lease) (held : t.Held w)
    (changed : turn env w t ≠ w) :
    Live w lease t.reads.now ∧ (t.Rechecks → Live w lease t.reads.late) := by
  cases ran : t.run env w with
  | error refusal => exact absurd (by simp only [turn, ran]) changed
  | ok w' =>
    cases t with
    | transaction op r =>
      rcases (transaction_ran sound.attemptIds leased ran).live with same | live
      · exact absurd (by simp only [turn, ran, same]) changed
      · exact live
    | reject _ reason r =>
      cases leased
      obtain ⟨a, fenced⟩ := held
      exact ⟨(fence_holds fenced).2, False.elim⟩
    | restart _ r =>
      cases leased
      obtain ⟨w₁, renewed, -⟩ := Relational.of_bind ran
      obtain ⟨a, fenced, -⟩ := renewCapture_ok renewed
      exact ⟨(fence_holds fenced).2, False.elim⟩

/-- A chat has one active attempt and one terminal inventory, kept for good; a superseded or expired
lease writes nothing; a new capture removes the links of the attempt it supersedes and no others. -/
theorem captures_fenced (env : Env) (layout : Layout) (turns : List Turn)
    (held : Concurrency.Along (turn env) (fun w t => t.Held w) (World.empty layout) turns) :
    let w := Concurrency.play (turn env) (World.empty layout) turns
    (∀ a ∈ w.attempts, ∀ b ∈ w.attempts, a.scope.fence = b.scope.fence → Active a.state →
      Active b.state → a = b) ∧
    (∀ later, Concurrency.Along (turn env) (fun w t => t.Held w) w later → ∀ p ∈ w.associations,
      ∀ q ∈ (Concurrency.play (turn env) w later).associations, p.fence = q.fence → p = q) ∧
    (∀ t lease, Turn.lease? t = some lease → t.Held w → turn env w t ≠ w →
      Live w lease t.reads.now ∧ (t.Rechecks → Live w lease t.reads.late)) ∧
    (∀ b r w', beginCapture w b r = .ok w' → ∀ l, l ∈ w'.links ↔ l ∈ w.links ∧
      ∀ a ∈ w.attempts, a.scope.fence = b.scope.fence → Active a.state → l.writer ≠ a.id) := by
  intro w
  have sound : Sound w := (turns_sound (Sound.empty layout) held).1
  refine ⟨?_, ?_, fun t lease => turn_live sound, fun b r w' ran l => mem_links_beginCapture sound ran⟩
  · intro a ha b hb fences activeA activeB
    exact (sound.eq_of_fence ⟨ha, activeA⟩ ⟨hb, activeB⟩ fences.symm).symm
  · intro later held' p hp q hq fences
    obtain ⟨sound', kept⟩ := turns_sound sound held'
    exact inj_on_of_nodup_map sound'.associationKeys (kept hp) hq fences

def turnAt (now : Time) (op : Op) : Turn := .transaction op ⟨now, now, .ok ()⟩

def secondCapture : List Turn :=
  [turnAt 0 (.beginCapture ⟨chatOf 1, false, none, 1, 10, 20⟩),
    turnAt 0 (.stageVersions ⟨10, 1, 20⟩ [plainMessage "m1"] fun _ => 100),
    turnAt leaseTime (.beginCapture ⟨chatOf 1, false, none, 1, 11, 21⟩),
    turnAt leaseTime (.stageVersions ⟨11, 2, 21⟩ [plainMessage "m1"] fun _ => 101)]

def rejected (lease : CaptureLease) : Turn :=
  .reject lease "chat_copy rejected" ⟨leaseTime, leaseTime, .ok ()⟩

theorem secondCapture_fenced :
    let turns := secondCapture ++ [rejected ⟨11, 2, 21⟩]
    let w := Concurrency.play (turn plainEnv) (World.empty noOverlay) turns
    w.links = [] ∧ ∀ a ∈ w.attempts, ∀ b ∈ w.attempts, a.scope.fence = b.scope.fence →
      Active a.state → Active b.state → a = b :=
  ⟨by decide +kernel, (captures_fenced plainEnv noOverlay (secondCapture ++ [rejected ⟨11, 2, 21⟩])
    ⟨trivial, trivial, trivial, trivial, ⟨_, rfl⟩, trivial⟩).1⟩

/-- The first attempt's rejection takes away what the second has linked. -/
theorem superseded_discards :
    let w := Concurrency.play (turn plainEnv) (World.empty noOverlay) secondCapture
    let w' := turn plainEnv w (rejected ⟨10, 1, 20⟩)
    ¬ Live w ⟨10, 1, 20⟩ leaseTime ∧ Live w ⟨11, 2, 21⟩ leaseTime ∧
      w.links.map (·.writer) = [11] ∧ w'.links = [] := by
  unfold Live
  decide +kernel

/-- What a live attempt has linked into its snapshot, each item once, is what its staging inventory
lists. -/
theorem live_links_staged (env : Env) (layout : Layout) (events : List (Op × Reads)) :
    let w := Concurrency.play (step env) (World.empty layout) events
    ∀ a ∈ w.attempts, Active a.state → ∀ key version,
      (⟨a.stagedInventoryId, key, version⟩ ∈ w.entries ↔ ∃! l, l ∈ w.links ∧ l.writer = a.id ∧
        l.snapshotId = a.scope.snapshotId ∧ l.externalId = key ∧ l.chatVersionId = version) := by
  intro w a ha active key version
  have sound : Sound w := play_sound (Sound.empty layout) events
  constructor
  · intro entry
    obtain ⟨l, hl, writer, snapshot, rfl, rfl⟩ := sound.covered a ha active _ entry rfl
    refine ⟨l, ⟨hl, writer, snapshot, rfl, rfl⟩, ?_⟩
    rintro l' ⟨hl', -, snapshot', key, -⟩
    exact sound.keyed l' hl' l hl (snapshot'.trans snapshot.symm) key
  · rintro ⟨l, ⟨hl, writer, -, rfl, rfl⟩, -⟩
    exact (sound.written a ha active l hl writer).2

end TmVault.Catalogue
