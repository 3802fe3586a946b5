import TmVault.Provider.Fence

namespace TmVault.Provider

open Relational Concurrency Store Work List

def unitId (u : ProviderWorkUnit) : Uuid × String := (u.workId, u.unitKey)

def unit? (w : World) (workId : Uuid) (key : String) : Option ProviderWorkUnit :=
  w.units.find? fun u => unitId u = (workId, key)

def UnitsDone (w : World) (id : Uuid) : Prop := ∀ u ∈ w.units, u.workId = id → u.state = .completed

def IsCompleted (w : World) (id : Uuid) : Prop := ∃ r ∈ w.works, r.id = id ∧ r.state = .completed

structure Keyed (w : World) : Prop where
  works : (w.works.map (·.id)).Nodup
  units : (w.units.map unitId).Nodup

/-- Completed units stay as they are, one that changes belongs to no completed work item, and a work
item becomes completed only when all of its units are. -/
structure Settles (w w' : World) : Prop where
  keyed : Keyed w → Keyed w'
  kept : ∀ u ∈ w.units, u.state = .completed → u ∈ w'.units
  works : ∀ id, IsCompleted w' id → IsCompleted w id ∨ UnitsDone w' id
  units : ∀ u ∈ w'.units, u ∈ w.units ∨ u.state = .completed ∨ ¬ IsCompleted w' u.workId

variable {w w' : World} {now : Time} {id : Uuid} {r row : ProviderWork} {leaf : Leaf} {owner : Uuid}
  {f : ProviderWork → ProviderWork} {leaseSeconds : Nat}
  {result : Except Failure (World × ProviderClaim)} {control : ProviderWorkControl}
  {expiresAt : Option Time} {locked busy : List Uuid} {t : Time}

theorem Settles.of_eq (works : w'.works = w.works) (units : w'.units = w.units) : Settles w w' := by
  refine ⟨fun ⟨ids, keys⟩ => ⟨works ▸ ids, units ▸ keys⟩, fun u hu _ => units ▸ hu, ?_, ?_⟩
  · rintro id ⟨r, hr, completed⟩
    exact .inl ⟨r, works ▸ hr, completed⟩
  · exact fun u hu => .inl (units ▸ hu)

theorem Settles.refl (w : World) : Settles w w := .of_eq rfl rfl

theorem Settles.trans (first : Settles w w') (second : Settles w' w'') : Settles w w'' := by
  refine ⟨second.keyed ∘ first.keyed, fun u hu done => second.kept u (first.kept u hu done) done, ?_, ?_⟩
  · intro id completed
    rcases second.works id completed with earlier | done
    · rcases first.works id earlier with earlier | done
      · exact .inl earlier
      · refine .inr fun u hu same => ?_
        rcases second.units u hu with old | done' | isNot
        · exact done u old same
        · exact done'
        · exact absurd (same ▸ completed) isNot
    · exact .inr done
  · intro u hu
    rcases second.units u hu with old | done | isNot
    · rcases first.units u old with older | done | isNot
      · exact .inl older
      · exact .inr (.inl done)
      · -- the work item may have been completed since, but then by the second part
        by_cases completed : IsCompleted w'' u.workId
        · rcases second.works _ completed with earlier | done
          · exact absurd earlier isNot
          · exact .inr (.inl (done u hu rfl))
        · exact .inr (.inr completed)
    · exact .inr (.inl done)
    · exact .inr (.inr isNot)

theorem not_isCompleted (keyed : Keyed w) (h : w.work? id = some row) (open_ : row.state ≠ .completed) :
    ¬ IsCompleted w id := by
  rintro ⟨r, hr, hid, completed⟩
  have found : w.work? id = some r := (find?_key_eq_some keyed.works).mpr ⟨hr, hid⟩
  cases h.symm.trans found
  exact open_ completed

def Earns (w : World) (id : Uuid) (f : ProviderWork → ProviderWork) : Prop :=
  ∀ r, (f r).state = .completed → r.state = .completed ∨ UnitsDone w id

theorem settles_updateWork (keeps : ∀ r, (f r).id = r.id) (completes : Earns w id f) :
    Settles w (w.updateWork id f) := by
  refine ⟨fun ⟨ids, keys⟩ => ⟨?_, keys⟩, fun u hu _ => hu, ?_, fun u hu => .inl hu⟩
  · rw [World.updateWork, map_updateKey fun r _ => keeps r]
    exact ids
  · rintro k ⟨r, hr, rfl, completed⟩
    rcases mem_updateKey.mp hr with ⟨hr, -⟩ | ⟨old, hold, same, rfl⟩
    · exact .inl ⟨r, hr, rfl, completed⟩
    · rw [keeps old]
      rcases completes old completed with earlier | done
      · exact .inl ⟨old, hold, rfl, earlier⟩
      · exact .inr (same ▸ done)

def runningOf (w : World) (t : Time) (tenants : Uuid → Bool) : Nat :=
  w.works.countP fun r => tenants r.tenantId && running t r

def Calms (t : Time) (w w' : World) : Prop := ∀ tenants, runningOf w' t tenants ≤ runningOf w t tenants

theorem Calms.of_eq (works : w'.works = w.works) : Calms t w w' := by
  intro tenants
  rw [runningOf, runningOf, works]

theorem Calms.refl (w : World) : Calms t w w := .of_eq rfl

theorem Calms.trans (first : Calms t w w') (second : Calms t w' w'') : Calms t w w'' :=
  fun tenants => (second tenants).trans (first tenants)

theorem calms_updateWork (keeps : ∀ r, (f r).tenantId = r.tenantId)
    (runs : ∀ r ∈ w.works, r.id = id → running t (f r) → running t r) :
    Calms t w (w.updateWork id f) := by
  intro tenants
  refine countP_updateKey_le fun r hr same counted => ?_
  simp only [Bool.and_eq_true] at counted ⊢
  exact ⟨keeps r ▸ counted.1, runs r hr same counted.2⟩

/-- A transaction that starts no turn, at a time `t`. -/
def Steady (t : Time) (w w' : World) : Prop := Settles w w' ∧ Calms t w w'

theorem Steady.of_eq (works : w'.works = w.works) (units : w'.units = w.units) : Steady t w w' :=
  ⟨.of_eq works units, .of_eq works⟩

theorem Steady.refl (w : World) : Steady t w w := .of_eq rfl rfl

theorem Steady.trans (first : Steady t w w') (second : Steady t w' w'') : Steady t w w'' :=
  ⟨first.1.trans second.1, first.2.trans second.2⟩

theorem steady_updateWork (keeps : ∀ r, (f r).id = r.id ∧ (f r).tenantId = r.tenantId)
    (completes : Earns w id f) (runs : ∀ r ∈ w.works, r.id = id → running t (f r) → running t r) :
    Steady t w (w.updateWork id f) :=
  ⟨settles_updateWork (fun r => (keeps r).1) completes, calms_updateWork (fun r => (keeps r).2) runs⟩

theorem steady_end (keeps : ∀ r, (f r).id = r.id ∧ (f r).tenantId = r.tenantId)
    (completes : Earns w id f)
    (ends : ∀ r, running t (f r) = false) : Steady t w (w.updateWork id f) := by
  refine steady_updateWork keeps completes fun r _ _ runs => ?_
  rw [ends r] at runs
  cases runs

theorem isCompleted_updateWork
    (state : ∀ r, (f r).state ≠ .completed) : ¬ IsCompleted (w.updateWork id f) id := by
  rintro ⟨r, hr, same, completed⟩
  rcases mem_updateKey.mp hr with ⟨-, other⟩ | ⟨old, -, -, rfl⟩
  · exact other same
  · exact state old completed

theorem settles_units {f : ProviderWorkUnit → ProviderWorkUnit} {named : ProviderWorkUnit → Bool}
    (keeps : ∀ u, unitId (f u) = unitId u) (ofWork : ∀ u, named u → u.workId = id)
    (unfinished : ∀ u ∈ w.units, named u → u.state ≠ .completed) (isNot : ¬ IsCompleted w id) :
    Settles w { w with units := w.units.map fun u => if named u then f u else u } := by
  refine ⟨fun ⟨ids, keys⟩ => ⟨ids, ?_⟩, ?_, fun k completed => .inl completed, ?_⟩
  · rw [List.map_map, List.map_congr_left fun u _ => (?_ : _ = unitId u)]
    · exact keys
    · rw [Function.comp_apply]
      split
      · exact keeps u
      · rfl
  · exact fun u hu done => mem_map.mpr ⟨u, hu, if_neg fun h => unfinished u hu h done⟩
  · intro u' hu'
    obtain ⟨u, hu, rfl⟩ := mem_map.mp hu'
    split
    · rename_i changed
      have same : (f u).workId = id := (congrArg Prod.fst (keeps u)).trans (ofWork u changed)
      exact .inr (.inr (same ▸ isNot))
    · exact .inl hu

theorem settles_openUnits {f : ProviderWorkUnit → ProviderWorkUnit}
    (keeps : ∀ u, unitId (f u) = unitId u) (isNot : ¬ IsCompleted w id) :
    Settles w { w with units := w.units.map fun u =>
      if u.workId = id && u.state.isOpen then f u else u } := by
  refine settles_units keeps (fun u named => ?_) (fun u _ named completed => ?_) isNot
  · simp only [Bool.and_eq_true, decide_eq_true_eq] at named
    exact named.1
  · simp [completed, UnitState.isOpen] at named

theorem steady_failUnits (isNot : ¬ IsCompleted w id) : Steady t w (failUnits w id state) :=
  ⟨settles_openUnits (fun _ => rfl) isNot, .of_eq rfl⟩

theorem settles_charge : Settles w (charge w r amount) := .of_eq rfl rfl

theorem writeLease_units : (w.writeLease leaf token o expiresAt).units = w.units := by
  rw [World.writeLease]
  split <;> rfl

theorem steady_writeLease : Steady t w (w.writeLease leaf token o expiresAt) :=
  .of_eq writeLease_works writeLease_units

/-- What a transaction that starts no turn does, at a time `t`. -/
def Commits (t : Time) (w w' : World) : Prop := Advance w w' ∧ (Keyed w → Steady t w w')

theorem Commits.refl (w : World) : Commits t w w := ⟨.refl w, fun _ => .refl w⟩

theorem Commits.trans (first : Commits t w w') (second : Commits t w' w'') : Commits t w w'' :=
  ⟨first.1.trans second.1, fun keyed =>
    (first.2 keyed).trans (second.2 ((first.2 keyed).1.keyed keyed))⟩

theorem commits_updateWork (keeps : ∀ r, Touches r (f r)) (completes : Earns w id f)
    (runs : Keyed w → ∀ r ∈ w.works, r.id = id → running t (f r) → running t r) :
    Commits t w (w.updateWork id f) := by
  refine ⟨advance_touch keeps, fun keyed => steady_updateWork (fun r => ⟨?_, (keeps r).tenantId⟩)
    completes (runs keyed)⟩
  exact congrArg WorkKey.id (keeps r).key

theorem commits_end (keeps : ∀ r, Touches r (f r)) (completes : Earns w id f)
    (ends : ∀ r, running t (f r) = false) : Commits t w (w.updateWork id f) := by
  refine commits_updateWork keeps completes fun _ r _ _ runs => ?_
  rw [ends r] at runs
  cases runs

theorem commits_writeLease (up : ∀ t, w.leaseToken? leaf = some t → t ≤ token) :
    Commits t w (w.writeLease leaf token o expiresAt) := ⟨advance_writeLease up, fun _ => steady_writeLease⟩

theorem steady_release (prior : reserved.prior.1 ≠ .completed)
    (idle : ¬ (held reserved.prior.1 && reserved.prior.2.2.any (t < ·)) = true) :
    Steady t w (release w row reserved) := by
  have back : Steady t w (w.updateWork row.id fun r =>
      { r with
        state := reserved.prior.1, leaseOwnerId := reserved.prior.2.1
        leaseExpiresAt := reserved.prior.2.2 }) :=
    steady_end (fun _ => ⟨rfl, rfl⟩) (fun _ completed => absurd completed prior)
      fun _ => Bool.eq_false_of_not_eq_true idle
  exact back.trans (.of_eq rfl rfl)

theorem ensureWork_ok {req : EnsureRequest} (h : ensureWork w now id req = .ok (w', c)) :
    Commits t w w' ∧ ∃ row ∈ w'.works, c = receipt row := by
  unfold ensureWork at h
  split at h
  · cases h
  rename_i p hp
  split at h
  · cases h
  split at h
  · cases h
  split at h
  · rename_i existing found
    cases h
    exact ⟨.refl w, existing, mem_of_find?_eq_some found, rfl⟩
  dsimp only at h
  split at h
  · cases h
  split at h
  · cases h
  split at h
  · cases h
  rename_i fresh
  split at h
  · cases h
  cases h
  have token : w.leaseToken? p.leaf = some p.leaseToken :=
    (parents_leaf hp).symm ▸ parents_leaseToken hp
  refine ⟨Commits.trans ⟨advance_insertWork (by simpa using fresh) token, ?_⟩ (commits_writeLease ?_),
    _, ?_, rfl⟩ <;> obtain ⟨queues, control, inserted⟩ := insertWork_eq <;> rw [inserted]
  · refine fun _ => ⟨⟨fun ⟨ids, keys⟩ => ⟨?_, keys⟩, fun u hu _ => hu, ?_, fun u hu => .inl hu⟩,
      fun tenants => ?_⟩
    · exact nodup_snoc ids (by simpa using fresh)
    · rintro k ⟨r, hr, same, completed⟩
      rcases mem_append.mp hr with hr | hr
      · exact .inl ⟨r, hr, same, completed⟩
      · cases mem_singleton.mp hr
        cases completed
    · rw [runningOf, countP_append, countP_singleton]
      simp [running, held, runningOf]
  · exact fun t ht => (Option.mem_unique ht token).le
  · rw [writeLease_works]
    exact mem_append_right _ (mem_singleton_self _)

theorem warmUp_tables : (warmUp now w r).works = (w.updateWork r.id fun r =>
      { r with continuation := { r.continuation with queueWasCooling := false } }).works ∧
    (warmUp now w r).units = w.units := by
  have lifted (keys : List QueueKey) (lift : World → QueueKey → World)
      (step : ∀ w key, (lift w key).works = w.works ∧ (lift w key).units = w.units) :
      ∀ w, (keys.foldl lift w).works = w.works ∧ (keys.foldl lift w).units = w.units := by
    induction keys with
    | nil => exact fun _ => ⟨rfl, rfl⟩
    | cons key keys ih =>
      exact fun w => ⟨(ih _).1.trans (step w key).1, (ih _).2.trans (step w key).2⟩
  refine (lifted _ _ (fun w key => ?_) w).imp_left (congrArg (updateKey _ _ _))
  split <;> exact ⟨rfl, rfl⟩

theorem settles_warmUp : Settles w (warmUp now w r) := by
  refine Settles.trans ?_ (.of_eq warmUp_tables.1 warmUp_tables.2)
  exact settles_updateWork (fun _ => rfl) fun _ => .inl

theorem nextDue_due {locked skipped : List Uuid}
    (h : nextDue w control now locked skipped = some row) : due now row := by
  have chosen := (mem_filter.mp (orderByFirst_mem h)).2
  simp only [Bool.and_eq_true] at chosen
  exact chosen.1.1.1.1.2

theorem not_completed_of_due (h : due now r) : r.state ≠ .completed := by
  intro completed
  simp [due, completed, held] at h

theorem reserveLoop_ok {expiresAt : Time} (fuel : Nat) (skipped : List Uuid) :
    let result := reserveLoop control now locked busy owner expiresAt fuel skipped w
    (Advance w result.1 ∧ Settles w result.1) ∧ ∀ reserved, result.2 = some reserved →
      (Sound w → Reserved result.1 reserved) ∧ reserved.prior.1 ≠ .completed := by
  induction fuel generalizing skipped w with
  | zero => exact ⟨⟨.refl w, .refl w⟩, fun _ h => nomatch h⟩
  | succ fuel ih =>
    unfold reserveLoop
    split
    · exact ⟨⟨.refl w, .refl w⟩, fun _ h => nomatch h⟩
    rename_i row next
    split
    · exact ih _
    split
    · obtain ⟨rest, hands⟩ := @ih (warmUp now w row) skipped
      exact ⟨⟨advance_warmUp.trans rest.1, settles_warmUp.trans rest.2⟩, fun reserved h =>
        (hands reserved h).imp_left (· ∘ fun sound => (advance_warmUp sound).1)⟩
    · have turn : Advance w (w.updateWork row.id fun r =>
          { r with
            state := .resuming, leaseOwnerId := some owner, leaseExpiresAt := some expiresAt
            generation := r.generation + 1 }) :=
        advance_touch fun r => ⟨rfl, rfl, rfl, rfl, r.generation.le_succ⟩
      have whole := turn.trans (@advance_charge _ row 1)
      refine ⟨⟨whole, Settles.trans (settles_updateWork ?_ ?_) settles_charge⟩, ?_⟩
      · exact fun _ => rfl
      · exact fun _ completed => nomatch completed
      · rintro _ ⟨⟩
        refine ⟨fun sound => ?_, not_completed_of_due (nextDue_due next)⟩
        have known := fence_of_work (work?_of_mem sound (nextDue_mem next))
        obtain ⟨b, hb, -⟩ := (whole sound).2.1 _ _ known
        exact ⟨_, b, hb, rfl, rfl⟩

theorem reserveDueWork_ok {enabled : Bool} :
    let result := reserveDueWork w now enabled locked busy owner leaseSeconds
    (Advance w result.1 ∧ Settles w result.1) ∧ ∀ reserved, result.2 = some reserved →
      (Sound w → Reserved result.1 reserved) ∧ reserved.prior.1 ≠ .completed := by
  have control : Advance w { w with control := some (w.control.getD { enabled }) } :=
    .of_eq rfl rfl rfl
  have settled : Settles w { w with control := some (w.control.getD { enabled }) } := .of_eq rfl rfl
  unfold reserveDueWork
  dsimp only
  split
  · exact ⟨⟨control, settled⟩, fun _ h => nomatch h⟩
  · obtain ⟨rest, hands⟩ := @reserveLoop_ok _ now owner (w.control.getD { enabled }) locked busy
      (now + seconds leaseSeconds) 64 []
    exact ⟨⟨control.trans rest.1, settled.trans rest.2⟩, fun reserved h =>
      (hands reserved h).imp_left (· ∘ fun sound => (control sound).1)⟩

theorem unitsDone_of_endedState (h : endedState w p row = .completed) : UnitsDone w row.id := by
  unfold endedState at h
  split at h
  · cases h
  split at h
  · cases h
  split at h
  · cases h
  rename_i outcome _ _ gaps
  intro u hu same
  by_contra open_
  simp only [h, decide_true, Bool.true_and, any_eq_true, Bool.and_eq_true, decide_eq_true_eq,
    not_exists, not_and] at gaps
  exact gaps u hu same open_

theorem unitsDone_failUnits (done : UnitsDone w id) : UnitsDone (failUnits w id state) id := by
  intro u' hu' same
  obtain ⟨u, hu, rfl⟩ := mem_map.mp hu'
  split at same
  · rename_i changed
    simp only [Bool.and_eq_true, decide_eq_true_eq] at changed
    simp [done u hu changed.1, UnitState.isOpen] at changed
  · rename_i unchanged
    rw [if_neg unchanged]
    exact done u hu same

theorem startPartition_units : (startPartition w leaf).units = w.units := by
  rw [startPartition]
  split <;> rfl

theorem takeLeaf_tables (w : World) (p : Parents) (row : ProviderWork) (owner : Uuid) :
    ∃ f : ProviderWork → ProviderWork,
    (∀ r, ((f r).id = r.id ∧ (f r).tenantId = r.tenantId) ∧ (f r).state = r.state ∧
      (f r).leaseExpiresAt = r.leaseExpiresAt) ∧
    (takeLeaf w p row owner).works = (w.updateWork row.id f).works ∧
    (takeLeaf w p row owner).units = w.units := by
  have works : ((startPartition w row.leaf).writeLease row.leaf (p.leaseToken + 1) (some owner)
      row.leaseExpiresAt).works = w.works := writeLease_works.trans startPartition_works
  have units : ((startPartition w row.leaf).writeLease row.leaf (p.leaseToken + 1) (some owner)
      row.leaseExpiresAt).units = w.units := writeLease_units.trans startPartition_units
  refine ⟨fun r =>
    { r with
      parentLeaseToken := p.leaseToken + 1
      snapshotLeaseToken := if p.partition.isSome then p.snapshot.leaseToken else p.leaseToken + 1
      jobLeaseToken := p.job.leaseToken }, fun r => ⟨⟨rfl, rfl⟩, rfl, rfl⟩, ?_⟩
  unfold takeLeaf
  dsimp only
  split <;> exact ⟨congrArg (updateKey _ _ _) works, units⟩

theorem steady_takeLeaf : Steady t w (takeLeaf w p row owner) := by
  obtain ⟨f, keeps, works, units⟩ := takeLeaf_tables w p row owner
  have taken : Steady t w (w.updateWork row.id f) :=
    steady_updateWork (fun r => (keeps r).1) (fun r completed => .inl ((keeps r).2.1 ▸ completed))
      fun r _ _ runs => by rwa [running, (keeps r).2.1, (keeps r).2.2] at runs
  exact taken.trans (.of_eq works units)

theorem not_held_endedState (w : World) (p : Parents) (row : ProviderWork) :
    held (endedState w p row) = false := by
  unfold endedState
  split
  · rfl
  · rename_i outcome ended
    split
    · rfl
    split
    · rfl
    · rw [Parents.outcome] at ended
      split at ended <;> split at ended <;> cases ended <;> rfl

theorem admitReserved_ok {busy : Bool} :
    let result := admitReserved w busy reserved owner
    ((Reserved w reserved → Advance w result.1) ∧
      ∀ c, result.2 = some c → ∃ row ∈ result.1.works, c = receipt row) ∧
    (reserved.prior.1 ≠ .completed →
      ¬ (held reserved.prior.1 && reserved.prior.2.2.any (t < ·)) = true → Steady t w result.1) := by
  unfold admitReserved
  split
  · exact ⟨⟨fun _ => .refl w, fun _ h => nomatch h⟩, fun _ _ => .refl w⟩
  rename_i row hrow
  have found : w.work? reserved.workId = some row := (Option.filter_eq_some_iff.mp hrow).1
  split
  · exact ⟨⟨fun _ => advance_release, fun _ h => nomatch h⟩, steady_release⟩
  rename_i p hp
  split
  · refine ⟨⟨fun _ => Advance.trans (advance_release.trans (@advance_failUnits _ row.id .failed))
      (advance_touch ?_), fun _ h => nomatch h⟩, fun prior idle => ?_⟩
    · exact fun r => ⟨rfl, rfl, rfl, rfl, r.generation.le_succ⟩
    -- the leaf has ended: the row is completed only if no unit is left
    have isNot : ¬ IsCompleted (release w row reserved) row.id := isCompleted_updateWork fun _ => prior
    refine ((steady_release prior idle).trans (steady_failUnits isNot)).trans (steady_end ?_ ?_ ?_)
    · exact fun _ => ⟨rfl, rfl⟩
    · intro _ completed
      have done : UnitsDone (release w row reserved) row.id := unitsDone_of_endedState (w := w) completed
      exact .inr (unitsDone_failUnits done)
    · intro _
      rw [running, not_held_endedState, Bool.false_and]
  split
  · refine ⟨⟨fun _ => Advance.trans advance_release (advance_touch ?_), fun _ h => nomatch h⟩,
      fun prior idle => (steady_release prior idle).trans (steady_end ?_ ?_ ?_)⟩
    · exact fun r => ⟨rfl, rfl, rfl, rfl, r.generation.le_succ⟩
    · exact fun _ => ⟨rfl, rfl⟩
    · exact fun _ completed => nomatch completed
    · exact fun _ => rfl
  split
  · exact ⟨⟨fun _ => advance_release, fun _ h => nomatch h⟩, steady_release⟩
  refine ⟨⟨fun known => ?_, fun c hc => ?_⟩, fun _ _ => ?_⟩
  · obtain ⟨row', found', hleaf⟩ := known.work
    cases found.symm.trans found'
    have key : row.id = reserved.workId := of_find? found
    have parents : (supersedeCaptures w p row).parents row.leaf = some p := by
      cases busy with
      | true => cases hp
      | false => exact hleaf ▸ hp
    exact advance_supersedeCaptures.trans (advance_takeLeaf (key ▸ found) parents)
  · obtain ⟨r, hr, rfl⟩ := Option.map_eq_some_iff.mp hc
    exact ⟨r, mem_of_find?_eq_some hr, rfl⟩
  · have superseded : Steady t w (supersedeCaptures w p row) := .of_eq rfl rfl
    exact superseded.trans steady_takeLeaf

theorem not_isCompleted_of_owned (keyed : Keyed w) (h : owned w now b claim = .ok (row, p)) :
    ¬ IsCompleted w row.id ∧ row.id = claim.workId := by
  obtain ⟨-, found, -, -, -, runs⟩ := owned_ok h
  have key : row.id = claim.workId := of_find? found
  refine ⟨not_isCompleted keyed (key ▸ found) ?_, key⟩
  intro completed
  simp [running, completed, held] at runs

theorem running_mono (le : t ≤ now) (h : running now r) : running t r := by
  simp only [running, Bool.and_eq_true, Option.any_eq_true_iff_get, decide_eq_true_eq] at h ⊢
  obtain ⟨held, some, lt⟩ := h
  exact ⟨held, some, le.trans_lt lt⟩

theorem commits_renewWork (le : t ≤ now)
    (h : renewWork w now leafBusy claim leaseSeconds = .ok w') : Commits t w w' := by
  unfold renewWork at h
  obtain ⟨⟨row, p⟩, ho, h⟩ := of_bind h
  cases h
  obtain ⟨hp, found, -, -, -, runs⟩ := owned_ok ho
  have touched : Commits t w (w.updateWork row.id fun r =>
      { r with leaseExpiresAt := some (now + seconds leaseSeconds) }) := by
    refine commits_updateWork (fun _ => ⟨rfl, rfl, rfl, rfl, le_rfl⟩)
      (fun _ => .inl) fun keyed r hr same _ => ?_
    have key : row.id = claim.workId := of_find? found
    have : w.work? claim.workId = some r := (find?_key_eq_some keyed.works).mpr ⟨hr, same.trans key⟩
    cases found.symm.trans this
    exact running_mono le runs
  split
  · exact touched
  · refine touched.trans (commits_writeLease fun t ht => ?_)
    exact (Option.mem_unique ht (parents_leaseToken hp)).le

theorem settles_insertUnit (fresh : unitId unit ∉ w.units.map unitId)
    (isNot : ¬ IsCompleted w unit.workId) : Settles w { w with units := w.units ++ [unit] } := by
  refine ⟨fun ⟨ids, keys⟩ => ⟨ids, ?_⟩, fun u hu _ => mem_append_left _ hu,
    fun k completed => .inl completed, fun u hu => ?_⟩
  · exact nodup_snoc keys fresh
  · rcases mem_append.mp hu with hu | hu
    · exact .inl hu
    · cases mem_singleton.mp hu
      exact .inr (.inr isNot)

theorem commits_recordUnitCheckpoint
    (h : recordUnitCheckpoint w now claim checkpoint = .ok w') : Commits t w w' := by
  unfold recordUnitCheckpoint at h
  obtain ⟨⟨row, p⟩, ho, h⟩ := of_bind h
  dsimp only at h
  split at h
  · cases h
  split at h
  · cases h
  split at h
  · split at h
    · cases h
    · cases h
      exact .refl w
  rename_i unfinished
  obtain ⟨next, _, written⟩ := of_bind h
  cases written
  refine ⟨.of_eq rfl rfl rfl, fun keyed => ?_⟩
  obtain ⟨isNot, rowId⟩ := not_isCompleted_of_owned keyed ho
  rw [rowId] at isNot
  have named (u : ProviderWorkUnit) :
      (decide (u.workId = claim.workId) && decide (u.unitKey = checkpoint.unitKey)) = true ↔
        unitId u = (claim.workId, checkpoint.unitKey) := by simp [unitId]
  have ofWork (u : ProviderWorkUnit)
      (h : (decide (u.workId = claim.workId) && decide (u.unitKey = checkpoint.unitKey)) = true) :
      u.workId = claim.workId := congrArg Prod.fst ((named u).mp h)
  cases known : w.units.find? fun u =>
      decide (u.workId = claim.workId) && decide (u.unitKey = checkpoint.unitKey) with
  | some unit =>
    rw [known, Option.getD_some] at unfinished
    have found := (named unit).mp (find?_some (p := fun u : ProviderWorkUnit =>
      decide (u.workId = claim.workId) && decide (u.unitKey = checkpoint.unitKey)) known)
    refine ⟨settles_units (fun _ => rfl) ofWork (fun u hu hn => ?_) isNot, .of_eq rfl⟩
    have same : unitId u = unitId unit := ((named u).mp hn).trans found.symm
    rw [inj_on_of_nodup_map keyed.units hu (mem_of_find?_eq_some known) same]
    exact unfinished
  | none =>
    have absent (u : ProviderWorkUnit) (hu : u ∈ w.units) :
        unitId u ≠ (claim.workId, checkpoint.unitKey) :=
      fun same => find?_eq_none.mp known u hu ((named u).mpr same)
    have inserted : Settles w { w with units := w.units ++ [{
        workId := claim.workId, unitKey := checkpoint.unitKey, kind := checkpoint.kind
        sourceVersion := checkpoint.sourceVersion, deadlineAt := checkpoint.deadlineAt
        nextEligibleAt := now }] } := settles_insertUnit (fun mem => by
      obtain ⟨u, hu, same⟩ := mem_map.mp mem
      exact absent u hu same) isNot
    refine ⟨inserted.trans (settles_units (fun _ => rfl) ofWork (fun u hu hn => ?_) isNot), .of_eq rfl⟩
    rcases mem_append.mp hu with hu | hu
    · exact absurd ((named u).mp hn) (absent u hu)
    · cases mem_singleton.mp hu
      exact UnitState.noConfusion

theorem suspendCurrentWork_ok {next : Time}
    (h : suspendCurrentWork w now claim next reason continuation = .ok (w', c)) :
    ((Sound w → Issued (fence w) claim.ticket → Advance w w') ∧ ∃ row ∈ w'.works, c = receipt row) ∧
      (Keyed w → Steady t w w') := by
  unfold suspendCurrentWork at h
  split at h
  · rename_i hint found
    cases h
    have mem := mem_of_find?_eq_some (Option.filter_eq_some_iff.mp found).1
    exact ⟨⟨fun _ _ => .refl w, hint, mem, rfl⟩, fun _ => .refl w⟩
  obtain ⟨⟨row, p⟩, ho, continuation, -, h⟩ := of_bind₂ h
  cases h
  obtain ⟨hp, found, -⟩ := owned_ok ho
  refine ⟨⟨fun sound issued => ?_, _, mem_updateKey.mpr (.inr ⟨row, ?_, rfl, rfl⟩), rfl⟩,
    fun keyed => ?_⟩
  · have key : row.id = claim.workId := of_find? found
    have leafEq : row.leaf = claim.leaf := (current_of_owned sound issued ho).2.1
    have postponed : Advance w (postponeUnits w now row.id next) := .of_eq rfl rfl rfl
    refine postponed.trans ?_
    rw [← leafEq] at hp ⊢
    exact advance_follow (key ▸ found) (parents_leaseToken hp) (fun _ => rfl)
      (fun r => r.generation.le_succ) fun _ => rfl
  · rw [writeLease_works]
    exact mem_of_find?_eq_some found
  · have postponed : Steady t w (postponeUnits w now row.id next) :=
      ⟨settles_openUnits (fun _ => rfl) (not_isCompleted_of_owned keyed ho).1, .of_eq rfl⟩
    refine (postponed.trans steady_writeLease).trans (steady_end ?_ ?_ ?_)
    · exact fun _ => ⟨rfl, rfl⟩
    · exact fun _ completed => nomatch completed
    · exact fun _ => rfl

theorem unitsDone_of_none_left
    (noneOpen : ¬ (w.units.any fun u => u.workId = id && u.state.isOpen) = true)
    (noGap : ¬ (w.units.any fun u => u.workId = id && u.state ∈ [.failed, .cancelled]) = true) :
    UnitsDone w id := by
  intro u hu same
  simp only [any_eq_true, Bool.and_eq_true, decide_eq_true_eq, not_exists, not_and] at noneOpen noGap
  have closed := noneOpen u hu same
  have noGap := noGap u hu same
  cases state : u.state <;> simp_all [UnitState.isOpen]

theorem commits_finishWork (h : finishWork w now claim state = .ok w') : Commits t w w' := by
  unfold finishWork at h
  obtain ⟨⟨row, p⟩, -, h⟩ := of_bind h
  dsimp only at h
  split at h
  · cases h
  split at h
  · cases h
  rename_i noneOpen
  cases h
  refine commits_end ?_ ?_ ?_
  · exact fun _ => ⟨rfl, rfl, rfl, rfl, le_rfl⟩
  · intro _ (completed : (if state ≠ .completed then state else _) = .completed)
    refine .inr (unitsDone_of_none_left noneOpen fun gaps => ?_)
    split at completed
    · contradiction
    split at completed
    · cases completed
    · rw [gaps] at completed
      cases completed
  · exact fun _ => Bool.and_false _

theorem endLeaf_works : (endLeaf w p).works = w.works ∧ (endLeaf w p).units = w.units := by
  unfold endLeaf
  split
  · exact ⟨rfl, rfl⟩
  split <;> exact ⟨rfl, rfl⟩

theorem commits_failExhaustedWork (h : failExhaustedWork w now claim = .ok w') : Commits t w w' := by
  unfold failExhaustedWork at h
  obtain ⟨⟨row, p⟩, ho, finished, hf, h⟩ := of_bind₂ h
  cases h
  have failed : Commits t w (failCopies (failUnits w row.id .failed) p row) :=
    ⟨advance_failUnits.trans advance_failCopies, fun keyed => Steady.trans
      (steady_failUnits (not_isCompleted_of_owned keyed ho).1) (.of_eq rfl rfl)⟩
  have ended := failed.trans ⟨@advance_endLeaf _ p, fun _ => .of_eq endLeaf_works.1 endLeaf_works.2⟩
  refine (ended.trans (commits_finishWork hf)).trans (commits_updateWork ?_ ?_ ?_)
  · exact fun _ => ⟨rfl, rfl, rfl, rfl, le_rfl⟩
  · exact fun _ => .inl
  · exact fun _ _ _ _ => id

theorem claimParentSettlement_ok :
    let result := claimParentSettlement w now locked owner workId leaseSeconds
    Commits t w result.1 ∧ ∀ c, result.2 = some c → ∃ row ∈ result.1.works, c = receipt row := by
  unfold claimParentSettlement
  dsimp only
  split
  · exact ⟨.refl w, fun _ h => nomatch h⟩
  rename_i row chosen
  obtain ⟨mem, candidate⟩ := mem_filter.mp (orderByFirst_mem chosen)
  have ended : row.state ∈ [.completed, .partialRun, .failed] := by
    simp only [Bool.and_eq_true, decide_eq_true_eq] at candidate
    exact candidate.1.1.1.1.2
  have stopped : held row.state = false := by
    cases state : row.state <;> simp [state, held] at ended ⊢
  refine ⟨commits_updateWork ?_ (fun _ => .inl) fun keyed r hr same runs => ?_, fun c hc => ?_⟩
  · exact fun r => ⟨rfl, rfl, rfl, rfl, r.generation.le_succ⟩
  · have holds : held r.state = true := (Bool.and_eq_true_iff.mp runs).1
    rw [inj_on_of_nodup_map keyed.works hr mem same, stopped] at holds
    cases holds
  · obtain ⟨r, hr, rfl⟩ := Option.map_eq_some_iff.mp hc
    exact ⟨r, mem_of_find?_eq_some hr, rfl⟩

theorem commits_releaseParentSettlement :
    Commits t w (releaseParentSettlement w now claim retrySeconds) := by
  refine commits_updateWork (fun r => ?_) (fun r completed => ?_) fun _ r _ _ runs => ?_
  · split <;> exact ⟨rfl, rfl, rfl, rfl, le_rfl⟩
  · split at completed <;> exact .inl completed
  · split at runs
    · simp [running] at runs
    · exact runs

theorem commits_finishParentSettlement
    (h : finishParentSettlement w now settlement id = .ok w') : Commits t w w' := by
  unfold finishParentSettlement at h
  split at h
  · cases h
    exact .refl w
  split at h
  · cases h
  split at h
  · cases h
  split at h
  · cases h
  split at h
  · cases h
    exact .refl w
  cases h
  refine commits_end ?_ ?_ ?_
  · exact fun _ => ⟨rfl, rfl, rfl, rfl, le_rfl⟩
  · exact fun _ => .inl
  · exact fun _ => Bool.and_false _

section

variable {read : ProviderWork} (h : cancelRow reason w read = .ok w')

include h

/-- What a cancelled row leaves. -/
theorem of_cancelRow : w' = w ∨ ∃ w₁ f, Commits t w w₁ ∧ w₁.works = w.works ∧
    w' = failUnits (w₁.updateWork read.id f) read.id .cancelled ∧ ∀ r, workKey (f r) = workKey r ∧
      (f r).tenantId = r.tenantId ∧ (f r).parentLeaseToken = r.parentLeaseToken ∧
      (rowFence (f r)).detail = (rowFence r).detail ∧ (f r).state = .cancelled ∧
      (f r).generation = read.generation + 1 := by
  unfold cancelRow at h
  split at h
  · cases h
    exact .inl rfl
  split at h
  · cases h
  rename_i p hp
  cases h
  refine .inr ⟨_, _, ?_, ?_, rfl, fun r => ⟨rfl, rfl, rfl, rfl, rfl, rfl⟩⟩
  · split
    · refine commits_writeLease fun t ht => ?_
      exact (Option.mem_unique ht (parents_leaseToken hp)).le.trans p.leaseToken.le_succ
    · exact .refl w
  · split
    · exact writeLease_works
    · rfl

theorem steady_cancelRow (keyed : Keyed w) : Steady t w w' := by
  rcases of_cancelRow (t := t) h with rfl | ⟨w₁, f, first, -, rfl, keeps⟩
  · exact .refl w'
  refine ((first.2 keyed).trans (steady_end (fun r => ⟨congrArg WorkKey.id (keeps r).1, (keeps r).2.1⟩)
    (fun r completed => ?_) fun r => ?_)).trans (steady_failUnits (isCompleted_updateWork fun r => ?_))
  · rw [(keeps r).2.2.2.2.1] at completed
    cases completed
  · simp [running, held, (keeps r).2.2.2.2.1]
  · rw [(keeps r).2.2.2.2.1]
    exact WorkState.noConfusion

theorem work?_cancelRow (other : id ≠ read.id) : w'.work? id = w.work? id := by
  rcases of_cancelRow (t := 0) h with rfl | ⟨w₁, f, -, works, rfl, keeps⟩
  · rfl
  have found : (w₁.updateWork read.id f).work? id =
      (w₁.work? id).map fun r => if r.id = read.id then f r else r :=
    find?_updateKey fun r _ => congrArg WorkKey.id (keeps r).1
  have same : w₁.work? id = w.work? id := by rw [World.work?, works, World.work?]
  change (w₁.updateWork read.id f).work? id = _
  rw [found, same]
  cases hr : w.work? id with
  | none => rfl
  | some r => rw [Option.map_some, if_neg (of_find? hr ▸ other)]

theorem advance_cancelRow
    (fresh : ∀ r, w.work? read.id = some r → r.generation ≤ read.generation) : Advance w w' := by
  rcases of_cancelRow (t := 0) h with rfl | ⟨w₁, f, first, works, rfl, keeps⟩
  · exact .refl w'
  have same : w₁.work? read.id = w.work? read.id := by rw [World.work?, works, World.work?]
  refine (first.1.trans (advance_updateWork (fun r => (keeps r).1) (fun r hr => ⟨⟨?_, ?_⟩, ?_⟩) ?_)).trans
    advance_failUnits
  · exact (fresh r (same ▸ hr)).trans ((Nat.le_succ _).trans_eq (keeps r).2.2.2.2.2.symm)
  · exact (keeps r).2.2.1.ge
  · exact fun _ => (keeps r).2.2.2.1.symm
  · intro r t _ _ le
    rwa [(keeps r).2.2.1]

end

theorem steady_cancelProviderWork {read : List ProviderWork} (keyed : Keyed w)
    (h : cancelProviderWork w read scope reason = .ok w') : Steady t w w' := by
  unfold cancelProviderWork at h
  split at h
  · cases h
  · exact foldlM_ok (fun s _ => Steady t w s) (fun done hs =>
      done.trans (steady_cancelRow hs (done.1.keyed keyed))) (.refl w) h

/-- A cancellation that finds its rows as it read them moves no stamp back. -/
theorem advance_cancelProviderWork (sound : Sound w)
    (h : cancelProviderWork w (cancelSelection w scope) scope reason = .ok w') : Advance w w' := by
  unfold cancelProviderWork at h
  split at h
  · cases h
  refine (foldlM_ok (fun s rest => Advance w s ∧ (rest.map (·.id)).Nodup ∧
    ∀ b ∈ rest, ∀ r, s.work? b.id = some r → r.generation ≤ b.generation) ?_
      ⟨.refl w, sound.work_ids.sublist (filter_sublist.map _), fun b hb r hr => ?_⟩ h).1
  · rintro s s' a rest ⟨done, nodup, fresh⟩ hs
    rw [map_cons, nodup_cons] at nodup
    refine ⟨done.trans (advance_cancelRow hs (fresh a mem_cons_self)), nodup.2, fun b hb r hr => ?_⟩
    rw [work?_cancelRow hs fun same => nodup.1 (same ▸ mem_map_of_mem hb)] at hr
    exact fresh b (mem_cons_of_mem _ hb) r hr
  · rw [work?_of_mem sound (mem_filter.mp hb).1] at hr
    cases hr
    exact le_rfl

end TmVault.Provider
