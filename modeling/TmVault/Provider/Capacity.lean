import TmVault.Provider.Run

/-! A reservation statement by statement. It counts the running rows, chooses a row and commits; other
transactions commit in between. -/

namespace TmVault.Provider

open Relational Concurrency Store Work List

/-- The selects of `_reserve_due_work`: the rows that it warms up on the way, and the row it takes. -/
def chooseLoop (control : ProviderWorkControl) (now : Time) (locked busy : List Uuid) :
    Nat → List Uuid → World → List ProviderWork × Option ProviderWork
  | 0, _, _ => ([], none)
  | fuel + 1, skipped, w =>
    match nextDue w control now locked skipped with
    | none => ([], none)
    | some row =>
      if row.id ∈ busy || (w.parents row.leaf).isNone then
        chooseLoop control now locked busy fuel (row.id :: skipped) w
      else if row.continuation.queueWasCooling then
        let (warmed, chosen) := chooseLoop control now locked busy fuel skipped (warmUp now w row)
        (row :: warmed, chosen)
      else ([], some row)

def takeTurn (now : Time) (owner : Uuid) (expiresAt : Time) (w : World)
    (choice : List ProviderWork × Option ProviderWork) : World × Option Reservation :=
  let w := choice.1.foldl (warmUp now) w
  match choice.2 with
  | none => (w, none)
  | some row =>
    let w := w.updateWork row.id fun r =>
      { r with
        state := .resuming, leaseOwnerId := some owner, leaseExpiresAt := some expiresAt
        generation := r.generation + 1 }
    (charge w row 1, some ⟨row.id, row.leaf, row.generation + 1,
      (row.state, row.leaseOwnerId, row.leaseExpiresAt)⟩)

structure Reserving where
  now : Time
  owner : Uuid
  expiresAt : Time
  control : ProviderWorkControl
  choice : Option (List ProviderWork × Option ProviderWork) := none

structure Desk where
  system : System
  clock : Time := 0
  reserving : Option Reserving := none

inductive Event
  | count (now : Time) (enabled : Bool) (owner : Uuid) (leaseSeconds : Nat)
  | choose (locked busy : List Uuid)
  | commit
  | op (o : Op)

namespace Desk

def count (d : Desk) (now : Time) (enabled : Bool) (owner : Uuid) (leaseSeconds : Nat) : Desk :=
  let w := d.system.world
  let control := w.control.getD { enabled }
  if d.reserving.isSome then d
  else if !control.enabled || control.totalCapacity ≤ w.works.countP (running now) then
    { d with clock := now, system := { d.system with world := { w with control := some control } } }
  else
    { d with
      clock := now, reserving := some ⟨now, owner, now + seconds leaseSeconds, control, none⟩ }

def choose (d : Desk) (locked busy : List Uuid) : Desk :=
  { d with reserving := d.reserving.map fun r =>
      { r with choice := some (chooseLoop r.control r.now locked busy 64 [] d.system.world) } }

def commit (d : Desk) : Desk :=
  match d.reserving with
  | none => d
  | some r =>
    match r.choice with
    | none => d
    | some choice =>
      let (w, reserved) := takeTurn r.now r.owner r.expiresAt
        { d.system.world with control := some r.control } choice
      { d with
        system := { d.system with
          world := w, reservations := reserved.toList ++ d.system.reservations }
        reserving := none }

def step (d : Desk) : Event → Desk
  | .count now enabled owner leaseSeconds => d.count now enabled owner leaseSeconds
  | .choose locked busy => d.choose locked busy
  | .commit => d.commit
  | .op o => { d with system := o.run d.system }

/-- The clock does not run backwards from one reservation to the next, a reservation is made by its
statements, and an admission is of a reservation handed out. -/
def allows (d : Desk) : Event → Bool
  | .count now _ _ _ => d.clock ≤ now
  | .op (.reserve ..) => false
  | .op o => o.reservation?.all (· ∈ d.system.reservations)
  | _ => true

def prompt (d : Desk) : Event → Bool
  | .op (.renew now _ _ _) => d.reserving.all (·.now ≤ now)
  | _ => true

end Desk

variable {w : World} {t now : Time} {id : Uuid} {r row : ProviderWork} {leaf : Leaf}
  {c : ProviderClaim} {reserved : Reservation} {owner : Uuid}
  {choice : List ProviderWork × Option ProviderWork}

theorem runningOf_warmUp : runningOf (warmUp now w r) t tenants = runningOf w t tenants := by
  have column : (warmUp now w r).works.map (fun r => tenants r.tenantId && running t r) =
      w.works.map fun r => tenants r.tenantId && running t r := by
    rw [warmUp_tables.1]
    exact map_updateKey fun _ _ => rfl
  have counted := congrArg (List.countP id) column
  rwa [countP_map, countP_map] at counted

theorem chooseLoop_some {control : ProviderWorkControl} {locked busy : List Uuid} {fuel : Nat}
    {skipped : List Uuid} {warmed : List ProviderWork}
    (h : chooseLoop control now locked busy fuel skipped w = (warmed, some row)) :
    due now row ∧ runningOf w now (· = row.tenantId) < control.tenantCapacity := by
  induction fuel generalizing skipped w warmed with
  | zero => cases h
  | succ fuel ih =>
    unfold chooseLoop at h
    split at h
    · cases h
    rename_i first next
    split at h
    · exact ih h
    split at h
    · obtain ⟨rest, chosen⟩ := Prod.ext_iff.mp h
      obtain ⟨isDue, below⟩ := @ih (warmUp now w first) skipped _ (Prod.ext rfl chosen)
      exact ⟨isDue, runningOf_warmUp ▸ below⟩
    · cases h
      refine ⟨nextDue_due next, ?_⟩
      have chosen := (mem_filter.mp (orderByFirst_mem next)).2
      simp only [Bool.and_eq_true, Bool.not_eq_true', decide_eq_false_iff_not, not_le] at chosen
      exact chosen.1.2

theorem not_running_of_due (h : due now r) : ¬ running now r := by
  intro runs
  simp only [running, due, Bool.and_eq_true, Bool.or_eq_true, decide_eq_true_eq] at h runs
  rcases h with ⟨waiting, -⟩ | ⟨-, expired⟩
  · simp [waiting, held] at runs
  · cases lease : r.leaseExpiresAt with
    | none => simp [lease] at expired
    | some e =>
      simp only [lease, Option.any_some, decide_eq_true_eq] at expired runs
      exact absurd runs.2 expired.not_gt

theorem warmed_foldl {R : World → World → Prop} (refl : ∀ w, R w w)
    (trans : ∀ {a b c}, R a b → R b c → R a c) (step : ∀ w r, R w (warmUp now w r))
    (warmed : List ProviderWork) (w : World) : R w (warmed.foldl (warmUp now) w) := by
  induction warmed generalizing w with
  | nil => exact refl w
  | cons r warmed ih => exact trans (step w r) (ih _)

theorem settles_takeTurn : Settles w (takeTurn now owner expiresAt w choice).1 := by
  have warmed : Settles w (choice.1.foldl (warmUp now) w) :=
    warmed_foldl Settles.refl Settles.trans (fun _ _ => settles_warmUp) choice.1 w
  unfold takeTurn
  dsimp only
  split
  · exact warmed
  · refine Settles.trans (warmed.trans (settles_updateWork ?_ ?_)) settles_charge
    · exact fun _ => rfl
    · exact fun _ completed => nomatch completed

theorem runningOf_takeTurn (keyed : Keyed w) (tenants : Uuid → Bool) :
    runningOf (takeTurn now owner expiresAt w choice).1 t tenants ≤ runningOf w t tenants + 1 := by
  have warmed : Settles w (choice.1.foldl (warmUp now) w) :=
    warmed_foldl Settles.refl Settles.trans (fun _ _ => settles_warmUp) choice.1 w
  have same : Calms t w (choice.1.foldl (warmUp now) w) :=
    warmed_foldl Calms.refl Calms.trans (fun _ _ _ => runningOf_warmUp.le) choice.1 w
  unfold takeTurn
  dsimp only
  split
  · exact (same tenants).trans (Nat.le_succ _)
  · exact (countP_updateKey_le_succ (warmed.keyed keyed).works).trans (Nat.succ_le_succ (same tenants))

section

/-- The open reservation has counted below the capacity, and nothing committed since has changed
that. -/
structure DeskInv (d : Desk) : Prop where
  units : UnitsInv d.system
  prior : ∀ res ∈ d.system.reservations, ¬ (held res.prior.1 && res.prior.2.2.any (d.clock < ·)) = true
  now : ∀ r ∈ d.reserving, r.now = d.clock
  total : ∀ r ∈ d.reserving, runningOf d.system.world r.now (fun _ => true) < r.control.totalCapacity
  chosen : ∀ r ∈ d.reserving, ∀ warmed row, r.choice = some (warmed, some row) →
    due r.now row ∧ runningOf d.system.world r.now (· = row.tenantId) < r.control.tenantCapacity

variable {d : Desk} {e : Event} {choice : List ProviderWork × Option ProviderWork} {o : Op}

theorem allows_op (h : d.allows (.op o)) :
    (∀ now enabled locked busy owner leaseSeconds, o ≠ .reserve now enabled locked busy owner leaseSeconds) ∧
      ∀ r ∈ o.reservation?, r ∈ d.system.reservations := by
  cases o <;> simp_all [Desk.allows, Op.reservation?]

theorem calms_op (inv : DeskInv d) (ok : d.allows (.op o)) (prompt : d.prompt (.op o))
    {r : Reserving} (hr : r ∈ d.reserving) : Calms r.now d.system.world (o.run d.system).world := by
  refine (run_steady inv.units (allows_op ok).2 ?_).2
  cases o with
  | reserve => cases ok
  | admission _ reserved => exact inv.now r hr ▸ inv.prior reserved ((allows_op ok).2 reserved rfl)
  | renew now =>
    simp only [Desk.prompt, Option.all_eq_true] at prompt
    have le : r.now ≤ now := of_decide_eq_true (prompt r hr)
    exact le
  | _ => trivial

theorem deskInv_op (inv : DeskInv d) (ok : d.allows (.op o)) (prompt : d.prompt (.op o)) :
    DeskInv (d.step (.op o)) := by
  obtain ⟨isNot, known⟩ := allows_op ok
  refine ⟨((WorkStep.op o known).inv inv.units).1, ?_, inv.now, fun r hr => ?_, ?_⟩
  · intro res hres
    rw [Desk.step, (run_handed d.system).2 isNot] at hres
    exact inv.prior res hres
  · exact (calms_op inv ok prompt hr _).trans_lt (inv.total r hr)
  · intro r hr warmed row chosen
    obtain ⟨isDue, below⟩ := inv.chosen r hr warmed row chosen
    exact ⟨isDue, (calms_op inv ok prompt hr _).trans_lt below⟩

theorem prior_mono {prior : WorkState × Option Uuid × Option Time} (le : t ≤ now)
    (h : ¬ (held prior.1 && prior.2.2.any (t < ·)) = true) :
    ¬ (held prior.1 && prior.2.2.any (now < ·)) = true := by
  intro runs
  refine h ?_
  simp only [Bool.and_eq_true, Option.any_eq_true_iff_get, decide_eq_true_eq] at runs ⊢
  obtain ⟨held, some, lt⟩ := runs
  exact ⟨held, some, le.trans_lt lt⟩

theorem deskInv_count {enabled : Bool} {leaseSeconds : Nat} (inv : DeskInv d)
    (ok : d.allows (.count now enabled owner leaseSeconds)) :
    DeskInv (d.step (.count now enabled owner leaseSeconds)) := by
  have le : d.clock ≤ now := of_decide_eq_true ok
  have prior (res : Reservation) (hres : res ∈ d.system.reservations) :=
    prior_mono le (inv.prior res hres)
  unfold Desk.step Desk.count
  dsimp only
  split
  · exact inv
  rename_i idle
  have idle : d.reserving = none := by simpa using idle
  split
  · have none (r : Reserving) (hr : r ∈ d.reserving) : False := by
      rw [idle] at hr
      cases hr
    exact ⟨inv.units.settles (.of_eq rfl rfl) rfl inv.units.prior, prior, fun r hr => (none r hr).elim,
      fun r hr => (none r hr).elim, fun r hr => (none r hr).elim⟩
  · rename_i below
    simp only [Bool.or_eq_true, decide_eq_true_eq, not_or, not_le] at below
    refine ⟨inv.units, prior, ?_, ?_, ?_⟩
    · rintro r ⟨⟩
      rfl
    · rintro r ⟨⟩
      simpa [runningOf] using below.2
    · rintro r ⟨⟩ warmed row chosen
      cases chosen

theorem deskInv_choose (inv : DeskInv d) : DeskInv (d.step (.choose locked busy)) := by
  refine ⟨inv.units, inv.prior, ?_, ?_, ?_⟩
  · intro r hr
    obtain ⟨old, hold, rfl⟩ := Option.map_eq_some_iff.mp hr
    exact inv.now old hold
  · intro r hr
    obtain ⟨old, hold, rfl⟩ := Option.map_eq_some_iff.mp hr
    exact inv.total old hold
  · intro r hr warmed row chosen
    obtain ⟨old, hold, rfl⟩ := Option.map_eq_some_iff.mp hr
    exact chooseLoop_some (Option.some.inj chosen)

theorem takeTurn_prior (h : (takeTurn now owner expiresAt w choice).2 = some reserved) :
    ∃ row, choice.2 = some row ∧ reserved.prior = (row.state, row.leaseOwnerId, row.leaseExpiresAt) := by
  unfold takeTurn at h
  dsimp only at h
  split at h
  · cases h
  · rename_i row chosen
    cases h
    exact ⟨row, chosen, rfl⟩

theorem deskInv_commit (inv : DeskInv d) : DeskInv (d.step .commit) := by
  unfold Desk.step Desk.commit
  dsimp only
  split
  · exact inv
  rename_i r hr
  split
  · exact inv
  rename_i choice hchoice
  have control : Settles d.system.world { d.system.world with control := some r.control } :=
    .of_eq rfl rfl
  have settles : Settles d.system.world (takeTurn r.now r.owner r.expiresAt
      { d.system.world with control := some r.control } choice).1 := control.trans settles_takeTurn
  have reserved (res : Reservation)
      (hres : res ∈ (takeTurn r.now r.owner r.expiresAt
        { d.system.world with control := some r.control } choice).2.toList) :
      ∃ row, due r.now row ∧ res.prior = (row.state, row.leaseOwnerId, row.leaseExpiresAt) := by
    obtain ⟨row, chosen, prior⟩ := takeTurn_prior (Option.mem_toList.mp hres)
    refine ⟨row, (inv.chosen r hr choice.1 row ?_).1, prior⟩
    rw [hchoice, ← chosen]
  refine ⟨inv.units.settles settles rfl ?_, ?_, ?_, ?_, ?_⟩
  · intro res hres
    rcases mem_append.mp hres with hres | hres
    · obtain ⟨row, isDue, prior⟩ := reserved res hres
      rw [prior]
      exact not_completed_of_due isDue
    · exact inv.units.prior res hres
  · intro res hres
    rcases mem_append.mp hres with hres | hres
    · obtain ⟨row, isDue, prior⟩ := reserved res hres
      rw [prior, ← inv.now r hr]
      exact not_running_of_due isDue
    · exact inv.prior res hres
  · exact fun r hr => nomatch hr
  · exact fun r hr => nomatch hr
  · exact fun r hr => nomatch hr

theorem deskInv_step (inv : DeskInv d) (ok : d.allows e ∧ d.prompt e) : DeskInv (d.step e) := by
  cases e with
  | count => exact deskInv_count inv ok.1
  | choose => exact deskInv_choose inv
  | commit => exact deskInv_commit inv
  | op o => exact deskInv_op inv ok.1 ok.2

theorem commit_world {r : Reserving}
    (reserving : d.reserving = some r) (chosen : r.choice = some choice) :
    d.commit.system.world = (takeTurn r.now r.owner r.expiresAt
      { d.system.world with control := some r.control } choice).1 := by
  rw [Desk.commit, reserving]
  dsimp only
  rw [chosen]

theorem runningOf_commit (inv : DeskInv d) {r : Reserving} (reserving : d.reserving = some r)
    (chosen : r.choice = some choice) (later : r.now ≤ t) (tenants : Uuid → Bool) :
    runningOf d.commit.system.world t tenants ≤ runningOf d.system.world r.now tenants + 1 := by
  have control : Settles d.system.world { d.system.world with control := some r.control } :=
    .of_eq rfl rfl
  rw [commit_world reserving chosen]
  refine (countP_mono_left fun q _ counted => ?_).trans
    (runningOf_takeTurn (control.keyed inv.units.keyed) tenants)
  simp only [Bool.and_eq_true] at counted ⊢
  exact ⟨counted.1, running_mono later counted.2⟩

namespace Desk

def start (w : World) : Desk := ⟨{ world := w }, 0, none⟩

def after (w : World) (events : List Event) : Desk := Concurrency.play step (start w) events

end Desk

/-- Where no renewal that read the clock before a reservation commits while that is open, the rows
running after a committed reservation are within the capacities. -/
theorem reservation_within_capacity {events : List Event} (works : w.works = []) (units : w.units = [])
    (run : Along Desk.step (fun d e => d.allows e ∧ d.prompt e) (Desk.start w) events)
    {r : Reserving} {warmed : List ProviderWork}
    (reserving : (Desk.after w events).reserving = some r)
    (chosen : r.choice = some (warmed, some row)) (later : r.now ≤ t) :
    (Desk.after w (events ++ [.commit])).system.world.works.countP (running t) ≤
        r.control.totalCapacity ∧
      (Desk.after w (events ++ [.commit])).system.world.works.countP
        (fun q => q.tenantId = row.tenantId && running t q) ≤ r.control.tenantCapacity := by
  have start : DeskInv (Desk.start w) :=
    ⟨unitsInv_empty works units, fun _ h => (nomatch h), fun _ h => (nomatch h),
      fun _ h => (nomatch h), fun _ h => (nomatch h)⟩
  have inv : DeskInv (Desk.after w events) :=
    Along.invariant (fun _ _ inv ok => deskInv_step inv ok) start run
  have committed : Desk.after w (events ++ [.commit]) = (Desk.after w events).commit :=
    foldl_append
  have bound := runningOf_commit inv reserving chosen later
  rw [committed]
  constructor
  · have total := (bound fun _ => true).trans (inv.total r reserving)
    simpa [runningOf] using total
  · exact (bound (· = row.tenantId)).trans (inv.chosen r reserving warmed row chosen).2

end

def pairWorld : World where
  db := {
    resources := [⟨1, 1, .mailbox, "ann", none, {}, some .discovered, none, none⟩,
      ⟨4, 1, .mailbox, "bob", none, {}, some .discovered, none, none⟩]
    snapshots := [{ id := 2, resourceId := 1, jobId := some 3 },
      { id := 5, resourceId := 4, jobId := some 3 }] }
  jobs := [{ id := 3, tenantId := 1, status := .running }]
  control := some { enabled := true, totalCapacity := 1, tenantCapacity := 1 }

def pairHeld : List Event :=
  [.op (.ensure 0 9 { leaf := ⟨2, none⟩, snapshotToken := 0, jobToken := 0 }),
    .count 0 true 7 60, .choose [] [], .commit,
    .op (.admission false (annTurn 1 (.waiting, none, none)) 7),
    .op (.ensure 1 10 { leaf := ⟨5, none⟩, snapshotToken := 0, jobToken := 0 })]

def pairCounted (renewed : Time) : List Event :=
  pairHeld ++ [.count (seconds 60) true 8 60, .choose [9] [],
    .op (.renew renewed false (annClaim 7 1 1) 60)]

/-- A renewal that finds the lease run out is refused, and one turn is held. -/
theorem lateReading_within : (Desk.after pairWorld
    (pairCounted (seconds 61) ++ [.commit])).system.world.works.countP (running (seconds 62)) ≤ 1 := by
  have run : Along Desk.step (fun d e => d.allows e ∧ d.prompt e) (Desk.start pairWorld)
      (pairCounted (seconds 61)) := by
    simp only [pairCounted, pairHeld, cons_append, nil_append, Along]
    decide +kernel
  have view : ((Desk.after pairWorld (pairCounted (seconds 61))).reserving.bind fun r =>
      r.choice.bind fun choice => choice.2.map fun _ => (r.now, r.control.totalCapacity)) =
        some (seconds 60, 1) := by decide +kernel
  obtain ⟨r, reserving, view⟩ := Option.bind_eq_some_iff.mp view
  obtain ⟨choice, chosen, view⟩ := Option.bind_eq_some_iff.mp view
  obtain ⟨row, some, view⟩ := Option.map_eq_some_iff.mp view
  obtain ⟨now, control⟩ := Prod.ext_iff.mp view
  have chosen := chosen.trans (congrArg (fun c => Option.some (choice.1, c)) some)
  refine ((reservation_within_capacity rfl rfl run reserving chosen ?_).1).trans control.le
  exact now.le.trans (by decide)

/-- A renewal that read the clock at second 59 commits between the count and the commit, and two turns
are held where there is room for one. -/
theorem lateRenewal_exceeds : Along Desk.step (fun d e => d.allows e) (Desk.start pairWorld)
      (pairCounted (seconds 59) ++ [.commit]) ∧
    (Desk.after pairWorld (pairCounted (seconds 59) ++ [.commit])).system.world.control =
      some { enabled := true, totalCapacity := 1, tenantCapacity := 1 } ∧
    (Desk.after pairWorld (pairCounted (seconds 59) ++ [.commit])).system.reservations.map
      (·.workId) = [10, 9] ∧
    (Desk.after pairWorld (pairCounted (seconds 59) ++ [.commit])).system.world.works.countP
      (fun r => r.tenantId = 1 && running (seconds 61) r) = 2 := by
  refine ⟨?_, by decide +kernel, by decide +kernel, by decide +kernel⟩
  simp only [pairCounted, pairHeld, cons_append, nil_append, Along]
  decide +kernel

end TmVault.Provider
