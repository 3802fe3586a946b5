import TmVault.Provider.Units

namespace TmVault.Provider

open Relational Concurrency Store Work Relation List

/-- The tables, with every claim and every reservation handed out so far, and the work items that the
rescue of OneDrive files completed. A worker that crashes only stops using its own. -/
structure System where
  world : World
  claims : List ProviderClaim := []
  reservations : List Reservation := []
  rescued : List Uuid := []

inductive Op
  | ensure (now : Time) (id : Uuid) (req : EnsureRequest)
  | reserve (now : Time) (enabled : Bool) (locked busy : List Uuid) (owner : Uuid)
      (leaseSeconds : Nat)
  | admission (busy : Bool) (reserved : Reservation) (owner : Uuid)
  | renew (now : Time) (leafBusy : Bool) (claim : ProviderClaim) (leaseSeconds : Nat)
  | checkpoint (now : Time) (claim : ProviderClaim) (unit : UnitCheckpoint)
  | suspend (now : Time) (claim : ProviderClaim) (nextEligibleAt : Time) (reason : String)
      (continuation : Option Continuation)
  | finish (now : Time) (claim : ProviderClaim) (state : WorkState)
  | failExhausted (now : Time) (claim : ProviderClaim)
  | cancel (read : List ProviderWork) (scope : CancelScope) (reason : String)
  | claimSettlement (now : Time) (locked : List Uuid) (owner : Uuid) (workId : Option Uuid)
      (leaseSeconds : Nat)
  | releaseSettlement (now : Time) (claim : ProviderClaim) (retrySeconds : Nat)
  | finishSettlement (now : Time) (settlement : Option ProviderClaim) (workId : Uuid)

def Op.claim? : Op → Option ProviderClaim
  | .renew _ _ claim _ | .checkpoint _ claim _ | .suspend _ claim _ _ _ | .finish _ claim _
  | .failExhausted _ claim => some claim
  | _ => none

def Op.reservation? : Op → Option Reservation
  | .admission _ reserved _ => some reserved
  | _ => none

namespace System

variable (s : System)

def commit : Except Failure World → System
  | .ok world => { s with world }
  | .error _ => s

def commitClaim : Except Failure (World × ProviderClaim) → System
  | .ok (world, claim) => { s with world, claims := claim :: s.claims }
  | .error _ => s

def handOut : World × Option ProviderClaim → System
  | (world, claim) => { s with world, claims := claim.toList ++ s.claims }

end System

def Op.run (s : System) : Op → System
  | .ensure now id req => s.commitClaim (ensureWork s.world now id req)
  | .reserve now enabled locked busy owner leaseSeconds =>
    let (world, reserved) := reserveDueWork s.world now enabled locked busy owner leaseSeconds
    { s with world, reservations := reserved.toList ++ s.reservations }
  | .admission busy reserved owner => s.handOut (admitReserved s.world busy reserved owner)
  | .renew now leafBusy claim leaseSeconds =>
    s.commit (renewWork s.world now leafBusy claim leaseSeconds)
  | .checkpoint now claim unit => s.commit (recordUnitCheckpoint s.world now claim unit)
  | .suspend now claim nextEligibleAt reason continuation =>
    s.commitClaim (suspendCurrentWork s.world now claim nextEligibleAt reason continuation)
  | .finish now claim state => s.commit (finishWork s.world now claim state)
  | .failExhausted now claim => s.commit (failExhaustedWork s.world now claim)
  | .cancel read scope reason => s.commit (cancelProviderWork s.world read scope reason)
  | .claimSettlement now locked owner workId leaseSeconds =>
    s.handOut (claimParentSettlement s.world now locked owner workId leaseSeconds)
  | .releaseSettlement now claim retrySeconds =>
    { s with world := releaseParentSettlement s.world now claim retrySeconds }
  | .finishSettlement now settlement workId =>
    s.commit (finishParentSettlement s.world now settlement workId)

/-- A cancellation locks its rows as it read them. -/
def Op.fresh (s : System) : Op → Bool
  | .cancel read scope _ => read = cancelSelection s.world scope
  | _ => true

/-- An operation by whoever was handed its claim, or another service writing to the other tables, which
removes no leaf and lowers no lease token. -/
inductive Step (s : System) : System → Prop
  | op (o : Op) (claim : ∀ c ∈ o.claim?, c ∈ s.claims)
      (reservation : ∀ r ∈ o.reservation?, r ∈ s.reservations) (fresh : o.fresh s) : Step s (o.run s)
  | others (world : World) (works : world.works = s.world.works) (rises : Rises s.world world) :
      Step s { s with world }

structure Inv (s : System) : Prop where
  sound : Sound s.world
  issued : ∀ c ∈ s.claims, Issued (fence s.world) c.ticket
  reserved : ∀ r ∈ s.reservations, Reserved s.world r

variable {s s' : System}

structure Moved (s s' : System) : Prop where
  advance : Advance s.world s'.world
  claims : ∀ c ∈ s'.claims, c ∈ s.claims ∨ ∃ row ∈ s'.world.works, c = receipt row
  reservations : ∀ r ∈ s'.reservations, r ∈ s.reservations ∨ Reserved s'.world r

theorem Moved.refl (s : System) : Moved s s := ⟨.refl _, fun _ => .inl, fun _ => .inl⟩

theorem Moved.of_advance (h : Advance s.world world) : Moved s { s with world } :=
  ⟨h, fun _ => .inl, fun _ => .inl⟩

theorem moved_commit (h : ∀ w, result = .ok w → Advance s.world w) : Moved s (s.commit result) := by
  cases result with
  | ok w => exact .of_advance (h w rfl)
  | error e => exact .refl s

theorem moved_commitClaim
    (h : ∀ w c, result = .ok (w, c) → Advance s.world w ∧ ∃ row ∈ w.works, c = receipt row) :
    Moved s (s.commitClaim result) := by
  cases result with
  | ok pair =>
    obtain ⟨advance, handed⟩ := h pair.1 pair.2 rfl
    refine ⟨advance, fun c hc => ?_, fun _ => .inl⟩
    rcases mem_cons.mp hc with rfl | hc
    · exact .inr handed
    · exact .inl hc
  | error e => exact .refl s

theorem moved_handOut (h : Advance s.world result.1 ∧
      ∀ c, result.2 = some c → ∃ row ∈ result.1.works, c = receipt row) :
    Moved s (s.handOut result) := by
  refine ⟨h.1, fun c hc => ?_, fun _ => .inl⟩
  rcases mem_append.mp hc with hc | hc
  · exact .inr (h.2 c (Option.mem_toList.mp hc))
  · exact .inl hc

theorem Step.moved (inv : Inv s) (h : Step s s') : Moved s s' := by
  cases h with
  | others world works rises => exact .of_advance (.of_rises works rises)
  | op o claim reservation fresh =>
    cases o with
    | ensure => exact moved_commitClaim fun _ _ h => (ensureWork_ok (t := 0) h).imp_left And.left
    | reserve =>
      refine ⟨reserveDueWork_ok.1.1, fun _ => .inl, fun r hr => ?_⟩
      rcases mem_append.mp hr with hr | hr
      · exact .inr ((reserveDueWork_ok.2 r (Option.mem_toList.mp hr)).1 inv.sound)
      · exact .inl hr
    | admission _ reserved =>
      refine moved_handOut ((admitReserved_ok (t := 0)).1.imp_left ?_)
      exact (· (inv.reserved reserved (reservation reserved rfl)))
    | renew => exact moved_commit fun _ h => (commits_renewWork le_rfl h).1
    | checkpoint => exact moved_commit fun _ h => (commits_recordUnitCheckpoint (t := 0) h).1
    | suspend _ c =>
      refine moved_commitClaim fun _ _ h => (suspendCurrentWork_ok (t := 0) h).1.imp_left ?_
      exact (· inv.sound (inv.issued c (claim c rfl)))
    | finish => exact moved_commit fun _ h => (commits_finishWork (t := 0) h).1
    | failExhausted => exact moved_commit fun _ h => (commits_failExhaustedWork (t := 0) h).1
    | cancel =>
      cases of_decide_eq_true fresh
      exact moved_commit fun _ h => advance_cancelProviderWork inv.sound h
    | claimSettlement => exact moved_handOut ((claimParentSettlement_ok (t := 0)).imp_left And.left)
    | releaseSettlement => exact .of_advance (commits_releaseParentSettlement (t := 0)).1
    | finishSettlement => exact moved_commit fun _ h => (commits_finishParentSettlement (t := 0) h).1

theorem Moved.inv (inv : Inv s) (h : Moved s s') : Inv s' := by
  obtain ⟨sound, evolves, -⟩ := h.advance inv.sound
  refine ⟨sound, fun c hc => ?_, fun r hr => ?_⟩
  · rcases h.claims c hc with old | ⟨row, hrow, rfl⟩
    · exact (inv.issued c old).evolves evolves
    · exact issued_receipt (work?_of_mem sound hrow)
  · rcases h.reservations r hr with old | new
    · exact (inv.reserved r old).evolves evolves
    · exact new

theorem run_advance (inv : Inv s) (run : ReflTransGen Step s s') :
    Inv s' ∧ Advance s.world s'.world := by
  induction run with
  | refl => exact ⟨inv, .refl _⟩
  | tail _ step ih =>
    have moved := step.moved ih.1
    exact ⟨moved.inv ih.1, ih.2.trans moved.advance⟩

theorem inv_empty (works : w.works = []) : Inv { world := w } := by
  refine ⟨⟨?_, ?_⟩, fun c hc => ?_, fun r hr => ?_⟩
  · rw [works]
    exact nodup_nil
  · rw [works]
    exact fun r hr => absurd hr not_mem_nil
  · exact absurd hc not_mem_nil
  · exact absurd hr not_mem_nil

section

def superseded (w : World) (c : ProviderClaim) : Prop :=
  (∃ r, w.work? c.workId = some r ∧
    (c.generation < r.generation ∨ c.parentToken < r.parentLeaseToken)) ∨
  ∃ t, w.leaseToken? c.leaf = some t ∧ c.parentToken < t

variable {c c' : ProviderClaim} {now : Time}

theorem owned_error (inv : Inv s) (hc : c ∈ s.claims) (h : superseded s.world c) (now : Time)
    (b : Bool) : ∃ e, owned s.world now b c = .error e := by
  cases ho : owned s.world now b c with
  | error e => exact ⟨e, rfl⟩
  | ok result =>
    obtain ⟨row, p⟩ := result
    obtain ⟨hp, hrow, generation, -, token, -⟩ := owned_ok ho
    obtain ⟨-, -, rowToken⟩ := current_of_owned inv.sound (inv.issued c hc) ho
    rcases h with ⟨r, hr, moved⟩ | ⟨t, ht, moved⟩
    · cases hrow.symm.trans hr
      omega
    · cases (parents_leaseToken hp).symm.trans ht
      omega

/-- An operation acting for a superseded claim is refused; a suspension made before is answered
without a write. -/
theorem run_of_superseded {o : Op} (inv : Inv s) (ho : o.claim? = some c) (hc : c ∈ s.claims)
    (h : superseded s.world c) : (o.run s).world = s.world := by
  cases o with
  | renew now | finish now | failExhausted now =>
    cases ho
    obtain ⟨e, he⟩ := owned_error inv hc h now true
    simp only [Op.run, renewWork, finishWork, failExhaustedWork, he]
    rfl
  | checkpoint now claim unit =>
    cases ho
    obtain ⟨e, he⟩ := owned_error inv hc h now (unit.state ∈ [.completed, .failed])
    simp only [Op.run, recordUnitCheckpoint, he]
    rfl
  | suspend now =>
    cases ho
    obtain ⟨e, he⟩ := owned_error inv hc h now false
    simp only [Op.run, suspendCurrentWork, he]
    split <;> rfl
  | _ => cases ho

theorem ticket_ext (ticket : c.ticket = c'.ticket) (owner : c.ownerId = c'.ownerId) : c = c' := by
  obtain ⟨⟩ := c
  obtain ⟨⟩ := c'
  simp_all [ProviderClaim.ticket]

theorem passes_unique (inv : Inv s) (hc : c ∈ s.claims) (hc' : c' ∈ s.claims)
    (same : c.workId = c'.workId) (h : passes s.world now c) (h' : passes s.world now' c') :
    c = c' := by
  have pass {now : Time} {c : ProviderClaim} (h : passes s.world now c) :
      ∃ row p, owned s.world now true c = .ok (row, p) := by
    rw [passes] at h
    cases ho : owned s.world now true c with
    | error e => simp [ho, Except.toOption] at h
    | ok result => exact ⟨result.1, result.2, rfl⟩
  obtain ⟨row, p, ho⟩ := pass h
  obtain ⟨row', p', ho'⟩ := pass h'
  obtain ⟨-, hrow, -, owner, -⟩ := owned_ok ho
  obtain ⟨-, hrow', -, owner', -⟩ := owned_ok ho'
  have issued := inv.issued c hc
  have issued' := inv.issued c' hc'
  have key := issued_key issued hrow
  have key' := issued_key issued' hrow'
  cases (same ▸ hrow).symm.trans hrow'
  have tickets : c.ticket = c'.ticket := issued.unique issued'
    (current_of_owned inv.sound issued ho).1 (current_of_owned inv.sound issued' ho').1
    (key.symm.trans key')
  exact ticket_ext tickets (owner.symm.trans owner')

end

/-- The fence of provider work, over every run of every number of workers in which cancellations find
their rows as they read them. -/
theorem provider_work_fenced {w : World} (start : w.works = []) (run : ReflTransGen Step { world := w } s) :
    (∀ s', ReflTransGen Step s s' → ∀ id r, s.world.work? id = some r →
      ∃ r', s'.world.work? id = some r' ∧ r.generation ≤ r'.generation ∧
        r.parentLeaseToken ≤ r'.parentLeaseToken ∧
        ∃ t t', s.world.leaseToken? r.leaf = some t ∧ s'.world.leaseToken? r'.leaf = some t' ∧ t ≤ t') ∧
    (∀ c ∈ s.claims, ∀ c' ∈ s.claims, c.workId = c'.workId →
      ∀ now, passes s.world now c → passes s.world now c' → c = c') ∧
    (∀ o : Op, ∀ c ∈ s.claims, o.claim? = some c → superseded s.world c →
      (o.run s).world = s.world) ∧
    (∀ reserved ∈ s.reservations, ∀ r, s.world.work? reserved.workId = some r →
      reserved.generation < r.generation →
      ∀ busy owner, ((Op.admission busy reserved owner).run s).world = s.world) := by
  obtain ⟨inv, -⟩ := run_advance (inv_empty start) run
  refine ⟨?_, ?_, ?_, ?_⟩
  · intro s' run' id r hr
    obtain ⟨inv', advance⟩ := run_advance inv run'
    obtain ⟨-, evolves, rises⟩ := advance inv.sound
    obtain ⟨b, hb, moves⟩ := evolves _ _ (fence_of_work hr)
    obtain ⟨r', hr', key, rfl⟩ := fence_eq_some.mp hb
    obtain ⟨t, ht, -⟩ := inv.sound.behind r (mem_of_find?_eq_some hr)
    obtain ⟨t', ht', up⟩ := rises r.leaf t ht
    have hid : r.id = id := of_find? hr
    have leafEq : r'.leaf = r.leaf := congrArg WorkKey.leaf key
    exact ⟨r', hid ▸ hr', moves.stamp_le.1, moves.stamp_le.2, t, t', ht, leafEq ▸ ht', up⟩
  · exact fun c hc c' hc' same now h h' => passes_unique inv hc hc' same h h'
  · exact fun o c hc ho h => run_of_superseded inv ho hc h
  · intro reserved _ r hr behind busy owner
    simp only [Op.run, admitReserved_of_behind hr behind]
    rfl

def allowed : System → List Op → Bool
  | _, [] => true
  | s, o :: ops => o.claim?.all (· ∈ s.claims) && o.reservation?.all (· ∈ s.reservations) &&
      o.fresh s && allowed (o.run s) ops

theorem run_play (h : allowed s ops) : ReflTransGen Step s (play Op.run s ops) := by
  induction ops generalizing s with
  | nil => exact .refl
  | cons o ops ih =>
    simp only [allowed, Bool.and_eq_true, Option.all_eq_true, decide_eq_true_eq] at h
    exact .head (.op o h.1.1.1 h.1.1.2 h.1.2) (ih h.2)

def annWorld : World where
  db := {
    resources := [⟨1, 1, .mailbox, "ann", none, {}, some .discovered, none, none⟩]
    snapshots := [{ id := 2, resourceId := 1, jobId := some 3 }] }
  jobs := [{ id := 3, tenantId := 1, status := .running }]

def annTurn (generation : Nat) (prior : WorkState × Option Uuid × Option Time) : Reservation :=
  ⟨9, ⟨2, none⟩, generation, prior⟩

def annClaim (owner generation token : Nat) : ProviderClaim :=
  ⟨9, ⟨2, none⟩, 3, some owner, generation, token, token, 0, 1⟩

def annTakeover : List Op :=
  [.ensure 0 9 { leaf := ⟨2, none⟩, snapshotToken := 0, jobToken := 0 },
    .reserve 0 true [] [] 7 60, .admission false (annTurn 1 (.waiting, none, none)) 7,
    .reserve (seconds 61) true [] [] 8 60,
    .admission false (annTurn 2 (.resuming, some 7, some (seconds 60))) 8]

theorem annTakeover_fenced :
    passes (play Op.run { world := annWorld } annTakeover).world (seconds 62) (annClaim 8 2 2) ∧
    ((Op.renew (seconds 62) false (annClaim 7 1 1) 60).run
        (play Op.run { world := annWorld } annTakeover)).world =
      (play Op.run { world := annWorld } annTakeover).world := by
  have may : allowed { world := annWorld } annTakeover := by decide +kernel
  have issued : annClaim 7 1 1 ∈ (play Op.run { world := annWorld } annTakeover).claims := by decide +kernel
  have token : (play Op.run { world := annWorld } annTakeover).world.leaseToken? ⟨2, none⟩ = some 2 := by
    decide +kernel
  refine ⟨by decide +kernel, ?_⟩
  exact (provider_work_fenced rfl (run_play may)).2.2.1 _ _ issued rfl (.inr ⟨2, token, by decide⟩)

/-- A cancellation that read the work item before two turns were taken writes the generation it read
and one. -/
theorem stale_cancel_lowers_generation :
    let read := cancelSelection (play Op.run { world := annWorld } (annTakeover.take 1)).world
      { jobId := some 3 }
    let s := play Op.run { world := annWorld } annTakeover
    s.world.works.map (·.generation) = [2] ∧
      ((Op.cancel read { jobId := some 3 } "cancelled").run s).world.works.map (·.generation) = [1] := by
  decide +kernel

def isRescued (snapshotId : Uuid) (r : ProviderWork) : Bool :=
  r.leaf.snapshotId = snapshotId && r.state ∈ [.failed, .partialRun]

def rescuedRow (snapshotId : Uuid) (r : ProviderWork) : ProviderWork :=
  if isRescued snapshotId r then { r with state := .completed } else r

/-- `settle_rescued_onedrive_snapshot` on the work items of a snapshot whose lost files were all read
later. It looks at no unit. -/
def System.rescue (s : System) (snapshotId : Uuid) : System :=
  { s with
    world := { s.world with works := s.world.works.map (rescuedRow snapshotId) }
    rescued := (s.world.works.filter (isRescued snapshotId)).map (·.id) ++ s.rescued }

/-- A step of the work items: an operation, with any claim and with a reservation handed out before,
the rescue of a snapshot, or another service writing to the other tables. -/
inductive WorkStep (s : System) : System → Prop
  | op (o : Op) (reservation : ∀ r ∈ o.reservation?, r ∈ s.reservations) : WorkStep s (o.run s)
  | others (world : World) (works : world.works = s.world.works)
      (units : world.units = s.world.units) : WorkStep s { s with world }
  | rescue (snapshotId : Uuid) : WorkStep s (s.rescue snapshotId)

structure UnitsInv (s : System) : Prop where
  keyed : Keyed s.world
  prior : ∀ r ∈ s.reservations, r.prior.1 ≠ .completed
  done : ∀ id, IsCompleted s.world id → id ∈ s.rescued ∨ UnitsDone s.world id

variable {w : World} {result : Except Failure (World × ProviderClaim)} {t : Time}

theorem steady_commit {result : Except Failure World}
    (h : ∀ w, result = .ok w → Steady t s.world w) : Steady t s.world (s.commit result).world := by
  cases result with
  | ok w => exact h w rfl
  | error e => exact .refl _

theorem steady_commitClaim (h : ∀ w c, result = .ok (w, c) → Steady t s.world w) :
    Steady t s.world (s.commitClaim result).world := by
  cases result with
  | ok pair => exact h pair.1 pair.2 rfl
  | error e => exact .refl _

/-- When an operation starts no turn at time `t`. -/
def Op.Timely (t : Time) : Op → Prop
  | .reserve .. => False
  | .renew now .. => t ≤ now
  | .admission _ reserved _ => ¬ (held reserved.prior.1 && reserved.prior.2.2.any (t < ·)) = true
  | _ => True

theorem run_steady {o : Op} (inv : UnitsInv s)
    (reservation : ∀ r ∈ o.reservation?, r ∈ s.reservations) (timely : o.Timely t) :
    Steady t s.world (o.run s).world := by
  cases o with
  | reserve => exact timely.elim
  | ensure => exact steady_commitClaim fun _ _ h => (ensureWork_ok h).1.2 inv.keyed
  | admission _ reserved =>
    exact admitReserved_ok.2 (inv.prior reserved (reservation reserved rfl)) timely
  | renew => exact steady_commit fun _ h => (commits_renewWork timely h).2 inv.keyed
  | checkpoint => exact steady_commit fun _ h => (commits_recordUnitCheckpoint h).2 inv.keyed
  | suspend => exact steady_commitClaim fun _ _ h => (suspendCurrentWork_ok h).2 inv.keyed
  | finish => exact steady_commit fun _ h => (commits_finishWork h).2 inv.keyed
  | failExhausted => exact steady_commit fun _ h => (commits_failExhaustedWork h).2 inv.keyed
  | cancel => exact steady_commit fun _ h => steady_cancelProviderWork inv.keyed h
  | claimSettlement => exact claimParentSettlement_ok.1.2 inv.keyed
  | releaseSettlement => exact commits_releaseParentSettlement.2 inv.keyed
  | finishSettlement => exact steady_commit fun _ h => (commits_finishParentSettlement h).2 inv.keyed

theorem run_settles {o : Op} (inv : UnitsInv s)
    (reservation : ∀ r ∈ o.reservation?, r ∈ s.reservations) : Settles s.world (o.run s).world := by
  have run (t : Time) (timely : o.Timely t) := (run_steady inv reservation timely).1
  cases o with
  | reserve => exact reserveDueWork_ok.1.2
  | renew now => exact run now le_rfl
  | admission _ reserved =>
    refine run (reserved.prior.2.2.getD 0) ?_
    cases lease : reserved.prior.2.2 <;> simp [Op.Timely, lease]
  | _ => exact run 0 trivial

theorem commit_handed {result : Except Failure World} :
    (s.commit result).reservations = s.reservations ∧ (s.commit result).rescued = s.rescued := by
  cases result <;> exact ⟨rfl, rfl⟩

theorem commitClaim_handed : (s.commitClaim result).reservations = s.reservations ∧
    (s.commitClaim result).rescued = s.rescued := by
  cases result <;> exact ⟨rfl, rfl⟩

/-- A reservation is the only thing a step adds to what was handed out before. -/
theorem run_handed {o : Op} (s : System) : (o.run s).rescued = s.rescued ∧
    ((∀ now enabled locked busy owner leaseSeconds,
      o ≠ .reserve now enabled locked busy owner leaseSeconds) →
        (o.run s).reservations = s.reservations) := by
  cases o with
  | reserve => exact ⟨rfl, fun isNot => absurd rfl (isNot _ _ _ _ _ _)⟩
  | ensure | suspend => exact ⟨commitClaim_handed.2, fun _ => commitClaim_handed.1⟩
  | renew | checkpoint | finish | failExhausted | cancel | finishSettlement =>
    exact ⟨commit_handed.2, fun _ => commit_handed.1⟩
  | admission | claimSettlement | releaseSettlement => exact ⟨rfl, fun _ => rfl⟩

theorem run_prior {o : Op} (inv : UnitsInv s) :
    ∀ r ∈ (o.run s).reservations, r.prior.1 ≠ .completed := by
  by_cases reserves : ∃ now enabled locked busy owner leaseSeconds,
      o = .reserve now enabled locked busy owner leaseSeconds
  · obtain ⟨now, enabled, locked, busy, owner, leaseSeconds, rfl⟩ := reserves
    intro r hr
    rcases mem_append.mp hr with hr | hr
    · exact (reserveDueWork_ok.2 r (Option.mem_toList.mp hr)).2
    · exact inv.prior r hr
  · simp only [not_exists] at reserves
    rw [(run_handed s).2 reserves]
    exact inv.prior

theorem UnitsInv.settles (inv : UnitsInv s) (settles : Settles s.world s'.world)
    (rescued : s'.rescued = s.rescued) (prior : ∀ r ∈ s'.reservations, r.prior.1 ≠ .completed) :
    UnitsInv s' := by
  refine ⟨settles.keyed inv.keyed, prior, fun id completed => ?_⟩
  rw [rescued]
  rcases settles.works id completed with earlier | done
  · refine (inv.done id earlier).imp_right fun done u hu same => ?_
    rcases settles.units u hu with old | done' | isNot
    · exact done u old same
    · exact done'
    · exact absurd (same ▸ completed) isNot
  · exact .inr done

theorem UnitsInv.rescue (inv : UnitsInv s) (snapshotId : Uuid) : UnitsInv (s.rescue snapshotId) := by
  have ids (r : ProviderWork) : (rescuedRow snapshotId r).id = r.id := by
    unfold rescuedRow
    split <;> rfl
  refine ⟨⟨?_, inv.keyed.units⟩, inv.prior, ?_⟩
  · simpa only [System.rescue, List.map_map, Function.comp_def, ids] using inv.keyed.works
  · rintro id ⟨r', hr', rfl, completed⟩
    obtain ⟨r, hr, rfl⟩ := mem_map.mp hr'
    rw [ids]
    by_cases now : isRescued snapshotId r = true
    · exact .inl (mem_append_left _ (mem_map_of_mem (mem_filter.mpr ⟨hr, now⟩)))
    · rw [rescuedRow, if_neg now] at completed
      exact (inv.done r.id ⟨r, hr, rfl, completed⟩).imp_left (mem_append_right _)

/-- A step keeps the invariant and every completed unit. -/
theorem WorkStep.inv (inv : UnitsInv s) (h : WorkStep s s') :
    UnitsInv s' ∧ ∀ u ∈ s.world.units, u.state = .completed → u ∈ s'.world.units := by
  cases h with
  | others world works units =>
    have settles : Settles s.world world := .of_eq works units
    exact ⟨inv.settles settles rfl inv.prior, settles.kept⟩
  | op o reservation =>
    have settles := run_settles inv reservation
    exact ⟨inv.settles settles (run_handed s).1 (run_prior inv), settles.kept⟩
  | rescue snapshotId => exact ⟨inv.rescue snapshotId, fun _ hu _ => hu⟩

theorem workRun_inv (inv : UnitsInv s) (run : ReflTransGen WorkStep s s') :
    UnitsInv s' ∧ ∀ u ∈ s.world.units, u.state = .completed → u ∈ s'.world.units := by
  induction run with
  | refl => exact ⟨inv, fun _ hu _ => hu⟩
  | tail _ step ih =>
    obtain ⟨inv', kept⟩ := step.inv ih.1
    exact ⟨inv', fun u hu done => kept u (ih.2 u hu done) done⟩

theorem unitsInv_empty (works : w.works = []) (units : w.units = []) : UnitsInv { world := w } := by
  refine ⟨⟨?_, ?_⟩, fun r hr => absurd hr not_mem_nil, fun id h => ?_⟩
  · rw [works]
    exact nodup_nil
  · rw [units]
    exact nodup_nil
  · obtain ⟨r, hr, -⟩ := h
    rw [works] at hr
    exact absurd hr not_mem_nil

theorem workRun_play (h : allowed s ops) : ReflTransGen WorkStep s (play Op.run s ops) := by
  induction ops generalizing s with
  | nil => exact .refl
  | cons o ops ih =>
    simp only [allowed, Bool.and_eq_true, Option.all_eq_true, decide_eq_true_eq] at h
    exact .head (.op o h.1.1.2) (ih h.2)

def annTwoUnits : List Op :=
  let unit (key : String) (state : UnitState) (receiptId : Option String) : UnitCheckpoint :=
    { unitKey := key, kind := "folder", state, receiptId, deadlineAt := seconds 900 }
  [.ensure 0 9 { leaf := ⟨2, none⟩, snapshotToken := 0, jobToken := 0 },
    .reserve 0 true [] [] 7 60, .admission false (annTurn 1 (.waiting, none, none)) 7,
    .checkpoint 1 (annClaim 7 1 1) (unit "inbox" .completed (some "r1")),
    .checkpoint 2 (annClaim 7 1 1) (unit "sent" .running none),
    .suspend 3 (annClaim 7 1 1) (seconds 10) "throttled" none]

def annResumed : List Op :=
  [.reserve (seconds 11) true [] [] 8 60, .admission false (annTurn 3 (.waiting, none, none)) 8,
    .checkpoint (seconds 12) (annClaim 8 3 3)
      { unitKey := "sent", kind := "folder", state := .completed, receiptId := some "r2"
        deadlineAt := seconds 900 },
    .finish (seconds 13) (annClaim 8 3 3) .completed]

def annFailed : List Op :=
  [.ensure 0 9 { leaf := ⟨2, none⟩, snapshotToken := 0, jobToken := 0 },
    .reserve 0 true [] [] 7 60, .admission false (annTurn 1 (.waiting, none, none)) 7,
    .checkpoint 1 (annClaim 7 1 1)
      { unitKey := "file", kind := "file", state := .failed, deadlineAt := seconds 900 },
    .finish 2 (annClaim 7 1 1) .failed]

end TmVault.Provider
