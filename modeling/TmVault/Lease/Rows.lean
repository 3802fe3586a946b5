import TmVault.Concurrency.Runs
import TmVault.Work.Tables

namespace TmVault.Leasing

open Concurrency Store Work

structure Lease where
  (workId ownerId : Uuid)
  token : Nat
  deriving DecidableEq

section

variable (row : Snapshot) (now : Time) (ttl : Nat)

def expired : Bool := row.leaseExpiresAt.all (· < now)

def claimable (workId : Uuid) (unguarded : Bool) : Bool :=
  row.id = workId && row.status = some .inProgress && unguarded && expired row now

def claimed (owner : Uuid) : Snapshot :=
  { row with
    leaseOwnerId := some owner, leaseExpiresAt := some (now + seconds ttl)
    leaseToken := row.leaseToken + 1 }

def claim (workId owner : Uuid) (unguarded : Bool) : Snapshot × Option Lease :=
  if claimable row now workId unguarded then
    (claimed row now ttl owner, some ⟨workId, owner, row.leaseToken + 1⟩)
  else (row, none)

def renew (l : Lease) : Snapshot × Bool :=
  if row.id = l.workId && row.leaseOwnerId = some l.ownerId && row.leaseToken = l.token then
    ({ row with leaseExpiresAt := some (now + seconds ttl) }, true)
  else (row, false)

def release (l : Lease) : Snapshot :=
  if row.id = l.workId && row.leaseToken = l.token then
    { row with leaseOwnerId := none, leaseExpiresAt := none }
  else row

def bumpOnce (owner : Uuid) (ids : Option (List Uuid)) : Snapshot :=
  if row.leaseOwnerId = some owner && row.status = some .inProgress && ids.all (row.id ∈ ·) then
    { row with leaseExpiresAt := some (now + seconds ttl) }
  else row

def reclaim (dead : List Uuid) (unguarded : Bool) : Snapshot :=
  if row.leaseOwnerId.any (· ∈ dead) && row.status = some .inProgress && unguarded then
    { row with
      leaseOwnerId := none, leaseExpiresAt := some (now - seconds 1)
      leaseToken := row.leaseToken + 1 }
  else row

end

structure System where
  row : Snapshot
  leases : List Lease := []

/-- A statement of a worker. The clock of each is arbitrary, so a lease runs out at any point, and a
worker that lost its lease goes on with it. -/
inductive Op
  | claim (now : Time) (ttl : Nat) (workId owner : Uuid) (unguarded : Bool)
  | renew (now : Time) (ttl : Nat) (l : Lease)
  | release (l : Lease)
  | bumpOnce (now : Time) (ttl : Nat) (owner : Uuid) (ids : Option (List Uuid))
  | reclaim (now : Time) (dead : List Uuid) (unguarded : Bool)
  | setStatus (status : Option SnapshotStatus)

def Op.run (s : System) : Op → System
  | .claim now ttl workId owner unguarded =>
    let (row, l) := Leasing.claim s.row now ttl workId owner unguarded
    ⟨row, l.toList ++ s.leases⟩
  | .renew now ttl l => { s with row := (Leasing.renew s.row now ttl l).1 }
  | .release l => { s with row := Leasing.release s.row l }
  | .bumpOnce now ttl owner ids => { s with row := Leasing.bumpOnce s.row now ttl owner ids }
  | .reclaim now dead unguarded => { s with row := Leasing.reclaim s.row now dead unguarded }
  | .setStatus status => { s with row := { s.row with status } }

def Op.Lawful (s : System) : Op → Prop
  | .renew _ _ l | .release l => l ∈ s.leases
  | _ => True

def Holds (row : Snapshot) (now : Time) (l : Lease) : Prop :=
  row.id = l.workId ∧ row.leaseOwnerId = some l.ownerId ∧ row.leaseToken = l.token ∧
    expired row now = false

variable {row row' : Snapshot} {now : Time} {ttl : Nat} {l l' : Lease} {s : System} {op : Op}
  {unguarded : Bool} {workId owner : Uuid}

def Issued (row : Snapshot) (l : Lease) : Prop :=
  l.token < row.leaseToken ∨ l.token = row.leaseToken ∧
    (row.leaseOwnerId = some l.ownerId ∨ row.leaseOwnerId = none ∧ row.leaseExpiresAt = none)

structure Fenced (s : System) : Prop where
  issued : ∀ l ∈ s.leases, l.workId = s.row.id ∧ Issued s.row l
  distinct : ∀ l ∈ s.leases, ∀ l' ∈ s.leases, l.token = l'.token → l = l'

structure Moves (row row' : Snapshot) : Prop where
  id : row'.id = row.id
  moved : row.leaseToken < row'.leaseToken ∨ row'.leaseToken = row.leaseToken ∧
    (row'.leaseOwnerId = none ∧ row'.leaseExpiresAt = none ∨
      row'.leaseOwnerId = row.leaseOwnerId ∧
        (row.leaseOwnerId = none → row'.leaseExpiresAt = row.leaseExpiresAt))

theorem Moves.refl (row : Snapshot) : Moves row row := ⟨rfl, .inr ⟨rfl, .inr ⟨rfl, fun _ => rfl⟩⟩⟩

theorem Moves.issued (h : Moves row row') (issued : Issued row l) : Issued row' l := by
  rcases h.moved with up | ⟨same, rest⟩
  · left
    rcases issued with past | ⟨own, -⟩ <;> omega
  · rcases issued with past | ⟨own, held⟩
    · exact .inl (by omega)
    · refine .inr ⟨own.trans same.symm, ?_⟩
      rcases rest with cleared | ⟨owner, expires⟩
      · exact .inr cleared
      · rw [owner]
        rcases held with held | ⟨free, never⟩
        · exact .inl held
        · exact .inr ⟨free, (expires free).trans never⟩

theorem Moves.token_le (h : Moves row row') : row.leaseToken ≤ row'.leaseToken := by
  rcases h.moved with up | ⟨same, -⟩ <;> omega

theorem renew_moves : Moves row (renew row now ttl l).1 := by
  rw [renew]
  split
  · rename_i held
    simp only [Bool.and_eq_true, decide_eq_true_eq] at held
    refine ⟨rfl, .inr ⟨rfl, .inr ⟨rfl, fun free => ?_⟩⟩⟩
    cases held.1.2.symm.trans free
  · exact .refl row

theorem release_moves : Moves row (release row l) := by
  rw [release]
  split
  · exact ⟨rfl, .inr ⟨rfl, .inl ⟨rfl, rfl⟩⟩⟩
  · exact .refl row

theorem bumpOnce_moves : Moves row (bumpOnce row now ttl owner ids) := by
  rw [bumpOnce]
  split
  · rename_i held
    simp only [Bool.and_eq_true, decide_eq_true_eq] at held
    refine ⟨rfl, .inr ⟨rfl, .inr ⟨rfl, fun free => ?_⟩⟩⟩
    cases held.1.1.symm.trans free
  · exact .refl row

theorem reclaim_moves : Moves row (reclaim row now dead unguarded) := by
  rw [reclaim]
  split
  · exact ⟨rfl, .inl (Nat.lt_succ_self _)⟩
  · exact .refl row

theorem Fenced.moves (fenced : Fenced s) (h : Moves s.row row') : Fenced { s with row := row' } where
  issued l hl := ⟨(fenced.issued l hl).1.trans h.id.symm, h.issued (fenced.issued l hl).2⟩
  distinct := fenced.distinct

theorem claim_ok (h : claim row now ttl workId owner unguarded = (row', some l)) :
    expired row now = true ∧ row' = claimed row now ttl owner ∧ row.id = workId ∧
      l = ⟨workId, owner, row.leaseToken + 1⟩ := by
  rw [claim] at h
  split at h
  · rename_i free
    cases h
    simp only [claimable, Bool.and_eq_true, decide_eq_true_eq] at free
    exact ⟨free.2, rfl, free.1.1.1, rfl⟩
  · cases h

theorem claim_none (h : claim row now ttl workId owner unguarded = (row', none)) : row' = row := by
  rw [claim] at h
  split at h
  · cases h
  · cases h
    rfl

theorem Fenced.claimed (fenced : Fenced s) :
    Fenced ⟨claimed s.row now ttl owner, ⟨s.row.id, owner, s.row.leaseToken + 1⟩ :: s.leases⟩ where
  issued l hl := by
    rcases List.mem_cons.mp hl with rfl | hl
    · exact ⟨rfl, .inr ⟨rfl, .inl rfl⟩⟩
    · have moved : Moves s.row (Leasing.claimed s.row now ttl owner) := ⟨rfl, .inl (Nat.lt_succ_self _)⟩
      exact ⟨(fenced.issued l hl).1, moved.issued (fenced.issued l hl).2⟩
  distinct l hl l' hl' same := by
    have below : ∀ l ∈ s.leases, l.token ≤ s.row.leaseToken := by
      intro l hl
      rcases (fenced.issued l hl).2 with past | ⟨own, -⟩ <;> omega
    rcases List.mem_cons.mp hl with rfl | hl <;> rcases List.mem_cons.mp hl' with rfl | hl'
    · rfl
    · have := below l' hl'
      simp only at same
      omega
    · have := below l hl
      simp only at same
      omega
    · exact fenced.distinct l hl l' hl' same

theorem Fenced.run (fenced : Fenced s) :
    Fenced (op.run s) ∧ s.row.leaseToken ≤ (op.run s).row.leaseToken := by
  have moves {row' : Snapshot} (h : Moves s.row row') :
      Fenced { s with row := row' } ∧ s.row.leaseToken ≤ row'.leaseToken := ⟨fenced.moves h, h.token_le⟩
  cases op with
  | claim now ttl workId owner unguarded =>
    rcases h : claim s.row now ttl workId owner unguarded with ⟨row', l⟩
    rw [Op.run, h]
    dsimp only
    cases l with
    | none =>
      cases claim_none h
      exact ⟨fenced, le_rfl⟩
    | some l =>
      obtain ⟨-, rfl, rfl, rfl⟩ := claim_ok h
      exact ⟨fenced.claimed, Nat.le_succ _⟩
  | renew now ttl l => exact moves renew_moves
  | release l => exact moves release_moves
  | bumpOnce now ttl owner ids => exact moves bumpOnce_moves
  | reclaim now dead unguarded => exact moves reclaim_moves
  | setStatus status => exact moves ⟨rfl, .inr ⟨rfl, .inr ⟨rfl, fun _ => rfl⟩⟩⟩

theorem renew_stale (h : l.token < row.leaseToken ∨ row.leaseOwnerId ≠ some l.ownerId) :
    (renew row now ttl l).1 = row := by
  rw [renew, if_neg]
  intro held
  simp only [Bool.and_eq_true, decide_eq_true_eq] at held
  rcases h with older | other
  · omega
  · exact other held.1.2

theorem release_stale (issued : Issued row l)
    (h : l.token < row.leaseToken ∨ row.leaseOwnerId ≠ some l.ownerId) : release row l = row := by
  rw [release]
  split
  · rename_i held
    simp only [Bool.and_eq_true, decide_eq_true_eq] at held
    rcases issued with past | ⟨-, owner | ⟨free, never⟩⟩
    · omega
    · rcases h with older | other
      · omega
      · exact absurd owner other
    · cases row
      simp only at free never
      rw [free, never]
  · rfl

/-- Over any run the token goes up by one with each claim and not otherwise, a claim succeeds only
where no lease is held, at most one is held, and a superseded lease renews and releases nothing. -/
theorem snapshot_lease_fence (row : Snapshot) (ops : List Op)
    (along : Along Op.run (fun s op => op.Lawful s) ⟨row, []⟩ ops) (s : System)
    (reached : play Op.run ⟨row, []⟩ ops = s) : row.leaseToken ≤ s.row.leaseToken ∧
    (∀ op : Op, op.Lawful s → s.row.leaseToken ≤ (op.run s).row.leaseToken) ∧
    (∀ now ttl workId owner unguarded row' l,
      claim s.row now ttl workId owner unguarded = (row', some l) →
        s.row.leaseToken < row'.leaseToken ∧ l.token = row'.leaseToken ∧
          ∀ l ∈ s.leases, ¬ Holds s.row now l) ∧
    (∀ now, ∀ l ∈ s.leases, ∀ l' ∈ s.leases, Holds s.row now l → Holds s.row now l' → l = l') ∧
    ∀ l ∈ s.leases, l.token < s.row.leaseToken ∨ s.row.leaseOwnerId ≠ some l.ownerId →
      ∀ now ttl, (renew s.row now ttl l).1 = s.row ∧ release s.row l = s.row := by
  have start : Fenced ⟨row, []⟩ :=
    ⟨fun _ hl => absurd hl List.not_mem_nil, fun _ hl => absurd hl List.not_mem_nil⟩
  have risen : row.leaseToken ≤ (play Op.run ⟨row, []⟩ ops).row.leaseToken :=
    along.related (R := fun a b => a.row.leaseToken ≤ b.row.leaseToken) (fun _ => Nat.le_refl _)
      (fun ab bc => ab.trans bc) (fun _ _ fenced _ => fenced.run) start
  have fenced : Fenced (play Op.run ⟨row, []⟩ ops) :=
    along.invariant (fun _ _ fenced _ => fenced.run.1) start
  rw [reached] at risen fenced
  refine ⟨risen, fun op _ => fenced.run.2, ?_, ?_, ?_⟩
  · intro now ttl workId owner unguarded row' l h
    obtain ⟨free, rfl, rfl, rfl⟩ := claim_ok h
    refine ⟨Nat.lt_succ_self _, rfl, fun l _ held => ?_⟩
    cases free.symm.trans held.2.2.2
  · intro now l hl l' hl' held held'
    exact fenced.distinct l hl l' hl' (held.2.2.1.symm.trans held'.2.2.1)
  · intro l hl stale now ttl
    exact ⟨renew_stale stale, release_stale (fenced.issued l hl).2 stale⟩

/-- Two workers: the first wakes up after the second has claimed the row. -/
theorem snapshot_lease_fence_stolen :
    let row : Snapshot := { id := 1, resourceId := 2 }
    let late : List Op := [.claim 0 10 1 7 true, .claim (seconds 11) 10 1 8 true,
      .renew (seconds 12) 10 ⟨1, 7, 1⟩]
    let s := play Op.run ⟨row, []⟩ late
    s.leases = [⟨1, 8, 2⟩, ⟨1, 7, 1⟩] ∧
      ∀ now ttl, (renew s.row now ttl ⟨1, 7, 1⟩).1 = s.row ∧ release s.row ⟨1, 7, 1⟩ = s.row := by
  intro row late s
  refine ⟨by decide +kernel, (snapshot_lease_fence row late ⟨trivial, trivial, ?_, trivial⟩ s
    rfl).2.2.2.2 ⟨1, 7, 1⟩ (by decide +kernel) (.inl (by decide +kernel))⟩
  unfold Op.Lawful
  decide +kernel

open List Function

/-- Where `_bump_once` stands with a table: it has read the registry, or its `UPDATE` has left out
`lapsed` of what it read. -/
inductive Bump (Row : Type)
  | idle | read (ids : List Row) | renewed (lapsed : List Row)

/-- One process and one table. `held` is the claim under which the process holds a row now, and a
registration keeps the claim of its own time. -/
structure Process (Row : Type) where
  registry : List Row := []
  held : Row → Option Nat := fun _ => none
  claims : Nat := 0
  handlers : Nat → Option (Row × Option Nat) := fun _ => none
  bump : Bump Row := .idle

inductive RegistryEvent (Row : Type)
  | claim (row : Row) | lose (row : Row) | register (handler : Nat) (row : Row)
  | unregister (handler : Nat) | read | renew | drop

variable {Row : Type} [DecidableEq Row]

def register (registry : List Row) (row : Row) : List Row := registry.insert row

def unregister (registry : List Row) (row : Row) : List Row := registry.filter (· ≠ row)

@[simp] theorem mem_foldl_unregister {lapsed registry : List Row} {row : Row} :
    row ∈ lapsed.foldl unregister registry ↔ row ∈ registry ∧ row ∉ lapsed := by
  induction lapsed generalizing registry with
  | nil => simp
  | cons _ _ ih => grind [unregister]

namespace Process

variable (s : Process Row)

def step : RegistryEvent Row → Process Row
  | .claim row => { s with held := update s.held row (some s.claims), claims := s.claims + 1 }
  | .lose row => { s with held := update s.held row none }
  | .register handler row =>
    { s with
      registry := register s.registry row
      handlers := update s.handlers handler (some (row, s.held row)) }
  | .unregister handler =>
    { s with
      registry := (s.handlers handler).elim s.registry (unregister s.registry ·.1)
      handlers := update s.handlers handler none }
  | .read => { s with bump := .read s.registry }
  | .renew =>
    match s.bump with
    | .read ids => { s with bump := .renewed (ids.filter fun row => (s.held row).isNone) }
    | _ => s
  | .drop =>
    match s.bump with
    | .renewed lapsed => { s with registry := lapsed.foldl unregister s.registry, bump := .idle }
    | _ => s

/-- No row is claimed between the `UPDATE` that left it out and the end of that bump, or registered
while another handler has it registered. -/
def Apart : RegistryEvent Row → Prop
  | .claim row => ∀ lapsed, s.bump = .renewed lapsed → row ∉ lapsed
  | .register handler row => ∀ other c, s.handlers other = some (row, c) → other = handler
  | _ => True

structure Registered : Prop where
  held_lt : ∀ row n, s.held row = some n → n < s.claims
  claim_lt : ∀ h row n, s.handlers h = some (row, some n) → n < s.claims
  lapsed : ∀ l, s.bump = .renewed l → ∀ row ∈ l, s.held row = none
  single : ∀ h h' row c c', s.handlers h = some (row, c) → s.handlers h' = some (row, c') → h = h'
  kept : ∀ h row n, s.handlers h = some (row, some n) → s.held row = some n → row ∈ s.registry

variable {s}

theorem Registered.step {e : RegistryEvent Row} (inv : s.Registered) (apart : s.Apart e) :
    (s.step e).Registered := by
  obtain ⟨held_lt, claim_lt, lapsed, single, kept⟩ := id inv
  cases e with
  | claim row =>
    have apart : ∀ l, s.bump = .renewed l → row ∉ l := apart
    -- the new claim is above every registered one
    refine ⟨?_, ?_, ?_, single, ?_⟩ <;> simp only [Process.step, update_apply] <;> grind
  | lose row =>
    refine ⟨?_, claim_lt, ?_, single, ?_⟩ <;> simp only [Process.step, update_apply] <;> grind
  | register handler row =>
    have apart : ∀ other c, s.handlers other = some (row, c) → other = handler := apart
    refine ⟨held_lt, ?_, lapsed, ?_, ?_⟩ <;> simp only [Process.step, update_apply, register] <;> grind
  | unregister handler =>
    refine ⟨held_lt, ?_, lapsed, ?_, fun h r n => ?_⟩ <;> simp only [Process.step, update_apply]
    · grind
    · grind
    · -- the row that is discarded is no other handler's
      cases own : s.handlers handler <;> grind [unregister]
  | read => exact ⟨held_lt, claim_lt, nofun, single, kept⟩
  | renew =>
    rw [Process.step]
    split
    · refine ⟨held_lt, claim_lt, ?_, single, kept⟩
      rintro _ ⟨⟩ row mem
      simpa using (mem_filter.mp mem).2
    · exact inv
  | drop =>
    rw [Process.step]
    split
    · rename_i l renewed
      refine ⟨held_lt, claim_lt, nofun, single, fun h row n live holds => ?_⟩
      have := lapsed l renewed row
      exact mem_foldl_unregister.mpr ⟨kept h row n live holds, by grind⟩
    · exact inv

end Process

open Process

theorem registered_while_held {Row : Type} [DecidableEq Row] (events : List (RegistryEvent Row))
    (apart : Along step Apart {} events) (handler : Nat) (row : Row) (n : Nat)
    (live : (play step {} events).handlers handler = some (row, some n))
    (held : (play step {} events).held row = some n) : row ∈ (play step {} events).registry := by
  have start : Registered ({} : Process Row) := by constructor <;> simp
  exact (apart.invariant (fun _ _ => Registered.step) start).kept handler row n live held

theorem renewed_row_registered :
    0 ∈ (play step ({} : Process Nat) [.claim 0, .register 1 0, .read, .renew, .drop]).registry :=
  registered_while_held [.claim 0, .register 1 0, .read, .renew, .drop]
    (by simp [Along, Apart, step]) 1 0 0 rfl rfl

/-- The second handler registered the row under the claim the process holds, and it is not registered:
the first handler was still finishing, or a bump had left the row out. -/
theorem reclaimed_row_dropped :
    (let s := play step ({} : Process Nat)
      [.claim 0, .register 1 0, .lose 0, .claim 0, .register 2 0, .unregister 1]
    s.handlers 2 = some (0, some 1) ∧ s.held 0 = some 1 ∧ 0 ∉ s.registry) ∧
    let s := play step ({} : Process Nat)
      [.claim 0, .register 1 0, .lose 0, .read, .renew, .claim 0, .register 2 0, .drop]
    s.handlers 2 = some (0, some 1) ∧ s.held 0 = some 1 ∧ 0 ∉ s.registry := by
  decide

end TmVault.Leasing
