import TmVault.Concurrency.Runs
import TmVault.Store.Schema

/-! The storage toggle: the worker's statements one by one, with the operator's requests and the
worker's crashes between them. -/

namespace TmVault.StorageToggle

open Concurrency Store List

inductive Status
  | started | drainStarted | drainCompleted | dbPromoted | dnsFlipped | workersRestarted
  | smokePassed | completed | failed | aborted
  deriving DecidableEq

def Status.isTerminal (s : Status) : Bool := s ∈ [.completed, .failed, .aborted]

inductive Transition
  | stable | draining | flipping
  deriving DecidableEq

structure Payload where
  (eventId fromId toId : Uuid)
  deriving DecidableEq

structure Toggle extends Payload where
  status : Status := .started
  smoked : Bool := false
  deriving DecidableEq

inductive Pc
  | read | preflight | standDown | setDraining | drain | undrain | drained
  | promote | dns | workers | flip | cutover | smoke | passed
  | revert | clearCooldown | rollback | fail
  | setStable | setCooldown | complete
  deriving DecidableEq

/-- `system_config` and the events, newest first, with the run of the one worker that holds the lock;
`cooldown` says that `cooldown_until` lies ahead. -/
structure System where
  active : Uuid
  transition : Transition := .stable
  cooldown : Bool := false
  events : List Toggle := []
  worker : Option (Payload × Pc) := none

section

variable (s : System) (id : Uuid)

def System.update (f : Toggle → Toggle) : System :=
  { s with events := s.events.map fun t => if t.eventId = id then f t else t }

def System.setStatus (status : Status) : System := s.update id ({ · with status })

def System.status? : Option Status := (s.events.find? (·.eventId = id)).map (·.status)

def System.isAborted : Bool := s.status? id = some .aborted

def System.release : System :=
  if s.events.all fun t => t.eventId = id || t.status.isTerminal then
    { s with transition := .stable }
  else s

/-- One statement of `run_toggle`, or one of its calls; `ok` says how the call ends, or that the
statement does not raise where the code goes on if it does. -/
def System.work (p : Payload) (ok : Bool) : Pc → System
  | .read => { s with worker := some (p, if s.isAborted p.eventId then .standDown else .preflight) }
  | .preflight =>
    if ok && s.transition = .stable && !s.cooldown then { s with worker := some (p, .setDraining) }
    else { s.setStatus p.eventId .aborted with worker := some (p, .standDown) }
  | .standDown => { s.release p.eventId with worker := none }
  | .setDraining => { s with transition := .draining, worker := some (p, .drain) }
  | .drain =>
    if ok then { s with worker := some (p, .drained) }
    else if s.isAborted p.eventId then { s with worker := some (p, .undrain) }
    else s
  | .undrain => { s with transition := .stable, worker := none }
  | .drained =>
    if s.isAborted p.eventId then { s with worker := some (p, .undrain) }
    else { s.setStatus p.eventId .drainCompleted with worker := some (p, .promote) }
  | .promote =>
    if ok then { s.setStatus p.eventId .dbPromoted with worker := some (p, .dns) }
    else { s with worker := some (p, .rollback) }
  | .dns =>
    if ok then { s.setStatus p.eventId .dnsFlipped with worker := some (p, .workers) }
    else { s with worker := some (p, .rollback) }
  | .workers =>
    if ok then { s.setStatus p.eventId .workersRestarted with worker := some (p, .flip) }
    else { s with worker := some (p, .rollback) }
  | .flip => { s with transition := .flipping, worker := some (p, .cutover) }
  | .cutover => { s with active := p.toId, worker := some (p, .smoke) }
  | .smoke =>
    if ok then { s.update p.eventId ({ · with smoked := true }) with worker := some (p, .passed) }
    else { s with worker := some (p, .revert) }
  | .passed =>
    if ok then { s.setStatus p.eventId .smokePassed with worker := some (p, .setStable) }
    else { s with worker := some (p, .revert) }
  | .revert =>
    { s with active := if ok then p.fromId else s.active, worker := some (p, .clearCooldown) }
  | .clearCooldown => { s with cooldown := s.cooldown && !ok, worker := some (p, .rollback) }
  | .rollback =>
    { s with transition := if ok then .stable else s.transition, worker := some (p, .fail) }
  | .fail => { s.setStatus p.eventId .failed with worker := none }
  | .setStable => { s with transition := .stable, worker := some (p, .setCooldown) }
  | .setCooldown => { s with cooldown := true, worker := some (p, .complete) }
  | .complete => { s.setStatus p.eventId .completed with worker := none }

def System.abort : System :=
  match s.status? id with
  | some .started | some .drainStarted => (s.setStatus id .aborted).release id
  | some .aborted | some .failed | some .completed => s.release id
  | _ => s

end

/-- The operator submits or aborts a toggle, the cooldown runs out, a message is delivered, the worker
makes its next statement, or it dies. -/
inductive Event
  | submit (id toId : Uuid)
  | abort (id : Uuid)
  | cooled
  | deliver (p : Payload)
  | work (ok : Bool)
  | die

def step (s : System) : Event → System
  | .submit id toId =>
    if s.transition = .stable && !s.cooldown && s.active ≠ toId then
      { s with events := { eventId := id, fromId := s.active, toId } :: s.events }
    else s
  | .abort id => s.abort id
  | .cooled => { s with cooldown := false }
  | .deliver p => if s.worker.isNone then { s with worker := some (p, .read) } else s
  | .work ok => match s.worker with
    | some (p, pc) => s.work p ok pc
    | none => s
  | .die => { s with worker := none }

/-- The stretch between the cutover and what the smoke test makes of it. -/
def Pc.isOpen (pc : Pc) : Bool := pc ∈ [.smoke, .revert]

/-- One toggle at a time, a repeated message is of the latest one and finds it not completed, the
worker does not die while a cutover is open, and a revert lands. -/
def Event.Lawful (s : System) : Event → Prop
  | .submit id _ => (∀ t ∈ s.events, t.eventId ≠ id ∧ t.status.isTerminal) ∧ s.worker = none
  | .deliver p => ∃ t ∈ s.events.head?, t.toPayload = p ∧ t.status ≠ .completed
  | .work ok => ok = false → ∀ w ∈ s.worker, w.2 ≠ .revert
  | .die => ∀ w ∈ s.worker, w.2.isOpen = false
  | _ => True

def Event.actor (s : System) : Event → Option Uuid
  | .submit id _ | .abort id => some id
  | .deliver p => some p.eventId
  | .work _ | .die => s.worker.map (·.1.eventId)
  | .cooled => none

section

def Status.isPast (s : Status) : Bool :=
  s ∈ [.drainCompleted, .dbPromoted, .dnsFlipped, .workersRestarted, .smokePassed]

def Pc.isLate (pc : Pc) : Bool :=
  pc ∉ [.read, .preflight, .standDown, .setDraining, .drain, .undrain, .drained]

def Pc.isTested (pc : Pc) : Bool := pc ∈ [.passed, .setStable, .setCooldown, .complete]

structure Fits (active : Uuid) (pc : Option Pc) (t : Toggle) : Prop where
  apart : t.fromId ≠ t.toId
  points : t.smoked = false → active = if pc.any Pc.isOpen then t.toId else t.fromId
  unfinished : pc.isSome → t.status ≠ .completed
  past : pc.any Pc.isLate → t.status.isPast
  tested : pc.any Pc.isTested → t.smoked

/-- The latest toggle is the only one that may be live, and the worker runs no other. -/
structure Current (s : System) (t : Toggle) (rest : List Toggle) : Prop where
  events : s.events = t :: rest
  others : ∀ o ∈ rest, o.eventId ≠ t.eventId ∧ o.status.isTerminal
  fits : Fits s.active (s.worker.map (·.2)) t
  worker : ∀ w ∈ s.worker, w.1 = t.toPayload

def Inv (s : System) : Prop := (s.events = [] ∧ s.worker = none) ∨ ∃ t rest, Current s t rest

variable {s : System} {t : Toggle} {rest : List Toggle} {active : Uuid} {pc : Pc} {ok : Bool}
  {p : Payload} {id : Uuid} {status : Status} {e : Event} {events : List Event}

namespace Fits

section

variable (h : Fits active (some pc) t)

include h

theorem move (same : pc'.isOpen = pc.isOpen := by decide)
    (late : pc'.isLate → pc.isLate := by decide) (tested : pc'.isTested → pc.isTested := by decide) :
    Fits active (some pc') t :=
  ⟨h.apart, by simpa [same] using h.points, fun _ => h.unfinished rfl, fun l => h.past (late l),
    fun l => h.tested (tested l)⟩

theorem write (past : status.isPast)
    (same : pc'.isOpen = pc.isOpen := by decide)
    (tested : pc'.isTested → pc.isTested := by decide) :
    Fits active (some pc') { t with status } := by
  refine ⟨h.apart, by simpa [same] using h.points, fun _ => ?_, fun _ => past,
    fun l => h.tested (tested l)⟩
  rintro rfl
  cases past

theorem idle (closed : pc.isOpen = false := by decide) :
    Fits active none t :=
  ⟨h.apart, by simpa [closed] using h.points, nofun, nofun, nofun⟩

end

theorem settle (h : Fits active none t) : Fits active none { t with status } :=
  ⟨h.apart, h.points, nofun, nofun, nofun⟩

end Fits

namespace Current

section

variable (h : Current s t rest)

include h

theorem status?_eq : s.status? t.eventId = some t.status := by
  simp [System.status?, h.events]

theorem update {f : Toggle → Toggle} {worker : Option (Payload × Pc)}
    (keeps : (f t).toPayload = t.toPayload) (fits : Fits s.active (worker.map (·.2)) (f t))
    (same : ∀ w ∈ worker, w.1 = t.toPayload) :
    Current { s.update t.eventId f with worker } (f t) rest := by
  have key : (f t).eventId = t.eventId := congrArg Payload.eventId keeps
  refine ⟨?_, fun o ho => ⟨key ▸ (h.others o ho).1, (h.others o ho).2⟩, fits, keeps ▸ same⟩
  simp only [System.update, h.events, map_cons, if_true]
  rw [map_congr_left fun o ho => if_neg (h.others o ho).1, map_id']

theorem keep (events : s'.events = s.events)
    (fits : Fits s'.active (s'.worker.map (·.2)) t) (same : ∀ w ∈ s'.worker, w.1 = t.toPayload) :
    Current s' t rest :=
  ⟨events.trans h.events, h.others, fits, same⟩

theorem go (events : s'.events = s.events)
    (worker : s'.worker = some (t.toPayload, pc)) (fits : Fits s'.active (some pc) t) :
    Current s' t rest :=
  h.keep events (by rwa [worker]) (by simp [worker])

theorem stop (events : s'.events = s.events) (worker : s'.worker = none)
    (fits : Fits s'.active none t) : Current s' t rest :=
  h.keep events (by rwa [worker]) (by simp [worker])

theorem record (fits : Fits s.active (some pc) { t with status }) :
    Current { s.setStatus t.eventId status with worker := some (t.toPayload, pc) }
      { t with status } rest :=
  h.update rfl fits (by simp)

theorem finish (fits : Fits s.active none t) :
    Current { s.setStatus t.eventId status with worker := none } { t with status } rest :=
  h.update rfl fits.settle nofun

end

end Current

theorem release_same : (s.release id).events = s.events ∧ (s.release id).active = s.active ∧
    (s.release id).worker = s.worker := by
  unfold System.release
  split <;> exact ⟨rfl, rfl, rfl⟩

theorem Current.work (h : Current s t rest) (at_ : s.worker = some (p, pc))
    (lands : ok = false → pc ≠ .revert) : ∃ t', Current (s.work p ok pc) t' rest := by
  obtain rfl : p = t.toPayload := h.worker (p, pc) at_
  have fits : Fits s.active (some pc) t := by simpa [at_] using h.fits
  cases pc with
  | read =>
    refine ⟨t, h.go rfl rfl ?_⟩
    split <;> exact fits.move
  | preflight =>
    simp only [System.work]
    split
    · exact ⟨t, h.go rfl rfl fits.move⟩
    · exact ⟨_, h.record ⟨fits.apart, fits.points, fun _ => Status.noConfusion, nofun, nofun⟩⟩
  | standDown =>
    obtain ⟨events, active, -⟩ := @release_same s t.eventId
    exact ⟨t, h.stop events rfl (active.symm ▸ fits.idle)⟩
  | drain =>
    simp only [System.work]
    split
    · exact ⟨t, h.go rfl rfl fits.move⟩
    split
    · exact ⟨t, h.go rfl rfl fits.move⟩
    · exact ⟨t, h⟩
  | undrain => exact ⟨t, h.stop rfl rfl fits.idle⟩
  | drained =>
    simp only [System.work]
    split
    · exact ⟨t, h.go rfl rfl fits.move⟩
    · exact ⟨_, h.record (fits.write rfl)⟩
  | promote | dns | workers =>
    simp only [System.work]
    split
    · exact ⟨_, h.record (fits.write rfl)⟩
    · exact ⟨t, h.go rfl rfl fits.move⟩
  | cutover =>
    exact ⟨t, h.go rfl rfl ⟨fits.apart, fun _ => rfl, fun _ => fits.unfinished rfl,
      fun _ => fits.past rfl, nofun⟩⟩
  | smoke =>
    simp only [System.work]
    split
    · exact ⟨_, h.update rfl ⟨fits.apart, nofun, fun _ => fits.unfinished rfl,
        fun _ => fits.past rfl, fun _ => rfl⟩ (by simp)⟩
    · exact ⟨t, h.go rfl rfl fits.move⟩
  | passed =>
    simp only [System.work]
    split
    · exact ⟨_, h.record (fits.write rfl)⟩
    · have smoked : t.smoked = true := fits.tested rfl
      exact ⟨t, h.go rfl rfl ⟨fits.apart, fun not => absurd (smoked.symm.trans not) nofun,
        fun _ => fits.unfinished rfl, fun _ => fits.past rfl, nofun⟩⟩
  | revert =>
    cases ok with
    | false => exact absurd rfl (lands rfl)
    | true =>
      exact ⟨t, h.go rfl rfl ⟨fits.apart, fun _ => rfl, fun _ => fits.unfinished rfl,
        fun _ => fits.past rfl, nofun⟩⟩
  | setDraining | flip | clearCooldown | rollback | setStable | setCooldown =>
    exact ⟨t, h.go rfl rfl fits.move⟩
  | fail | complete => exact ⟨_, h.finish fits.idle⟩

theorem status?_live (h : Current s t rest) (live : s.status? id = some status)
    (running : status.isTerminal = false) : id = t.eventId := by
  by_contra other
  obtain ⟨o, found, rfl⟩ := Option.map_eq_some_iff.mp live
  rw [h.events, find?_cons_of_neg (by simpa using Ne.symm other)] at found
  simp [(h.others o (mem_of_find?_eq_some found)).2] at running

theorem Current.abort (h : Current s t rest) : ∃ t', Current (s.abort id) t' rest := by
  have released (s : System) (t : Toggle) (h : Current s t rest) : Current (s.release id) t rest := by
    have same := @release_same s id
    exact h.keep same.1 (by simpa only [same.2.1, same.2.2] using h.fits) (same.2.2 ▸ h.worker)
  have claims (early : t.status.isPast = false) (mine : id = t.eventId) :
      ∃ t', Current ((s.setStatus id .aborted).release id) t' rest := by
    subst mine
    have fits := h.fits
    have aborted : Fits s.active (s.worker.map (·.2)) { t with status := .aborted } :=
      ⟨fits.apart, fits.points, fun _ => Status.noConfusion,
        fun late => absurd (fits.past late) (by simp [early]), fits.tested⟩
    exact ⟨_, released _ _ (h.update rfl aborted h.worker)⟩
  unfold System.abort
  split
  case h_1 live | h_2 live =>
    have mine := status?_live h live rfl
    have status := Option.mem_unique h.status?_eq (mine ▸ live)
    exact claims (status ▸ rfl) mine
  case h_3 | h_4 | h_5 => exact ⟨t, released s t h⟩
  case h_6 => exact ⟨t, h⟩

theorem Inv.step (h : Inv s) (lawful : e.Lawful s) : Inv (step s e) := by
  cases e with
  | submit id toId =>
    simp only [StorageToggle.step]
    split
    case isFalse => exact h
    case isTrue admitted =>
      simp only [Bool.and_eq_true, decide_eq_true_eq] at admitted
      obtain ⟨ended, idle⟩ := lawful
      refine .inr ⟨_, s.events, rfl, ended, ?_, fun w hw => ?_⟩
      · simp only [idle]
        exact ⟨admitted.2, fun _ => rfl, nofun, nofun, nofun⟩
      · rw [show s.worker = none from idle] at hw
        cases hw
  | abort id =>
    rcases h with ⟨empty, idle⟩ | ⟨t, rest, h⟩
    · exact .inl (by simp [StorageToggle.step, System.abort, System.status?, empty, idle])
    · exact .inr (h.abort.imp fun t' h' => ⟨rest, h'⟩)
  | cooled => exact h.imp id fun ⟨t, rest, h⟩ => ⟨t, rest, h.keep rfl h.fits h.worker⟩
  | deliver p =>
    obtain ⟨t, head, named, unfinished⟩ := lawful
    rcases h with ⟨empty, -⟩ | ⟨t', rest, h⟩
    · rw [empty] at head
      cases head
    rw [h.events] at head
    obtain rfl : t' = t := Option.some.inj head
    simp only [StorageToggle.step]
    split
    case isFalse => exact .inr ⟨t', rest, h⟩
    case isTrue free =>
      have idle : s.worker = none := Option.isNone_iff_eq_none.mp free
      have fits : Fits s.active none t' := by simpa [idle] using h.fits
      refine .inr ⟨t', rest, h.keep rfl ?_ (by simp [named])⟩
      exact ⟨fits.apart, fits.points, fun _ => unfinished, nofun, nofun⟩
  | work ok =>
    simp only [StorageToggle.step]
    split
    case h_2 => exact h
    case h_1 p pc at_ =>
      rcases h with ⟨-, idle⟩ | ⟨t, rest, h⟩
      · rw [idle] at at_
        cases at_
      · have lands : ok = false → pc ≠ .revert := fun fails => lawful fails (p, pc) at_
        exact .inr ((h.work at_ lands).imp fun t' h' => ⟨rest, h'⟩)
  | die =>
    rcases h with ⟨empty, -⟩ | ⟨t, rest, h⟩
    · exact .inl ⟨empty, rfl⟩
    · refine .inr ⟨t, rest, h.keep rfl ?_ nofun⟩
      cases at_ : s.worker with
      | none =>
        have fits : Fits s.active none t := by simpa [at_] using h.fits
        exact fits
      | some w =>
        have fits : Fits s.active (some w.2) t := by simpa [at_] using h.fits
        exact fits.idle (lawful w at_)

section

variable (h : Current s t rest)

include h

theorem points_of_terminal (ended : t.status.isTerminal) :
    (s.active = t.toId → t.smoked) ∧ (t.smoked = false → s.active = t.fromId) := by
  have late (pc : Pc) (opened : pc.isOpen) : pc.isLate := by
    cases pc <;> first | rfl | cases opened
  have closed : (s.worker.map (·.2)).any Pc.isOpen = false := by
    by_contra opened
    have past : t.status.isPast := by
      refine h.fits.past ?_
      cases at_ : s.worker with
      | none => simp [at_] at opened
      | some w => exact late w.2 (by simpa [at_] using opened)
    cases status : t.status <;> simp [status, Status.isTerminal, Status.isPast] at ended past
  have from_ (plain : t.smoked = false) : s.active = t.fromId := by
    simpa [closed] using h.fits.points plain
  refine ⟨fun to_ => ?_, from_⟩
  by_contra plain
  exact h.fits.apart ((from_ (by simpa using plain)).symm.trans to_)

theorem abort_events (apart : id ≠ t.eventId ∨ t.status = .completed) :
    s.abort id = s ∨ s.abort id = s.release id := by
  have refused (live : Status) (running : live.isTerminal = false)
      (found : s.status? id = some live) : False := by
    have mine := status?_live h found running
    rcases apart with other | done
    · exact other mine
    · have same := Option.mem_unique found (mine ▸ h.status?_eq)
      rw [same, done] at running
      cases running
  unfold System.abort
  split
  case h_1 found => exact (refused _ rfl found).elim
  case h_2 found => exact (refused _ rfl found).elim
  case h_3 | h_4 | h_5 => exact .inr rfl
  case h_6 => exact .inl rfl

theorem completed_kept (lawful : e.Lawful s)
    (mem : o ∈ s.events) (done : o.status = .completed) : o ∈ (step s e).events := by
  cases e with
  | submit id toId =>
    simp only [step]
    split
    · exact mem_cons_of_mem _ mem
    · exact mem
  | abort id =>
    rw [h.events] at mem
    rcases mem_cons.mp mem with rfl | older
    · rcases abort_events h (.inr done) with same | same
      · rw [step, same, h.events]
        exact mem
      · rw [step, same, release_same.1, h.events]
        exact mem
    · obtain ⟨t', h'⟩ : ∃ t', Current (s.abort id) t' rest := h.abort
      rw [step, h'.events]
      exact mem_cons_of_mem _ older
  | cooled | die => exact mem
  | deliver p =>
    simp only [step]
    split <;> exact mem
  | work ok =>
    simp only [step]
    split
    case h_2 => exact mem
    case h_1 p pc at_ =>
      rw [h.events] at mem
      rcases mem_cons.mp mem with rfl | older
      · exact absurd done (h.fits.unfinished (by simp [at_]))
      · obtain ⟨t', h'⟩ := h.work at_ fun fails => lawful fails (p, pc) at_
        rw [h'.events]
        exact mem_cons_of_mem _ older

theorem released_alone (dirty : s.transition ≠ .stable)
    (clean : (step s e).transition = .stable) (other : e.actor s ≠ some t.eventId) :
    t.status.isTerminal := by
  cases e with
  | submit id toId =>
    simp only [step] at clean
    split at clean <;> exact absurd clean dirty
  | abort id =>
    have apart : id ≠ t.eventId := fun same => other (congrArg some same)
    rcases abort_events h (.inl apart) with same | same
    · rw [step, same] at clean
      exact absurd clean dirty
    · rw [step, same, System.release] at clean
      split at clean
      · rename_i all
        have mem : t ∈ s.events := by simp [h.events]
        simpa [apart.symm] using all_eq_true.mp all t mem
      · exact absurd clean dirty
  | cooled | die => exact absurd clean dirty
  | deliver p =>
    simp only [step] at clean
    split at clean <;> exact absurd clean dirty
  | work ok =>
    simp only [step] at clean
    split at clean
    case h_1 p pc at_ =>
      obtain rfl : p = t.toPayload := h.worker (p, pc) at_
      exact absurd (by simp [Event.actor, at_]) other
    case h_2 => exact absurd clean dirty

end

end

variable {s : System} {events : List Event}

/-- A terminal toggle leaves the target in place only after a passed smoke test, a completed one stays
completed, and the transition is released only when no other toggle is live. -/
theorem toggle_settles (fresh : s.events = [] ∧ s.worker = none)
    (lawful : Along step (fun s e => e.Lawful s) s events) :
    (∀ t ∈ (play step s events).events.head?, t.status.isTerminal →
      ((play step s events).active = t.toId → t.smoked) ∧
      (t.smoked = false → (play step s events).active = t.fromId)) ∧
    ∀ e, e.Lawful (play step s events) →
      (∀ t ∈ (play step s events).events, t.status = .completed →
        t ∈ (step (play step s events) e).events) ∧
      ((play step s events).transition ≠ .stable →
        (step (play step s events) e).transition = .stable →
        ∀ t ∈ (play step s events).events, e.actor (play step s events) ≠ some t.eventId →
          t.status.isTerminal) := by
  have inv : Inv (play step s events) :=
    lawful.invariant (fun _ _ inv lawful => inv.step lawful) (.inl fresh)
  generalize play step s events = s at inv ⊢
  rcases inv with ⟨empty, -⟩ | ⟨t, rest, h⟩
  · simp [empty]
  refine ⟨fun t' head => ?_, fun e lawful => ⟨fun o mem => completed_kept h lawful mem,
    fun dirty clean o mem other => ?_⟩⟩
  · rw [h.events] at head
    obtain rfl : t = t' := Option.some.inj head
    exact points_of_terminal h
  · rw [h.events] at mem
    rcases mem_cons.mp mem with rfl | older
    · exact released_alone h dirty clean other
    · exact (h.others o older).2

def upTo (n : Nat) : List Event :=
  .submit 1 6 :: .deliver ⟨1, 5, 6⟩ :: List.replicate n (.work true)

/-- The worker dies after the cutover and the message comes again: the toggle is aborted, the target in
place and never tested. A completed toggle finds the cooldown and is aborted too. -/
theorem redelivered_toggle :
    let crashed := play step { active := 5 } (upTo 10 ++ [.die, .deliver ⟨1, 5, 6⟩] ++
      List.replicate 3 (.work true))
    (crashed.active = 6 ∧ crashed.events = [⟨⟨1, 5, 6⟩, .aborted, false⟩] ∧
      crashed.transition = .stable ∧ crashed.worker = none) ∧
    (play step { active := 5 } (upTo 15)).events = [⟨⟨1, 5, 6⟩, .completed, true⟩] ∧
    (play step { active := 5 } (upTo 15 ++ [.deliver ⟨1, 5, 6⟩] ++
      List.replicate 3 (.work true))).events = [⟨⟨1, 5, 6⟩, .aborted, true⟩] := by
  decide +kernel

/-- A worker that dies in the drain: the toggle is aborted when its message comes again. -/
theorem drained_toggle_aborted :
    let s := play step { active := 5 } (upTo 4 ++ [.die, .deliver ⟨1, 5, 6⟩] ++
      List.replicate 3 (.work true))
    s.events = [⟨⟨1, 5, 6⟩, .aborted, false⟩] ∧ s.active = 5 := by
  have lawful : Along step (fun s e => e.Lawful s) { active := 5 } (upTo 4 ++
      [.die, .deliver ⟨1, 5, 6⟩] ++ List.replicate 3 (.work true)) := by
    simp [upTo, List.replicate, Along, Event.Lawful, step, System.work, System.isAborted,
      System.status?, Pc.isOpen]
  have ended : (play step { active := 5 } (upTo 4 ++ [.die, .deliver ⟨1, 5, 6⟩] ++
      List.replicate 3 (.work true))).events = [⟨⟨1, 5, 6⟩, .aborted, false⟩] := by decide +kernel
  refine ⟨ended, ?_⟩
  exact ((toggle_settles ⟨rfl, rfl⟩ lawful).1 _ (by rw [ended]; rfl) rfl).2 rfl

end TmVault.StorageToggle
