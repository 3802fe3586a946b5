import TmVault.Concurrency.Runs
import TmVault.Store.Schema

/-! `admit_many` inside a provider turn: the tasks of one execution run between their awaits, the
coordinator answers as it likes, and each enters its body at most once. -/

namespace TmVault.ProviderTurn

open Concurrency Store List

abbrev TransferId := Nat

inductive Phase
  | polling
  | asking
  | granted | denied
  | contending
  | draining
  | releasing | released
  | body
  | ended
  deriving DecidableEq

/-- A call, with the context variables of its task: `managed` says that it runs in the execution,
`receipt` that it is in a receipt scope of it. `held` says that the last script with its token gave it
its slots. -/
structure Task where
  managed : Bool := true
  receipt : Bool := false
  transfer : Option TransferId := none
  phase : Phase := .polling
  held : Bool := false

structure ProviderExecution where
  (deferred congestion : Bool := false)
  drainDeadline : Time := 0
  active : List TransferId := []

section

variable (x : ProviderExecution) (now : Time) (t : Task)

def canDrain : Bool := t.receipt || t.transfer.any (· ∈ x.active)

inductive Gate
  | pass | raise | drain

def beforeProviderAdmission : Gate :=
  if t.managed && x.deferred then .raise
  else if !t.managed || !x.congestion then .pass
  else if canDrain x t then if x.drainDeadline ≤ now then .raise else .pass
  else .drain

def providerAdmissionGranted : ProviderExecution × Option Bool :=
  if t.managed && x.deferred then (x, none)
  else if !t.managed then (x, some true)
  else if x.congestion && !canDrain x t then (x, some false)
  else ({ x with active := t.transfer.toList ++ x.active }, some true)

def Task.pass (next : Phase) : Task :=
  match beforeProviderAdmission x now t with
  | .pass => { t with phase := next }
  | .raise => { t with phase := .ended, held := false }
  | .drain => { t with phase := .draining, held := false }

end

structure System where
  execution : ProviderExecution := {}
  tasks : List Task := []

inductive Event
  | call (managed receipt : Bool) (transfer : Option TransferId)
  | gate (i : Nat) (now : Time)
  | grant (i : Nat) (granted : Bool)
  | resume (i : Nat)
  | wait (i : Nat)
  | contend (i : Nat)
  | congest (i : Nat) (now deadline : Time)
  | release (i : Nat)
  | recheck (i : Nat) (now : Time)
  | defer
  | fail (i : Nat)
  | leave (i : Nat)

section

variable (s : System)

def System.put (i : Nat) (t : Task) : System := { s with tasks := s.tasks.set i t }

def System.at (i : Nat) (phase : Phase) (act : Task → System) : System :=
  match s.tasks[i]? with
  | some t => if t.phase = phase then act t else s
  | none => s

def System.step : Event → System
  | .call managed receipt transfer =>
    { s with tasks := s.tasks ++ [{ managed, receipt, transfer }] }
  | .gate i now => s.at i .polling fun t => s.put i (t.pass s.execution now .asking)
  | .grant i granted => s.at i .asking fun t =>
    s.put i (if granted then { t with phase := .granted, held := true }
      else { t with phase := .denied })
  | .resume i => s.at i .granted fun t =>
    match providerAdmissionGranted s.execution t with
    | (x, some true) => { s.put i { t with phase := .body } with execution := x }
    | (_, some false) => s.put i { t with phase := .releasing }
    | (_, none) => s.put i { t with phase := .ended, held := false }
  | .wait i => s.at i .denied fun t => s.put i { t with phase := .polling }
  | .contend i => s.at i .denied fun t =>
    s.put i { t with phase := .contending, held := t.held && canDrain s.execution t }
  | .congest i now deadline => s.at i .contending fun t =>
    if t.managed then
      let x := if s.execution.congestion then s.execution
        else { s.execution with congestion := true, drainDeadline := deadline }
      { s.put i (t.pass x now .polling) with execution := x }
    else s.put i { t with phase := .ended, held := false }
  | .release i => s.at i .releasing fun t => s.put i { t with phase := .released, held := false }
  | .recheck i now => s.at i .released fun t => s.put i (t.pass s.execution now .body)
  | .defer => { s with execution := { s.execution with deferred := true } }
  | .fail i =>
    match s.tasks[i]? with
    | some t => s.put i { t with phase := .ended, held := false }
    | none => s
  | .leave i => s.at i .body fun t => s.put i { t with phase := .ended, held := false }

end

def Safe (s : System) : Prop := ∀ t ∈ s.tasks, t.phase = .body → t.held

instance {s : System} : Decidable (Safe s) := inferInstanceAs (Decidable (∀ t ∈ s.tasks, _))

def Barred (s : System) : Event → Prop
  | .recheck i now => ∀ t, s.tasks[i]? = some t → t.phase = .released →
      beforeProviderAdmission s.execution now t ≠ .pass
  | _ => True

/-- No task is granted on a transfer while another one releases a grant that it was refused on the
same transfer. -/
def Apart (s : System) : Event → Prop
  | .resume i => ∀ t, s.tasks[i]? = some t → t.phase = .granted →
      ∀ u ∈ s.tasks, u.phase = .releasing ∨ u.phase = .released →
        u.transfer = none ∨ u.transfer ≠ t.transfer
  | _ => True

inductive Became (s : System) : Event → Task → Prop
  | call {managed receipt : Bool} {transfer : Option TransferId} :
    Became s (.call managed receipt transfer) { managed, receipt, transfer }
  | gate {i : Nat} {now : Time} {t : Task} (found : s.tasks[i]? = some t) :
    Became s (.gate i now) (t.pass s.execution now .asking)
  | granted {i : Nat} {t : Task} :
    Became s (.grant i true) { t with phase := .granted, held := true }
  | denied {i : Nat} {t : Task} : Became s (.grant i false) { t with phase := .denied }
  | enters {i : Nat} {t : Task} (found : s.tasks[i]? = some t) (phase : t.phase = .granted) :
    Became s (.resume i) { t with phase := .body }
  | refused {i : Nat} {t : Task} (found : s.tasks[i]? = some t) (phase : t.phase = .granted)
      (refused : (providerAdmissionGranted s.execution t).2 = some false) :
    Became s (.resume i) { t with phase := .releasing }
  | waits {i : Nat} {t : Task} : Became s (.wait i) { t with phase := .polling }
  | contends {i : Nat} {t : Task} {held : Bool} :
    Became s (.contend i) { t with phase := .contending, held }
  | congests {i : Nat} {now deadline : Time} {t : Task} {x : ProviderExecution} :
    Became s (.congest i now deadline) (t.pass x now .polling)
  | released {i : Nat} {t : Task} (found : s.tasks[i]? = some t) (phase : t.phase = .releasing) :
    Became s (.release i) { t with phase := .released, held := false }
  | rechecked {i : Nat} {now : Time} {t : Task} (found : s.tasks[i]? = some t)
    (phase : t.phase = .released) :
    Became s (.recheck i now) (t.pass s.execution now .body)
  | ended {e : Event} {t : Task} : Became s e { t with phase := .ended, held := false }

variable {s : System} {e : Event} {t u : Task} {x : ProviderExecution} {now : Time} {next : Phase}
  {phase : Phase} {i : Nat}

theorem mem_put {P : Task → Prop} (h : u ∈ (s.put i t).tasks) (new : P t) : u ∈ s.tasks ∨ P u := by
  obtain old | rfl := mem_or_eq_of_mem_set h
  · exact .inl old
  · exact .inr new

theorem mem_at (h : u ∈ (s.at i phase act).tasks) :
    u ∈ s.tasks ∨ ∃ t, s.tasks[i]? = some t ∧ t.phase = phase ∧ u ∈ (act t).tasks := by
  unfold System.at at h
  split at h
  case h_1 t found =>
    split at h
    case isTrue phase => exact .inr ⟨t, found, phase, h⟩
    case isFalse => exact .inl h
  case h_2 => exact .inl h

theorem mem_at_put {act : Task → Task} {P : Task → Prop}
    (h : u ∈ (s.at i phase fun t => s.put i (act t)).tasks)
    (became : ∀ t, s.tasks[i]? = some t → t.phase = phase → P (act t)) : u ∈ s.tasks ∨ P u := by
  obtain old | ⟨t, found, phase, put⟩ := mem_at h
  · exact .inl old
  · exact mem_put put (became t found phase)

theorem mem_step (h : u ∈ (s.step e).tasks) : u ∈ s.tasks ∨ Became s e u := by
  cases e with
  | call managed receipt transfer =>
    obtain old | new := mem_append.mp h
    · exact .inl old
    · rw [mem_singleton.mp new]
      exact .inr .call
  | gate i now => exact mem_at_put h fun t found _ => .gate found
  | grant i granted =>
    refine mem_at_put h fun t _ _ => ?_
    cases granted with
    | true => exact .granted
    | false => exact .denied
  | resume i =>
    obtain old | ⟨t, found, phase, h⟩ := mem_at h
    · exact .inl old
    dsimp only at h
    split at h
    case h_1 => exact mem_put h (.enters found phase)
    case h_2 refused =>
      exact mem_put h (.refused found phase (by rw [refused]))
    case h_3 => exact mem_put h .ended
  | wait i => exact mem_at_put h fun t _ _ => .waits
  | contend i => exact mem_at_put h fun t _ _ => .contends
  | congest i now deadline =>
    obtain old | ⟨t, found, phase, h⟩ := mem_at h
    · exact .inl old
    dsimp only at h
    split at h
    · exact mem_put h .congests
    · exact mem_put h .ended
  | release i => exact mem_at_put h fun t found phase => .released found phase
  | recheck i now => exact mem_at_put h fun t found phase => .rechecked found phase
  | defer => exact .inl h
  | fail i =>
    simp only [System.step] at h
    split at h
    · exact mem_put h .ended
    · exact .inl h
  | leave i => exact mem_at_put h fun t _ _ => .ended

theorem pass_eq (h : (t.pass x now next).phase = phase) (live : phase ≠ .ended)
    (waits : phase ≠ .draining) : beforeProviderAdmission x now t = .pass ∧
      t.pass x now next = { t with phase := next } ∧ phase = next := by
  unfold Task.pass at h ⊢
  split at h
  case h_1 gate => exact ⟨gate, rfl, h.symm⟩
  case h_2 => exact absurd h.symm live
  case h_3 => exact absurd h.symm waits

def Kept (s : System) : Prop :=
  ∀ t ∈ s.tasks, (t.phase = .granted → t.held = true) ∧ (t.phase = .released → t.held = false)

def Refused (s : System) : Prop :=
  ∀ t ∈ s.tasks, t.phase = .releasing ∨ t.phase = .released →
    t.managed = true ∧ s.execution.congestion = true ∧ canDrain s.execution t = false

theorem kept_step (kept : Kept s) : Kept (s.step e) := by
  intro u hu
  obtain old | became := mem_step hu
  · exact kept u old
  have passes {t : Task} {x : ProviderExecution} {now : Time} {next : Phase}
      (h : next ≠ .granted) (h' : next ≠ .released) :
      ((t.pass x now next).phase = .granted → (t.pass x now next).held = true) ∧
        ((t.pass x now next).phase = .released → (t.pass x now next).held = false) :=
    ⟨fun phase => absurd (pass_eq phase (by decide) (by decide)).2.2.symm h,
      fun phase => absurd (pass_eq phase (by decide) (by decide)).2.2.symm h'⟩
  cases became with
  | gate | congests | rechecked => exact passes (by decide) (by decide)
  | _ => simp

theorem safe_step (kept : Kept s) (safe : Safe s) (barred : Barred s e) : Safe (s.step e) := by
  intro u hu entered
  obtain old | became := mem_step hu
  · exact safe u old entered
  cases became with
  | gate | congests => exact absurd (pass_eq entered (by decide) (by decide)).2.2 (by decide)
  | rechecked found phase =>
    exact absurd (pass_eq entered (by decide) (by decide)).1 (barred _ found phase)
  | enters found phase => exact (kept _ (mem_of_getElem? found)).1 phase
  | _ => simp at entered

theorem barred_of_safe_step (kept : Kept s) (safe : Safe (s.step e)) : Barred s e := by
  cases e with
  | recheck i now =>
    intro t found phase pass
    have dropped : t.held = false := (kept t (mem_of_getElem? found)).2 phase
    have stepped : (s.step (.recheck i now)).tasks = s.tasks.set i { t with phase := .body } := by
      simp [System.step, System.at, found, phase, System.put, Task.pass, pass]
    have inside : { t with phase := .body } ∈ (s.step (.recheck i now)).tasks := by
      rw [stepped]
      exact mem_set (List.getElem?_eq_some_iff.mp found).1 _
    have held := safe _ inside rfl
    simp [dropped] at held
  | _ => trivial

theorem execution_step : (s.execution.congestion → (s.step e).execution.congestion) ∧
    ((s.step e).execution.active = s.execution.active ∨
      ∃ i t, e = .resume i ∧ s.tasks[i]? = some t ∧ t.phase = .granted ∧
        (s.step e).execution.active = t.transfer.toList ++ s.execution.active) := by
  have put {i : Nat} {phase : Phase} {act : Task → Task} :
      (s.at i phase fun t => s.put i (act t)).execution = s.execution := by
    unfold System.at
    split
    · split <;> rfl
    · rfl
  cases e with
  | resume i =>
    simp only [System.step, System.at]
    split
    case h_2 => exact ⟨id, .inl rfl⟩
    case h_1 t found =>
      split
      case isFalse => exact ⟨id, .inl rfl⟩
      case isTrue phase =>
        split
        case h_1 y answer =>
          unfold providerAdmissionGranted at answer
          split at answer
          · simp at answer
          split at answer
          · obtain rfl := congrArg Prod.fst answer
            exact ⟨id, .inl rfl⟩
          split at answer
          · simp at answer
          · obtain rfl := congrArg Prod.fst answer
            exact ⟨id, .inr ⟨i, t, rfl, found, phase, rfl⟩⟩
        case h_2 => exact ⟨id, .inl rfl⟩
        case h_3 => exact ⟨id, .inl rfl⟩
  | congest i now deadline =>
    simp only [System.step, System.at]
    split
    case h_2 => exact ⟨id, .inl rfl⟩
    case h_1 t found =>
      split
      case isFalse => exact ⟨id, .inl rfl⟩
      case isTrue =>
        split
        case isTrue =>
          dsimp only
          split
          · exact ⟨id, .inl rfl⟩
          · exact ⟨fun _ => rfl, .inl rfl⟩
        case isFalse => exact ⟨id, .inl rfl⟩
  | fail i =>
    simp only [System.step]
    split <;> exact ⟨id, .inl rfl⟩
  | call | defer => exact ⟨id, .inl rfl⟩
  | _ => exact ⟨by simp only [System.step, put]; exact id, .inl (by simp only [System.step, put])⟩

theorem canDrain_of_active (same : y.active = x.active) : canDrain y t = canDrain x t := by
  rw [canDrain, canDrain, same]

theorem refused_grant (h : (providerAdmissionGranted x t).2 = some false) :
    t.managed = true ∧ x.congestion = true ∧ canDrain x t = false ∧
      providerAdmissionGranted x t = (x, some false) := by
  unfold providerAdmissionGranted at h ⊢
  split at h
  · simp at h
  split at h
  · simp at h
  split at h
  case isTrue deferred unmanaged congested =>
    simp only [Bool.and_eq_true, Bool.not_eq_true'] at congested
    simp_all
  case isFalse => simp at h

theorem refused_step (refused : Refused s) (apart : Apart s e) : Refused (s.step e) := by
  obtain ⟨congests, active⟩ := @execution_step s e
  intro u hu releasing
  have stays {t : Task} (ht : t ∈ s.tasks) (h : t.phase = .releasing ∨ t.phase = .released) :
      t.managed = true ∧ (s.step e).execution.congestion = true ∧
        canDrain (s.step e).execution t = false := by
    obtain ⟨managed, congested, stuck⟩ := refused t ht h
    refine ⟨managed, congests congested, ?_⟩
    obtain same | ⟨i, v, rfl, found, phase, grown⟩ := active
    · rw [canDrain_of_active same, stuck]
    · have other := apart v found phase t ht h
      simp only [canDrain, Bool.or_eq_false_iff] at stuck ⊢
      refine ⟨stuck.1, ?_⟩
      cases transfer : t.transfer with
      | none => rfl
      | some id =>
        rw [transfer] at stuck other
        have apart : v.transfer ≠ some id := fun same => by simp [same] at other
        simpa [grown, apart] using stuck.2
  obtain old | became := mem_step hu
  · exact stays old releasing
  cases became with
  | gate | congests | rechecked =>
    rcases releasing with h | h <;> exact absurd (pass_eq h (by decide) (by decide)).2.2 (by decide)
  | @refused i t found phase answer =>
    obtain ⟨managed, congested, stuck, reply⟩ := refused_grant answer
    have same : (s.step (.resume i)).execution = s.execution := by
      simp only [System.step, System.at, found, phase, if_true, reply]
      rfl
    rw [same]
    exact ⟨managed, congested, stuck⟩
  | @released i t found phase =>
    obtain ⟨managed, congested, stuck⟩ := @stays t (mem_of_getElem? found) (.inl phase)
    exact ⟨managed, congested, stuck⟩
  | _ => simp at releasing

theorem barred_of_refused (refused : Refused s) : Barred s e := by
  cases e with
  | recheck i now =>
    intro t found phase
    obtain ⟨managed, congested, stuck⟩ := refused t (mem_of_getElem? found) (.inr phase)
    unfold beforeProviderAdmission
    split
    · simp
    · simp [managed, congested, stuck]
  | _ => trivial

def Honest (s : System) (e : Event) : Prop := Safe (s.step e)

def Settled (s : System) : Prop := Kept s ∧ Safe s

/-- In every interleaving the bodies run with the slots of their tokens exactly if no task passes the
gate behind its own release; none does where no sibling is granted on a transfer that is being
released. -/
theorem bodies_hold_iff (x : ProviderExecution) (events : List Event) :
    (Along System.step Honest { execution := x } events ↔
      Along System.step Barred { execution := x } events) ∧
    (Along System.step Apart { execution := x } events →
      Along System.step Honest { execution := x } events) := by
  have start : Settled { execution := x } := ⟨nofun, nofun⟩
  have refused : Refused { execution := x } := nofun
  have sound : Along System.step Barred { execution := x } events →
      Along System.step Honest { execution := x } events := by
    refine Along.weaken (fun s e inv barred => safe_step inv.1 inv.2 barred)
      (fun s e inv barred => ⟨kept_step inv.1, safe_step inv.1 inv.2 barred⟩) start
  refine ⟨⟨?_, sound⟩, fun apart => sound ?_⟩
  · exact Along.weaken (fun s e inv honest => barred_of_safe_step inv.1 honest)
      (fun s e inv honest => ⟨kept_step inv.1, honest⟩) start
  · exact Along.weaken (fun s e inv _ => barred_of_refused inv)
      (fun s e inv apart => refused_step inv apart) refused apart

/-- Task 0 is granted, but task 1 has met a congestion. While task 0 gives its grant back, task 2
flushes receipts on the same transfer. -/
def rivals : List Event := [
  .call true false (some 0), .gate 0 0, .grant 0 true,
  .call true false none, .gate 1 0, .grant 1 false, .contend 1, .congest 1 0 300,
  .resume 0,
  .call true true (some 0), .gate 2 1, .grant 2 true, .resume 2,
  .release 0, .recheck 0 1]

theorem body_without_slots :
    ((play System.step {} rivals).tasks[0]?.map fun t => (t.phase, t.held)) = some (.body, false) ∧
      ¬ Along System.step Honest {} rivals := by
  refine ⟨by decide, fun honest => ?_⟩
  have safe : Safe (play System.step {} rivals) :=
    honest.invariant (fun _ _ _ h => h) (by decide)
  exact absurd safe (by decide)

end TmVault.ProviderTurn
