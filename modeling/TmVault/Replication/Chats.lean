import TmVault.Concurrency.Runs
import TmVault.Relational.Update
import TmVault.Store.Schema

/-! `chat_thread_messages` on the primary and its copy at the DR site, which
`replicate_chat_singletons_once` follows by a watermark over `created_at`. -/

namespace TmVault.Replication

open Relational Concurrency Store List

structure Content where
  lastModifiedDateTime : Option Time := none
  (fromUserId fromDisplayName : String := "")
  (bodyContent bodyContentType : Option String := none)
  deletedDateTime : Option Time := none
  (metadataRaw contentHash : String := "")
  contentSize : Nat := 0
  deriving DecidableEq

structure Message where
  id : Uuid
  key : Uuid × String
  createdDateTime : Option Time := none
  content : Content := {}
  createdAt : Time
  deriving DecidableEq

/-- `INSERT ... ON CONFLICT (chat_thread_id, message_external_id) DO UPDATE`; `merge` is the `SET`. -/
def upsert (merge : Message → Message → Message) (table : List Message) (m : Message) : List Message :=
  if m.key ∈ table.map (·.key) then updateKey (·.key) m.key (merge m) table else table ++ [m]

def lastWins (rows : List Message) : List Message := rows.foldl (upsert fun m _ => m) []

def drain (m old : Message) : Message :=
  { old with createdDateTime := m.createdDateTime, content := m.content }

def replica (m old : Message) : Message := { old with content := m.content }

structure Sites where
  (primary dr : List Message := [])
  watermark : Option Time := none

def beyond (watermark : Option Time) (m : Message) : Bool := watermark.all (· < m.createdAt)

def newMaxCreated (watermark : Option Time) (msgs : List Message) : Option Time :=
  (msgs.map (·.createdAt)).max?.or watermark

/-- A transaction of the primary commits, or a pass runs. A pass that fails has written the first rows,
and keeps its watermark. -/
inductive Event
  | commit (rows : List Message)
  | replicate (failsAfter : Option Nat)

def step (s : Sites) : Event → Sites
  | .commit rows => { s with primary := (lastWins rows).foldl (upsert drain) s.primary }
  | .replicate failsAfter =>
    let msgs := s.primary.filter (beyond s.watermark)
    match failsAfter with
    | some n => { s with dr := (msgs.take n).foldl (upsert replica) s.dr }
    | none => { s with
        dr := msgs.foldl (upsert replica) s.dr, watermark := newMaxCreated s.watermark msgs }

def Shown (dr : List Message) (m : Message) : Prop :=
  ∃ d ∈ dr, d.key = m.key ∧ d.createdDateTime = m.createdDateTime ∧ d.content = m.content

instance (dr : List Message) (m : Message) : Decidable (Shown dr m) := by
  unfold Shown
  infer_instance

/-- A new row is beyond the watermark; a row that is written again still is, and keeps its
`created_date_time`. -/
def TimelyRow (watermark : Option Time) (primary : List Message) (m : Message) : Prop :=
  if m.key ∈ primary.map (·.key) then
    ∀ old ∈ primary, old.key = m.key →
      beyond watermark old ∧ m.createdDateTime = old.createdDateTime
  else beyond watermark m

def Timely (watermark : Option Time) : List Message → List Message → Prop
  | _, [] => True
  | primary, m :: rows =>
    TimelyRow watermark primary m ∧ Timely watermark (upsert drain primary m) rows

def Event.Timely (s : Sites) : Event → Prop
  | .commit rows => Replication.Timely s.watermark s.primary (lastWins rows)
  | .replicate _ => True

section

variable {merge : Message → Message → Message} {table : List Message} {m x : Message}

theorem mem_upsert (h : x ∈ upsert merge table m) :
    x = m ∧ m.key ∉ table.map (·.key) ∨ x ∈ table ∧ x.key ≠ m.key ∨
      ∃ old ∈ table, old.key = m.key ∧ x = merge m old := by
  rw [upsert] at h
  split at h
  · rcases mem_updateKey.mp h with ⟨mem, other⟩ | ⟨old, mem, same, rfl⟩
    · exact .inr (.inl ⟨mem, other⟩)
    · exact .inr (.inr ⟨old, mem, same, rfl⟩)
  · rename_i fresh
    rcases mem_append.mp h with mem | mem
    · exact .inr (.inl ⟨mem, fun same => fresh (same ▸ mem_map_of_mem mem)⟩)
    · exact .inl ⟨mem_singleton.mp mem, fresh⟩

theorem mem_upsert_of_ne (mem : x ∈ table) (other : x.key ≠ m.key) : x ∈ upsert merge table m := by
  rw [upsert]
  split
  · exact mem_updateKey.mpr (.inl ⟨mem, other⟩)
  · exact mem_append_left _ mem

theorem nodup_upsert (keeps : ∀ old, (merge m old).key = old.key)
    (nodup : (table.map (·.key)).Nodup) : ((upsert merge table m).map (·.key)).Nodup := by
  rw [upsert]
  split
  · rw [map_updateKey fun old _ => keeps old]
    exact nodup
  · rename_i fresh
    exact nodup_snoc nodup fresh

end

structure Followed (s : Sites) : Prop where
  primary_keys : (s.primary.map (·.key)).Nodup
  known : ∀ d ∈ s.dr, ∃ m ∈ s.primary, m.key = d.key ∧ m.createdDateTime = d.createdDateTime
  shown : ∀ m ∈ s.primary, beyond s.watermark m = false → Shown s.dr m

section

variable {s : Sites} {m : Message}

section

variable (h : Followed s)

include h

theorem Followed.commitRow (timely : TimelyRow s.watermark s.primary m) :
    Followed { s with primary := upsert drain s.primary m } where
  primary_keys := nodup_upsert (fun _ => rfl) h.primary_keys
  known d hd := by
    obtain ⟨x, hx, key, date⟩ := h.known d hd
    by_cases same : x.key = m.key
    · have present : m.key ∈ s.primary.map (·.key) := same ▸ mem_map_of_mem hx
      rw [TimelyRow, if_pos present] at timely
      refine ⟨drain m x, ?_, key, (timely x hx same).2.trans date⟩
      rw [upsert, if_pos present]
      exact mem_updateKey.mpr (.inr ⟨x, hx, same, rfl⟩)
    · exact ⟨x, mem_upsert_of_ne hx same, key, date⟩
  shown x hx passed := by
    rcases mem_upsert hx with ⟨rfl, fresh⟩ | ⟨hx, -⟩ | ⟨old, hold, same, rfl⟩
    · rw [TimelyRow, if_neg fresh, passed] at timely
      cases timely
    · exact h.shown x hx passed
    · rw [TimelyRow, if_pos (same ▸ mem_map_of_mem hold)] at timely
      cases passed.symm.trans (timely old hold same).1

theorem Followed.commit (timely : Timely s.watermark s.primary rows) :
    Followed { s with primary := rows.foldl (upsert drain) s.primary } := by
  induction rows generalizing s with
  | nil => exact h
  | cons m rows ih => exact ih (h.commitRow timely.1) timely.2

theorem Followed.copyRow (hm : m ∈ s.primary) :
    Followed { s with dr := upsert replica s.dr m } ∧ Shown (upsert replica s.dr m) m ∧
      ∀ x ∈ s.primary, Shown s.dr x → Shown (upsert replica s.dr m) x := by
  have copied : Shown (upsert replica s.dr m) m := by
    by_cases present : m.key ∈ s.dr.map (·.key)
    · obtain ⟨d, hd, key⟩ := mem_map.mp present
      obtain ⟨x, hx, same, date⟩ := h.known d hd
      cases inj_on_of_nodup_map h.primary_keys hx hm (same.trans key)
      refine ⟨replica m d, ?_, key, date.symm, rfl⟩
      rw [upsert, if_pos present]
      exact mem_updateKey.mpr (.inr ⟨d, hd, key, rfl⟩)
    · rw [upsert, if_neg present]
      exact ⟨m, by simp, rfl, rfl, rfl⟩
  have kept (x : Message) (hx : x ∈ s.primary) (shown : Shown s.dr x) :
      Shown (upsert replica s.dr m) x := by
    obtain ⟨d, hd, key, rest⟩ := shown
    by_cases same : d.key = m.key
    · cases inj_on_of_nodup_map h.primary_keys hx hm (key.symm.trans same)
      exact copied
    · exact ⟨d, mem_upsert_of_ne hd same, key, rest⟩
  refine ⟨⟨h.primary_keys, fun d hd => ?_, fun x hx passed => kept x hx (h.shown x hx passed)⟩, copied,
    kept⟩
  rcases mem_upsert hd with ⟨rfl, -⟩ | ⟨hd, -⟩ | ⟨old, hold, -, rfl⟩
  · exact ⟨d, hm, rfl, rfl⟩
  · exact h.known d hd
  · exact h.known old hold

theorem Followed.copy {msgs : List Message} (all : ∀ m ∈ msgs, m ∈ s.primary) :
    Followed { s with dr := msgs.foldl (upsert replica) s.dr } ∧
      ∀ x ∈ s.primary, x ∈ msgs ∨ Shown s.dr x → Shown (msgs.foldl (upsert replica) s.dr) x := by
  induction msgs generalizing s with
  | nil => exact ⟨h, fun x _ shown => shown.resolve_left not_mem_nil⟩
  | cons m msgs ih =>
    obtain ⟨followed, copied, kept⟩ := h.copyRow (all m mem_cons_self)
    obtain ⟨followed, shown⟩ := ih followed fun x hx => all x (mem_cons_of_mem m hx)
    refine ⟨followed, fun x hx before => shown x hx ?_⟩
    rcases before with mem | before
    · rcases mem_cons.mp mem with rfl | mem
      · exact .inr copied
      · exact .inl mem
    · exact .inr (kept x hx before)

theorem Followed.pass : ∀ m ∈ s.primary, Shown (step s (.replicate none)).dr m := by
  intro m hm
  refine (h.copy fun x hx => (mem_filter.mp hx).1).2 m hm ?_
  cases passed : beyond s.watermark m with
  | true => exact .inl (mem_filter.mpr ⟨hm, passed⟩)
  | false => exact .inr (h.shown m hm passed)

theorem Followed.step (timely : e.Timely s) : Followed (step s e) := by
  cases e with
  | commit rows => exact h.commit timely
  | replicate failsAfter =>
    cases failsAfter with
    | some n => exact (h.copy fun x hx => (mem_filter.mp (mem_of_mem_take hx)).1).1
    | none =>
      have pulled (x : Message) (hx : x ∈ s.primary.filter (beyond s.watermark)) : x ∈ s.primary :=
        (mem_filter.mp hx).1
      have copied := (h.copy pulled).1
      exact ⟨copied.primary_keys, copied.known, fun m hm _ => h.pass m hm⟩

end

/-- Where no row is written after the watermark has passed it, a pass that ends shows every message of
the primary. -/
theorem replica_current {s : Sites} (keys : (s.primary.map (·.key)).Nodup) (empty : s.dr = [])
    (unmarked : s.watermark = none) (events : List Event)
    (timely : Along Replication.step (fun s e => e.Timely s) s events) :
    ∀ m ∈ (play Replication.step s events).primary,
      Shown (play Replication.step s (events ++ [.replicate none])).dr m := by
  have start : Followed s := ⟨keys, by simp [empty], by simp [unmarked, beyond]⟩
  have followed : Followed (play Replication.step s events) :=
    Along.invariant (fun _ _ h ok => h.step ok) start timely
  have last : play Replication.step s (events ++ [.replicate none]) =
      Replication.step (play Replication.step s events) (.replicate none) := foldl_append
  rw [last]
  exact followed.pass

end

def greeting (body : String) : Message :=
  { id := 1, key := (7, "m"), content := { bodyContent := some body }, createdAt := 3 }

theorem edited_before_pass_shown :
    Shown (play step {} [.commit [greeting "hello"], .commit [greeting "edited"], .replicate none]).dr
      (greeting "edited") := by
  refine replica_current (s := {}) nodup_nil rfl rfl
    [.commit [greeting "hello"], .commit [greeting "edited"]] ?_ (greeting "edited") (by decide)
  simp [Along, Event.Timely, lastWins, upsert, Timely, TimelyRow, step, greeting, beyond]

/-- An edit keeps `created_at`, which the watermark has passed. -/
theorem edited_after_pass_stale : ∃ m ∈ (play step {} [.commit [greeting "hello"], .replicate none,
        .commit [greeting "edited"]]).primary,
      ¬ Shown (play step {} [.commit [greeting "hello"], .replicate none, .commit [greeting "edited"],
        .replicate none]).dr m := by
  decide

end TmVault.Replication
