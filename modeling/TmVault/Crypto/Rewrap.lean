import TmVault.Crypto.DekManager

namespace TmVault.Crypto

open Wire List Function Option

universe u

variable {Kek : Type u} {ring : Keyring Kek} {s s' : System Kek} {m c d : Nat}
  {events : List (Event Kek)} {e : Event Kek}

theorem update_eq_some {Key Value : Type*} [DecidableEq Key] {f : Key → Option Value} {k j : Key}
    {new : Option Value} {v : Value} : update f k new j = some v ↔
      j = k ∧ new = some v ∨ j ≠ k ∧ f j = some v := by
  rw [update_apply]
  split <;> simp [*]

theorem step_request (h : s.step ring (.request m request draw) = some s') :
    ∃ mgr, s.managers m = some mgr ∧
      s' = ({ s with started := s.started + 1 }).take m s.started (request.start ring mgr draw) := by
  simp only [System.step, bind_eq_bind, bind_eq_some_iff] at h
  obtain ⟨mgr, hm, hs⟩ := h
  exact ⟨mgr, hm, (Option.some.inj hs).symm⟩

theorem step_database (h : s.step ring (.database c) = some s') :
    ∃ m call store next, s.calls c = some (m, call) ∧
      call.database ring s.store = some (store, next) ∧
      s' = { s with store := store, calls := update s.calls c (next.map (m, ·)) } := by
  simp only [System.step, bind_eq_bind, bind_eq_some_iff, Prod.exists] at h
  obtain ⟨m, call, hc, store, next, done, hs⟩ := h
  exact ⟨m, call, store, next, hc, done, (Option.some.inj hs).symm⟩

theorem step_resume (h : s.step ring (.resume c draw) = some s') :
    ∃ m call mgr turn, s.calls c = some (m, call) ∧ s.managers m = some mgr ∧
      call.resume ring mgr draw = some turn ∧ s' = s.take m c turn := by
  simp only [System.step, bind_eq_bind, bind_eq_some_iff, Prod.exists] at h
  obtain ⟨m, call, hc, mgr, hm, turn, ht, hs⟩ := h
  exact ⟨m, call, mgr, turn, hc, hm, ht, (Option.some.inj hs).symm⟩

structure Inv (ring : Keyring Kek) (s : System Kek) : Prop where
  settled : Settled ring s.store
  managers : ∀ m mgr, s.managers m = some mgr → mgr.Valid ring s.store
  calls : ∀ c m call, s.calls c = some (m, call) → call.Valid ring s.store
  replies : ∀ c reply, (c, reply) ∈ s.replies → reply.Valid ring s.store

theorem inv_empty : Inv ring ({} : System Kek) where
  settled := ⟨nodup_nil, by simp⟩
  managers := by simp
  calls := by simp
  replies := by simp

theorem drop_calls (h : (s.drop m).calls c = some call) : s.calls c = some call :=
  (filter_eq_some_iff.1 h).1

theorem inv_drop (inv : Inv ring s) (m : Nat) : Inv ring (s.drop m) where
  settled := inv.settled
  managers m' mgr h := by
    obtain ⟨-, gone⟩ | ⟨-, h⟩ := update_eq_some.1 h
    · cases gone
    · exact inv.managers m' mgr h
  calls c m' call h := inv.calls c m' call (drop_calls h)
  replies := inv.replies

theorem take_calls_of_ne (other : c ≠ d) : (s.take m d turn).calls c = s.calls c :=
  update_of_ne other _ _

theorem mem_take_replies (h : (c, reply) ∈ (s.take m d turn).replies) :
    c = d ∧ turn.next = .reply reply ∨ (c, reply) ∈ s.replies := by
  rcases mem_append.1 h with h | h
  · cases next : turn.next with
    | reply r =>
      simp only [next, Next.reply?, map_some, toList_some, mem_singleton, Prod.mk.injEq] at h
      exact .inl ⟨h.1, by rw [h.2]⟩
    | await | raise => simp [next, Next.reply?] at h
  · exact .inr h

theorem inv_take (inv : Inv ring s) (valid : turn.Valid ring s.store) :
    Inv ring (s.take m c turn) where
  settled := inv.settled
  managers m' mgr h := by
    obtain ⟨-, ⟨⟩⟩ | ⟨-, h⟩ := update_eq_some.1 h
    · exact valid.manager
    · exact inv.managers m' mgr h
  calls c' m' call h := by
    obtain ⟨-, h⟩ | ⟨-, h⟩ := update_eq_some.1 h
    · cases next : turn.next with
      | await call' =>
        rw [next] at h
        cases h
        have := valid.next
        rwa [next] at this
      | reply | raise => simp [next, Next.call?] at h
    · exact inv.calls c' m' call h
  replies c' reply h := by
    rcases mem_take_replies h with ⟨-, next⟩ | h
    · have := valid.next
      rwa [next] at this
    · exact inv.replies c' reply h

theorem inv_step (inv : Inv ring s) (h : s.step ring e = some s') :
    Inv ring s' ∧ Grows ring s.store s'.store := by
  cases e with
  | boot m kek =>
    cases h
    refine ⟨⟨inv.settled, ?_, (inv_drop inv m).calls, inv.replies⟩, .refl inv.settled⟩
    intro m' mgr hm
    obtain ⟨-, ⟨⟩⟩ | ⟨-, hm⟩ := update_eq_some.1 hm
    · intro keyId dek cached
      cases cached
    · exact inv.managers m' mgr hm
  | crash m =>
    cases h
    exact ⟨inv_drop inv m, .refl inv.settled⟩
  | request m request draw =>
    obtain ⟨mgr, hm, rfl⟩ := step_request h
    have valid := @valid_start _ ring _ _ draw (inv.managers m mgr hm) request
    exact ⟨@inv_take _ ring { s with started := s.started + 1 } _ _ _ ⟨inv.settled, inv.managers,
      inv.calls, inv.replies⟩ valid, .refl inv.settled⟩
  | database c =>
    obtain ⟨m, call, store, next, hc, done, rfl⟩ := step_database h
    obtain ⟨grows, valid⟩ := valid_database inv.settled (inv.calls c m call hc) done
    refine ⟨⟨grows.settled, fun m mgr hm => (inv.managers m mgr hm).grows grows, ?_,
      fun c reply hr => (inv.replies c reply hr).grows grows⟩, grows⟩
    intro c' m' call' hc'
    obtain ⟨-, hc'⟩ | ⟨-, hc'⟩ := update_eq_some.1 hc'
    · cases next with
      | none => cases hc'
      | some call'' =>
        cases hc'
        exact valid _ rfl
    · exact (inv.calls c' m' call' hc').grows grows
  | resume c draw =>
    obtain ⟨m, call, mgr, turn, hc, hm, resumed, rfl⟩ := step_resume h
    have valid := valid_resume (inv.managers m mgr hm) (inv.calls c m call hc) resumed
    exact ⟨inv_take inv valid, .refl inv.settled⟩
  | abandon c =>
    cases h
    refine ⟨⟨inv.settled, inv.managers, ?_, inv.replies⟩, .refl inv.settled⟩
    intro c' m' call' hc'
    obtain ⟨-, ⟨⟩⟩ | ⟨-, hc'⟩ := update_eq_some.1 hc'
    · exact inv.calls c' m' call' hc'

theorem run_cons : s.run ring (e :: events) = some s' ↔
      ∃ t, s.step ring e = some t ∧ t.run ring events = some s' := by
  rw [System.run, bind_eq_bind, bind_eq_some_iff]

theorem inv_run (inv : Inv ring s) (h : s.run ring events = some s') :
    Inv ring s' ∧ Grows ring s.store s'.store := by
  induction events generalizing s with
  | nil =>
    cases h
    exact ⟨inv, .refl inv.settled⟩
  | cons e events ih =>
    obtain ⟨t, first, rest⟩ := run_cons.1 h
    obtain ⟨invT, grows⟩ := inv_step inv first
    obtain ⟨invS', grows'⟩ := ih invT rest
    exact ⟨invS', grows.trans grows'⟩

structure Numbered (s : System Kek) : Prop where
  calls : ∀ c call, s.calls c = some call → c < s.started
  replies : ∀ c reply, (c, reply) ∈ s.replies → c < s.started ∧ s.calls c = none

theorem numbered_empty : Numbered ({} : System Kek) where
  calls := by simp
  replies := by simp

section

variable (h : Numbered s)

include h

theorem Numbered.shrink (started : s'.started = s.started) (replies : s'.replies = s.replies)
    (calls : ∀ c call, s'.calls c = some call → ∃ call, s.calls c = some call) : Numbered s' where
  calls c call hc := by
    obtain ⟨call, hc⟩ := calls c call hc
    exact started ▸ h.calls c call hc
  replies c reply hr := by
    obtain ⟨lt, ended⟩ := h.replies c reply (replies ▸ hr)
    refine ⟨started ▸ lt, ?_⟩
    cases hc : s'.calls c with
    | none => rfl
    | some call =>
      obtain ⟨call, hc⟩ := calls c call hc
      rw [ended] at hc
      cases hc

theorem numbered_take (lt : d < s.started)
    (unanswered : ∀ reply, (d, reply) ∉ s.replies) : Numbered (s.take m d turn) where
  calls c call hc := by
    obtain ⟨rfl, -⟩ | ⟨-, hc⟩ := update_eq_some.1 hc
    · exact lt
    · exact h.calls c call hc
  replies c reply hr := by
    rcases mem_take_replies hr with ⟨rfl, next⟩ | old
    · exact ⟨lt, by simp [System.take, next, Next.call?]⟩
    · have other : c ≠ d := by
        rintro rfl
        exact unanswered reply old
      exact ⟨(h.replies c reply old).1, (take_calls_of_ne other).trans (h.replies c reply old).2⟩

theorem Numbered.no_reply (hc : s.calls c = some call)
    (reply : Reply Kek) : (c, reply) ∉ s.replies := by
  intro hr
  rw [(h.replies c reply hr).2] at hc
  cases hc

theorem numbered_step (hs : s.step ring e = some s') : Numbered s' := by
  cases e with
  | boot | crash =>
    cases hs
    exact h.shrink rfl rfl fun c call hc => ⟨call, drop_calls hc⟩
  | request m request draw =>
    obtain ⟨mgr, hm, rfl⟩ := step_request hs
    have wider : Numbered { s with started := s.started + 1 } :=
      ⟨fun c call hc => Nat.lt_succ_of_lt (h.calls c call hc),
        fun c reply hr => ⟨Nat.lt_succ_of_lt (h.replies c reply hr).1, (h.replies c reply hr).2⟩⟩
    exact numbered_take wider (Nat.lt_succ_self _)
      fun reply hr => absurd (h.replies _ reply hr).1 (Nat.lt_irrefl _)
  | database c =>
    obtain ⟨m, call, store, next, hc, done, rfl⟩ := step_database hs
    refine h.shrink rfl rfl fun c' call' hc' => ?_
    obtain ⟨rfl, -⟩ | ⟨-, hc'⟩ := update_eq_some.1 hc'
    · exact ⟨_, hc⟩
    · exact ⟨_, hc'⟩
  | resume c draw =>
    obtain ⟨m, call, mgr, turn, hc, hm, resumed, rfl⟩ := step_resume hs
    exact numbered_take h (h.calls c _ hc) (h.no_reply hc)
  | abandon c =>
    cases hs
    refine h.shrink rfl rfl fun c' call' hc' => ?_
    obtain ⟨-, ⟨⟩⟩ | ⟨-, hc'⟩ := update_eq_some.1 hc'
    exact ⟨_, hc'⟩

theorem numbered_run (hs : s.run ring events = some s') : Numbered s' := by
  induction events generalizing s with
  | nil =>
    cases hs
    exact h
  | cons e events ih =>
    obtain ⟨t, first, rest⟩ := run_cons.1 hs
    exact ih (numbered_step h first) rest

end

def Opens (ring : Keyring Kek) (kek : Kek) (r : DekRecord) : Prop :=
  (ring.unwrapDek kek r.wrappedDek).isSome

def Call.due : Call Kek → Option (Kek × List Bytes)
  | .listed newKek records => some (newKek, records.map DekRecord.keyId)
  | .updateWrapping newKek keyId _ _ rest _ => some (newKek, keyId :: rest.map DekRecord.keyId)
  | .updated newKek _ _ rest _ => some (newKek, rest.map DekRecord.keyId)
  | _ => none

def Call.writes : Call Kek → Option Bytes
  | .insert _ r _ | .rotate _ r _ => some r.wrappedDek
  | .updateWrapping _ _ wrappedDek _ _ _ => some wrappedDek
  | _ => none

def disturbs (ring : Keyring Kek) (c : Nat) (newKek : Kek) (s : System Kek) : Event Kek → Bool
  | .database d => d ≠ c &&
    ((s.calls d).bind (·.2.writes)).any fun wrapped => (ring.unwrapDek newKek wrapped).isNone
  | _ => false

def undisturbed (ring : Keyring Kek) (c : Nat) (newKek : Kek) : System Kek → List (Event Kek) → Bool
  | _, [] => true
  | s, e :: events => !disturbs ring c newKek s e &&
    (s.step ring e).all fun s' => undisturbed ring c newKek s' events

variable {newKek : Kek} {call : Call Kek} {r : DekRecord} {next : Option (Call Kek)}

theorem opens_congr (same : r.wrappedDek = r'.wrappedDek) :
    Opens ring newKek r ↔ Opens ring newKek r' := by
  rw [Opens, Opens, same]

theorem database_stores (done : call.database ring store = some (store', next)) (hr : r ∈ store') :
    (∃ old ∈ store, old.keyId = r.keyId ∧ old.wrappedDek = r.wrappedDek) ∨
      call.writes = some r.wrappedDek := by
  have inserted : ∀ {store new}, insertDek store new = some store' → r ∈ store ∨ r = new := by
    intro store new h
    rw [(insertDek_eq_some.1 h).2] at hr
    simpa using hr
  cases call with
  | gotActive | stored | gotByKeyId | listed | updated => cases done
  | getActive | getByKeyId | allRecords =>
    cases done
    exact .inl ⟨r, hr, rfl, rfl⟩
  | insert tenantId new dek =>
    simp only [Call.database] at done
    split at done
    · cases done
      exact .inl ⟨r, hr, rfl, rfl⟩
    · cases done
      rcases inserted ‹_› with hr | rfl
      · exact .inl ⟨r, hr, rfl, rfl⟩
      · exact .inr rfl
  | rotate tenantId new dek =>
    simp only [Call.database] at done
    split at done
    · cases done
      exact .inl ⟨r, hr, rfl, rfl⟩
    · cases done
      rcases inserted ‹_› with hr | rfl
      · obtain ⟨old, hold, rfl⟩ := mem_map.1 hr
        refine .inl ⟨old, hold, (retire_keyId _ _).symm, ?_⟩
        rw [retire]
        split <;> rfl
      · exact .inr rfl
  | updateWrapping newKek keyId wrappedDek dek rest n =>
    cases done
    rcases mem_updateWrapping.1 hr with ⟨hr, -⟩ | ⟨old, -, -, rfl⟩
    · exact .inl ⟨r, hr, rfl, rfl⟩
    · exact .inr rfl

/-- How far the call `c` to `rewrap_all newKek` has come since its listing: what it has not written
yet is due, and when it has replied nothing is. -/
inductive Rewrapping (ring : Keyring Kek) (c : Nat) (newKek : Kek) (s : System Kek) : Prop
  | walking {m : Nat} {call : Call Kek} {due : List Bytes} (inFlight : s.calls c = some (m, call))
      (todo : call.due = some (newKek, due))
      (covers : ∀ r ∈ s.store, Opens ring newKek r ∨ r.keyId ∈ due)
  | ended (lt : c < s.started) (gone : s.calls c = none)
      (covers : ∀ n, (c, .rewrapped newKek n) ∈ s.replies → ∀ r ∈ s.store, Opens ring newKek r)

section

variable (h : Rewrapping ring c newKek s)

include h

theorem Rewrapping.frame (calls : s'.calls c = s.calls c)
    (replies : ∀ reply, (c, reply) ∈ s'.replies → (c, reply) ∈ s.replies)
    (started : s.started ≤ s'.started) (stores : ∀ r ∈ s'.store, Opens ring newKek r ∨
      ∃ old ∈ s.store, old.keyId = r.keyId ∧ old.wrappedDek = r.wrappedDek) :
    Rewrapping ring c newKek s' := by
  cases h with
  | walking inFlight todo covers =>
    refine .walking (calls.trans inFlight) todo fun r hr => ?_
    rcases stores r hr with opened | ⟨old, hold, sameId, same⟩
    · exact .inl opened
    · rw [← opens_congr same, ← sameId]
      exact covers old hold
  | ended lt gone covers =>
    refine .ended (Nat.lt_of_lt_of_le lt started) (calls.trans gone) fun n hn r hr => ?_
    rcases stores r hr with opened | ⟨old, hold, -, same⟩
    · exact opened
    · exact (opens_congr same).1 (covers n (replies _ hn) old hold)

theorem Rewrapping.lost (numbered : Numbered s)
    (gone : s'.calls c = none) (replies : s'.replies = s.replies) (started : s'.started = s.started)
    (store : s'.store = s.store) : Rewrapping ring c newKek s' := by
  cases h with
  | walking inFlight todo covers =>
    refine .ended (started ▸ numbered.calls c _ inFlight) gone fun n hn => ?_
    exact absurd (replies ▸ hn) (numbered.no_reply inFlight _)
  | ended lt _ covers =>
    refine .ended (started ▸ lt) gone fun n hn => ?_
    rw [store]
    exact covers n (replies ▸ hn)

theorem Rewrapping.drop (numbered : Numbered s)
    (calls : s'.calls = (s.drop m).calls) (replies : s'.replies = s.replies)
    (started : s'.started = s.started) (store : s'.store = s.store) :
    Rewrapping ring c newKek s' := by
  cases dropped : s'.calls c with
  | none => exact h.lost numbered dropped replies started store
  | some call =>
    have kept : s'.calls c = s.calls c := by
      rw [dropped, drop_calls (calls ▸ dropped)]
    refine h.frame kept (by rw [replies]; exact fun _ => id) (by omega) fun r hr => ?_
    exact .inr ⟨r, store ▸ hr, rfl, rfl⟩

end

theorem rewrapNext_next (ring : Keyring Kek) (mgr : DekManager Kek) (draw : Draw) (newKek : Kek)
    (n : Nat) (records : List DekRecord) :
    (∃ call, (rewrapNext ring mgr draw newKek n records).next = .await call ∧
      call.due = some (newKek, records.map DekRecord.keyId)) ∨
    records = [] ∧ (rewrapNext ring mgr draw newKek n records).next = .reply (.rewrapped newKek n) ∨
    (rewrapNext ring mgr draw newKek n records).next = .raise := by
  cases records with
  | nil => exact .inr (.inl ⟨rfl, rfl⟩)
  | cons r rest =>
    rw [rewrapNext]
    split
    · exact .inr (.inr rfl)
    · exact .inl ⟨_, rfl, rfl⟩

theorem resume_due
    (todo : call.due = some (newKek, due)) (resumed : call.resume ring mgr draw = some turn) :
    (∃ call', turn.next = .await call' ∧ call'.due = some (newKek, due)) ∨
    due = [] ∧ (∃ n, turn.next = .reply (.rewrapped newKek n)) ∨ turn.next = .raise := by
  have next : ∃ mgr' n records, turn = rewrapNext ring mgr' draw newKek n records ∧
      due = records.map DekRecord.keyId := by
    cases call with
    | listed | updated =>
      cases todo
      cases resumed
      exact ⟨_, _, _, rfl, rfl⟩
    | updateWrapping => cases resumed
    | getActive | gotActive | insert | rotate | stored | getByKeyId | gotByKeyId | allRecords =>
      cases todo
  obtain ⟨mgr', n, records, rfl, rfl⟩ := next
  rcases rewrapNext_next ring mgr' draw newKek n records with await | ⟨rfl, reply⟩ | raise
  · exact .inl await
  · exact .inr (.inl ⟨rfl, n, reply⟩)
  · exact .inr (.inr raise)

theorem rewrapping_database (todo : call.due = some (newKek, due))
    (valid : call.Valid ring store) (covers : ∀ r ∈ store, Opens ring newKek r ∨ r.keyId ∈ due)
    (done : call.database ring store = some (store', next)) :
    ∃ call' due', next = some call' ∧ call'.due = some (newKek, due') ∧
      ∀ r ∈ store', Opens ring newKek r ∨ r.keyId ∈ due' := by
  cases call with
  | updateWrapping kek keyId wrappedDek dek rest n =>
    cases todo
    cases done
    obtain ⟨-, ⟨seed, rfl⟩, -⟩ := valid
    refine ⟨_, _, rfl, rfl, fun r hr => ?_⟩
    rcases mem_updateWrapping.1 hr with ⟨hr, other⟩ | ⟨old, -, -, rfl⟩
    · exact (covers r hr).imp_right fun h => (mem_cons.1 h).resolve_left other
    · exact .inl (by simp [Opens, ring.unwrap_wrap])
  | listed | updated => cases done
  | getActive | gotActive | insert | rotate | stored | getByKeyId | gotByKeyId | allRecords =>
    cases todo

theorem opens_of_not_disturbs (calm : disturbs ring c newKek s (.database d) = false) (other : d ≠ c)
    (hd : s.calls d = some (m, call)) (writes : call.writes = some r.wrappedDek) :
    Opens ring newKek r := by
  simpa [disturbs, other, hd, writes, isSome_iff_ne_none, Opens] using calm

theorem rewrapping_step (h : Rewrapping ring c newKek s) (inv : Inv ring s)
    (numbered : Numbered s) (calm : disturbs ring c newKek s e = false)
    (hs : s.step ring e = some s') : Rewrapping ring c newKek s' := by
  have same : ∀ r ∈ s.store, Opens ring newKek r ∨
      ∃ old ∈ s.store, old.keyId = r.keyId ∧ old.wrappedDek = r.wrappedDek :=
    fun r hr => .inr ⟨r, hr, rfl, rfl⟩
  have lt : c < s.started := by
    cases h with
    | walking inFlight => exact numbered.calls c _ inFlight
    | ended lt => exact lt
  cases e with
  | boot | crash =>
    cases hs
    exact h.drop numbered rfl rfl rfl rfl
  | request m request draw =>
    obtain ⟨mgr, hm, rfl⟩ := step_request hs
    have other : c ≠ s.started := Nat.ne_of_lt lt
    refine h.frame (take_calls_of_ne other) (fun reply hr => ?_) (Nat.le_succ _) same
    exact (mem_take_replies hr).resolve_left fun own => other own.1
  | database d =>
    obtain ⟨m, call, store, next, hd, done, rfl⟩ := step_database hs
    by_cases own : d = c
    · subst own
      cases h with
      | walking inFlight todo covers =>
        rw [hd] at inFlight
        cases inFlight
        obtain ⟨call', due', rfl, todo', covers'⟩ :=
          rewrapping_database todo (inv.calls d m call hd) covers done
        exact .walking (update_self _ _ _) todo' covers'
      | ended _ gone =>
        rw [gone] at hd
        cases hd
    · refine h.frame (update_of_ne (Ne.symm own) _ _) (fun _ => id) (Nat.le_refl _) ?_
      intro r hr
      rcases database_stores done hr with old | writes
      · exact .inr old
      · exact .inl (opens_of_not_disturbs calm own hd writes)
  | resume d draw =>
    obtain ⟨m, call, mgr, turn, hd, hm, resumed, rfl⟩ := step_resume hs
    by_cases own : d = c
    · subst own
      cases h with
      | walking inFlight todo covers =>
        rw [hd] at inFlight
        cases inFlight
        have calls : (s.take m d turn).calls d = turn.next.call?.map (m, ·) :=
          update_self _ _ _
        rcases resume_due todo resumed with ⟨call', await, todo'⟩ | ⟨rfl, n, reply⟩ | raise
        · exact .walking (calls.trans (by rw [await]; rfl)) todo' covers
        · refine .ended lt (calls.trans (by rw [reply]; rfl)) fun _ _ r hr => ?_
          exact (covers r hr).resolve_right not_mem_nil
        · refine .ended lt (calls.trans (by rw [raise]; rfl)) fun n hn => ?_
          rcases mem_take_replies hn with ⟨-, reply⟩ | hn
          · rw [raise] at reply
            cases reply
          · exact absurd hn (numbered.no_reply hd _)
      | ended _ gone =>
        rw [gone] at hd
        cases hd
    · refine h.frame (take_calls_of_ne (Ne.symm own)) (fun reply hr => ?_) (Nat.le_refl _) same
      exact (mem_take_replies hr).resolve_left fun mine => own mine.1.symm
  | abandon d =>
    cases hs
    by_cases own : d = c
    · exact h.lost numbered (own ▸ update_self _ _ _) rfl rfl rfl
    · exact h.frame (update_of_ne (Ne.symm own) _ _) (fun _ => id) (Nat.le_refl _) same

theorem rewrapping_run (h : Rewrapping ring c newKek s)
    (inv : Inv ring s) (numbered : Numbered s) (calm : undisturbed ring c newKek s events = true)
    (hs : s.run ring events = some s') : Rewrapping ring c newKek s' := by
  induction events generalizing s with
  | nil =>
    cases hs
    exact h
  | cons e events ih =>
    obtain ⟨t, first, rest⟩ := run_cons.1 hs
    simp only [undisturbed, first, all_some, Bool.and_eq_true, Bool.not_eq_true'] at calm
    have walked := rewrapping_step h inv numbered calm.1 first
    exact ih walked (inv_step inv first).1 (numbered_step numbered first) calm.2 rest

theorem rewrapping_listing (hc : s.calls c = some (m, .allRecords newKek))
    (hs : s.step ring (.database c) = some s') : Rewrapping ring c newKek s' := by
  obtain ⟨m', call, store, next, hc', done, rfl⟩ := step_database hs
  rw [hc] at hc'
  cases hc'
  cases done
  exact .walking (update_self _ _ _) rfl fun r hr => .inr (mem_map_of_mem hr)

/-- An id that was handed out resolves for ever to its data key. After `rewrap_all` has replied the new
key opens every record, unless a call has stored another key's wrapping since the listing. -/
theorem handed_out_keys_resolve {before : List (Event Kek)}
    (run : ({} : System Kek).run ring before = some s) :
    (∀ c keyId dek, (c, .key keyId dek) ∈ s.replies → ∀ after s', s.run ring after = some s' →
      ∃ r, getByKeyId s'.store keyId = some r ∧
        (∃ kek, r.kekId = ring.kekId kek ∧ r.provider = ring.providerName kek ∧
          ring.unwrapDek kek r.wrappedDek = some dek) ∧
        ∀ kek dek', ring.unwrapDek kek r.wrappedDek = some dek' → dek' = dek) ∧
    ∀ c m newKek, s.calls c = some (m, .allRecords newKek) →
      ∀ t, s.step ring (.database c) = some t → ∀ after s', t.run ring after = some s' →
        undisturbed ring c newKek t after = true → ∀ n, (c, .rewrapped newKek n) ∈ s'.replies →
          ∀ r ∈ s'.store, (ring.unwrapDek newKek r.wrappedDek).isSome := by
  have inv := (inv_run inv_empty run).1
  have numbered := numbered_run numbered_empty run
  refine ⟨?_, ?_⟩
  · intro c keyId dek replied after s' ran
    obtain ⟨inv', grows⟩ := inv_run inv ran
    obtain ⟨r, hr, hid, sealed⟩ := grows.keeps keyId dek (inv.replies c _ replied)
    obtain ⟨r', found⟩ : ∃ r', getByKeyId s'.store keyId = some r' :=
      isSome_iff_exists.1 (find?_isSome.2 ⟨r, hr, by simpa using hid⟩)
    have hid' : r'.keyId = keyId := by simpa using find?_some found
    cases inv'.settled.eq_of_keyId hr (mem_of_find?_eq_some found) (hid.trans hid'.symm)
    exact ⟨r, found, sealed.exists_unwrap, fun kek dek' opened => sealed.unwrap_eq opened⟩
  · intro c m newKek hc t listed after s' ran calm n replied
    have walked := rewrapping_run (rewrapping_listing hc listed) (inv_step inv listed).1
      (numbered_step numbered listed) calm ran
    cases walked with
    | walking inFlight =>
      have numbered' := numbered_run (numbered_step numbered listed) ran
      exact absurd replied (numbered'.no_reply inFlight _)
    | ended _ _ covers => exact covers n replied

def twoMasters : Keyring Bool where
  kekId _ := "env"
  providerName _ := .env
  wrapDek kek _ dek := (if kek then 1 else 0) :: dek
  unwrapDek kek wrapped := match wrapped with
    | [] => none
    | mark :: dek => if mark = (if kek then 1 else 0) then some dek else none
  unwrap_wrap kek _ dek := if_pos rfl
  unwrap_foreign kek kek' _ dek dek' h := by
    simp only [ite_none_right_eq_some, Option.some.injEq] at h
    exact h.2.symm

def drawn (i : UInt8) : Draw := ⟨[i], [i, i], []⟩

def firstKey : List (Event Bool) :=
  [.boot 0 false, .boot 1 false,
   .request 0 (.activeDek "first") (drawn 0), .database 0, .resume 0 (drawn 7), .database 0,
   .resume 0 (drawn 0), .request 1 (.rewrapAll true) (drawn 0)]

def rewrapFirst : List (Event Bool) := [.resume 1 (drawn 0), .database 1, .resume 1 (drawn 0)]

def mintSecond : List (Event Bool) :=
  [.request 0 (.activeDek "second") (drawn 0), .database 2, .resume 2 (drawn 8), .database 2,
   .resume 2 (drawn 0)]

theorem first_key_resolves : ∃ s t s', ({} : System Bool).run twoMasters firstKey = some s ∧
    s.step twoMasters (.database 1) = some t ∧ t.run twoMasters rewrapFirst = some s' ∧
    (∃ r, getByKeyId s'.store [7] = some r ∧
      ∀ kek dek', twoMasters.unwrapDek kek r.wrappedDek = some dek' → dek' = [7, 7]) ∧
    ∀ r ∈ s'.store, (twoMasters.unwrapDek true r.wrappedDek).isSome := by
  have run : ({} : System Bool).run twoMasters firstKey = some _ := rfl
  obtain ⟨keys, rewrapped⟩ := handed_out_keys_resolve run
  refine ⟨_, _, _, run, rfl, rfl, ?_, rewrapped 1 1 true rfl _ rfl rewrapFirst _ rfl rfl 1 (.head _)⟩
  obtain ⟨r, found, -, unique⟩ := keys 0 [7] [7, 7] (.head _) (.database 1 :: rewrapFirst) _ rfl
  exact ⟨r, found, unique⟩

/-- A key minted under the old master key after the listing: the re-wrap replies, and the new master
key does not open it. -/
theorem rewrap_misses_minted : ∃ s r,
    ({} : System Bool).run twoMasters (firstKey ++ .database 1 :: mintSecond ++ rewrapFirst) = some s ∧
    (1, .rewrapped true 1) ∈ s.replies ∧ (2, .key [8] [8, 8]) ∈ s.replies ∧
    getByKeyId s.store [8] = some r ∧ twoMasters.unwrapDek true r.wrappedDek = none :=
  ⟨_, _, rfl, .head _, .tail _ (.head _), rfl, rfl⟩

end TmVault.Crypto
