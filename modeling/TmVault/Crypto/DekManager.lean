import TmVault.Relational.Update
import TmVault.Wire.Records

/-! Per-tenant data keys, stored wrapped by a key-encryption key in a table that processes share; a
call gives way to the others at every statement it awaits. -/

namespace TmVault.Crypto

open Wire Relational Function

universe u

inductive KekProvider
  | env
  | awsKms
  | azureKeyVault

/-- The key-encryption keys there are. The seed is what a wrapping draws. Wrapping is authenticated: a
key opens what it has wrapped, and nothing to a data key that was not put in. -/
structure Keyring (Kek : Type u) where
  kekId : Kek → String
  providerName : Kek → KekProvider
  wrapDek : Kek → Bytes → Bytes → Bytes
  unwrapDek : Kek → Bytes → Option Bytes
  unwrap_wrap : ∀ kek seed dek, unwrapDek kek (wrapDek kek seed dek) = some dek
  unwrap_foreign : ∀ kek kek' seed dek dek',
    unwrapDek kek' (wrapDek kek seed dek) = some dek' → dek' = dek

inductive DekState
  | active
  | retired
  deriving DecidableEq

structure DekRecord where
  tenantId : String
  (keyId wrappedDek : Bytes)
  kekId : String
  provider : KekProvider
  state : DekState := .active

def getActive (store : List DekRecord) (tenantId : String) : Option DekRecord :=
  store.find? fun r => r.tenantId = tenantId && r.state = .active

def getByKeyId (store : List DekRecord) (keyId : Bytes) : Option DekRecord :=
  store.find? (·.keyId = keyId)

def clashes (r r' : DekRecord) : Bool :=
  r.keyId = r'.keyId || (r.state = .active && r'.state = .active && r.tenantId = r'.tenantId)

def insertDek (store : List DekRecord) (r : DekRecord) : Option (List DekRecord) :=
  if store.any (clashes r) then none else some (store ++ [r])

def retire (tenantId : String) (r : DekRecord) : DekRecord :=
  if r.tenantId = tenantId ∧ r.state = .active then { r with state := .retired } else r

def rotate (store : List DekRecord) (tenantId : String) (r : DekRecord) : Option (List DekRecord) :=
  insertDek (store.map (retire tenantId)) r

def updateWrapping (store : List DekRecord) (keyId wrappedDek : Bytes) (kekId : String)
    (provider : KekProvider) : List DekRecord :=
  updateKey DekRecord.keyId keyId
    (fun r => { r with wrappedDek := wrappedDek, kekId := kekId, provider := provider }) store

structure DekManager (Kek : Type u) where
  kek : Kek
  byKid : Bytes → Option Bytes := fun _ => none
  activeKid : String → Option Bytes := fun _ => none

variable {Kek : Type u}

def DekManager.cache (mgr : DekManager Kek) (keyId dek : Bytes) : DekManager Kek :=
  { mgr with byKid := update mgr.byKid keyId (some dek) }

@[simp] theorem DekManager.cache_byKid (mgr : DekManager Kek) (keyId dek : Bytes) :
    (mgr.cache keyId dek).byKid = update mgr.byKid keyId (some dek) := rfl

def DekManager.activate (mgr : DekManager Kek) (tenantId : String) (keyId : Bytes) : DekManager Kek :=
  { mgr with activeKid := update mgr.activeKid tenantId (some keyId) }

structure Draw where
  (keyId dek seed : Bytes)

def mint (ring : Keyring Kek) (kek : Kek) (tenantId : String) (draw : Draw) : DekRecord where
  tenantId := tenantId
  keyId := draw.keyId
  wrappedDek := ring.wrapDek kek draw.seed draw.dek
  kekId := ring.kekId kek
  provider := ring.providerName kek

inductive Call (Kek : Type u)
  | getActive (tenantId : String)
  | gotActive (tenantId : String) (found : Option DekRecord)
  | insert (tenantId : String) (r : DekRecord) (dek : Bytes)
  | rotate (tenantId : String) (r : DekRecord) (dek : Bytes)
  | stored (tenantId : String) (keyId dek : Bytes)
  | getByKeyId (keyId : Bytes)
  | gotByKeyId (keyId : Bytes) (found : Option DekRecord)
  | allRecords (newKek : Kek)
  | listed (newKek : Kek) (records : List DekRecord)
  | updateWrapping (newKek : Kek) (keyId wrappedDek dek : Bytes) (rest : List DekRecord) (n : Nat)
  | updated (newKek : Kek) (keyId dek : Bytes) (rest : List DekRecord) (n : Nat)

/-- What a call hands back. `rotate_dek` returns the id alone: the data key is the one it cached. -/
inductive Reply (Kek : Type u)
  | key (keyId dek : Bytes)
  | rewrapped (newKek : Kek) (n : Nat)

inductive Next (Kek : Type u)
  | await (call : Call Kek)
  | reply (r : Reply Kek)
  | raise

def Next.call? : Next Kek → Option (Call Kek)
  | .await call => some call
  | _ => none

def Next.reply? : Next Kek → Option (Reply Kek)
  | .reply r => some r
  | _ => none

structure Turn (Kek : Type u) where
  manager : DekManager Kek
  next : Next Kek

inductive Request (Kek : Type u)
  | activeDek (tenantId : String)
  | dekForKeyId (keyId : Bytes)
  | rotateDek (tenantId : String)
  | rewrapAll (newKek : Kek)

def Request.start (ring : Keyring Kek) (mgr : DekManager Kek) (draw : Draw) : Request Kek → Turn Kek
  | .activeDek tenantId =>
    match mgr.activeKid tenantId with
    | none => ⟨mgr, .await (.getActive tenantId)⟩
    | some cached =>
      match mgr.byKid cached with
      | none => ⟨mgr, .raise⟩
      | some dek => ⟨mgr, .reply (.key cached dek)⟩
  | .dekForKeyId keyId =>
    match mgr.byKid keyId with
    | none => ⟨mgr, .await (.getByKeyId keyId)⟩
    | some dek => ⟨mgr, .reply (.key keyId dek)⟩
  | .rotateDek tenantId => ⟨mgr, .await (.rotate tenantId (mint ring mgr.kek tenantId draw) draw.dek)⟩
  | .rewrapAll newKek => ⟨mgr, .await (.allRecords newKek)⟩

/-- The data key of a listed record. The source writes `or`, so an empty cached key is passed over. -/
def knownDek (ring : Keyring Kek) (mgr : DekManager Kek) (r : DekRecord) : Option Bytes :=
  match mgr.byKid r.keyId with
  | some (b :: dek) => some (b :: dek)
  | _ => ring.unwrapDek mgr.kek r.wrappedDek

def rewrapNext (ring : Keyring Kek) (mgr : DekManager Kek) (draw : Draw) (newKek : Kek) (n : Nat) :
    List DekRecord → Turn Kek
  | [] => ⟨{ mgr with kek := newKek }, .reply (.rewrapped newKek n)⟩
  | r :: rest =>
    match knownDek ring mgr r with
    | none => ⟨mgr, .raise⟩
    | some dek =>
      ⟨mgr, .await (.updateWrapping newKek r.keyId (ring.wrapDek newKek draw.seed dek) dek rest n)⟩

def Call.resume (ring : Keyring Kek) (mgr : DekManager Kek) (draw : Draw) :
    Call Kek → Option (Turn Kek)
  | .gotActive tenantId none =>
    some ⟨mgr, .await (.insert tenantId (mint ring mgr.kek tenantId draw) draw.dek)⟩
  | .gotActive tenantId (some r) =>
    match ring.unwrapDek mgr.kek r.wrappedDek with
    | none => some ⟨mgr, .raise⟩
    | some dek => some ⟨(mgr.cache r.keyId dek).activate tenantId r.keyId, .reply (.key r.keyId dek)⟩
  | .stored tenantId keyId dek =>
    some ⟨(mgr.cache keyId dek).activate tenantId keyId, .reply (.key keyId dek)⟩
  | .gotByKeyId _ none => some ⟨mgr, .raise⟩
  | .gotByKeyId keyId (some r) =>
    match ring.unwrapDek mgr.kek r.wrappedDek with
    | none => some ⟨mgr, .raise⟩
    | some dek => some ⟨mgr.cache keyId dek, .reply (.key keyId dek)⟩
  | .listed newKek records => some (rewrapNext ring mgr draw newKek 0 records)
  | .updated newKek keyId dek rest n =>
    some (rewrapNext ring (mgr.cache keyId dek) draw newKek (n + 1) rest)
  | _ => none

def Call.database (ring : Keyring Kek) (store : List DekRecord) :
    Call Kek → Option (List DekRecord × Option (Call Kek))
  | .getActive tenantId => some (store, some (.gotActive tenantId (Crypto.getActive store tenantId)))
  | .insert tenantId r dek =>
    match insertDek store r with
    | none => some (store, none)
    | some store' => some (store', some (.stored tenantId r.keyId dek))
  | .rotate tenantId r dek =>
    match Crypto.rotate store tenantId r with
    | none => some (store, none)
    | some store' => some (store', some (.stored tenantId r.keyId dek))
  | .getByKeyId keyId => some (store, some (.gotByKeyId keyId (Crypto.getByKeyId store keyId)))
  | .allRecords newKek => some (store, some (.listed newKek store))
  | .updateWrapping newKek keyId wrappedDek dek rest n =>
    some (Crypto.updateWrapping store keyId wrappedDek (ring.kekId newKek) (ring.providerName newKek),
      some (.updated newKek keyId dek rest n))
  | _ => none

structure System (Kek : Type u) where
  store : List DekRecord := []
  managers : Nat → Option (DekManager Kek) := fun _ => none
  calls : Nat → Option (Nat × Call Kek) := fun _ => none
  started : Nat := 0
  replies : List (Nat × Reply Kek) := []

inductive Event (Kek : Type u)
  | boot (m : Nat) (kek : Kek)
  | crash (m : Nat)
  | request (m : Nat) (r : Request Kek) (draw : Draw)
  | database (c : Nat)
  | resume (c : Nat) (draw : Draw)
  | abandon (c : Nat)

def System.drop (s : System Kek) (m : Nat) : System Kek :=
  { s with
    managers := update s.managers m none, calls := fun c => (s.calls c).filter (·.1 ≠ m) }

def System.take (s : System Kek) (m c : Nat) (turn : Turn Kek) : System Kek :=
  { s with
    managers := update s.managers m (some turn.manager)
    calls := update s.calls c (turn.next.call?.map (m, ·))
    replies := (turn.next.reply?.map (c, ·)).toList ++ s.replies }

/-- One event, when it can happen. A statement that fails for a reason of its own, its commit not
acknowledged included, and a cancelled call are `abandon`. -/
def System.step (ring : Keyring Kek) (s : System Kek) : Event Kek → Option (System Kek)
  | .boot m kek => some { s.drop m with managers := update s.managers m (some { kek := kek }) }
  | .crash m => some (s.drop m)
  | .request m r draw => do
    let mgr ← s.managers m
    return ({ s with started := s.started + 1 }).take m s.started (r.start ring mgr draw)
  | .database c => do
    let (m, call) ← s.calls c
    let (store, call) ← call.database ring s.store
    return { s with store := store, calls := update s.calls c (call.map (m, ·)) }
  | .resume c draw => do
    let (m, call) ← s.calls c
    let mgr ← s.managers m
    let turn ← call.resume ring mgr draw
    return s.take m c turn
  | .abandon c => some { s with calls := update s.calls c none }

def System.run (ring : Keyring Kek) : System Kek → List (Event Kek) → Option (System Kek)
  | s, [] => some s
  | s, e :: events => do (← s.step ring e).run ring events

open List

variable {ring : Keyring Kek}

def Sealed (ring : Keyring Kek) (r : DekRecord) (dek : Bytes) : Prop :=
  ∃ kek seed, r.kekId = ring.kekId kek ∧ r.provider = ring.providerName kek ∧
    r.wrappedDek = ring.wrapDek kek seed dek

def Resolves (ring : Keyring Kek) (store : List DekRecord) (keyId dek : Bytes) : Prop :=
  ∃ r ∈ store, r.keyId = keyId ∧ Sealed ring r dek

structure Settled (ring : Keyring Kek) (store : List DekRecord) : Prop where
  nodup : (store.map DekRecord.keyId).Nodup
  wrapped : ∀ r ∈ store, ∃ dek, Sealed ring r dek

structure Grows (ring : Keyring Kek) (store store' : List DekRecord) : Prop where
  settled : Settled ring store'
  keeps : ∀ keyId dek, Resolves ring store keyId dek → Resolves ring store' keyId dek

variable {store store' : List DekRecord} {r : DekRecord} {kek newKek : Kek} {keyId dek dek' : Bytes}

theorem Sealed.unwrap_eq (h : Sealed ring r dek) (opened : ring.unwrapDek kek r.wrappedDek = some dek') :
    dek' = dek := by
  obtain ⟨kek', seed, -, -, hw⟩ := h
  rw [hw] at opened
  exact ring.unwrap_foreign _ _ _ _ _ opened

theorem Sealed.exists_unwrap (h : Sealed ring r dek) : ∃ kek, r.kekId = ring.kekId kek ∧
    r.provider = ring.providerName kek ∧ ring.unwrapDek kek r.wrappedDek = some dek := by
  obtain ⟨kek, seed, hid, hp, hw⟩ := h
  exact ⟨kek, hid, hp, by rw [hw, ring.unwrap_wrap]⟩

theorem Sealed.unique (h : Sealed ring r dek) (h' : Sealed ring r dek') : dek = dek' := by
  obtain ⟨kek, -, -, opened⟩ := h.exists_unwrap
  exact h'.unwrap_eq opened

theorem sealed_mint (kek : Kek) (tenantId : String) (draw : Draw) :
    Sealed ring (mint ring kek tenantId draw) draw.dek :=
  ⟨kek, draw.seed, rfl, rfl, rfl⟩

theorem Settled.eq_of_keyId (h : Settled ring store) {r r' : DekRecord} (hr : r ∈ store)
    (hr' : r' ∈ store) (same : r.keyId = r'.keyId) : r = r' :=
  inj_on_of_nodup_map h.nodup hr hr' same

theorem Grows.refl (h : Settled ring store) : Grows ring store store := ⟨h, fun _ _ => id⟩

theorem Grows.trans {store'' : List DekRecord} (h : Grows ring store store')
    (h' : Grows ring store' store'') : Grows ring store store'' :=
  ⟨h'.settled, fun keyId dek found => h'.keeps keyId dek (h.keeps keyId dek found)⟩

theorem insertDek_eq_some : insertDek store r = some store' ↔
    store.any (clashes r) = false ∧ store' = store ++ [r] := by
  rw [insertDek]
  cases store.any (clashes r) <;> simp [eq_comm]

theorem keyId_ne_of_insertDek (h : insertDek store r = some store') {old : DekRecord}
    (hold : old ∈ store) : old.keyId ≠ r.keyId := by
  have free := any_eq_false.1 (insertDek_eq_some.1 h).1 old hold
  intro same
  simp [clashes, same] at free

theorem grows_insertDek (h : Settled ring store) (hr : Sealed ring r dek)
    (inserted : insertDek store r = some store') :
    Grows ring store store' ∧ Resolves ring store' r.keyId dek := by
  have fresh := fun old => @keyId_ne_of_insertDek _ _ _ inserted old
  obtain ⟨-, rfl⟩ := insertDek_eq_some.1 inserted
  refine ⟨⟨⟨?_, ?_⟩, ?_⟩, r, by simp, rfl, hr⟩
  · rw [map_append, map_singleton, nodup_append]
    refine ⟨h.nodup, nodup_singleton _, ?_⟩
    simpa using fresh
  · intro old hold
    rcases mem_append.1 hold with hold | hold
    · exact h.wrapped old hold
    · rw [mem_singleton.1 hold]
      exact ⟨dek, hr⟩
  · rintro keyId dek ⟨old, hold, hid, sealed⟩
    exact ⟨old, mem_append_left _ hold, hid, sealed⟩

theorem retire_keyId (tenantId : String) (r : DekRecord) : (retire tenantId r).keyId = r.keyId := by
  rw [retire]
  split <;> rfl

theorem sealed_retire (tenantId : String) (h : Sealed ring r dek) :
    Sealed ring (retire tenantId r) dek := by
  rw [retire]
  split
  · exact h
  · exact h

theorem grows_retire (tenantId : String) (h : Settled ring store) :
    Grows ring store (store.map (retire tenantId)) := by
  refine ⟨⟨?_, ?_⟩, ?_⟩
  · rw [map_map, show DekRecord.keyId ∘ retire tenantId = DekRecord.keyId from
      funext (retire_keyId tenantId)]
    exact h.nodup
  · intro r hr
    obtain ⟨old, hold, rfl⟩ := mem_map.1 hr
    obtain ⟨dek, sealed⟩ := h.wrapped old hold
    exact ⟨dek, sealed_retire tenantId sealed⟩
  · rintro keyId dek ⟨old, hold, hid, sealed⟩
    exact ⟨_, mem_map_of_mem hold, (retire_keyId _ _).trans hid, sealed_retire tenantId sealed⟩

theorem grows_rotate {tenantId : String} (h : Settled ring store) (hr : Sealed ring r dek)
    (rotated : rotate store tenantId r = some store') :
    Grows ring store store' ∧ Resolves ring store' r.keyId dek := by
  have retired := grows_retire tenantId h
  obtain ⟨inserted, found⟩ := grows_insertDek retired.settled hr rotated
  exact ⟨retired.trans inserted, found⟩

@[simp] theorem mem_updateWrapping {w : Bytes} {name : String} {provider : KekProvider} :
    r ∈ updateWrapping store keyId w name provider ↔ r ∈ store ∧ r.keyId ≠ keyId ∨
      ∃ old ∈ store, old.keyId = keyId ∧
        { old with wrappedDek := w, kekId := name, provider := provider } = r :=
  mem_updateKey

theorem grows_updateWrapping (h : Settled ring store) (found : Resolves ring store keyId dek)
    (newKek : Kek) (seed : Bytes) :
    Grows ring store (updateWrapping store keyId (ring.wrapDek newKek seed dek) (ring.kekId newKek)
      (ring.providerName newKek)) := by
  refine ⟨⟨?_, ?_⟩, ?_⟩
  · rw [updateWrapping, map_updateKey]
    · exact h.nodup
    · intro _ _
      rfl
  · intro r hr
    rcases mem_updateWrapping.1 hr with ⟨hr, -⟩ | ⟨old, -, -, rfl⟩
    · exact h.wrapped r hr
    · exact ⟨dek, newKek, seed, rfl, rfl, rfl⟩
  · rintro other dek' ⟨old, hold, hid, sealed⟩
    by_cases same : old.keyId = keyId
    · obtain ⟨r, hr, hrid, hrs⟩ := found
      cases h.eq_of_keyId hold hr (same.trans hrid.symm)
      cases sealed.unique hrs
      exact ⟨_, mem_updateWrapping.2 (.inr ⟨old, hold, same, rfl⟩), hid, newKek, seed, rfl, rfl, rfl⟩
    · exact ⟨old, mem_updateWrapping.2 (.inl ⟨hold, same⟩), hid, sealed⟩

def Genuine (ring : Keyring Kek) (store : List DekRecord) (r : DekRecord) : Prop :=
  ∃ dek, Sealed ring r dek ∧ Resolves ring store r.keyId dek

theorem Settled.genuine (h : Settled ring store) (hr : r ∈ store) : Genuine ring store r := by
  obtain ⟨dek, sealed⟩ := h.wrapped r hr
  exact ⟨dek, sealed, r, hr, rfl, sealed⟩

theorem Genuine.grows (h : Genuine ring store r) (g : Grows ring store store') :
    Genuine ring store' r := by
  obtain ⟨dek, sealed, found⟩ := h
  exact ⟨dek, sealed, g.keeps _ _ found⟩

theorem Genuine.resolves (h : Genuine ring store r)
    (opened : ring.unwrapDek kek r.wrappedDek = some dek) : Resolves ring store r.keyId dek := by
  obtain ⟨dek', sealed, found⟩ := h
  rw [sealed.unwrap_eq opened]
  exact found

def DekManager.Valid (ring : Keyring Kek) (store : List DekRecord) (mgr : DekManager Kek) : Prop :=
  ∀ keyId dek, mgr.byKid keyId = some dek → Resolves ring store keyId dek

def Call.Valid (ring : Keyring Kek) (store : List DekRecord) : Call Kek → Prop
  | .getActive _ | .getByKeyId _ | .allRecords _ => True
  | .gotActive _ found => ∀ r ∈ found, Genuine ring store r
  | .insert _ r dek | .rotate _ r dek => Sealed ring r dek
  | .stored _ keyId dek => Resolves ring store keyId dek
  | .gotByKeyId keyId found => ∀ r ∈ found, r.keyId = keyId ∧ Genuine ring store r
  | .listed _ records => ∀ r ∈ records, Genuine ring store r
  | .updateWrapping newKek keyId wrappedDek dek rest _ => Resolves ring store keyId dek ∧
    (∃ seed, wrappedDek = ring.wrapDek newKek seed dek) ∧ ∀ r ∈ rest, Genuine ring store r
  | .updated _ keyId dek rest _ =>
    Resolves ring store keyId dek ∧ ∀ r ∈ rest, Genuine ring store r

def Reply.Valid (ring : Keyring Kek) (store : List DekRecord) : Reply Kek → Prop
  | .key keyId dek => Resolves ring store keyId dek
  | .rewrapped _ _ => True

def Next.Valid (ring : Keyring Kek) (store : List DekRecord) : Next Kek → Prop
  | .await call => call.Valid ring store
  | .reply r => r.Valid ring store
  | .raise => True

structure Turn.Valid (ring : Keyring Kek) (store : List DekRecord) (turn : Turn Kek) : Prop where
  manager : turn.manager.Valid ring store
  next : turn.next.Valid ring store

variable {mgr : DekManager Kek} {call : Call Kek} {turn : Turn Kek} {draw : Draw}

theorem DekManager.Valid.grows (h : mgr.Valid ring store) (g : Grows ring store store') :
    mgr.Valid ring store' :=
  fun keyId dek found => g.keeps keyId dek (h keyId dek found)

theorem DekManager.Valid.cache (h : mgr.Valid ring store) (found : Resolves ring store keyId dek) :
    (mgr.cache keyId dek).Valid ring store := by
  intro other dek' cached
  by_cases same : other = keyId
  · subst same
    rw [DekManager.cache_byKid, Function.update_self] at cached
    cases cached
    exact found
  · rw [DekManager.cache_byKid, Function.update_of_ne same] at cached
    exact h other dek' cached

theorem Call.Valid.grows (h : call.Valid ring store) (g : Grows ring store store') :
    call.Valid ring store' := by
  cases call with
  | getActive | getByKeyId | allRecords => trivial
  | gotActive tenantId found => exact fun r hr => (h r hr).grows g
  | insert | rotate => exact h
  | stored tenantId keyId dek => exact g.keeps _ _ h
  | gotByKeyId keyId found => exact fun r hr => ⟨(h r hr).1, (h r hr).2.grows g⟩
  | listed newKek records => exact fun r hr => (h r hr).grows g
  | updateWrapping newKek keyId wrappedDek dek rest n =>
    exact ⟨g.keeps _ _ h.1, h.2.1, fun r hr => (h.2.2 r hr).grows g⟩
  | updated newKek keyId dek rest n => exact ⟨g.keeps _ _ h.1, fun r hr => (h.2 r hr).grows g⟩

theorem Reply.Valid.grows {reply : Reply Kek} (h : reply.Valid ring store)
    (g : Grows ring store store') : reply.Valid ring store' := by
  cases reply with
  | key keyId dek => exact g.keeps _ _ h
  | rewrapped => trivial

section

variable (h : mgr.Valid ring store)

include h

theorem valid_start (request : Request Kek) : (request.start ring mgr draw).Valid ring store := by
  cases request with
  | activeDek tenantId =>
    rw [Request.start]
    split
    · exact ⟨h, trivial⟩
    · split
      · exact ⟨h, trivial⟩
      · exact ⟨h, h _ _ ‹_›⟩
  | dekForKeyId keyId =>
    rw [Request.start]
    split
    · exact ⟨h, trivial⟩
    · exact ⟨h, h _ _ ‹_›⟩
  | rotateDek tenantId => exact ⟨h, sealed_mint _ _ _⟩
  | rewrapAll newKek => exact ⟨h, trivial⟩

theorem resolves_knownDek (hr : Genuine ring store r)
    (known : knownDek ring mgr r = some dek) : Resolves ring store r.keyId dek := by
  unfold knownDek at known
  split at known
  · exact h _ _ (known ▸ ‹_›)
  · exact hr.resolves known

theorem valid_rewrapNext {records : List DekRecord} {n : Nat}
    (hr : ∀ r ∈ records, Genuine ring store r) :
    (rewrapNext ring mgr draw newKek n records).Valid ring store := by
  cases records with
  | nil => exact ⟨h, trivial⟩
  | cons r rest =>
    obtain ⟨genuine, others⟩ := forall_mem_cons.1 hr
    rw [rewrapNext]
    split
    · exact ⟨h, trivial⟩
    · exact ⟨h, resolves_knownDek h genuine ‹_›, ⟨_, rfl⟩, others⟩

theorem valid_resume (hc : call.Valid ring store)
    (resumed : call.resume ring mgr draw = some turn) : turn.Valid ring store := by
  cases call with
  | getActive | insert | rotate | getByKeyId | allRecords | updateWrapping => cases resumed
  | gotActive tenantId found =>
    cases found with
    | none =>
      cases resumed
      exact ⟨h, sealed_mint _ _ _⟩
    | some r =>
      simp only [Call.resume] at resumed
      split at resumed
      · cases resumed
        exact ⟨h, trivial⟩
      · cases resumed
        have found := (hc r rfl).resolves ‹_›
        exact ⟨h.cache found, found⟩
  | stored tenantId keyId dek =>
    cases resumed
    exact ⟨h.cache hc, hc⟩
  | gotByKeyId keyId found =>
    cases found with
    | none =>
      cases resumed
      exact ⟨h, trivial⟩
    | some r =>
      simp only [Call.resume] at resumed
      split at resumed
      · cases resumed
        exact ⟨h, trivial⟩
      · cases resumed
        obtain ⟨rfl, genuine⟩ := hc r rfl
        have found := genuine.resolves ‹_›
        exact ⟨h.cache found, found⟩
  | listed newKek records =>
    cases resumed
    exact valid_rewrapNext h hc
  | updated newKek keyId dek rest n =>
    cases resumed
    exact valid_rewrapNext (h.cache hc.1) hc.2

end

theorem valid_database {next : Option (Call Kek)} (h : Settled ring store)
    (hc : call.Valid ring store) (done : call.database ring store = some (store', next)) :
    Grows ring store store' ∧ ∀ call' ∈ next, call'.Valid ring store' := by
  cases call with
  | gotActive | stored | gotByKeyId | listed | updated => cases done
  | getActive tenantId =>
    cases done
    refine ⟨.refl h, ?_⟩
    rintro _ ⟨⟩ r hr
    exact h.genuine (mem_of_find?_eq_some hr)
  | getByKeyId keyId =>
    cases done
    refine ⟨.refl h, ?_⟩
    rintro _ ⟨⟩ r hr
    exact ⟨by simpa using find?_some hr, h.genuine (mem_of_find?_eq_some hr)⟩
  | allRecords newKek =>
    cases done
    refine ⟨.refl h, ?_⟩
    rintro _ ⟨⟩ r hr
    exact h.genuine hr
  | insert tenantId r dek =>
    simp only [Call.database] at done
    split at done
    · cases done
      exact ⟨.refl h, by rintro _ ⟨⟩⟩
    · cases done
      obtain ⟨grows, found⟩ := grows_insertDek h hc ‹_›
      refine ⟨grows, ?_⟩
      rintro _ ⟨⟩
      exact found
  | rotate tenantId r dek =>
    simp only [Call.database] at done
    split at done
    · cases done
      exact ⟨.refl h, by rintro _ ⟨⟩⟩
    · cases done
      obtain ⟨grows, found⟩ := grows_rotate h hc ‹_›
      refine ⟨grows, ?_⟩
      rintro _ ⟨⟩
      exact found
  | updateWrapping newKek keyId wrappedDek dek rest n =>
    cases done
    obtain ⟨found, ⟨seed, rfl⟩, others⟩ := hc
    have grows := grows_updateWrapping h found newKek seed
    refine ⟨grows, ?_⟩
    rintro _ ⟨⟩
    exact ⟨grows.keeps _ _ found, fun r hr => (others r hr).grows grows⟩

end TmVault.Crypto
