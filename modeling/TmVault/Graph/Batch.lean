import Mathlib.Data.List.Infix
import TmVault.Relational.Update
import TmVault.Relational.Table

namespace TmVault.Graph

open Relational List

structure BatchRequest where
  (id method url : String)
  headers : List (String × String) := []
  body : Option String := none

structure BatchResponse where
  id : String
  status : Int
  body : String := "\x7b\x7d"

/-- What a `POST` to `/$batch` comes back with: an exception, a status other than 200 of the batch as a
whole, or the sub-responses. -/
inductive Reply
  | transportError
  | readError (byteLimit : Bool)
  | exception
  | rejected (status : Int)
  | answered (responses : List BatchResponse)

/-- The reply that `post` hands on, after the redirects that it followed with the method and the body
kept (307 and 308). -/
structure Answer where
  reply : Reply
  redirects : Nat := 0

abbrev History := List (List BatchRequest × Answer)

abbrev Responses := Dict String BatchResponse

inductive Failure
  | readError (responses : Responses)
  | exception

structure Settings where
  maxRetries : Int := 5
  batchMaxSize : Nat := 20

def Settings.rounds (s : Settings) : Nat := (s.maxRetries + 1).toNat

def BatchRequest.isRead (r : BatchRequest) : Bool := r.method.toUpper ∈ ["GET", "HEAD"]

def BatchRequest.paginated (r : BatchRequest) : Bool :=
  ["/delta", "$skiptoken=", "$top="].any fun marker => decide (marker.toList <:+: r.url.toList)

def Responses.put (d : Responses) (r : BatchResponse) : Responses := d.set r.id fun _ => r

def Responses.update (d new : Responses) : Responses :=
  new.entries.foldl (fun d e => d.set e.1 fun _ => e.2) d

structure Round where
  collected : Responses := {}
  failed : List BatchRequest := []
  lastStatus : List (String × Int) := []

def retryable (status : Int) : Bool := status ∈ [429, 502, 503, 504, 401]

def receive (pending : List BatchRequest) (round : Round) (resp : BatchResponse) : Option Round :=
  match pending.reverse.find? (·.id = resp.id) with
  | none => none
  | some r =>
    if r.isRead && retryable resp.status then
      some { round with
        failed := round.failed ++ [r], lastStatus := (resp.id, resp.status) :: round.lastStatus }
    else some { round with collected := round.collected.put resp }

def exhaust (collected : Responses) (lastStatus : List (String × Int)) (pending : List BatchRequest) :
    Responses :=
  pending.foldl (fun d r => d.put { id := r.id, status := (lastStatus.lookup r.id).getD 429 }) collected

section

variable (graph : History → List BatchRequest → Answer)

def joinHalves (collected : Responses) :
    Except Failure Responses → (Unit → History × Except Failure Responses) →
      History → History × Except Failure Responses
  | .error .exception, _, h => (h, .error .exception)
  | .error (.readError d), second, _ =>
    match second () with
    | (h, .error .exception) => (h, .error .exception)
    | (h, .error (.readError d')) => (h, .error (.readError ((collected.update d).update d')))
    | (h, .ok d') => (h, .error (.readError ((collected.update d).update d')))
  | .ok d, second, _ =>
    match second () with
    | (h, .error .exception) => (h, .error .exception)
    | (h, .error (.readError d')) => (h, .error (.readError ((collected.update d).update d')))
    | (h, .ok d') => (h, .ok ((collected.update d).update d'))

/-- `_send_chunk_with_retry` with the rounds that are left. The sleeps and the change of app between
rounds are left out. -/
def sendChunk : Nat → History → List BatchRequest → Responses → List (String × Int) →
    History × Except Failure Responses
  | 0, h, pending, collected, lastStatus => (h, .ok (exhaust collected lastStatus pending))
  | n + 1, h, pending, collected, lastStatus =>
    if pending = [] then (h, .ok collected)
    else
      let answer := graph h pending
      let h := h ++ [(pending, answer)]
      let receiveAll (responses : List BatchResponse) : History × Except Failure Responses :=
        match responses.foldlM (receive pending) { collected, lastStatus } with
        | none => (h, .error .exception)
        | some round => sendChunk n h round.failed round.collected round.lastStatus
      match answer.reply with
      | .exception => (h, .error .exception)
      | .transportError =>
        if pending.any (!·.isRead) then (h, .error .exception)
        else if n = 0 then (h, .error (.readError collected))
        else sendChunk n h pending collected lastStatus
      | .readError byteLimit =>
        if !byteLimit || pending.any (!·.isRead) then (h, .error .exception)
        else if pending.length = 1 || n = 0 then (h, .error (.readError collected))
        else
          let (h, first) := sendChunk n h (pending.take (pending.length / 2)) {} []
          joinHalves collected first
            (fun _ => sendChunk n h (pending.drop (pending.length / 2)) {} []) h
      | .rejected status => receiveAll (pending.map fun r => { id := r.id, status })
      | .answered responses => receiveAll responses

def sendChunks (settings : Settings) (readonly : Bool) : History → Responses → Bool →
    List (List BatchRequest) → History × Except Failure Responses
  | h, result, failed, [] => (h, if failed then .error (.readError result) else .ok result)
  | h, result, failed, chunk :: chunks =>
    match sendChunk graph settings.rounds h chunk {} [] with
    | (h, .error .exception) => (h, .error .exception)
    | (h, .error (.readError d)) =>
      if !readonly then (h, .error (.readError (result.update d)))
      else sendChunks settings readonly h (result.update d) true chunks
    | (h, .ok d) => sendChunks settings readonly h (result.update d) failed chunks

def batch (settings : Settings) (requests : List BatchRequest) : History × Except Failure Responses :=
  if requests.any (·.paginated) || settings.batchMaxSize = 0 then ([], .error .exception)
  else sendChunks graph settings (requests.all (·.isRead)) [] {} false
    (chunks settings.batchMaxSize requests)

end

section

variable {d d' : Responses} {r : BatchResponse} {id : String} {lastStatus : List (String × Int)}
  {pending : List BatchRequest}

@[simp] theorem mem_keys_put : id ∈ (d.put r).keys ↔ id = r.id ∨ id ∈ d.keys := Dict.mem_keys_set

@[simp] theorem mem_keys_update : id ∈ (d.update d').keys ↔ id ∈ d.keys ∨ id ∈ d'.keys := by
  rw [Responses.update, show d'.keys = d'.entries.map Prod.fst from rfl]
  generalize d'.entries = entries
  induction entries generalizing d with
  | nil => simp
  | cons e entries ih =>
    rw [foldl_cons, ih, Dict.mem_keys_set, map_cons, mem_cons]
    tauto

@[simp] theorem mem_keys_exhaust :
    id ∈ (exhaust d lastStatus pending).keys ↔ id ∈ d.keys ∨ id ∈ pending.map (·.id) := by
  rw [exhaust]
  induction pending generalizing d with
  | nil => simp
  | cons r pending ih =>
    rw [foldl_cons, ih, mem_keys_put, map_cons, mem_cons]
    tauto

def Named (d : Responses) : Prop := ∀ e ∈ d.entries, e.2.id = e.1

theorem Named.set (named : Named d) (h : r.id = k) : Named (d.set k fun _ => r) := by
  intro e he
  rcases of_mem_upsert he with old | rfl | ⟨v, -, rfl⟩
  · exact named e old
  · exact h
  · exact h

theorem Named.update (named : Named d) (named' : Named d') : Named (d.update d') := by
  rw [Responses.update]
  rw [Named] at named'
  generalize d'.entries = entries at named'
  induction entries generalizing d with
  | nil => exact named
  | cons e entries ih =>
    exact ih (named.set (named' e mem_cons_self)) fun e' he => named' e' (mem_cons_of_mem e he)

theorem Named.exhaust (named : Named d) : Named (exhaust d lastStatus pending) := by
  rw [Graph.exhaust]
  induction pending generalizing d with
  | nil => exact named
  | cons r pending ih => exact ih (named.set rfl)

end

section

variable {pending : List BatchRequest} {round : Round} {responses : List BatchResponse}

structure Received (pending : List BatchRequest) (responses : List BatchResponse) (a b : Round) :
    Prop where
  kept : ∀ id ∈ a.collected.keys, id ∈ b.collected.keys
  failed_kept : ∀ r ∈ a.failed, r ∈ b.failed
  asked : ∀ id ∈ b.collected.keys, id ∈ a.collected.keys ∨ id ∈ pending.map (·.id)
  failed_asked : ∀ r ∈ b.failed, r ∈ a.failed ∨ r ∈ pending
  received : ∀ resp ∈ responses, resp.id ∈ b.collected.keys ∨ resp.id ∈ b.failed.map (·.id)
  named : Named a.collected → Named b.collected

theorem receive_received (h : receive pending round resp = some round') :
    Received pending [resp] round round' := by
  rw [receive] at h
  split at h
  · cases h
  · rename_i r found
    have mem : r ∈ pending := mem_reverse.mp (mem_of_find?_eq_some found)
    have same : r.id = resp.id := of_find? found
    split at h
    · cases h
      refine ⟨fun _ h => h, fun _ h => mem_append_left _ h, fun _ h => .inl h, fun x hx => ?_,
        fun x hx => ?_, id⟩
      · rcases mem_append.mp hx with hx | hx
        · exact .inl hx
        · exact .inr (mem_singleton.mp hx ▸ mem)
      · cases mem_singleton.mp hx
        exact .inr (mem_map.mpr ⟨r, by simp, same⟩)
    · cases h
      refine ⟨fun _ h => mem_keys_put.mpr (.inr h), fun _ h => h, fun x hx => ?_, fun _ h => .inl h,
        fun x hx => ?_, fun named => named.set rfl⟩
      · rcases mem_keys_put.mp hx with rfl | hx
        · exact .inr (mem_map.mpr ⟨r, mem, same⟩)
        · exact .inl hx
      · cases mem_singleton.mp hx
        exact .inl (mem_keys_put.mpr (.inl rfl))

theorem receiveAll_received (h : responses.foldlM (receive pending) round = some round') :
    Received pending responses round round' := by
  induction responses generalizing round with
  | nil =>
    cases h
    exact ⟨fun _ h => h, fun _ h => h, fun _ h => .inl h, fun _ h => .inl h,
      fun _ h => absurd h not_mem_nil, id⟩
  | cons resp responses ih =>
    rw [foldlM_cons] at h
    obtain ⟨middle, first, rest⟩ := Option.bind_eq_some_iff.mp h
    have first := receive_received first
    have rest := ih rest
    refine ⟨fun id h => rest.kept id (first.kept id h),
      fun r h => rest.failed_kept r (first.failed_kept r h),
      fun id h => ?_, fun r h => ?_, fun x hx => ?_, fun named => rest.named (first.named named)⟩
    · rcases rest.asked id h with h | h
      · exact first.asked id h
      · exact .inr h
    · rcases rest.failed_asked r h with h | h
      · exact first.failed_asked r h
      · exact .inr h
    · rcases mem_cons.mp hx with rfl | hx
      · rcases first.received x mem_cons_self with h | h
        · exact .inl (rest.kept _ h)
        · obtain ⟨r, hr, same⟩ := mem_map.mp h
          exact .inr (mem_map.mpr ⟨r, rest.failed_kept r hr, same⟩)
      · exact rest.received x hx

end

def Reply.answersAll (pending : List BatchRequest) : Reply → Bool
  | .answered responses => pending.all fun r => responses.any (·.id = r.id)
  | _ => true

def Full (h : History) : Prop := ∀ e ∈ h, e.2.reply.answersAll e.1 = true

instance {h : History} : Decidable (Full h) := inferInstanceAs (Decidable (∀ e ∈ h, _ = true))

section

variable {graph : History → List BatchRequest → Answer} {h h' : History} {pending : List BatchRequest}
  {collected d : Responses} {lastStatus : List (String × Int)} {e : List BatchRequest × Answer}

structure Sent (h h' : History) (pending : List BatchRequest) (collected d : Responses) : Prop where
  grows : ∀ e ∈ h, e ∈ h'
  kept : ∀ id ∈ collected.keys, id ∈ d.keys
  asked : ∀ id ∈ d.keys, id ∈ collected.keys ∨ id ∈ pending.map (·.id)
  full : Full h' → ∀ r ∈ pending, r.id ∈ d.keys
  named : Named collected → Named d

theorem Sent.refl : Sent h h [] collected collected :=
  ⟨fun _ he => he, fun _ hid => hid, fun _ hid => .inl hid, fun _ _ hr => absurd hr not_mem_nil, id⟩

theorem Sent.sent (rest : Sent (h ++ [e]) h' pending collected d) : Sent h h' pending collected d :=
  { rest with grows := fun x hx => rest.grows x (mem_append_left _ hx) }

theorem Sent.update (sent : Sent h h' pending {} d) :
    Sent h h' pending collected (collected.update d) where
  grows := sent.grows
  kept id hid := mem_keys_update.mpr (.inl hid)
  asked id hid := by
    rcases mem_keys_update.mp hid with hid | hid
    · exact .inl hid
    · exact .inr ((sent.asked id hid).resolve_left not_mem_nil)
  full full r hr := mem_keys_update.mpr (.inr (sent.full full r hr))
  named named := named.update (sent.named fun _ he => absurd he not_mem_nil)

theorem Sent.append (first : Sent h h₁ pending collected d₁) (rest : Sent h₁ h' more d₁ d) :
    Sent h h' (pending ++ more) collected d where
  grows x hx := rest.grows x (first.grows x hx)
  kept id hid := rest.kept id (first.kept id hid)
  asked id hid := by
    rw [map_append, mem_append, ← or_assoc]
    exact (rest.asked id hid).imp_left (first.asked id)
  full full r hr := by
    rcases mem_append.mp hr with hr | hr
    · exact rest.kept _ (first.full (fun e mem => full e (rest.grows e mem)) r hr)
    · exact rest.full full r hr
  named named := rest.named (first.named named)

theorem Sent.received {round : Round}
    (received : Received pending responses { collected, lastStatus } round)
    (answers : Full h' → ∀ r ∈ pending, r.id ∈ responses.map (·.id))
    (rest : Sent h h' round.failed round.collected d) : Sent h h' pending collected d where
  grows := rest.grows
  kept id hid := rest.kept id (received.kept id hid)
  asked id hid := by
    rcases rest.asked id hid with hid | hid
    · exact received.asked id hid
    · obtain ⟨r, hr, same⟩ := mem_map.mp hid
      have asked := (received.failed_asked r hr).resolve_left not_mem_nil
      exact .inr (mem_map.mpr ⟨r, asked, same⟩)
  full full r hr := by
    obtain ⟨resp, hresp, same⟩ := mem_map.mp (answers full r hr)
    rw [← same]
    rcases received.received resp hresp with collected | failed
    · exact rest.kept _ collected
    · obtain ⟨again, hagain, same'⟩ := mem_map.mp failed
      rw [← same']
      exact rest.full full again hagain
  named named := rest.named (received.named named)

theorem joinHalves_ok (hjoin : joinHalves collected first second h = (h', .ok d)) :
    ∃ d₁ d₂, first = .ok d₁ ∧ second () = (h', .ok d₂) ∧ d = (collected.update d₁).update d₂ := by
  match first with
  | .error .exception => cases hjoin
  | .error (.readError d₁) =>
    rw [joinHalves] at hjoin
    split at hjoin <;> cases hjoin
  | .ok d₁ =>
    rw [joinHalves] at hjoin
    split at hjoin
    · cases hjoin
    · cases hjoin
    · rename_i d₂ hsecond
      cases hjoin
      exact ⟨d₁, d₂, rfl, hsecond, rfl⟩

theorem sendChunk_ok (hsend : sendChunk graph n h pending collected lastStatus = (h', .ok d)) :
    Sent h h' pending collected d := by
  induction n generalizing h h' pending collected lastStatus d with
  | zero =>
    cases hsend
    refine ⟨fun _ he => he, fun id hid => mem_keys_exhaust.mpr (.inl hid), fun id => mem_keys_exhaust.mp,
      fun _ r hr => mem_keys_exhaust.mpr (.inr (mem_map_of_mem hr)), fun named => named.exhaust⟩
  | succ n ih =>
    rw [sendChunk] at hsend
    split at hsend
    case isTrue none =>
      cases hsend
      subst none
      exact .refl
    case isFalse =>
      dsimp only at hsend
      split at hsend
      · cases hsend
      · split at hsend
        · cases hsend
        · split at hsend
          · cases hsend
          · exact (ih hsend).sent
      · split at hsend
        · cases hsend
        · split at hsend
          · cases hsend
          · obtain ⟨d₁, d₂, hfirst, hsecond, rfl⟩ := joinHalves_ok hsend
            rw [← take_append_drop (pending.length / 2) pending]
            exact (ih (Prod.ext rfl hfirst)).sent.update.append (ih hsecond).update
      · rename_i status hreply
        split at hsend
        · cases hsend
        · rename_i round hround
          refine .received (receiveAll_received hround) (fun _ r hr => ?_) (ih hsend).sent
          rw [map_map]
          exact mem_map_of_mem hr
      · rename_i responses hreply
        split at hsend
        · cases hsend
        · rename_i round hround
          have rest := ih hsend
          refine .received (receiveAll_received hround) (fun full r hr => ?_) rest.sent
          have answers := full _ (rest.grows _ (mem_append_right _ mem_cons_self))
          simp only [hreply, Reply.answersAll, all_eq_true, any_eq_true,
            decide_eq_true_eq] at answers
          exact mem_map.mpr (answers r hr)

end

variable {graph : History → List BatchRequest → Answer} {settings : Settings} {readonly : Bool}
  {h h' : History} {result d : Responses} {chunks : List (List BatchRequest)}

theorem sendChunks_failed :
    sendChunks graph settings readonly h result true chunks ≠ (h', .ok d) := by
  induction chunks generalizing h result with
  | nil =>
    intro hsend
    cases hsend
  | cons chunk chunks ih =>
    intro hsend
    rw [sendChunks] at hsend
    split at hsend
    · cases hsend
    · split at hsend
      · cases hsend
      · exact ih hsend
    · exact ih hsend

theorem sendChunks_ok (hsend : sendChunks graph settings readonly h result false chunks = (h', .ok d)) :
    Sent h h' chunks.flatten result d := by
  induction chunks generalizing h result with
  | nil =>
    cases hsend
    exact .refl
  | cons chunk chunks ih =>
    rw [sendChunks] at hsend
    split at hsend
    · cases hsend
    · split at hsend
      · cases hsend
      · exact absurd hsend sendChunks_failed
    · rename_i d₁ hchunk
      exact (sendChunk_ok hchunk).update.append (ih hsend)

def writes (requests : List BatchRequest) : List BatchRequest := requests.filter (!·.isRead)

/-- The writes of the posts, each post counted once. -/
def History.posted (h : History) : List BatchRequest := writes (h.flatMap Prod.fst)

/-- The writes sent: a redirect that is followed sends those of its post once more. -/
def History.writes (h : History) : List BatchRequest :=
  Graph.writes (h.flatMap fun e => (replicate (e.2.redirects + 1) e.1).flatten)

/-- No post with a write was redirected. -/
def History.Direct (h : History) : Prop := ∀ e ∈ h, e.2.redirects = 0 ∨ Graph.writes e.1 = []

theorem failed_reads {responses : List BatchResponse} {round round' : Round}
    (h : responses.foldlM (receive pending) round = some round') (reads : writes round.failed = []) :
    writes round'.failed = [] := by
  induction responses generalizing round with
  | nil =>
    cases h
    exact reads
  | cons resp responses ih =>
    rw [foldlM_cons] at h
    obtain ⟨middle, first, rest⟩ := Option.bind_eq_some_iff.mp h
    refine ih rest ?_
    rw [receive] at first
    split at first
    · cases first
    split at first
    · rename_i read
      cases first
      rw [Bool.and_eq_true] at read
      simpa [writes, read.1] using reads
    · cases first
      exact reads

/-- What `h'` has beyond `h` posts no writes but those of `requests`, in their order, each at most as
often as it stands there. -/
def SendsOnce (requests : List BatchRequest) (h h' : History) : Prop :=
  ∃ sent, h' = h ++ sent ∧ sent.posted <+ writes requests

theorem SendsOnce.refl : SendsOnce requests h h := ⟨[], (append_nil h).symm, nil_sublist _⟩

theorem SendsOnce.append (first : SendsOnce requests h h₁) (rest : SendsOnce more h₁ h') :
    SendsOnce (requests ++ more) h h' := by
  obtain ⟨sent, rfl, once⟩ := first
  obtain ⟨sent', rfl, once'⟩ := rest
  refine ⟨sent ++ sent', append_assoc .., ?_⟩
  simpa only [History.posted, writes, flatMap_append, filter_append] using once.append once'

theorem SendsOnce.sent (answer : Answer) : SendsOnce pending h (h ++ [(pending, answer)]) :=
  ⟨_, rfl, by simp [History.posted]⟩

theorem SendsOnce.round (answer : Answer) (reads : writes again = [])
    (rest : SendsOnce again (h ++ [(pending, answer)]) h') : SendsOnce pending h h' := by
  obtain ⟨sent, rfl, once⟩ := (SendsOnce.sent answer).append rest
  refine ⟨sent, rfl, ?_⟩
  rwa [writes, filter_append, ← writes, ← writes, reads, append_nil] at once

theorem SendsOnce.joinHalves (first : SendsOnce (pending.take mid) h h₁)
    (rest : SendsOnce (pending.drop mid) h₁ (second ()).1) :
    SendsOnce pending h (joinHalves collected outcome second h₁).1 := by
  rw [← take_append_drop mid pending]
  have both := first.append rest
  unfold Graph.joinHalves
  split
  · exact first.append .refl
  all_goals split <;> rename_i ended <;> rwa [ended] at both

theorem sendChunk_once {n : Nat} {pending : List BatchRequest} {lastStatus : List (String × Int)} :
    SendsOnce pending h (sendChunk graph n h pending collected lastStatus).1 := by
  induction n generalizing h pending collected lastStatus with
  | zero => exact .refl
  | succ n ih =>
    have retried (answer : Answer) (responses : List BatchResponse) (round : Round)
        (received : responses.foldlM (receive pending) { collected, lastStatus } = some round) :
        SendsOnce pending h (sendChunk graph n (h ++ [(pending, answer)]) round.failed
          round.collected round.lastStatus).1 :=
      .round answer (failed_reads received rfl) ih
    rw [sendChunk]
    split
    · exact .refl
    dsimp only
    split
    · exact .sent _
    · split
      · exact .sent _
      split
      · exact .sent _
      · rename_i reads _
        exact .round _ (by simpa [writes] using reads) ih
    · split
      · exact .sent _
      split
      · exact .sent _
      · rename_i reads _
        have reads : writes pending = [] := by simp_all [writes]
        exact .round _ reads (.joinHalves ih ih)
    all_goals
      split
      · exact .sent _
      · exact retried _ _ _ ‹_›

theorem sendChunks_once :
    SendsOnce chunks.flatten h (sendChunks graph settings readonly h result failed chunks).1 := by
  induction chunks generalizing h result failed with
  | nil => exact .refl
  | cons chunk chunks ih =>
    rw [sendChunks]
    have first : SendsOnce chunk h (sendChunk graph settings.rounds h chunk {} []).1 := sendChunk_once
    split <;> rename_i ended <;> rw [ended] at first
    · exact first.append .refl
    · split
      · exact first.append .refl
      · exact first.append ih
    · exact first.append ih

theorem batch_posts_once (settings : Settings) (requests : List BatchRequest) :
    (batch graph settings requests).1.posted <+ writes requests := by
  rw [batch]
  split
  · exact nil_sublist _
  · rename_i valid
    simp only [Bool.or_eq_true, decide_eq_true_eq, not_or] at valid
    obtain ⟨sent, same, once⟩ := sendChunks_once
    rw [chunks_flatten (Nat.pos_of_ne_zero valid.2)] at once
    rwa [same]

@[simp] theorem History.writes_cons (e : List BatchRequest × Answer) (h : History) :
    History.writes (e :: h) =
      (replicate (e.2.redirects + 1) (Graph.writes e.1)).flatten ++ History.writes h := by
  simp [History.writes, Graph.writes, filter_flatten]

theorem History.Direct.writes_eq (direct : h.Direct) : h.writes = h.posted := by
  induction h with
  | nil => rfl
  | cons e h ih =>
    obtain ⟨first, rest⟩ := forall_mem_cons.mp direct
    have once : (replicate (e.2.redirects + 1) (Graph.writes e.1)).flatten = Graph.writes e.1 := by
      rcases first with none | none <;> simp [none]
    rw [History.writes_cons, ih rest, once]
    simp [History.posted, Graph.writes]

/-- A write of a redirected post is sent at least twice. -/
theorem History.direct_of_nodup (nodup : h.writes.Nodup) : h.Direct := by
  induction h with
  | nil => exact fun _ he => absurd he not_mem_nil
  | cons e h ih =>
    rw [History.writes_cons] at nodup
    refine forall_mem_cons.mpr ⟨?_, ih nodup.of_append_right⟩
    by_contra again
    obtain ⟨n, hops⟩ := Nat.exists_eq_succ_of_ne_zero (not_or.mp again).1
    have twice := nodup.of_append_left
    rw [hops, replicate_succ, replicate_succ, flatten_cons, flatten_cons] at twice
    obtain ⟨w, hw⟩ := exists_mem_of_ne_nil _ (not_or.mp again).2
    exact (nodup_append.mp twice).2.2 w hw w (mem_append_left _ hw) rfl

/-- The writes that `batch` sends, over all rounds, chunks and halves, are a sublist of those it was
given, so that each is sent at most once, when no post with a write is redirected, and (for writes
that differ) only then. -/
theorem batch_sends_writes_once (graph : History → List BatchRequest → Answer) (settings : Settings)
    (requests : List BatchRequest) :
    let h := (batch graph settings requests).1
    (h.Direct → h.writes <+ writes requests) ∧
      ((writes requests).Nodup → h.writes <+ writes requests → h.Direct) := by
  refine ⟨fun direct => ?_, fun nodup once => History.direct_of_nodup (once.nodup nodup)⟩
  rw [direct.writes_eq]
  exact batch_posts_once settings requests

/-- Graph answers the only post with a temporary redirect, which the client follows. -/
theorem redirected_write_sent_twice :
    let write : BatchRequest := ⟨"a", "POST", "/me/sendMail", [], none⟩
    let graph : History → List BatchRequest → Answer := fun _ pending =>
      ⟨.answered (pending.map fun r => { id := r.id, status := 202 }), 1⟩
    (batch graph {} [write]).1.writes.map (·.id) = ["a", "a"] := by
  decide +kernel

/-- A normal return holds at most one response for each request, under its id, and no others; it holds
one for every request if Graph answered all that it was sent in each round. -/
theorem batch_returns_every_request (graph : History → List BatchRequest → Answer)
    (settings : Settings) (requests : List BatchRequest) (h : History) (d : Responses)
    (returns : batch graph settings requests = (h, .ok d)) :
    d.keys.Nodup ∧ (∀ e ∈ d.entries, e.2.id = e.1) ∧ (∀ id ∈ d.keys, id ∈ requests.map (·.id)) ∧
      (Full h → ∀ id, id ∈ d.keys ↔ id ∈ requests.map (·.id)) := by
  rw [batch] at returns
  split at returns
  · cases returns
  · rename_i valid
    simp only [Bool.or_eq_true, decide_eq_true_eq, not_or] at valid
    have sent := sendChunks_ok returns
    rw [chunks_flatten (Nat.pos_of_ne_zero valid.2)] at sent
    have asked : ∀ id ∈ d.keys, id ∈ requests.map (·.id) :=
      fun id hid => (sent.asked id hid).resolve_left not_mem_nil
    refine ⟨d.nodup, sent.named fun _ he => absurd he not_mem_nil, asked, fun full id => ⟨asked id, ?_⟩⟩
    intro hid
    obtain ⟨r, hr, rfl⟩ := mem_map.mp hid
    exact sent.full full r hr

def twoReads : List BatchRequest := [⟨"a", "GET", "/me", [], none⟩, ⟨"b", "GET", "/you", [], none⟩]

def throttlesOnce : History → List BatchRequest → Answer
  | [], pending => ⟨.answered (pending.map fun r => { id := r.id, status := 429 }), 0⟩
  | _, pending => ⟨.answered (pending.map fun r => { id := r.id, status := 200 }), 0⟩

theorem batch_returns_every_request_throttled :
    ∃ h d, batch throttlesOnce {} twoReads = (h, .ok d) ∧ ∀ id, id ∈ d.keys ↔ id ∈ ["a", "b"] := by
  have normal : (batch throttlesOnce {} twoReads).2.toOption.isSome = true := by decide +kernel
  obtain ⟨d, hd⟩ := Option.isSome_iff_exists.mp normal
  have returns : batch throttlesOnce {} twoReads = ((batch throttlesOnce {} twoReads).1, .ok d) :=
    Prod.ext rfl (toOption_eq_some.mp hd)
  refine ⟨_, d, returns, ?_⟩
  exact (batch_returns_every_request throttlesOnce {} twoReads _ d returns).2.2.2 (by decide +kernel)

/-- Graph leaves a sub-response out, and the return leaves its request out. -/
theorem batch_drops_omitted :
    ((batch (fun _ pending => ⟨.answered ((pending.take 1).map fun r => { id := r.id, status := 200 }), 0⟩) {}
      twoReads).2.toOption.map (·.keys)) =
        some ["a"] := by
  decide +kernel

end TmVault.Graph
