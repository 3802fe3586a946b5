import TmVault.Catalogue.Attempts

/-! Read pins and the collection of catalogue objects, among the captures that use them. Each event is
one committed transaction, with the clock readings it took. -/

namespace TmVault.Catalogue

open Store Relational

def Version.objectId (v : Version) : Option Uuid := v.item.content.bind (·.objectId)

structure Pin where
  id : Uuid
  (inventoryId objectId : Option Uuid := none)
  ownerId : Uuid
  generation : Nat := 1
  expiresAt : Option Time

def Pin.live (p : Pin) (now : Time) : Bool := p.expiresAt.all (now < ·)

structure Task where
  (objectId taskId backendId : Uuid)
  (container path : String)
  deriving DecidableEq

/-- The tables, the claims whose deletion from the storage is still to come and those whose deletion
is still to be recorded. -/
structure Shelf where
  world : World
  pins : List Pin := []
  (tasks done : List Task := [])

section

variable (w : World)

def World.setObject (id : Uuid) (f : ChatBlobObject → ChatBlobObject) : World :=
  { w with objects := updateKey ChatBlobObject.id id f w.objects }

def uploadTimeout : Time := Work.seconds 300

def uploadQuiescence : Time := Work.seconds 300

def ownedPath : String := "chat-catalogue/v1/"

structure Upload where
  id : Uuid
  (container sha256 : String)
  size : Int

def reserve (lease : CaptureLease) (u : Upload) (clock : Time) (r : Reads) :
    Except Refusal World := do
  let w' ← renewCapture w lease 300 r
  let a ← orFail .conflict (w.attempt? lease.attemptId)
  let _ ← failIf (u.id ∈ w.objects.map (·.id)) .constraint
  .ok { w' with objects := w'.objects ++
    [{ id := u.id
       tenantId := a.scope.tenantId, backendId := a.scope.backendId, container := u.container
       path := ownedPath ++ toString a.scope.tenantId ++ "/" ++ toString u.id, sha256 := u.sha256
       size := u.size, captureAttemptId := some lease.attemptId
       uploadDeadline := some (clock + uploadTimeout)
       quiescentAfter := some (clock + uploadTimeout + uploadQuiescence) }] }

def makeLive (lease : CaptureLease) (id : Uuid) (key : Option String) (version : Option Int)
    (clock : Time) (r : Reads) : Except Refusal World := do
  let w' ← renewCapture w lease 300 r
  let o ← orFail .conflict (w.object? id)
  let _ ← failIf (o.state ≠ .staging || o.captureAttemptId ≠ some lease.attemptId ||
    o.uploadDeadline.any (· < clock)) .conflict
  .ok (w'.setObject id fun o =>
    { o with encryptionKeyId := key, backupVersion := version, state := .live })

def World.objectsOf (ids : List Uuid) : List Uuid :=
  (ids.filterMap w.version?).filterMap Version.objectId

/-- `acquire_catalogue_read_pins`. `scope` is what the look-up of the snapshots gives, those of the
catalogue format among them; `draw` gives the ids of the pins. -/
def acquirePins (scope : Except Refusal (List Uuid)) (owner : Uuid) (seconds : Nat)
    (objectIds : Option (List Uuid)) (draw : Uuid → Uuid) (now : Time) :
    Except Refusal (List Pin) := do
  let _ ← failIf (seconds = 0) .value
  let snapshots ← scope
  let referenced := w.objectsOf ((snapshots.flatMap w.effective).map (·.chatVersionId))
  let inventories : List Inventory := match objectIds with
    | some _ => []
    | none => w.inventories.filter fun i =>
        w.associations.any fun p => p.snapshotId ∈ snapshots && p.inventoryId = i.id
  let covered := w.objectsOf ((w.entries.filter fun e =>
    e.inventoryId ∈ inventories.map (·.id)).map (·.versionId))
  let selected := match objectIds with
    | some ids => ids
    | none => referenced.filter (· ∉ covered)
  let _ ← failIf (objectIds.any fun ids => !ids.all (· ∈ referenced)) .integrity
  let _ ← failIf (inventories.any (·.state = .staging)) .integrity
  let _ ← failIf (!(selected ++ covered).all fun id => (w.object? id).any (·.state = .live)) .integrity
  let expiry := some (now + Work.seconds seconds)
  .ok (inventories.map (fun i => { id := draw i.id, inventoryId := some i.id, ownerId := owner,
                                   expiresAt := expiry }) ++
    selected.dedup.map fun o => { id := draw o, objectId := some o, ownerId := owner,
                                  expiresAt := expiry })

end

def renewPins (pins : List Pin) (ids : List Uuid) (owner : Uuid) (seconds : Nat) (now : Time) :
    Except Refusal (List Pin) := do
  let _ ← failIf (seconds = 0) .value
  let _ ← failIf (!ids.all fun id => pins.any (·.id = id)) .integrity
  let _ ← failIf (pins.any fun p => p.id ∈ ids && (p.ownerId ≠ owner || p.generation ≠ 1 ||
    p.expiresAt.all (· ≤ now))) .integrity
  .ok (pins.map fun p => if p.id ∈ ids then { p with expiresAt := some (now + Work.seconds seconds) } else p)

def releasePins (pins : List Pin) (ids : List Uuid) (owner : Uuid) : List Pin :=
  pins.filter fun p => !(p.id ∈ ids && p.ownerId = owner && p.generation = 1)

def Attempt.running (a : Attempt) (now : Time) : Bool := Active a.state && now < a.expiresAt

def World.unreferenced (w : World) (v : Version) : Bool :=
  !(w.entries.any fun e => e.versionId = v.id) && !(w.links.any fun l => l.chatVersionId = v.id)

def World.deleteAttempts (w : World) (ids : List Uuid) : World :=
  { w with
    attempts := w.attempts.filter (·.id ∉ ids), objects := w.objects.map fun o =>
      if o.captureAttemptId.any (· ∈ ids) then { o with captureAttemptId := none } else o }

/-- An inventory's turn in `_retire_unused_inventories`; `locked` are the rows other transactions
hold. -/
def retireInventory (pins : List Pin) (locked : List Uuid) (now : Time) (w : World) (id : Uuid) :
    World :=
  let attempts := w.attempts.filter (·.stagedInventoryId = id)
  let ids := attempts.map (·.id)
  match w.inventory? id with
  | none => w
  | some i =>
    if ids.any (· ∈ locked) || attempts.any (·.running now) || id ∈ locked ||
        w.associations.any (·.inventoryId = id) || pins.any (·.inventoryId = some id) ||
        i.captureAttemptId ∉ ids || w.associations.any (·.captureAttemptId ∈ ids) then w
    else (w.deleteInventory id).deleteAttempts ids

def unusedInventories (w : World) (pins : List Pin) (now : Time) : List Uuid :=
  (w.inventories.filter fun i => !(w.associations.any (·.inventoryId = i.id)) &&
    !(pins.any (·.inventoryId = some i.id)) &&
    !(w.attempts.any fun a => a.stagedInventoryId = i.id && a.running now)).map (·.id)

def collect (s : Shelf) (limit : Nat) (locked : List Uuid) (now : Time) : Shelf :=
  let expired := (((s.pins.filter fun p => p.expiresAt.any (· ≤ now) && p.id ∉ locked).map
    (·.id)).insertionSort (· ≤ ·)).take limit
  let pins := s.pins.filter (·.id ∉ expired)
  let w := ((unusedInventories s.world pins now).take limit).foldl (retireInventory pins locked now)
    s.world
  let inline := (((w.versions.filter fun v => v.objectId = none && w.unreferenced v &&
    v.id ∉ locked).map (·.id)).insertionSort (· ≤ ·)).take limit
  { s with pins := pins, world := { w with versions := w.versions.filter (·.id ∉ inline) } }

def restDay : Time := 86400

def spared (w : World) (pins : List Pin) (o : ChatBlobObject) (now : Time) : Bool :=
  !ownedPath.toList.isPrefixOf o.path.toList ||
    (o.state = .deleted && o.deletedAt.all (now - restDay < ·)) ||
    pins.any (fun p => p.objectId = some o.id && p.live now) ||
    (o.captureAttemptId.bind w.attempt?).any (·.running now) ||
    (o.state = .staging && (o.uploadDeadline.all (now < ·) || o.quiescentAfter.all (now < ·)))

def marks (task : Uuid) (now : Time) (o : ChatBlobObject) : ChatBlobObject :=
  { o with
    state := .deleting, deletionTaskId := some (o.deletionTaskId.getD task)
    deletionRequestedAt := some now }

def claimObject (s : Shelf) (id task : Uuid) (now : Time) : Shelf :=
  match s.world.object? id with
  | none => s
  | some o =>
    if spared s.world s.pins o now then s
    else
      let w := { s.world with versions := s.world.versions.filter fun v =>
        !(v.objectId = some id && s.world.unreferenced v) }
      if w.versions.any (·.objectId = some id) then { s with world := w }
      else { s with
        world := w.setObject id (marks task now)
        tasks := s.tasks ++ [⟨id, o.deletionTaskId.getD task, o.backendId, o.container, o.path⟩] }

def finish (w : World) (t : Task) (now : Time) : World :=
  w.setObject t.objectId fun o =>
    if o.deletionTaskId = some t.taskId ∧ o.state = .deleting then
      { o with state := .deleted, deletedAt := some now } else o

inductive Event
  | catalogue (op : Op) (r : Reads)
  | reserve (lease : CaptureLease) (u : Upload) (clock : Time) (r : Reads)
  | makeLive (lease : CaptureLease) (id : Uuid) (key : Option String) (version : Option Int)
      (clock : Time) (r : Reads)
  | acquirePins (scope : Except Refusal (List Uuid)) (owner : Uuid) (seconds : Nat)
      (objectIds : Option (List Uuid)) (draw : Uuid → Uuid) (now : Time)
  | renewPins (ids : List Uuid) (owner : Uuid) (seconds : Nat) (now : Time)
  | releasePins (ids : List Uuid) (owner : Uuid)
  | deleteSnapshots (ids : List Uuid)
  | collect (limit : Nat) (locked : List Uuid) (now : Time)
  | claim (id task : Uuid) (now : Time)
  | deleteBlob (t : Task) (gone : Bool) (now : Time)
  | finish (t : Task) (now : Time)

variable (env : Env) (s : Shelf)

def Shelf.commit (w : Except Refusal World) : Shelf :=
  match w with
  | .ok w => { s with world := w }
  | .error _ => s

def Shelf.commitPins (pins : Except Refusal (List Pin)) : Shelf :=
  match pins with
  | .ok pins => { s with pins := pins }
  | .error _ => s

def Shelf.Deletes (t : Task) (now : Time) : Prop :=
  t ∈ s.tasks ∧ ∀ o ∈ s.world.objects, o.id = t.objectId → ∀ at' ∈ o.deletionRequestedAt, at' ≤ now

def Shelf.step (e : Event) : Shelf :=
  match e with
  | .catalogue (.storeObjects _) _ => s
  | .catalogue op r => s.commit (transaction env s.world op r)
  | .reserve lease u clock r => s.commit (Catalogue.reserve s.world lease u clock r)
  | .makeLive lease id key version clock r =>
    s.commit (Catalogue.makeLive s.world lease id key version clock r)
  | .acquirePins scope owner seconds objectIds draw now =>
    s.commitPins ((Catalogue.acquirePins s.world scope owner seconds objectIds draw now).map
      (s.pins ++ ·))
  | .renewPins ids owner seconds now =>
    s.commitPins (Catalogue.renewPins s.pins ids owner seconds now)
  | .releasePins ids owner => { s with pins := Catalogue.releasePins s.pins ids owner }
  | .deleteSnapshots ids => { s with world := { s.world with
      links := s.world.links.filter (·.snapshotId ∉ ids)
      associations := s.world.associations.filter (·.snapshotId ∉ ids) } }
  | .collect limit locked now => Catalogue.collect s limit locked now
  | .claim id task now => claimObject s id task now
  | .deleteBlob t gone _ =>
    if t ∈ s.tasks then
      { s with tasks := s.tasks.erase t, done := if gone then t :: s.done else s.done }
    else s
  | .finish t now => if t ∈ s.done then { s with world := Catalogue.finish s.world t now } else s

end TmVault.Catalogue
