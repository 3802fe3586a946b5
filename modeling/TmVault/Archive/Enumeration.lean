import TmVault.Archive.Work
import TmVault.Concurrency.Runs
import TmVault.Relational.Update

/-! The census of an archive: scopes that walkers read page by page, the memberships and receipts
their pages leave, and the summary at the end. -/

namespace TmVault.Archive.Enumeration

open Relational Store

structure ScopeKey where
  (base folderId : String)
  phase : Phase
  deriving DecidableEq

inductive Gap
  | locationCap | countShortfall | cursorRestartExhausted | sourceChanged
  | other (kind : String)
  deriving DecidableEq

/-- A row of `archive_folder_work` of phase `root`, `items` or `children`. `stable` is that of
`count_reconciliation`, none before there is one. -/
structure Scope where
  key : ScopeKey
  parent : Option ScopeKey := none
  parentGeneration : Option Nat := none
  displayPath : String := ""
  state : ScopeState := .pending
  generation : Nat := 1
  nextUrl : Option String := none
  (pageOrdinal observedCount : Nat := 0)
  declaredCount : Option Int := none
  terminalPage : Bool := false
  (logicalAttempts restartCount errorCount : Nat := 0)
  gap : Option Gap := none
  notBefore : Option Time := none
  stable : Option Bool := none

/-- A row of phase `membership`, whose key is the digest of `parent`, `generation` and `target`. -/
structure Membership where
  parent : ScopeKey
  generation : Nat
  target : ScopeKey
  children : Option ScopeKey
  excluded : Bool := false

def Membership.key (m : Membership) : ScopeKey × Nat × ScopeKey := (m.parent, m.generation, m.target)

/-- A descriptor of a page. An id that is missing or empty is none; `route` is what `folder_base`
returns for it, none when it raises. -/
structure Entry where
  id : Option String
  (route changeKey itemType : Option String := none)
  size : Option Int := none
  displayName : Option String := none
  (childFolderCount totalItemCount : Option Int := none)
  deriving DecidableEq

structure Page where
  base : String
  value : List Entry
  nextLink : Option String := none
  deriving DecidableEq

structure PageReceipt where
  scope : ScopeKey
  generation : Nat
  url : String
  page : Page
  excluded : Bool := false
  deriving DecidableEq

structure Listed where
  scope : ScopeKey
  generation : Nat
  (externalId location : String)
  (changeKey itemType : Option String)
  size : Option Int
  displayPath : String
  pageOrdinal : Nat
  state : ItemState := .discovered
  gap : Option Gap := none

def Listed.key (i : Listed) : ScopeKey × Nat × String := (i.scope, i.generation, i.externalId)

structure Census where
  scopes : List Scope := []
  memberships : List Membership := []
  receipts : List PageReceipt := []
  items : List Listed := []
  token : Nat := 0

def Census.scope? (s : Census) (key : ScopeKey) : Option Scope := s.scopes.find? (·.key = key)

def Census.receipt? (s : Census) (key : ScopeKey) (generation : Nat) (url : String) :
    Option PageReceipt :=
  s.receipts.find? fun r => r.scope = key && r.generation = generation && r.url = url

def Census.setScope (s : Census) (key : ScopeKey) (f : Scope → Scope) : Census :=
  { s with scopes := updateKey Scope.key key f s.scopes }

inductive Refusal
  | conflict | pageError

section

structure Settings where
  maxLocations : Nat
  sameScope : (url base : String) → ScopeKey → Bool

def Settings.locationCap (cfg : Settings) : Nat := max 1 (min 8 cfg.maxLocations)

def ScopeKey.url (key : ScopeKey) : String :=
  if key.phase = .root then key.base
  else key.base ++ "/" ++ key.folderId ++ if key.phase = .items then "/items" else "/childFolders"

def rootKey (base : String) : ScopeKey := ⟨base, "", .root⟩

variable (cfg : Settings)

def location (s : Census) (base : String) : Census × Bool :=
  match s.scope? (rootKey base) with
  | some row => (s, row.gap ≠ some .locationCap)
  | none =>
    let capped := cfg.locationCap ≤ s.scopes.countP fun r => r.key.phase = .root && r.state ≠ .excluded
    let row : Scope := { key := rootKey base, nextUrl := some base,
                         state := if capped then .unresolved else .pending,
                         gap := if capped then some .locationCap else none }
    ({ s with scopes := s.scopes ++ [row] }, !capped)

def currentScope (s : Census) (key : ScopeKey) (generation : Nat) : Except Refusal Scope :=
  orFail .conflict ((s.scope? key).filter (·.generation = generation))

def itemOf (row : Scope) (base id : String) (e : Entry) : Listed :=
  { scope := row.key, generation := row.generation, externalId := id, location := base,
    changeKey := e.changeKey, itemType := e.itemType, size := e.size, displayPath := row.displayPath,
    pageOrdinal := row.pageOrdinal + 1 }

def itemAfter (value : Listed) : Option Listed → Listed
  | some old => if old.changeKey = value.changeKey ∧ old.location = value.location then value
      else { value with state := .failed, gap := some .sourceChanged }
  | none => value

def uniqueItems (row : Scope) (base : String) (unique : List (String × Listed))
    (ids : List (String × Entry)) : List (String × Listed) :=
  ids.foldl (fun unique e => upsert e.1 (itemAfter (itemOf row base e.1 e.2)) unique) unique

def insertItem (items : List Listed) (v : Listed) : List Listed :=
  if v.key ∈ items.map Listed.key then
    updateKey Listed.key v.key (fun old =>
      if v.gap.isSome ∨ old.changeKey ≠ v.changeKey ∨ old.location ≠ v.location then
        { old with state := .failed, gap := some .sourceChanged } else old) items
  else items ++ [v]

def reach (row : Scope) (path : String) (declared : Option Int) (s : Census) (key : ScopeKey) : Census :=
  match s.scope? key with
  | none => { s with scopes := s.scopes ++ [{ key, parent := some row.key,
                                              parentGeneration := some row.generation,
                                              displayPath := path, declaredCount := declared,
                                              nextUrl := some key.url }] }
  | some _ => s.setScope key fun old =>
      if old.state = .excluded then
        { old with state := .pending, generation := old.generation + 1, pageOrdinal := 0,
                   observedCount := 0, terminalPage := false, nextUrl := some key.url,
                   parent := some row.key, parentGeneration := some row.generation,
                   declaredCount := declared }
      else old

def membershipOf (row : Scope) (route id : String) (child : Entry) : Membership :=
  { parent := row.key, generation := row.generation, target := ⟨route, id, .items⟩,
    children := if child.childFolderCount = some 0 then none else some ⟨route, id, .children⟩ }

def listFolder (row : Scope) (acc : Census × List (ScopeKey × Membership)) (child : Entry) :
    Except Refusal (Census × List (ScopeKey × Membership)) := do
  let id ← orFail .pageError child.id
  let route ← orFail .pageError child.route
  let (s, within) := location cfg acc.1 route
  if !within then return (s, acc.2)
  let path := row.displayPath ++ "/" ++ (child.displayName.filter (· ≠ "")).getD id
  let s := reach row path child.totalItemCount s ⟨route, id, .items⟩
  let s := if child.childFolderCount = some 0 then s
    else reach row path child.childFolderCount s ⟨route, id, .children⟩
  return (s, upsert ⟨route, id, .items⟩ (fun _ => membershipOf row route id child) acc.2)

def listPage (row : Scope) (p : Page) (s : Census) : Except Refusal (Census × Nat) :=
  if row.key.phase = .items then do
    let ids ← p.value.mapM fun e => orFail .pageError (e.id.map (·, e))
    let items := ((uniqueItems row p.base [] ids).map Prod.snd).foldl insertItem s.items
    return ({ s with items }, items.length - s.items.length)
  else do
    let (s', members) ← p.value.foldlM (listFolder cfg row) (s, [])
    let memberships := insertAllIgnore Membership.key s'.memberships (members.map Prod.snd)
    return ({ s' with memberships }, memberships.length - s'.memberships.length)

def Scope.fail (row : Scope) (gap : Gap) : Scope :=
  { row with state := .unresolved, gap := some gap }

def Scope.turn (row : Scope) (nextLink : Option String) (inserted : Nat) : Scope :=
  let observed := row.observedCount + inserted
  let row := { row with pageOrdinal := row.pageOrdinal + 1, nextUrl := nextLink,
                        terminalPage := nextLink.isNone, observedCount := observed }
  if nextLink.isSome then row
  else if row.declaredCount.any ((observed : Int) < ·) then
    row.fail .countShortfall
  else { row with state := .complete }

def page (s : Census) (key : ScopeKey) (generation : Nat) (p : Page) (url : String) :
    Except Refusal (Census × Bool) := do
  failIf (10000 < p.value.length) .pageError
  failIf (p.nextLink.any (!cfg.sameScope · p.base key)) .pageError
  let row ← currentScope s key generation
  match s.receipt? key generation url with
  | some receipt =>
    failIf (receipt.page ≠ p) .conflict
    return (s, true)
  | none =>
    failIf (row.state ≠ .reading || row.nextUrl ≠ some url) .conflict
    failIf (p.nextLink.any fun n => n = url || (s.receipt? key generation n).isSome) .pageError
    let (s, within) := location cfg s p.base
    if !within then
      return (s.setScope key (·.fail .locationCap), false)
    let (s, inserted) ← listPage cfg row p s
    let receipt : PageReceipt := { scope := key, generation, url, page := p }
    let s := { s with receipts := s.receipts ++ [receipt] }
    return (s.setScope key (·.turn p.nextLink inserted), true)

end

def addLocation (cfg : Settings) (s : Census) (base : String) : Census := (location cfg s base).1

def recover (s : Census) : Census :=
  { s with scopes := s.scopes.map fun r => if r.state = .reading then { r with state := .pending } else r
           items := s.items.map fun i =>
             if i.state = .exporting then { i with state := .exportPending } else i }

def claimScope (s : Census) (key : ScopeKey) : Census :=
  s.setScope key fun r => if r.state = .pending then
    { r with state := .reading, logicalAttempts := r.logicalAttempts + 1 } else r

def failScope (s : Census) (key : ScopeKey) (generation : Nat) (gap : Gap) (notBefore : Option Time) :
    Except Refusal Census := do
  let _ ← currentScope s key generation
  return s.setScope key fun r =>
    { r.fail gap with errorCount := r.errorCount + 1, notBefore := notBefore.or r.notBefore }

def childrenOf (s : Census) (keys : List ScopeKey) : List ScopeKey :=
  (s.scopes.filter fun r => r.parent.any (· ∈ keys)).map Scope.key

/-- The levels of the recursive query. There are no more of them than scopes unless a scope is its own
descendant. -/
def descend (s : Census) : Nat → List ScopeKey → List ScopeKey
  | 0, _ => []
  | n + 1, keys => childrenOf s keys ++ descend s n (childrenOf s keys)

def descendants (s : Census) (key : ScopeKey) : List ScopeKey := descend s s.scopes.length [key]

def Scope.excludeIn (below : List ScopeKey) (r : Scope) : Scope :=
  if r.key ∈ below then { r with state := .excluded } else r

def excludeBelow (s : Census) (key : ScopeKey) : Census :=
  let below := descendants s key
  { s with scopes := s.scopes.map (Scope.excludeIn below)
           memberships := s.memberships.map fun m =>
             if m.parent ∈ key :: below then { m with excluded := true } else m
           receipts := s.receipts.map fun r =>
             if r.scope ∈ key :: below then { r with excluded := true } else r }

def Scope.again (url : String) (r : Scope) : Scope :=
  { r with generation := r.generation + 1, restartCount := r.restartCount + 1, pageOrdinal := 0,
           observedCount := 0, terminalPage := false, nextUrl := some url, state := .pending,
           gap := none }

def restart (s : Census) (key : ScopeKey) (generation : Nat) : Except Refusal (Census × Bool) := do
  let row ← currentScope s key generation
  if 1 ≤ row.restartCount then return (s.setScope key (·.fail .cursorRestartExhausted), false)
  return ((excludeBelow s key).setScope key (Scope.again key.url), true)

/-- What a read of a folder's count leaves: its new declared count, whether the proof is stable so far,
and the gap if there is one. -/
structure Recount where
  declared : Option Int := none
  stable : Bool := false
  gap : Option Gap := none

def recount (s : Census) (key : ScopeKey) (generation : Nat) (result : Recount) :
    Except Refusal Census := do
  let _ ← currentScope s key generation
  return s.setScope key fun r =>
    let r := { r with declaredCount := result.declared.or r.declaredCount, stable := some result.stable }
    match result.gap with
    | some gap => r.fail gap
    | none => r

def explainHidden (s : Census) (key : ScopeKey) (generation : Nat) : Except Refusal Census := do
  let _ ← currentScope s key generation
  return s.setScope key fun r => if r.state = .unresolved ∧ r.gap = some .countShortfall then
    { r with state := .complete, gap := none } else r

def Scope.repairable (r : Scope) (now : Time) : Bool :=
  r.state = .unresolved && r.logicalAttempts < 2 && r.gap.any (· ≠ .locationCap) &&
    !r.notBefore.any (now < ·)

/-- The first transaction of `repair`, with the scopes its query returns. A scope without a cursor is
restarted in a transaction of its own. -/
def repair (s : Census) (now : Time) (chosen : List ScopeKey) : Census :=
  { s with scopes := s.scopes.map fun r =>
      if r.key ∈ chosen ∧ r.repairable now ∧ r.nextUrl.isSome then { r with state := .pending } else r }

def setItem (s : Census) (key : ScopeKey × Nat × String) (state : ItemState) : Census :=
  { s with items := updateKey Listed.key key (fun i => { i with state }) s.items }

def Scope.failed (r : Scope) : Bool :=
  r.state ≠ .excluded && (r.state ≠ .complete || !r.terminalPage || r.stable = some false)

def requiredKeys (s : Census) : List ScopeKey :=
  (s.memberships.filter fun m => !m.excluded && (s.scope? m.parent).any fun p =>
    p.generation = m.generation && p.state ≠ .excluded).flatMap fun m => m.target :: m.children.toList

def missingMembers (s : Census) : Nat :=
  ((requiredKeys s).filter fun k => (s.scope? k).all (·.state = .excluded)).dedup.length

def foldersFailed (s : Census) : Nat := s.scopes.countP Scope.failed + missingMembers s

def Census.current (s : Census) (i : Listed) : Bool :=
  (s.scope? i.scope).any fun f => f.generation = i.generation && f.state ≠ .excluded

/-- `held` says that the snapshot's effective rows have the one the item's receipt names, with the
values of the receipt. -/
def itemsFailed (held : Listed → Bool) (s : Census) : Nat :=
  ((s.items.filter fun i => s.current i && !(i.state = .stored && held i)).map
    Listed.externalId).dedup.length

def filesFailed (held : Listed → Bool) (s : Census) : Nat := foldersFailed s + itemsFailed held s

inductive Turn
  | addLocation (base : String)
  | recover
  | claim (key : ScopeKey)
  | page (key : ScopeKey) (generation : Nat) (p : Page) (url : String)
  | fail (key : ScopeKey) (generation : Nat) (gap : Gap) (notBefore : Option Time)
  | restart (key : ScopeKey) (generation : Nat)
  | recount (key : ScopeKey) (generation : Nat) (result : Recount)
  | explainHidden (key : ScopeKey) (generation : Nat)
  | repair (now : Time) (chosen : List ScopeKey)
  | item (key : ScopeKey × Nat × String) (state : ItemState)

inductive Event
  | takeover
  | turn (token : Nat) (t : Turn)

variable (cfg : Settings)

def Census.take (s : Census) : Turn → Census
  | .addLocation base => addLocation cfg s base
  | .recover => recover s
  | .claim key => claimScope s key
  | .page key generation p url => ((page cfg s key generation p url).toOption.map Prod.fst).getD s
  | .fail key generation gap notBefore => (failScope s key generation gap notBefore).toOption.getD s
  | .restart key generation => ((restart s key generation).toOption.map Prod.fst).getD s
  | .recount key generation result => (recount s key generation result).toOption.getD s
  | .explainHidden key generation => (explainHidden s key generation).toOption.getD s
  | .repair now chosen => repair s now chosen
  | .item key state => setItem s key state

def Census.step (s : Census) : Event → Census
  | .takeover => { s with token := s.token + 1 }
  | .turn token t => if token = s.token then s.take cfg t else s

end TmVault.Archive.Enumeration
