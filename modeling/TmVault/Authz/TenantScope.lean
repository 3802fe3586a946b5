import TmVault.SnapshotService.Guard

/-! `shared/auth_enforcement.py` in the services mounted with `enforce_tenant_scope`, and the tenants
their handlers read out of a request. -/

namespace TmVault.AuthEnforcement

open Authz SnapshotService Store

structure Request where
  method : String := "GET"
  path : Path
  params : List (String × String) := []

structure Mount where
  requireAdminForMutations : Bool := false

def tenantService : Mount := { requireAdminForMutations := true }

def uuidRe (text : String) : Bool :=
  Text.isUuidText text.toList ||
    (text.toList.getLast? = some '\n' && Text.isUuidText text.toList.dropLast)

def afterTenants : List String → List String
  | segment :: next :: segs =>
    (if segment = "tenants" then [next] else []) ++ afterTenants (next :: segs)
  | _ => []

def Request.segs (r : Request) : List String := r.path.filter (· ≠ "")

def tenantIdsInRequest (r : Request) : List String :=
  (afterTenants r.segs).filter uuidRe ++
    ((r.params.filter fun p => Authz.lower p.1 ∈ ["tenantid", "tenant_id"]).map (·.2)).filter uuidRe

def publicDefault : List String := ["health", "healthz", "metrics", "ping"]

def isPublic : Path → Bool
  | "" :: segment :: _ => segment ∈ publicDefault
  | _ => false

def mutating : List String := ["POST", "PUT", "PATCH", "DELETE"]

/-- The principal the application is called with, if the path has one. -/
def Mount.call (m : Mount) (sender : Option Principal) (r : Request) :
    Except HttpError (Option Principal) :=
  if isPublic r.path then .ok none
  else match sender with
    | none => .error ⟨401, "Authentication required"⟩
    | some principal =>
      if m.requireAdminForMutations && r.method ∈ mutating && !isAdmin principal then
        .error ⟨403, "Administrator role required"⟩
      else if !isAdmin principal ∧ ¬ tenantIdsInRequest r ⊆ principal.tenantIds then
        .error ⟨403, "Not entitled to the requested tenant"⟩
      else .ok (some principal)

def reads (text : String) : Option Uuid := Text.parseUuid text.toList

def interpreted (r : Request) : List Uuid :=
  (afterTenants r.segs ++
    (r.params.filter fun p => p.1 ∈ ["tenantId", "tenant_id"]).map (·.2)).filterMap reads

def entitled (claims : User) : List Uuid := claims.tenantIds.filterMap reads

variable {m : Mount} {r : Request} {claims : User} {n : Uuid}

theorem call_user (user : isAdmin (.user claims) = false) :
    (∃ p, m.call (some (.user claims)) r = .ok p) ↔
      isPublic r.path ∨ ¬ (m.requireAdminForMutations ∧ r.method ∈ mutating) ∧
        tenantIdsInRequest r ⊆ claims.tenantIds := by
  unfold Mount.call
  by_cases openPath : isPublic r.path = true
  · simp [openPath]
  by_cases change : m.requireAdminForMutations = true ∧ r.method ∈ mutating
  · simp [openPath, user, change]
  by_cases held : tenantIdsInRequest r ⊆ claims.tenantIds <;>
    simp [openPath, user, change, Principal.tenantIds, held]

def namesake (r : Request) : User where tenantIds := tenantIdsInRequest r

theorem mem_entitled_namesake :
    n ∈ entitled (namesake r) ↔ ∃ s ∈ tenantIdsInRequest r, reads s = some n :=
  List.mem_filterMap

def unhyphenated : Request where
  path := ["", "api", "v1", "tenants", "0000000000000000000000000000002a"]

end TmVault.AuthEnforcement
