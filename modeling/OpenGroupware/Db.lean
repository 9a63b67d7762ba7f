import OpenGroupware.Statements

/-!
`og-db`: the one way service code reaches PostgreSQL, the mapping from errors
to HTTP responses, and the append-only audit helper.
-/

namespace OpenGroupware

open Transactional

/-! ### Programs of the services -/

/-- A user to provision into sesame-idam. -/
structure ProvisionUser where
  email : String
  displayName : String

inductive ProviderError
  | unavailable (message : String)
  | internal (message : String)

abbrev Program (α : Type) : Type 1 :=
  Prog Stmt DbError ProvisionUser (Except ProviderError Uuid) α

/-- `Result<α, sqlx::Error>`. -/
abbrev DbM (α : Type) : Type 1 := ExceptT DbError Program α

def begin : DbM Unit := ExceptT.mk (.start .ret)

def query {R : Type} (q : Stmt R) : DbM R := ExceptT.mk (.stmt q .ret)

def commit : DbM Unit := ExceptT.mk (.commit .ret)

/-- `provision_user` of the sesame client, outside any transaction. -/
def provision (email displayName : String) : Program (Except ProviderError Uuid) :=
  .call ⟨email, displayName⟩ .ret

/-- Begin a transaction scoped to one tenant. -/
def tenantTx (tenantId : Uuid) : DbM Unit := do
  begin
  query (.setConfig .currentTenantId tenantId.toText)

/-- Begin a platform-admin transaction. -/
def platformTx : DbM Unit := do
  begin
  query (.setConfig .isPlatformAdmin "true")

/-- Append to the audit log of the service's own database. -/
def record (plane : Plane) (entry : AuditEntry) : DbM Unit := query (.insertAudit plane entry)

/-! ### Errors and responses -/

inductive ApiError
  | unauthorized
  | notFound
  | conflict (message : String)
  | validation (message : String)
  | db (e : DbError)
deriving DecidableEq

/-- `Result<α, ApiError>`. -/
abbrev Handler (α : Type) : Type 1 := ExceptT ApiError Program α

/-- `?` on a database result inside a handler. -/
instance : MonadLift DbM Handler := ⟨fun x => ExceptT.adapt ApiError.db x⟩

/-- What a response carries. -/
inductive Body
  | error (message : String)
  | tenant (t : Tenant)
  | tenants (ts : List Tenant)
  | domain (m : Domain)
  | domains (ms : List Domain)
  | account (a : Account)
  | accounts (as : List Account)
  | policy (p : AbusePolicy)
  | decision (x : AbuseDecision)
  | item (i : QuarantineItem)
  | items (is : List QuarantineItem)

structure Response where
  status : Nat
  body : Body

def Response.ok (body : Body) : Response := ⟨200, body⟩

def Response.created (body : Body) : Response := ⟨201, body⟩

namespace ApiError

def status : ApiError → Nat
  | .unauthorized => 401
  | .notFound => 404
  | .conflict _ => 409
  | .validation _ => 422
  | .db _ => 500

def message : ApiError → String
  | .unauthorized => "unauthorized"
  | .notFound => "not found"
  | .conflict m => "conflict: " ++ m
  | .validation m => "validation: " ++ m
  | .db _ => "database error"

/-- A unique violation is a conflict; other SQL detail never leaks. -/
def intoResponse : ApiError → Response
  | .db .uniqueViolation => ⟨409, .error "already exists"⟩
  | .db e => ⟨(ApiError.db e).status, .error "internal error"⟩
  | other => ⟨other.status, .error other.message⟩

end ApiError

/-- What the client of a handler gets. -/
def Handler.respond (h : Handler Response) : Program Response := do
  match ← h.run with
  | .ok r => return r
  | .error e => return e.intoResponse

end OpenGroupware
