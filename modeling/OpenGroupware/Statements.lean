import OpenGroupware.Schema
import OpenGroupware.Transactional.Prog
import Mathlib.Data.List.Sort

/-!
The SQL statements the services run, and what PostgreSQL does with each: bind
parameters, row-level security, CHECK constraints, indexes and foreign keys, in
that order. Unique and foreign-key checks look at every row, also at
those the session may not see. The connecting role is neither a superuser nor
BYPASSRLS, and row-level security is forced on every table.
-/

namespace OpenGroupware

open Relational Transactional

/-- Why a statement failed. -/
inductive DbError
  | invalidText
  | policyViolation
  | checkViolation
  | uniqueViolation
  | foreignKeyViolation
  | programLimitExceeded
  | negativeLimit
  | rowNotFound
  | connection
deriving DecidableEq

/-! ### Sessions -/

inductive Setting
  | currentTenantId
  | isPlatformAdmin

/-- The settings a transaction runs under. `now()` is the time it began. -/
structure Session where
  currentTenantId : Option String
  isPlatformAdmin : Option String
  now : Timestamp

/-- A connection as the pool opens it. -/
def Session.new : Session where
  currentTenantId := none
  isPlatformAdmin := none
  now := 0

/-- What the environment supplies to a statement: the result of
`gen_random_uuid()`, the clock, where a scan meets each row, which settles the
ties of an ORDER BY, and the texts whose index entry, after an identifier and
compressed, takes up no more than a third of a page. A scan meets one row at a
time, and a short text needs no compression. -/
structure Oracle where
  uuid : Uuid
  now : Timestamp
  rank : Uuid → Nat
  rank_injective : Function.Injective rank
  indexable : String → Bool
  indexable_short : ∀ s, s.utf8ByteSize ≤ 2676 → indexable s = true

namespace Session

/-- `set_config(setting, value, true)`. -/
def setConfig (s : Session) (setting : Setting) (value : String) : Session :=
  match setting with
  | .currentTenantId => { s with currentTenantId := some value }
  | .isPlatformAdmin => { s with isPlatformAdmin := some value }

/-- A transaction begins. -/
def openTx (o : Oracle) (s : Session) : Session := { s with now := o.now }

/-- A transaction ends: local settings revert. A custom setting that has been
set once reverts to the empty string and not to NULL. -/
def closeTx (s : Session) : Session :=
  { s with
    currentTenantId := s.currentTenantId.map fun _ => ""
    isPlatformAdmin := s.isPlatformAdmin.map fun _ => "" }

/-- `current_setting('app.is_platform_admin', true) = 'true'`. -/
def platform (s : Session) : Truth := sqlEq s.isPlatformAdmin (some "true")

/-- The policy shared by all tables: the row's tenant is the current one, or
this is a platform session. -/
def sees (s : Session) (tenantId : Option Uuid) : Bool :=
  (sqlOr (sqlEq (tenantId.map Uuid.toText) s.currentTenantId) s.platform).holds

end Session

/-! ### Statements -/

/-- Which of the two databases. -/
inductive Plane
  | control
  | abuse

/-- `id, tenant_id, email, display_name`. -/
structure PendingRow where
  id : Uuid
  tenantId : Uuid
  email : String
  displayName : String

inductive Stmt : Type → Type
  -- og-db
  | setConfig (setting : Setting) (value : String) : Stmt Unit
  | insertAudit (plane : Plane) (entry : AuditEntry) : Stmt Unit
  -- admin-api
  | insertTenant (slug name plan : String) : Stmt Tenant
  | selectTenants : Stmt (List Tenant)
  | insertDomain (tenantId : Uuid) (fqdn : String) : Stmt Domain
  | selectDomains : Stmt (List Domain)
  | selectDomainFqdn (domainId : Uuid) : Stmt (Option String)
  | insertAccount (tenantId domainId : Uuid) (email displayName : String) (quotaMb : Int) :
      Stmt Account
  | activateAccount (id sesameUserId : Uuid) : Stmt Account
  | selectAccounts : Stmt (List Account)
  | selectPolicy (tenantId : Uuid) : Stmt (Option AbusePolicy)
  | upsertPolicy (tenantId : Uuid) (reject addHeader greylist : F64) : Stmt AbusePolicy
  -- abuse-api
  | insertDecision (tenantId : Uuid) (messageRef direction recipient sender : String)
      (score : F32) (action verdict : String) (symbols : Json) : Stmt AbuseDecision
  | insertItem (tenantId decisionId : Uuid)
      (messageRef recipient sender subject reason : String) : Stmt Unit
  | selectHeld : Stmt (List QuarantineItem)
  | releaseItem (id : Uuid) (actor : String) : Stmt (Option QuarantineItem)
  | reportItem (id : Uuid) (verdict : String) : Stmt (Option QuarantineItem)
  -- job-runner
  | selectPending (batch : Int) : Stmt (List PendingRow)
  | activatePending (id sesameUserId : Uuid) : Stmt Nat
  -- operators, on a privileged connection
  | setTenantStatus (id : Uuid) (status : TenantStatus) : Stmt Unit
  | setDomainStatus (id : Uuid) (status : DomainStatus) : Stmt Unit
  | setAccountStatus (id : Uuid) (status : AccountStatus) : Stmt Unit

/-! ### What each statement does -/

namespace Sql

/-- A condition a statement fails without. -/
def require (b : Bool) (e : DbError) : Except DbError Unit := if b then .ok () else .error e

@[simp] theorem require_true (e : DbError) : require true e = .ok () := rfl

@[simp] theorem require_false (e : DbError) : require false e = .error e := rfl

/-- The order of `ORDER BY` on a timestamp, ties as the scan met them. -/
def notAfter {α : Type} (o : Oracle) (time : α → Nat) (id : α → Uuid) (a b : α) : Bool :=
  decide (time a < time b) || (decide (time a = time b) && decide (o.rank (id a) ≤ o.rank (id b)))

def orderBy {α : Type} (o : Oracle) (time : α → Nat) (id : α → Uuid) (rows : List α) :
    List α :=
  rows.insertionSort fun a b => notAfter o time id a b = true

section

variable (s : Session) (o : Oracle) (d : Database)

def insertAudit (plane : Plane) (e : AuditEntry) : Except DbError (Unit × List Write) := do
  require (textOk e.actor && textOk e.action && textOk e.entityType && textOk e.entityId &&
    e.payload.storable) .invalidText
  require (s.sees e.tenantId) .policyViolation
  match plane with
  | .control =>
      require (e.tenantId.all (d.tenants.has Tenant.id)) .foreignKeyViolation
      return ((), [.audit e])
  | .abuse => return ((), [.abuseAudit e])

def insertTenant (slug name plan : String) : Except DbError (Tenant × List Write) := do
  require (textOk slug && textOk name && textOk plan) .invalidText
  require s.platform.holds .policyViolation
  require (slugCheck slug) .checkViolation
  require (!d.tenants.has Tenant.id o.uuid && !d.tenants.has Tenant.slug slug) .uniqueViolation
  let row : Tenant :=
    { id := o.uuid, slug, name, plan, status := .active, createdAt := s.now }
  return (row, [.tenant ⟨none, row⟩])

def selectTenants : List Tenant :=
  orderBy o Tenant.createdAt Tenant.id (d.tenants.rows.filter fun t => s.sees (some t.id))

def insertDomain (tenantId : Uuid) (fqdn : String) : Except DbError (Domain × List Write) := do
  require (textOk fqdn) .invalidText
  require (s.sees (some tenantId)) .policyViolation
  require (fqdnCheck fqdn) .checkViolation
  require (!d.domains.has Domain.id o.uuid && !d.domains.has Domain.fqdn fqdn) .uniqueViolation
  require (d.tenants.has Tenant.id tenantId) .foreignKeyViolation
  let row : Domain := { id := o.uuid, tenantId, fqdn, status := .pendingDns, createdAt := s.now }
  return (row, [.domain ⟨none, row⟩])

def selectDomains : List Domain :=
  orderBy o Domain.createdAt Domain.id
    (d.domains.rows.filter fun m => s.sees (some m.tenantId))

/-- `SELECT fqdn FROM domains WHERE id = $1 AND status <> 'suspended'`. -/
def selectDomainFqdn (domainId : Uuid) : Option String := do
  let m ← d.domains.find? domainId
  if s.sees (some m.tenantId) && decide (m.status ≠ .suspended) then some m.fqdn else none

def insertAccount (tenantId domainId : Uuid) (email displayName : String) (quotaMb : Int) :
    Except DbError (Account × List Write) := do
  require (textOk email && textOk displayName) .invalidText
  require (s.sees (some tenantId)) .policyViolation
  require (quotaCheck quotaMb) .checkViolation
  require (!d.accounts.has (fun a => a.id) o.uuid && !d.accounts.has (fun a => a.email) email)
    .uniqueViolation
  require (d.tenants.has Tenant.id tenantId && d.domains.has Domain.id domainId)
    .foreignKeyViolation
  let row : Account :=
    { id := o.uuid, tenantId, domainId, email, displayName, quotaMb
      status := .pendingProvisioning, createdAt := s.now }
  return (row, [.account ⟨none, { row with sesameUserId := none, updatedAt := s.now }⟩])

/-- The row both activation updates leave. -/
def activated (a : AccountRow) (sesameUserId : Uuid) : AccountRow :=
  { a with status := .active, sesameUserId := some sesameUserId, updatedAt := s.now }

/-- `UPDATE accounts SET status = 'active', … WHERE id = $1 RETURNING …`. -/
def activateAccount (id sesameUserId : Uuid) : Except DbError (Account × List Write) :=
  match (d.accounts.find? id).filter fun a => s.sees (some a.tenantId) with
  | some a =>
      .ok ((activated s a sesameUserId).toAccount, [.account ⟨some a, activated s a sesameUserId⟩])
  | none => .error .rowNotFound

def selectAccounts : List Account :=
  (orderBy o (fun a : AccountRow => a.createdAt) (fun a => a.id)
    (d.accounts.rows.filter fun a => s.sees (some a.tenantId))).map AccountRow.toAccount

def selectPolicy (tenantId : Uuid) : Option AbusePolicy :=
  (d.abusePolicy.find? tenantId).filter fun p => s.sees (some p.tenantId)

/-- `INSERT … ON CONFLICT (tenant_id) DO UPDATE …`. -/
def upsertPolicy (tenantId : Uuid) (reject addHeader greylist : F64) :
    Except DbError (AbusePolicy × List Write) := do
  require (s.sees (some tenantId)) .policyViolation
  require (policyCheck reject addHeader greylist) .checkViolation
  let row : AbusePolicy := { tenantId, reject, addHeader, greylist, updatedAt := s.now }
  match d.abusePolicy.find? tenantId with
  | some old => return (row, [.abusePolicy ⟨some old, row⟩])
  | none =>
      require (d.tenants.has Tenant.id tenantId) .foreignKeyViolation
      return (row, [.abusePolicy ⟨none, row⟩])

def insertDecision (tenantId : Uuid) (messageRef direction recipient sender : String)
    (score : F32) (action verdict : String) (symbols : Json) :
    Except DbError (AbuseDecision × List Write) := do
  require (textOk messageRef && textOk direction && textOk recipient && textOk sender &&
    textOk action && textOk verdict && symbols.storable) .invalidText
  require (s.sees (some tenantId)) .policyViolation
  require (directionCheck direction && actionCheck action && verdictCheck verdict)
    .checkViolation
  require (!d.abuseDecision.has AbuseDecision.id o.uuid) .uniqueViolation
  -- abuse_decision_msg_idx
  require (o.indexable messageRef) .programLimitExceeded
  let row : AbuseDecision :=
    { id := o.uuid, tenantId, messageRef, direction, recipient, sender, score, action, verdict
      symbols, scannedAt := s.now }
  return (row, [.abuseDecision ⟨none, row⟩])

/-- `INSERT … ON CONFLICT (tenant_id, message_ref) DO NOTHING`. -/
def insertItem (tenantId decisionId : Uuid)
    (messageRef recipient sender subject reason : String) :
    Except DbError (Unit × List Write) := do
  require (textOk messageRef && textOk recipient && textOk sender && textOk subject &&
    textOk reason) .invalidText
  require (s.sees (some tenantId)) .policyViolation
  if d.quarantineItem.has QuarantineItem.messageKey (tenantId, messageRef) then
    return ((), [])
  else
    require (!d.quarantineItem.has QuarantineItem.id o.uuid) .uniqueViolation
    require (o.indexable messageRef) .programLimitExceeded
    require (d.abuseDecision.has AbuseDecision.id decisionId) .foreignKeyViolation
    let row : QuarantineItem :=
      { id := o.uuid, tenantId, decisionId, messageRef, recipient, sender, subject, reason
        status := .held, reportedAs := none, heldAt := s.now, resolvedAt := none
        resolvedBy := none }
    return ((), [.quarantineItem ⟨none, row⟩])

/-- `SELECT … WHERE status = 'held' ORDER BY held_at DESC`. -/
def selectHeld : List QuarantineItem :=
  (orderBy o QuarantineItem.heldAt QuarantineItem.id
    (d.quarantineItem.rows.filter fun i =>
      s.sees (some i.tenantId) && decide (i.status = .held))).reverse

/-- `UPDATE … SET status = 'released', … WHERE id = $1 AND status = 'held' RETURNING …`. -/
def releaseItem (id : Uuid) (actor : String) :
    Except DbError (Option QuarantineItem × List Write) := do
  require (textOk actor) .invalidText
  match (d.quarantineItem.find? id).filter fun i =>
      s.sees (some i.tenantId) && decide (i.status = .held) with
  | some i =>
      let row := { i with status := .released, resolvedAt := some s.now, resolvedBy := some actor }
      return (some row, [.quarantineItem ⟨some i, row⟩])
  | none => return (none, [])

/-- `UPDATE … SET reported_as = $2 WHERE id = $1 RETURNING …`. -/
def reportItem (id : Uuid) (verdict : String) :
    Except DbError (Option QuarantineItem × List Write) := do
  require (textOk verdict) .invalidText
  match (d.quarantineItem.find? id).filter fun i => s.sees (some i.tenantId) with
  | some i =>
      require (reportedAsCheck verdict) .checkViolation
      let row := { i with reportedAs := some verdict }
      return (some row, [.quarantineItem ⟨some i, row⟩])
  | none => return (none, [])

def pendingRow (a : AccountRow) : PendingRow :=
  { id := a.id, tenantId := a.tenantId, email := a.email, displayName := a.displayName }

/-- `SELECT … WHERE status = 'pending_provisioning' ORDER BY created_at LIMIT $1`. -/
def selectPending (batch : Int) : Except DbError (List PendingRow) := do
  require (decide (0 ≤ batch)) .negativeLimit
  let rows := orderBy o (fun a : AccountRow => a.createdAt) (fun a => a.id)
    (d.accounts.rows.filter fun a =>
      s.sees (some a.tenantId) && decide (a.status = .pendingProvisioning))
  return (rows.take batch.toNat).map pendingRow

/-- `UPDATE accounts SET status = 'active', … WHERE id = $1 AND status =
'pending_provisioning'`; the number of rows affected. -/
def activatePending (id sesameUserId : Uuid) : Nat × List Write :=
  match (d.accounts.find? id).filter fun a =>
      s.sees (some a.tenantId) && decide (a.status = .pendingProvisioning) with
  | some a => (1, [.account ⟨some a, activated s a sesameUserId⟩])
  | none => (0, [])

def setTenantStatus (id : Uuid) (status : TenantStatus) : List Write :=
  match d.tenants.find? id with
  | some t => [.tenant ⟨some t, { t with status := status }⟩]
  | none => []

def setDomainStatus (id : Uuid) (status : DomainStatus) : List Write :=
  match d.domains.find? id with
  | some m => [.domain ⟨some m, { m with status := status }⟩]
  | none => []

def setAccountStatus (id : Uuid) (status : AccountStatus) : List Write :=
  match d.accounts.find? id with
  | some a => [.account ⟨some a, { a with status := status }⟩]
  | none => []

end

/-- A result under unchanged settings. -/
def keep {R : Type} (s : Session) (r : Except DbError (R × List Write)) :
    Except DbError (R × Session × List Write) :=
  r.map fun x => (x.1, s, x.2)

@[simp] theorem keep_ok {R : Type} (s : Session) (x : R × List Write) :
    keep s (.ok x) = .ok (x.1, s, x.2) := rfl

@[simp] theorem keep_error {R : Type} (s : Session) (e : DbError) :
    (keep s (.error e) : Except DbError (R × Session × List Write)) = .error e := rfl

theorem keep_eq_ok {R : Type} {s s' : Session} {x : Except DbError (R × List Write)} {r : R}
    {ws : List Write} : keep s x = .ok (r, s', ws) ↔ x = .ok (r, ws) ∧ s' = s := by
  cases x with
  | error e => simp
  | ok x =>
      simp only [keep_ok, Except.ok.injEq, Prod.ext_iff]
      constructor
      · rintro ⟨h₁, h₂, h₃⟩
        exact ⟨⟨h₁, h₃⟩, h₂.symm⟩
      · rintro ⟨⟨h₁, h₃⟩, h₂⟩
        exact ⟨h₁, h₂.symm, h₃⟩

/-- Run a statement on a view of the database. -/
def exec : {R : Type} → Stmt R → Session → Oracle → Database →
    Except DbError (R × Session × List Write)
  | _, .setConfig setting value, s, _, _ => do
      require (textOk value) .invalidText
      return ((), s.setConfig setting value, [])
  | _, .insertAudit plane e, s, _, d => keep s (insertAudit s d plane e)
  | _, .insertTenant slug name plan, s, o, d => keep s (insertTenant s o d slug name plan)
  | _, .selectTenants, s, o, d => .ok (selectTenants s o d, s, [])
  | _, .insertDomain tenantId fqdn, s, o, d => keep s (insertDomain s o d tenantId fqdn)
  | _, .selectDomains, s, o, d => .ok (selectDomains s o d, s, [])
  | _, .selectDomainFqdn id, s, _, d => .ok (selectDomainFqdn s d id, s, [])
  | _, .insertAccount tenantId domainId email displayName quotaMb, s, o, d =>
      keep s (insertAccount s o d tenantId domainId email displayName quotaMb)
  | _, .activateAccount id sesameUserId, s, _, d => keep s (activateAccount s d id sesameUserId)
  | _, .selectAccounts, s, o, d => .ok (selectAccounts s o d, s, [])
  | _, .selectPolicy tenantId, s, _, d => .ok (selectPolicy s d tenantId, s, [])
  | _, .upsertPolicy tenantId reject addHeader greylist, s, _, d =>
      keep s (upsertPolicy s d tenantId reject addHeader greylist)
  | _, .insertDecision tenantId messageRef direction recipient sender score action verdict
      symbols, s, o, d =>
      keep s (insertDecision s o d tenantId messageRef direction recipient sender score action
        verdict symbols)
  | _, .insertItem tenantId decisionId messageRef recipient sender subject reason, s, o, d =>
      keep s (insertItem s o d tenantId decisionId messageRef recipient sender subject reason)
  | _, .selectHeld, s, o, d => .ok (selectHeld s o d, s, [])
  | _, .releaseItem id actor, s, _, d => keep s (releaseItem s d id actor)
  | _, .reportItem id verdict, s, _, d => keep s (reportItem s d id verdict)
  | _, .selectPending batch, s, o, d => (selectPending s o d batch).map fun rows => (rows, s, [])
  | _, .activatePending id sesameUserId, s, _, d =>
      .ok ((activatePending s d id sesameUserId).1, s, (activatePending s d id sesameUserId).2)
  | _, .setTenantStatus id status, s, _, d => .ok ((), s, setTenantStatus d id status)
  | _, .setDomainStatus id status, s, _, d => .ok ((), s, setDomainStatus d id status)
  | _, .setAccountStatus id status, s, _, d => .ok ((), s, setAccountStatus d id status)

end Sql

/-- The identifier is used by no row. -/
def Oracle.Fresh (o : Oracle) (d : Database) : Prop :=
  (∀ t ∈ d.tenants, t.id ≠ o.uuid) ∧ (∀ m ∈ d.domains, m.id ≠ o.uuid) ∧
    (∀ a ∈ d.accounts, a.id ≠ o.uuid) ∧ (∀ x ∈ d.abuseDecision, x.id ≠ o.uuid) ∧
    (∀ i ∈ d.quarantineItem, i.id ≠ o.uuid)

instance (o : Oracle) (d : Database) : Decidable (o.Fresh d) :=
  inferInstanceAs (Decidable ((∀ t ∈ d.tenants.rows, t.id ≠ o.uuid) ∧
    (∀ m ∈ d.domains.rows, m.id ≠ o.uuid) ∧ (∀ a ∈ d.accounts.rows, a.id ≠ o.uuid) ∧
    (∀ x ∈ d.abuseDecision.rows, x.id ≠ o.uuid) ∧ (∀ i ∈ d.quarantineItem.rows, i.id ≠ o.uuid)))

/-- PostgreSQL as the services use it. -/
def postgres : Engine Stmt Session Oracle Database Write DbError where
  exec := Sql.exec
  openTx := Session.openTx
  closeTx := Session.closeTx
  apply := Write.apply
  clash := Write.clash
  fresh := Oracle.Fresh
  failure := .connection

end OpenGroupware
