import OpenGroupware.Consistency
import OpenGroupware.Services
import OpenGroupware.Transactional.Outline

/-!
What every transaction of the services may commit and what every request may
answer, stated once. Results about runs are case analyses over `Committed` and
`Answered`; that the programs keep to them is the subject of the outlines.
-/

namespace OpenGroupware

open Relational Transactional

/-- The entry is about the entity, for the tenant, by the actor. -/
structure AuditEntry.Names (e : AuditEntry) (tenantId : Uuid) (actor action entityType : String)
    (entity : Uuid) : Prop where
  tenantId : e.tenantId = some tenantId
  actor : e.actor = actor
  action : e.action = action
  entityType : e.entityType = entityType
  entityId : e.entityId = entity.toText

/-- An account once sesame-idam has assigned it a user. -/
def AccountRow.provisioned (a : AccountRow) (u : Uuid) (now : Timestamp) : AccountRow :=
  { a with status := .active, sesameUserId := some u, updatedAt := now }

def QuarantineItem.releasedBy (i : QuarantineItem) (actor : String) (now : Timestamp) :
    QuarantineItem :=
  { i with status := .released, resolvedAt := some now, resolvedBy := some actor }

/-- The columns a decision takes from the request. -/
structure AbuseDecision.Records (x : AbuseDecision) (T : Uuid) (req : RecordDecision) : Prop where
  tenantId : x.tenantId = T
  messageRef : x.messageRef = req.messageRef
  recipient : x.recipient = req.recipient
  action : x.action = req.action
  check : (directionCheck x.direction && actionCheck x.action && verdictCheck x.verdict) = true

/-- The columns a quarantine item takes from the request and its decision. -/
structure QuarantineItem.Holds (i : QuarantineItem) (x : AbuseDecision) (T : Uuid)
    (req : RecordDecision) : Prop where
  tenantId : i.tenantId = T
  decisionId : i.decisionId = x.id
  messageRef : i.messageRef = req.messageRef
  text : textOk req.messageRef = true
  recipient : i.recipient = req.recipient
  status : i.status = .held
  reportedAs : i.reportedAs = none
  resolvedAt : i.resolvedAt = none
  resolvedBy : i.resolvedBy = none

/-! ### Commits -/

/-- The routes that only read. -/
def Route.reads : Route → Bool
  | .listTenants => true
  | .listDomains _ => true
  | .listAccounts _ => true
  | .getPolicy _ _ => true
  | .listQuarantine _ => true
  | _ => false

/-- Requests with transactions that write nothing: those that only read, the
reading transaction of a cycle, and updates that find no row. -/
def Request.mayWriteNothing : Request → Bool
  | .http _ route => route.reads
  | .reconcile _ => true
  | .operator _ => true

section

variable (answers : ProvisionUser → Except ProviderError Uuid → Prop)
  (guard : {R : Type} → Stmt R → Database → Prop)

/-- What a request that has committed `cs` may commit to the store `d`. -/
inductive Committed : Request → List (List Write) → Database → List Write → Prop
  | nothing {c cs d} (h : c.mayWriteNothing = true) : Committed c cs d []
  | createTenant {caller req d t e} (valid : slugOk req.slug.toList = true)
      (check : slugCheck t.slug = true) (row : t.slug = req.slug ∧ t.status = .active)
      (entry : e.Names t.id caller.actor "tenant.create" "tenant" t.id) :
      Committed (.http caller (.createTenant req)) [] d [.tenant ⟨none, t⟩, .audit e]
  | createDomain {caller T req d m e} (valid : fqdnOk req.fqdn.toList = true)
      (check : fqdnCheck m.fqdn = true) (tenant : ∃ t ∈ d.tenants, t.id = T)
      (row : m.tenantId = T ∧ m.fqdn = req.fqdn ∧ m.status = .pendingDns)
      (entry : e.Names T caller.actor "domain.create" "domain" m.id) :
      Committed (.http caller (.createDomain T req)) [] d [.domain ⟨none, m⟩, .audit e]
  | createAccount {caller T req d} {a : AccountRow} {e}
      (valid : localPartOk req.localPart.toList = true)
      (check : quotaCheck a.quotaMb = true)
      (domain : ∃ m ∈ d.domains, m.id = a.domainId ∧ m.tenantId = T ∧
        a.email = req.localPart ++ "@" ++ m.fqdn)
      (row : a.tenantId = T ∧ a.domainId = req.domainId ∧ a.status = .pendingProvisioning ∧
        a.sesameUserId = none)
      (entry : e.Names T caller.actor "account.create" "account" a.id) :
      Committed (.http caller (.createAccount T req)) [] d [.account ⟨none, a⟩, .audit e]
  | provisioned {caller T req d a₀ e₀} {a : AccountRow} {u now e}
      (answer : answers ⟨a₀.email, a₀.displayName⟩ (.ok u)) (same : a.fixed = a₀.fixed)
      (guarded : ∃ v, v.accounts.find? a.id = some a ∧ guard (.activateAccount a.id u) v)
      (tenant : a.tenantId = T)
      (entry : e.Names T caller.actor "account.provisioned" "account" a.id) :
      Committed (.http caller (.createAccount T req)) [[.account ⟨none, a₀⟩, .audit e₀]] d
        [.account ⟨some a, a.provisioned u now⟩, .audit e]
  | putPolicy {caller T req d old p e} (valid : policyOk req = true)
      (check : policyCheck p.reject p.addHeader p.greylist = true)
      (tenant : ∃ t ∈ d.tenants, t.id = T)
      (row : p.tenantId = T ∧ p.reject = req.reject ∧ p.addHeader = req.addHeader ∧
        p.greylist = req.greylist)
      (entry : e.Names T caller.actor "policy.set" "abuse_policy" T) :
      Committed (.http caller (.putPolicy T req)) [] d [.abusePolicy ⟨old, p⟩, .audit e]
  | decision {caller T req d x e} (row : AbuseDecision.Records x T req)
      (kept : req.action = "quarantine" → ∃ i ∈ d.quarantineItem,
        i.messageKey = (T, req.messageRef))
      (entry : e.Names T caller.actor "abuse.decision" "abuse_decision" x.id) :
      Committed (.http caller (.recordDecision T req)) [] d
        [.abuseDecision ⟨none, x⟩, .abuseAudit e]
  | quarantine {caller T req d x i e} (row : AbuseDecision.Records x T req)
      (action : req.action = "quarantine") (item : QuarantineItem.Holds i x T req)
      (entry : e.Names T caller.actor "abuse.decision" "abuse_decision" x.id) :
      Committed (.http caller (.recordDecision T req)) [] d
        [.abuseDecision ⟨none, x⟩, .quarantineItem ⟨none, i⟩, .abuseAudit e]
  | release {caller T itemId d} {i : QuarantineItem} {now e} (id : i.id = itemId)
      (tenant : i.tenantId = T) (held : i.status = .held)
      (entry : e.Names T caller.actor "quarantine.release" "quarantine_item" i.id) :
      Committed (.http caller (.releaseItem T itemId)) [] d
        [.quarantineItem ⟨some i, i.releasedBy caller.actor now⟩, .abuseAudit e]
  | report {caller T itemId req d} {i : QuarantineItem} {e} (id : i.id = itemId)
      (tenant : i.tenantId = T) (check : reportedAsCheck req.verdict = true)
      (entry : e.Names T caller.actor "quarantine.report" "quarantine_item" i.id) :
      Committed (.http caller (.reportItem T itemId req)) [] d
        [.quarantineItem ⟨some i, { i with reportedAs := some req.verdict }⟩, .abuseAudit e]
  | reconcile {batch cs d} {a : AccountRow} {u now e}
      (answer : answers ⟨a.email, a.displayName⟩ (.ok u))
      (pending : a.status = .pendingProvisioning)
      (entry : e.Names a.tenantId "job-runner" "account.reconciled" "account" a.id) :
      Committed (.reconcile batch) cs d
        [.account ⟨some a, a.provisioned u now⟩, .audit e]
  | tenantStatus {status d} {t : Tenant} :
      Committed (.operator (.tenant t.id status)) [] d
        [.tenant ⟨some t, { t with status := status }⟩]
  | domainStatus {status d} {m : Domain} :
      Committed (.operator (.domain m.id status)) [] d
        [.domain ⟨some m, { m with status := status }⟩]
  | accountStatus {status d} {a : AccountRow} :
      Committed (.operator (.account a.id status)) [] d
        [.account ⟨some a, { a with status := status }⟩]

end

section

variable {answers : ProvisionUser → Except ProviderError Uuid → Prop}
  {guard : {R : Type} → Stmt R → Database → Prop}

theorem Committed.legal {c : Request} {cs : List (List Write)} {d : Database} {ws : List Write}
    (h : Committed answers guard c cs d ws) (hinv : Consistent d)
    (hpend : postgres.Pending Write.fits ws d) : Write.LegalAll d ws := by
  -- an update finds the row it replaces in the store
  have fits : ∀ w ∈ ws, w.fits d := hpend.fits
  cases h with
  | nothing => trivial
  | createTenant _ check => exact ⟨⟨check, by simp⟩, trivial, trivial⟩
  | createDomain _ check tenant row =>
      exact ⟨⟨check, row.1 ▸ tenant, by simp⟩, trivial, trivial⟩
  | @createAccount _ _ req _ a _ valid check domain row =>
      obtain ⟨m, hm, hid, hT, hemail⟩ := domain
      exact ⟨⟨check, ⟨m, hm, hid, hT.trans row.1.symm, req.localPart, valid, hemail⟩, by simp⟩,
        trivial, trivial⟩
  | @provisioned _ _ _ _ _ _ a | @reconcile _ _ _ a =>
      have ha : a ∈ d.accounts := (fits _ List.mem_cons_self).1
      refine ⟨⟨hinv.quota_check a ha, hinv.account_addressed a ha, ?_⟩, trivial, trivial⟩
      rintro _ ⟨⟩
      rfl
  | putPolicy _ check tenant row => exact ⟨⟨check, row.1 ▸ tenant⟩, trivial, trivial⟩
  | decision row => exact ⟨⟨rfl, row.check⟩, trivial, trivial⟩
  | @quarantine _ _ _ _ x i _ row _ item =>
      refine ⟨⟨rfl, row.check⟩, ⟨⟨x, ?_, item.decisionId.symm⟩, ?_, by simp⟩, trivial, trivial⟩
      · simp [Write.apply]
      · simp [item.reportedAs]
  | @release _ _ _ _ i _ _ _ _ held =>
      have hi : i ∈ d.quarantineItem := (fits _ List.mem_cons_self).1
      refine ⟨⟨hinv.item_decision i hi, hinv.item_reported i hi, ?_⟩, trivial, trivial⟩
      rintro _ ⟨⟩
      exact ⟨rfl, .inr ⟨held, rfl⟩⟩
  | @report _ _ _ req _ i _ _ _ check =>
      have hi : i ∈ d.quarantineItem := (fits _ List.mem_cons_self).1
      refine ⟨⟨hinv.item_decision i hi, ?_, ?_⟩, trivial, trivial⟩
      · rintro _ ⟨⟩
        exact check
      · rintro _ ⟨⟩
        exact ⟨rfl, .inl ⟨rfl, rfl, rfl⟩⟩
  | @tenantStatus _ _ t =>
      have ht : t ∈ d.tenants := (fits _ List.mem_cons_self).1
      refine ⟨⟨hinv.slug_check t ht, ?_⟩, trivial⟩
      rintro _ ⟨⟩
      rfl
  | @domainStatus _ _ m =>
      have hm : m ∈ d.domains := (fits _ List.mem_cons_self).1
      refine ⟨⟨hinv.fqdn_check m hm, hinv.domain_tenant m hm, ?_⟩, trivial⟩
      rintro _ ⟨⟩
      rfl
  | @accountStatus _ _ a =>
      have ha : a ∈ d.accounts := (fits _ List.mem_cons_self).1
      refine ⟨⟨hinv.quota_check a ha, hinv.account_addressed a ha, ?_⟩, trivial⟩
      rintro _ ⟨⟩
      rfl

end

/-! ### Answers -/

/-- The success responses, each with what the request has committed. -/
inductive Served : Route → List (List Write) → Response → Prop
  | createTenant {req c e} :
      Served (.createTenant req) [[.tenant c, .audit e]] (.created (.tenant c.new))
  | listTenants {ts} : Served .listTenants [[]] (.ok (.tenants ts))
  | createDomain {T req c e} :
      Served (.createDomain T req) [[.domain c, .audit e]] (.created (.domain c.new))
  | listDomains {T ms} : Served (.listDomains T) [[]] (.ok (.domains ms))
  | createAccount {T req} {c : Change AccountRow} {e} :
      Served (.createAccount T req) [[.account c, .audit e]]
        (.created (.account c.new.toAccount))
  | createProvisioned {T req c e} {c' : Change AccountRow} {e'} :
      Served (.createAccount T req) [[.account c, .audit e], [.account c', .audit e']]
        (.created (.account c'.new.toAccount))
  | listAccounts {T as} : Served (.listAccounts T) [[]] (.ok (.accounts as))
  | getPolicy {T now p} : Served (.getPolicy T now) [[]] (.ok (.policy p))
  | putPolicy {T req c e} :
      Served (.putPolicy T req) [[.abusePolicy c, .audit e]] (.ok (.policy c.new))
  | recordDecision {T req c e} :
      Served (.recordDecision T req) [[.abuseDecision c, .abuseAudit e]]
        (.created (.decision c.new))
  | recordQuarantine {T req c c' e} :
      Served (.recordDecision T req)
        [[.abuseDecision c, .quarantineItem c', .abuseAudit e]] (.created (.decision c.new))
  | listQuarantine {T is} : Served (.listQuarantine T) [[]] (.ok (.items is))
  | releaseItem {T id c e} :
      Served (.releaseItem T id) [[.quarantineItem c, .abuseAudit e]] (.ok (.item c.new))
  | reportItem {T id req c e} :
      Served (.reportItem T id req) [[.quarantineItem c, .abuseAudit e]] (.ok (.item c.new))

theorem Served.status {route : Route} {cs : List (List Write)} {r : Response}
    (h : Served route cs r) : r.status < 400 := by
  cases h <;> simp [Response.ok, Response.created]

/-- The errors a route answers with, on the store `d`, to a request that came
in on the store `b`. A release that finds nothing tells the truth about items
that were there when the request came in: they have been released by now. -/
def Route.Refuses (b d : Database) : Route → ApiError → Prop
  | _, .db _ => True
  | .createTenant _, .validation _ => True
  | .createDomain _ _, .validation _ => True
  | .createAccount _ _, .validation _ => True
  | .createAccount _ _, .notFound => True
  | .putPolicy _ _, .validation _ => True
  | .recordDecision _ _, .validation _ => True
  | .releaseItem T id, .notFound => ∀ i ∈ b.quarantineItem, i.id = id → i.tenantId = T →
      i.status ≠ .deleted → ∃ i' ∈ d.quarantineItem, i'.id = id ∧ i'.status = .released
  | .reportItem _ _ _, .validation _ => True
  | .reportItem _ _ _, .notFound => True
  | _, _ => False

/-- What a request that came in on the store `b` and has committed `cs` may
answer on the store `d`. -/
inductive Answered : Request → Database → List (List Write) → Database → Answer → Prop
  | served {caller route b cs d r} (h : Served route cs r) :
      Answered (.http caller route) b cs d (.http r)
  | refused {caller route b d} {e : ApiError} (h : route.Refuses b d e) :
      Answered (.http caller route) b [] d (.http e.intoResponse)
  | cycle {batch b cs d n} (count : n = cs.countP fun ws => !ws.isEmpty) :
      Answered (.reconcile batch) b cs d (.cycle (.ok n))
  | cycleFailed {batch b cs d e} : Answered (.reconcile batch) b cs d (.cycle (.error e))
  | operator {c b cs d r} : Answered (.operator c) b cs d (.operator r)

/-! ### Statements -/

/-- The tenant in the path of a route. -/
def Route.tenant : Route → Option Uuid
  | .createTenant _ => none
  | .listTenants => none
  | .createDomain T _ => some T
  | .listDomains T => some T
  | .createAccount T _ => some T
  | .listAccounts T => some T
  | .getPolicy T _ => some T
  | .putPolicy T _ => some T
  | .recordDecision T _ => some T
  | .listQuarantine T => some T
  | .releaseItem T _ => some T
  | .reportItem T _ _ => some T

/-- A statement that keeps to the rows of one tenant, run in a session of that
tenant. What it refers to besides its own row is the tenant's, and so is the
address it asks for. -/
def Stmt.Scoped (T : Uuid) : {R : Type} → Stmt R → Session → Database → Prop
  | _, .setConfig setting value, s, _ =>
      setting = .currentTenantId ∧ value = T.toText ∧ s.Idle
  | _, .insertAudit _ e, s, _ => s.ForTenant T ∧ e.tenantId = some T
  | _, .insertTenant _ _ _, _, _ => False
  | _, .selectTenants, _, _ => False
  | _, .insertDomain T' _, s, d => s.ForTenant T ∧ T' = T ∧
      ∀ m ∈ d.domains, fqdnCheck m.fqdn = true
  | _, .selectDomains, s, _ => s.ForTenant T
  | _, .selectDomainFqdn _, s, _ => s.ForTenant T
  | _, .insertAccount T' domainId email _ _, s, d => s.ForTenant T ∧ T' = T ∧
      (∃ m ∈ d.domains, m.id = domainId ∧ m.tenantId = T) ∧
        ∀ a ∈ d.accounts, a.email = email → a.tenantId = T
  | _, .activateAccount _ _, s, _ => s.ForTenant T
  | _, .selectAccounts, s, _ => s.ForTenant T
  | _, .selectPolicy T', s, _ => s.ForTenant T ∧ T' = T
  | _, .upsertPolicy T' _ _ _, s, _ => s.ForTenant T ∧ T' = T
  | _, .insertDecision T' _ _ _ _ _ _ _ _, s, _ => s.ForTenant T ∧ T' = T
  | _, .insertItem T' decisionId _ _ _ _ _, s, d => s.ForTenant T ∧ T' = T ∧
      ∃ x ∈ d.abuseDecision, x.id = decisionId ∧ x.tenantId = T
  | _, .selectHeld, s, _ => s.ForTenant T
  | _, .releaseItem _ _, s, _ => s.ForTenant T
  | _, .reportItem _ _, s, _ => s.ForTenant T
  | _, .selectPending _, _, _ => False
  | _, .activatePending _ _, _, _ => False
  | _, .setTenantStatus _ _, _, _ => False
  | _, .setDomainStatus _ _, _, _ => False
  | _, .setAccountStatus _ _, _, _ => False

/-- The domain name that is inserted is the one in the request. -/
def Stmt.AskedBy (route : Route) : {R : Type} → Stmt R → Prop
  | _, .insertDomain T fqdn => ∃ req, route = .createDomain T req ∧ fqdn = req.fqdn
  | _, _ => True

/-- Requests under the path of a tenant run scoped statements only. -/
def Request.Runs (c : Request) {R : Type} (q : Stmt R) (s : Session) (d : Database) : Prop :=
  match c with
  | .http _ route => q.AskedBy route ∧ ∀ T, route.tenant = some T → q.Scoped T s d
  | _ => True

theorem Request.Runs.scoped {caller : Caller} {route : Route} {T : Uuid} {R : Type} {q : Stmt R}
    {s : Session} {d : Database} (hT : route.tenant = some T) (hasked : q.AskedBy route)
    (h : q.Scoped T s d) : (Request.http caller route).Runs q s d := by
  refine ⟨hasked, fun T' hT' => ?_⟩
  obtain rfl : T = T' := Option.some.inj (hT.symm.trans hT')
  exact h

/-- The specification of the services. -/
def contract (answers : ProvisionUser → Except ProviderError Uuid → Prop)
    (guard : {R : Type} → Stmt R → Database → Prop) :
    Spec Stmt Session Database Write Request Answer where
  inv := Consistent
  evolves := Evolves
  idle := Session.Idle
  fits := Write.fits
  guard := guard
  pre c _ q s d := c.Runs q s d
  post := Committed answers guard
  ret := Answered

end OpenGroupware
