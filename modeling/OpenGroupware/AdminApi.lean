import OpenGroupware.Db

/-!
`admin-api`: requests, their validation, and the handlers that provision
tenants, domains, accounts and abuse policies.
-/

namespace OpenGroupware

/-! ### Requests -/

structure CreateTenant where
  slug : String
  name : String
  plan : String := "standard"

structure CreateDomain where
  fqdn : String

structure CreateAccount where
  domainId : Uuid
  localPart : String
  displayName : String := ""
  quotaMb : Int := 1024

structure SetAbusePolicy where
  reject : F64
  addHeader : F64
  greylist : F64

/-- The effective policy of a tenant without a row of its own. -/
def AbusePolicy.defaults (tenantId : Uuid) (now : Timestamp) : AbusePolicy where
  tenantId := tenantId
  reject := .fin 15
  addHeader := .fin 6
  greylist := .fin 4
  updatedAt := now

/-! ### Validation -/

/-- Length in bytes of UTF-8. -/
def byteLen (cs : List Char) : Nat := (cs.map Char.utf8Size).sum

def slugChar (c : Char) : Bool := c.isLower || c.isDigit || c == '-'

def slugOk (slug : List Char) : Bool :=
  decide (2 ≤ byteLen slug ∧ byteLen slug ≤ 63) && slug.all slugChar &&
    slug.head? != some '-' && slug.getLast? != some '-'

def validateSlug (slug : String) : Except ApiError Unit :=
  if slugOk slug.toList then .ok ()
  else .error (.validation "slug must be 2-63 chars of [a-z0-9-], not starting/ending with '-'")

def labelOk (label : List Char) : Bool :=
  !label.isEmpty && decide (byteLen label ≤ 63) && label.all slugChar &&
    label.head? != some '-' && label.getLast? != some '-'

def fqdnOk (fqdn : List Char) : Bool :=
  decide (byteLen fqdn ≤ 253) && fqdn.contains '.' && (fqdn.splitOn '.').all labelOk

def validateFqdn (fqdn : String) : Except ApiError Unit :=
  if fqdnOk fqdn.toList then .ok () else .error (.validation "invalid fqdn")

def localPartChar (c : Char) : Bool :=
  c.isLower || c.isDigit || c == '.' || c == '-' || c == '_' || c == '+'

def localPartOk (l : List Char) : Bool :=
  decide (1 ≤ byteLen l ∧ byteLen l ≤ 64) && l.all localPartChar &&
    l.head? != some '.' && l.getLast? != some '.'

def validateLocalPart (l : String) : Except ApiError Unit :=
  if localPartOk l.toList then .ok ()
  else .error (.validation
    "local part must be 1-64 chars of [a-z0-9.+_-], not starting/ending with '.'")

def policyOk (p : SetAbusePolicy) : Bool :=
  (p.reject.isFinite && p.addHeader.isFinite && p.greylist.isFinite) &&
    ((F64.fin 0).lt p.greylist && p.greylist.lt p.addHeader && p.addHeader.lt p.reject)

def validatePolicy (p : SetAbusePolicy) : Except ApiError Unit :=
  if policyOk p then .ok ()
  else .error (.validation
    "thresholds must be finite and satisfy 0 < greylist < add_header < reject")

/-- A validator accepts what passes its check. -/
theorem validator_eq_ok {ok : Bool} {e : ApiError} :
    (if ok = true then Except.ok () else .error e) = .ok () ↔ ok = true := by
  cases ok with
  | true => exact iff_of_true rfl rfl
  | false => exact iff_of_false nofun nofun

theorem validateSlug_eq_ok {slug : String} :
    validateSlug slug = .ok () ↔ slugOk slug.toList = true :=
  validator_eq_ok

theorem validateFqdn_eq_ok {fqdn : String} :
    validateFqdn fqdn = .ok () ↔ fqdnOk fqdn.toList = true :=
  validator_eq_ok

theorem validateLocalPart_eq_ok {l : String} :
    validateLocalPart l = .ok () ↔ localPartOk l.toList = true :=
  validator_eq_ok

theorem validatePolicy_eq_ok {p : SetAbusePolicy} : validatePolicy p = .ok () ↔ policyOk p = true :=
  validator_eq_ok

/-! ### Tenants (platform scope) -/

def createTenant (caller : Caller) (req : CreateTenant) : Handler Response := do
  validateSlug req.slug
  platformTx
  let tenant ← query (.insertTenant req.slug req.name req.plan)
  record .control
    { tenantId := some tenant.id
      actor := caller.actor
      action := "tenant.create"
      entityType := "tenant"
      entityId := tenant.id.toText
      payload := .obj [("slug", .str tenant.slug), ("plan", .str tenant.plan)] }
  commit
  return .created (.tenant tenant)

def listTenants : Handler Response := do
  platformTx
  let tenants ← query .selectTenants
  commit
  return .ok (.tenants tenants)

/-! ### Domains (tenant scope) -/

def createDomain (tenantId : Uuid) (caller : Caller) (req : CreateDomain) :
    Handler Response := do
  validateFqdn req.fqdn
  tenantTx tenantId
  let domain ← query (.insertDomain tenantId req.fqdn)
  record .control
    { tenantId := some tenantId
      actor := caller.actor
      action := "domain.create"
      entityType := "domain"
      entityId := domain.id.toText
      payload := .obj [("fqdn", .str domain.fqdn)] }
  commit
  return .created (.domain domain)

def listDomains (tenantId : Uuid) : Handler Response := do
  tenantTx tenantId
  let domains ← query .selectDomains
  commit
  return .ok (.domains domains)

/-! ### Accounts (tenant scope) -/

/-- The second transaction of `provision_into_sesame`. -/
def activateProvisioned (tenantId : Uuid) (account : Account) (sesameUserId : Uuid)
    (actor : String) : DbM Account := do
  tenantTx tenantId
  let updated ← query (.activateAccount account.id sesameUserId)
  record .control
    { tenantId := some tenantId
      actor := actor
      action := "account.provisioned"
      entityType := "account"
      entityId := updated.id.toText
      payload := .obj [("sesame_user_id", .str sesameUserId.toText)] }
  commit
  return updated

/-- Best-effort provisioning; the account stays as it was on any error. -/
def provisionIntoSesame (tenantId : Uuid) (account : Account) (actor : String) :
    Program Account := do
  match ← provision account.email account.displayName with
  | .error _ => return account
  | .ok sesameUserId =>
      match ← (activateProvisioned tenantId account sesameUserId actor).run with
      | .ok updated => return updated
      | .error _ => return account

/-- `sesame` says whether the identity integration is configured. -/
def createAccount (sesame : Bool) (tenantId : Uuid) (caller : Caller) (req : CreateAccount) :
    Handler Response := do
  validateLocalPart req.localPart
  tenantTx tenantId
  -- row-level security hides other tenants' domains, which end here as well
  let some fqdn ← query (.selectDomainFqdn req.domainId) | throw .notFound
  let email := req.localPart ++ "@" ++ fqdn
  let account ←
    query (.insertAccount tenantId req.domainId email req.displayName req.quotaMb)
  record .control
    { tenantId := some tenantId
      actor := caller.actor
      action := "account.create"
      entityType := "account"
      entityId := account.id.toText
      payload := .obj [("email", .str email), ("quota_mb", .int account.quotaMb)] }
  commit
  if sesame then
    let account ← provisionIntoSesame tenantId account caller.actor
    return .created (.account account)
  else
    return .created (.account account)

def listAccounts (tenantId : Uuid) : Handler Response := do
  tenantTx tenantId
  let accounts ← query .selectAccounts
  commit
  return .ok (.accounts accounts)

/-! ### Abuse policy (tenant scope) -/

/-- `now` is the clock of the service, which only the defaults use. -/
def getPolicy (tenantId : Uuid) (now : Timestamp) : Handler Response := do
  tenantTx tenantId
  let policy ← query (.selectPolicy tenantId)
  commit
  return .ok (.policy (policy.getD (AbusePolicy.defaults tenantId now)))

def putPolicy (tenantId : Uuid) (caller : Caller) (req : SetAbusePolicy) :
    Handler Response := do
  validatePolicy req
  tenantTx tenantId
  let policy ← query (.upsertPolicy tenantId req.reject req.addHeader req.greylist)
  record .control
    { tenantId := some tenantId
      actor := caller.actor
      action := "policy.set"
      entityType := "abuse_policy"
      entityId := tenantId.toText
      payload := .obj [("reject", .ofF64 req.reject), ("add_header", .ofF64 req.addHeader),
        ("greylist", .ofF64 req.greylist)] }
  commit
  return .ok (.policy policy)

end OpenGroupware
