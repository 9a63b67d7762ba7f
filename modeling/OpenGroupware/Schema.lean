import OpenGroupware.Types
import OpenGroupware.Relational.Table
import OpenGroupware.Relational.Logic
import OpenGroupware.Text.Regular

/-!
The tables of the two migration sets, side by side: the control plane
(tenants, domains, accounts, abuse policies and their audit log) and the
database of abuse-api (decisions, quarantine items and its own audit log).
Columns that no service reads are left out.
-/

namespace OpenGroupware

open Relational Text

/-! ### Rows -/

inductive TenantStatus
  | active
  | suspended
  | terminated
deriving DecidableEq

inductive DomainStatus
  | pendingDns
  | active
  | suspended
deriving DecidableEq

inductive AccountStatus
  | pendingProvisioning
  | active
  | suspended
  | deleted
deriving DecidableEq

inductive ItemStatus
  | held
  | released
  | deleted
deriving DecidableEq

structure Tenant where
  id : Uuid
  slug : String
  name : String
  plan : String
  status : TenantStatus
  createdAt : Timestamp

structure Domain where
  id : Uuid
  tenantId : Uuid
  fqdn : String
  status : DomainStatus
  createdAt : Timestamp

/-- The columns of an account that the API shows. -/
structure Account where
  id : Uuid
  tenantId : Uuid
  domainId : Uuid
  email : String
  displayName : String
  quotaMb : Int
  status : AccountStatus
  createdAt : Timestamp

structure AccountRow extends Account where
  sesameUserId : Option Uuid
  updatedAt : Timestamp

structure AbusePolicy where
  tenantId : Uuid
  reject : F64
  addHeader : F64
  greylist : F64
  updatedAt : Timestamp

structure AbuseDecision where
  id : Uuid
  tenantId : Uuid
  messageRef : String
  direction : String
  recipient : String
  sender : String
  score : F32
  action : String
  verdict : String
  symbols : Json
  scannedAt : Timestamp

structure QuarantineItem where
  id : Uuid
  tenantId : Uuid
  decisionId : Uuid
  messageRef : String
  recipient : String
  sender : String
  subject : String
  reason : String
  status : ItemStatus
  reportedAs : Option String
  heldAt : Timestamp
  resolvedAt : Option Timestamp
  resolvedBy : Option String

/-- The unique key `(tenant_id, message_ref)`. -/
def QuarantineItem.messageKey (i : QuarantineItem) : Uuid × String := (i.tenantId, i.messageRef)

structure Database where
  tenants : Table Tenant.id
  domains : Table Domain.id
  accounts : Table fun a : AccountRow => a.id
  abusePolicy : Table AbusePolicy.tenantId
  auditLog : List AuditEntry
  abuseDecision : Table AbuseDecision.id
  quarantineItem : Table QuarantineItem.id
  abuseAuditLog : List AuditEntry

/-- A freshly migrated database. -/
def Database.empty : Database where
  tenants := .empty
  domains := .empty
  accounts := .empty
  abusePolicy := .empty
  auditLog := []
  abuseDecision := .empty
  quarantineItem := .empty
  abuseAuditLog := []

/-! ### Column constraints -/

def lowerAlpha : List Char := "abcdefghijklmnopqrstuvwxyz".toList

def lowerAlnum : List Char := lowerAlpha ++ "0123456789".toList

def lowerAlnumDash : List Char := lowerAlnum ++ ['-']

/-- `^[a-z0-9][a-z0-9-]{1,62}$`. -/
def slugPattern : RegularExpression Char :=
  oneOf lowerAlnum * between 1 62 (oneOf lowerAlnumDash)

/-- `[a-z0-9]([a-z0-9-]{0,61}[a-z0-9])?`. -/
def labelPattern : RegularExpression Char :=
  oneOf lowerAlnum * optional (upTo 61 (oneOf lowerAlnumDash) * oneOf lowerAlnum)

/-- `^([a-z0-9]([a-z0-9-]{0,61}[a-z0-9])?\.)+[a-z]{2,63}$`. -/
def fqdnPattern : RegularExpression Char :=
  plus (labelPattern * oneOf ['.']) * between 2 63 (oneOf lowerAlpha)

def slugCheck (slug : String) : Bool := slugPattern.rmatch slug.toList

def fqdnCheck (fqdn : String) : Bool := fqdnPattern.rmatch fqdn.toList

/-- The characters of domain names. -/
def fqdnAlphabet : List Char := lowerAlnumDash ++ ['.']

theorem fqdnPattern_over : Over (· ∈ fqdnAlphabet) fqdnPattern := by
  have alnum : Over (· ∈ fqdnAlphabet) (oneOf lowerAlnum) := .oneOf_of_all (by decide)
  have alnumDash : Over (· ∈ fqdnAlphabet) (oneOf lowerAlnumDash) := .oneOf_of_all (by decide)
  have alpha : Over (· ∈ fqdnAlphabet) (oneOf lowerAlpha) := .oneOf_of_all (by decide)
  have dot : Over (· ∈ fqdnAlphabet) (oneOf ['.']) := .oneOf_of_all (by decide)
  have label : Over (· ∈ fqdnAlphabet) labelPattern :=
    alnum.mul ((alnumDash.upTo 61).mul alnum).optional
  exact (label.mul dot).plus.mul (alpha.between 2 63)

theorem fqdnCheck_chars {fqdn : String} (h : fqdnCheck fqdn = true) :
    ∀ c ∈ fqdn.toList, c ∈ fqdnAlphabet :=
  fqdnPattern_over _ (RegularExpression.rmatch_iff_matches' _ _ |>.1 h)

theorem slugPattern_over : Over (· ∈ lowerAlnumDash) slugPattern := by
  have alnum : Over (· ∈ lowerAlnumDash) (oneOf lowerAlnum) := .oneOf_of_all (by decide)
  have alnumDash : Over (· ∈ lowerAlnumDash) (oneOf lowerAlnumDash) := .oneOf_of_all (by decide)
  exact alnum.mul (alnumDash.between 1 62)

theorem slugCheck_chars {slug : String} (h : slugCheck slug = true) :
    ∀ c ∈ slug.toList, c ∈ lowerAlnumDash :=
  slugPattern_over _ (RegularExpression.rmatch_iff_matches' _ _ |>.1 h)

theorem textOk_of_fqdnCheck {fqdn : String} (h : fqdnCheck fqdn = true) : textOk fqdn = true := by
  have hnul : '\x00' ∉ fqdn.toList := fun hc => absurd (fqdnCheck_chars h _ hc) (by decide)
  simp [textOk, hnul]

def quotaCheck (quotaMb : Int) : Bool := decide (1 ≤ quotaMb ∧ quotaMb ≤ 1048576)

def policyCheck (reject addHeader greylist : F64) : Bool :=
  (F64.fin 0).pgLt reject && (F64.fin 0).pgLt addHeader && (F64.fin 0).pgLt greylist &&
    greylist.pgLt addHeader && addHeader.pgLt reject

def directionCheck (direction : String) : Bool := ["inbound", "outbound"].contains direction

def actionCheck (action : String) : Bool :=
  ["accept", "junk", "quarantine", "reject", "discard"].contains action

def verdictCheck (verdict : String) : Bool :=
  ["ham", "spam", "phishing", "malware"].contains verdict

def reportedAsCheck (reportedAs : String) : Bool := ["spam", "ham"].contains reportedAs

/-- What PostgreSQL enforces on stored rows: CHECK, UNIQUE and REFERENCES.
Primary keys are part of the table type. -/
structure Constraints (d : Database) : Prop where
  slug_check : ∀ t ∈ d.tenants, slugCheck t.slug = true
  slug_unique : ∀ t ∈ d.tenants, ∀ t' ∈ d.tenants, t.slug = t'.slug → t = t'
  fqdn_check : ∀ m ∈ d.domains, fqdnCheck m.fqdn = true
  fqdn_unique : ∀ m ∈ d.domains, ∀ m' ∈ d.domains, m.fqdn = m'.fqdn → m = m'
  domain_tenant : ∀ m ∈ d.domains, ∃ t ∈ d.tenants, t.id = m.tenantId
  email_unique : ∀ a ∈ d.accounts, ∀ a' ∈ d.accounts, a.email = a'.email → a = a'
  quota_check : ∀ a ∈ d.accounts, quotaCheck a.quotaMb = true
  account_tenant : ∀ a ∈ d.accounts, ∃ t ∈ d.tenants, t.id = a.tenantId
  account_domain : ∀ a ∈ d.accounts, ∃ m ∈ d.domains, m.id = a.domainId
  policy_check : ∀ p ∈ d.abusePolicy, policyCheck p.reject p.addHeader p.greylist = true
  policy_tenant : ∀ p ∈ d.abusePolicy, ∃ t ∈ d.tenants, t.id = p.tenantId
  decision_check : ∀ x ∈ d.abuseDecision,
    (directionCheck x.direction && actionCheck x.action && verdictCheck x.verdict) = true
  item_unique : ∀ i ∈ d.quarantineItem, ∀ i' ∈ d.quarantineItem,
    i.messageKey = i'.messageKey → i = i'
  item_reported : ∀ i ∈ d.quarantineItem, ∀ r, i.reportedAs = some r → reportedAsCheck r = true
  item_decision : ∀ i ∈ d.quarantineItem, ∃ x ∈ d.abuseDecision, x.id = i.decisionId

theorem Constraints.empty : Constraints Database.empty := by
  constructor <;> simp [Database.empty]

/-! ### Writes -/

/-- A row written by a statement. Audit rows have no key that anything else
could refer to. -/
inductive Write
  | tenant (c : Change Tenant)
  | domain (c : Change Domain)
  | account (c : Change AccountRow)
  | abusePolicy (c : Change AbusePolicy)
  | audit (e : AuditEntry)
  | abuseDecision (c : Change AbuseDecision)
  | quarantineItem (c : Change QuarantineItem)
  | abuseAudit (e : AuditEntry)

namespace Write

def apply : Write → Database → Database
  | .tenant c, d => { d with tenants := d.tenants.put c.new }
  | .domain c, d => { d with domains := d.domains.put c.new }
  | .account c, d => { d with accounts := d.accounts.put c.new }
  | .abusePolicy c, d => { d with abusePolicy := d.abusePolicy.put c.new }
  | .audit e, d => { d with auditLog := d.auditLog ++ [e] }
  | .abuseDecision c, d => { d with abuseDecision := d.abuseDecision.put c.new }
  | .quarantineItem c, d => { d with quarantineItem := d.quarantineItem.put c.new }
  | .abuseAudit e, d => { d with abuseAuditLog := d.abuseAuditLog ++ [e] }

/-- Row locks and pending entries of unique indexes. -/
def clash : Write → Write → Prop
  | .tenant c, .tenant c' => c.Clashes Tenant.id Tenant.slug c'
  | .domain c, .domain c' => c.Clashes Domain.id Domain.fqdn c'
  | .account c, .account c' => c.Clashes (fun a : AccountRow => a.id) (·.email) c'
  | .abusePolicy c, .abusePolicy c' => c.Clashes AbusePolicy.tenantId AbusePolicy.tenantId c'
  | .abuseDecision c, .abuseDecision c' => c.Clashes AbuseDecision.id AbuseDecision.id c'
  | .quarantineItem c, .quarantineItem c' =>
      c.Clashes QuarantineItem.id QuarantineItem.messageKey c'
  | _, _ => False

/-- The write still says the right thing about the tables: see `Change.Fits`.
No statement moves a row to another tenant. -/
def fits : Write → Database → Prop
  | .tenant c, d => c.Fits Tenant.slug Tenant.id d.tenants
  | .domain c, d => c.Fits Domain.fqdn Domain.tenantId d.domains
  | .account c, d => c.Fits (fun a : AccountRow => a.email) (fun a => a.tenantId) d.accounts
  | .abusePolicy c, d => c.Fits AbusePolicy.tenantId AbusePolicy.tenantId d.abusePolicy
  | .audit _, _ => True
  | .abuseDecision c, d => c.Fits AbuseDecision.id AbuseDecision.tenantId d.abuseDecision
  | .quarantineItem c, d =>
      c.Fits QuarantineItem.messageKey QuarantineItem.tenantId d.quarantineItem
  | .abuseAudit _, _ => True

instance (w w' : Write) : Decidable (w.clash w') := by
  cases w <;> cases w' <;>
    first | exact inferInstanceAs (Decidable (_ ∨ _)) | exact inferInstanceAs (Decidable False)

theorem clash_symm {w w' : Write} (h : clash w w') : clash w' w := by
  cases w <;> cases w' <;> simp only [clash] at h ⊢ <;> exact h.symm

theorem fits_apply_iff {w w' : Write} {d : Database} (hfit : fits w' d) (hno : ¬clash w w') :
    fits w (apply w' d) ↔ fits w d := by
  cases w <;> cases w' <;> first | exact Change.fits_put_iff hfit hno | exact Iff.rfl

end Write

end OpenGroupware
