import OpenGroupware.StatementLemmas
import OpenGroupware.AdminApi

/-!
What holds of every store the services leave behind, and how stores follow one
another: rows are never deleted, most of their columns never change, and the
audit logs only grow.
-/

namespace OpenGroupware

open Relational Transactional

/-! ### Consistent stores -/

/-- The account's address is a local part at a domain of the account's own
tenant, and that domain is the one it refers to. -/
def AccountRow.Addressed (a : AccountRow) (d : Database) : Prop :=
  ∃ m ∈ d.domains, m.id = a.domainId ∧ m.tenantId = a.tenantId ∧
    ∃ l : String, localPartOk l.toList = true ∧ a.email = l ++ "@" ++ m.fqdn

structure Consistent (d : Database) : Prop extends Constraints d where
  account_addressed : ∀ a ∈ d.accounts, a.Addressed d

theorem Consistent.empty : Consistent Database.empty where
  toConstraints := Constraints.empty
  account_addressed := by simp [Database.empty]

theorem localPartOk_at {l : List Char} (h : localPartOk l = true) : '@' ∉ l := by
  intro hat
  simp only [localPartOk, Bool.and_eq_true, List.all_eq_true] at h
  have hchar : localPartChar '@' = true := h.1.1.2 '@' hat
  revert hchar
  decide

/-- What stands before the first separator, and what after it. -/
theorem append_cons_cancel {α : Type} {a : α} {l l' r r' : List α} (hl : a ∉ l) (hl' : a ∉ l')
    (h : l ++ a :: r = l' ++ a :: r') : l = l' ∧ r = r' := by
  induction l generalizing l' with
  | nil =>
      cases l' with
      | nil => exact ⟨rfl, (List.cons.inj h).2⟩
      | cons b l' => exact absurd ((List.cons.inj h).1 ▸ List.mem_cons_self) hl'
  | cons b l ih =>
      cases l' with
      | nil => exact absurd ((List.cons.inj h).1 ▸ List.mem_cons_self) hl
      | cons b' l' =>
          obtain ⟨rfl, htail⟩ := List.cons.inj h
          obtain ⟨rfl, rfl⟩ := ih (fun hm => hl (List.mem_cons_of_mem _ hm))
            (fun hm => hl' (List.mem_cons_of_mem _ hm)) htail
          exact ⟨rfl, rfl⟩

/-- An address at a domain can only be that of an account of the domain's
tenant. -/
theorem Consistent.email_tenant {d : Database} (h : Consistent d) {m : Domain} {a : AccountRow}
    {l : String} (hm : m ∈ d.domains) (ha : a ∈ d.accounts) (hl : localPartOk l.toList = true)
    (hemail : a.email = l ++ "@" ++ m.fqdn) : a.tenantId = m.tenantId := by
  obtain ⟨m', hm', -, hT, l', hl', hemail'⟩ := h.account_addressed a ha
  have heq := congrArg String.toList (hemail.symm.trans hemail')
  simp only [String.toList_append, List.append_assoc] at heq
  obtain ⟨-, hfqdn⟩ := append_cons_cancel (localPartOk_at hl) (localPartOk_at hl') heq
  rw [← hT, h.fqdn_unique m hm m' hm' (String.toList_injective hfqdn)]

/-! ### Evolution -/

/-- A tenant with its status masked; nothing else ever changes. -/
def Tenant.fixed (t : Tenant) : Tenant := { t with status := .active }

def Domain.fixed (m : Domain) : Domain := { m with status := .active }

/-- The columns of an account that activation and operators leave alone. -/
def AccountRow.fixed (a : AccountRow) : AccountRow :=
  { a with status := .active, sesameUserId := none, updatedAt := 0 }

theorem AccountRow.columns_of_fixed {a a' : AccountRow} (h : a'.fixed = a.fixed) :
    a'.id = a.id ∧ a'.tenantId = a.tenantId ∧ a'.domainId = a.domainId ∧ a'.email = a.email ∧
      a'.displayName = a.displayName ∧ a'.quotaMb = a.quotaMb := by
  simp only [AccountRow.fixed, AccountRow.mk.injEq, Account.mk.injEq] at h
  obtain ⟨⟨hid, hT, hdomain, hemail, hname, hquota, -⟩, -⟩ := h
  exact ⟨hid, hT, hdomain, hemail, hname, hquota⟩

def QuarantineItem.fixed (i : QuarantineItem) : QuarantineItem :=
  { i with status := .held, reportedAs := none, resolvedAt := none, resolvedBy := none }

/-- How a quarantine item may change: feedback at any time, and one release. -/
def QuarantineItem.Follows (i i' : QuarantineItem) : Prop :=
  i'.fixed = i.fixed ∧
    ((i'.status = i.status ∧ i'.resolvedAt = i.resolvedAt ∧ i'.resolvedBy = i.resolvedBy) ∨
      (i.status = .held ∧ i'.status = .released))

theorem QuarantineItem.Follows.refl (i : QuarantineItem) : i.Follows i :=
  ⟨rfl, .inl ⟨rfl, rfl, rfl⟩⟩

theorem QuarantineItem.Follows.trans {i j k : QuarantineItem} (h : i.Follows j)
    (h' : j.Follows k) : i.Follows k := by
  obtain ⟨hfixed, h⟩ := h
  obtain ⟨hfixed', h'⟩ := h'
  refine ⟨hfixed'.trans hfixed, ?_⟩
  rcases h with ⟨hs, ha, hb⟩ | ⟨hs, hs'⟩
  · rcases h' with ⟨hs', ha', hb'⟩ | ⟨hj, hk⟩
    · exact .inl ⟨hs'.trans hs, ha'.trans ha, hb'.trans hb⟩
    · exact .inr ⟨hs.symm.trans hj, hk⟩
  · rcases h' with ⟨hk, -, -⟩ | ⟨-, hk⟩
    · exact .inr ⟨hs, hk.trans hs'⟩
    · exact .inr ⟨hs, hk⟩

structure Evolves (d d' : Database) : Prop where
  tenants : d.tenants.Leads (fun t t' => t'.fixed = t.fixed) d'.tenants
  domains : d.domains.Leads (fun m m' => m'.fixed = m.fixed) d'.domains
  accounts : d.accounts.Leads (fun a a' => a'.fixed = a.fixed) d'.accounts
  abusePolicy : d.abusePolicy.Leads (fun p p' => p'.tenantId = p.tenantId) d'.abusePolicy
  auditLog : d.auditLog <+: d'.auditLog
  abuseDecision : d.abuseDecision.Leads Eq d'.abuseDecision
  quarantineItem : d.quarantineItem.Leads QuarantineItem.Follows d'.quarantineItem
  abuseAuditLog : d.abuseAuditLog <+: d'.abuseAuditLog

namespace Evolves

theorem refl (d : Database) : Evolves d d where
  tenants := .refl (fun t => Eq.refl t.fixed) _
  domains := .refl (fun m => Eq.refl m.fixed) _
  accounts := .refl (fun a => Eq.refl a.fixed) _
  abusePolicy := .refl (fun p => Eq.refl p.tenantId) _
  auditLog := List.prefix_refl _
  abuseDecision := .refl (fun _ => rfl) _
  quarantineItem := .refl QuarantineItem.Follows.refl _
  abuseAuditLog := List.prefix_refl _

theorem trans {d d' d'' : Database} (h : Evolves d d') (h' : Evolves d' d'') : Evolves d d'' where
  tenants := h.tenants.trans (fun _ _ _ e e' => e'.trans e) h'.tenants
  domains := h.domains.trans (fun _ _ _ e e' => e'.trans e) h'.domains
  accounts := h.accounts.trans (fun _ _ _ e e' => e'.trans e) h'.accounts
  abusePolicy := h.abusePolicy.trans (fun _ _ _ e e' => e'.trans e) h'.abusePolicy
  auditLog := h.auditLog.trans h'.auditLog
  abuseDecision := h.abuseDecision.trans (fun _ _ _ e e' => e.trans e') h'.abuseDecision
  quarantineItem := h.quarantineItem.trans (fun _ _ _ e e' => e.trans e') h'.quarantineItem
  abuseAuditLog := h.abuseAuditLog.trans h'.abuseAuditLog

variable {d d' : Database}

theorem tenant_exists (h : Evolves d d') {T : Uuid} (hT : ∃ t ∈ d.tenants, t.id = T) :
    ∃ t ∈ d'.tenants, t.id = T := by
  obtain ⟨t, ht, rfl⟩ := hT
  obtain ⟨t', ht', hfixed⟩ := h.tenants t ht
  have hid := congrArg Tenant.id hfixed
  exact ⟨t', ht', hid⟩

theorem domain_exists (h : Evolves d d') {m : Domain} (hm : m ∈ d.domains) :
    ∃ m' ∈ d'.domains, m'.id = m.id ∧ m'.tenantId = m.tenantId ∧ m'.fqdn = m.fqdn := by
  obtain ⟨m', hm', hfixed⟩ := h.domains m hm
  have hid := congrArg Domain.id hfixed
  have hT := congrArg Domain.tenantId hfixed
  have hfqdn := congrArg Domain.fqdn hfixed
  exact ⟨m', hm', hid, hT, hfqdn⟩

theorem item_exists (h : Evolves d d') {k : Uuid × String}
    (hi : ∃ i ∈ d.quarantineItem, i.messageKey = k) :
    ∃ i ∈ d'.quarantineItem, i.messageKey = k := by
  obtain ⟨i, hi, rfl⟩ := hi
  obtain ⟨i', hi', hfixed, -⟩ := h.quarantineItem i hi
  have hkey := congrArg QuarantineItem.messageKey hfixed
  exact ⟨i', hi', hkey⟩

theorem addressed (h : Evolves d d') {a : AccountRow} (ha : a.Addressed d) : a.Addressed d' := by
  obtain ⟨m, hm, hid, hT, l, hl, hemail⟩ := ha
  obtain ⟨m', hm', hid', hT', hfqdn⟩ := h.domain_exists hm
  exact ⟨m', hm', hid'.trans hid, hT'.trans hT, l, hl, hfqdn ▸ hemail⟩

end Evolves

/-! ### Legal writes -/

/-- What a write has to respect, next to fitting the store it is applied to:
the constraints on the row it leaves, and the columns of the row it replaces
that never change. -/
def Write.Legal (d : Database) : Write → Prop
  | .tenant c => slugCheck c.new.slug = true ∧ ∀ t, c.old = some t → c.new.fixed = t.fixed
  | .domain c => fqdnCheck c.new.fqdn = true ∧ (∃ t ∈ d.tenants, t.id = c.new.tenantId) ∧
      ∀ m, c.old = some m → c.new.fixed = m.fixed
  | .account c => quotaCheck c.new.quotaMb = true ∧ c.new.Addressed d ∧
      ∀ a, c.old = some a → c.new.fixed = a.fixed
  | .abusePolicy c => policyCheck c.new.reject c.new.addHeader c.new.greylist = true ∧
      (∃ t ∈ d.tenants, t.id = c.new.tenantId)
  | .audit _ => True
  | .abuseDecision c => c.old = none ∧ (directionCheck c.new.direction &&
      actionCheck c.new.action && verdictCheck c.new.verdict) = true
  | .quarantineItem c => (∃ x ∈ d.abuseDecision, x.id = c.new.decisionId) ∧
      (∀ r, c.new.reportedAs = some r → reportedAsCheck r = true) ∧
      ∀ i, c.old = some i → i.Follows c.new
  | .abuseAudit _ => True

namespace Write

variable {d : Database} {w : Write}

theorem Legal.evolves (hlegal : w.Legal d) (hfit : w.fits d) : Evolves d (w.apply d) := by
  have h := Evolves.refl d
  cases w with
  | tenant c => exact { h with tenants := .put (fun _ => rfl) hfit hlegal.2 }
  | domain c => exact { h with domains := .put (fun _ => rfl) hfit hlegal.2.2 }
  | account c => exact { h with accounts := .put (fun _ => rfl) hfit hlegal.2.2 }
  | abusePolicy c =>
      refine { h with abusePolicy := .put (fun _ => rfl) hfit fun p hp => ?_ }
      simp only [fits, Change.Fits, hp] at hfit
      exact hfit.2.1.symm
  | audit e => exact { h with auditLog := List.prefix_append _ _ }
  | abuseDecision c =>
      exact { h with abuseDecision := .put (fun _ => rfl) hfit (by simp [hlegal.1]) }
  | quarantineItem c =>
      exact { h with
        quarantineItem := .put QuarantineItem.Follows.refl hfit hlegal.2.2 }
  | abuseAudit e => exact { h with abuseAuditLog := List.prefix_append _ _ }

/-- A property of all rows that the new row has too holds after a write. -/
theorem forall_put {α κ : Type} [DecidableEq κ] {key : α → κ} {t : Table key} {r : α}
    {p : α → Prop} (h : ∀ x ∈ t, p x) (hr : p r) : ∀ x ∈ t.put r, p x := by
  intro x hx
  rcases Table.mem_put.1 hx with rfl | ⟨hx, -⟩
  · exact hr
  · exact h x hx

/-- A legal write that fits keeps the store consistent. -/
theorem Legal.consistent (h : Consistent d) (hlegal : w.Legal d) (hfit : w.fits d) :
    Consistent (w.apply d) := by
  have hev := hlegal.evolves hfit
  cases w with
  | tenant c =>
      exact { h with
        slug_check := forall_put h.slug_check hlegal.1
        slug_unique := Change.Fits.unique_put hfit h.slug_unique
        domain_tenant := fun m hm => hev.tenant_exists (h.domain_tenant m hm)
        account_tenant := fun a ha => hev.tenant_exists (h.account_tenant a ha)
        policy_tenant := fun p hp => hev.tenant_exists (h.policy_tenant p hp) }
  | domain c =>
      exact { h with
        fqdn_check := forall_put h.fqdn_check hlegal.1
        fqdn_unique := Change.Fits.unique_put hfit h.fqdn_unique
        domain_tenant := forall_put h.domain_tenant hlegal.2.1
        account_domain := fun a ha => Table.exists_key_put (h.account_domain a ha)
        account_addressed := fun a ha => hev.addressed (h.account_addressed a ha) }
  | account c =>
      obtain ⟨m, hm, hid, hT, l, hl, hemail⟩ := hlegal.2.1
      exact { h with
        email_unique := Change.Fits.unique_put hfit h.email_unique
        quota_check := forall_put h.quota_check hlegal.1
        account_tenant := forall_put h.account_tenant (hT ▸ h.domain_tenant m hm)
        account_domain := forall_put h.account_domain ⟨m, hm, hid⟩
        account_addressed := forall_put h.account_addressed ⟨m, hm, hid, hT, l, hl, hemail⟩ }
  | abusePolicy c =>
      exact { h with
        policy_check := forall_put h.policy_check hlegal.1
        policy_tenant := forall_put h.policy_tenant hlegal.2 }
  | audit e => exact { h with }
  | abuseDecision c =>
      exact { h with
        decision_check := forall_put h.decision_check hlegal.2
        item_decision := fun i hi => Table.exists_key_put (h.item_decision i hi) }
  | quarantineItem c =>
      exact { h with
        item_unique := Change.Fits.unique_put hfit h.item_unique
        item_reported := forall_put h.item_reported hlegal.2.1
        item_decision := forall_put h.item_decision hlegal.1 }
  | abuseAudit e => exact { h with }

/-- Writes that are legal one after the other. -/
def LegalAll : Database → List Write → Prop
  | _, [] => True
  | d, w :: ws => w.Legal d ∧ LegalAll (w.apply d) ws

theorem LegalAll.sound {ws : List Write} {d : Database} (h : LegalAll d ws)
    (hinv : Consistent d) (hpend : postgres.Pending fits ws d) :
    Consistent (postgres.applyAll ws d) ∧ Evolves d (postgres.applyAll ws d) := by
  induction ws generalizing d with
  | nil => exact ⟨hinv, Evolves.refl d⟩
  | cons w ws ih =>
      obtain ⟨hfit, hrest⟩ := postgres_lawful.pending_cons hpend
      obtain ⟨hcons, hev⟩ := ih h.2 (h.1.consistent hinv hfit) hrest
      exact ⟨hcons, (h.1.evolves hfit).trans hev⟩

end Write

end OpenGroupware
