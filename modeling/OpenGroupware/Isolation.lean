import OpenGroupware.Evaluation
import OpenGroupware.Relational.Agree
import OpenGroupware.Transactional.Alone

/-!
Tenants are isolated from each other: what a handler under the path of a
tenant reads and writes is that tenant's, on whatever connection of the pool
its transactions run.
-/

namespace OpenGroupware

open Relational Transactional

/-! ### The rows of a tenant -/

/-- The stores have the same rows of tenant `T`. -/
structure Agrees (T : Uuid) (d d' : Database) : Prop where
  tenants : d.tenants.AgreeOn (fun t => t.id = T) d'.tenants
  domains : d.domains.AgreeOn (fun m => m.tenantId = T) d'.domains
  accounts : d.accounts.AgreeOn (fun a => a.tenantId = T) d'.accounts
  abusePolicy : d.abusePolicy.AgreeOn (fun p => p.tenantId = T) d'.abusePolicy
  auditLog : d.auditLog.filter (fun e => decide (e.tenantId = some T)) =
    d'.auditLog.filter fun e => decide (e.tenantId = some T)
  abuseDecision : d.abuseDecision.AgreeOn (fun x => x.tenantId = T) d'.abuseDecision
  quarantineItem : d.quarantineItem.AgreeOn (fun i => i.tenantId = T) d'.quarantineItem
  abuseAuditLog : d.abuseAuditLog.filter (fun e => decide (e.tenantId = some T)) =
    d'.abuseAuditLog.filter fun e => decide (e.tenantId = some T)

namespace Agrees

variable {T : Uuid} {d d' d'' : Database}

theorem refl (T : Uuid) (d : Database) : Agrees T d d where
  tenants := .refl _
  domains := .refl _
  accounts := .refl _
  abusePolicy := .refl _
  auditLog := rfl
  abuseDecision := .refl _
  quarantineItem := .refl _
  abuseAuditLog := rfl

theorem symm (h : Agrees T d d') : Agrees T d' d where
  tenants := h.tenants.symm
  domains := h.domains.symm
  accounts := h.accounts.symm
  abusePolicy := h.abusePolicy.symm
  auditLog := h.auditLog.symm
  abuseDecision := h.abuseDecision.symm
  quarantineItem := h.quarantineItem.symm
  abuseAuditLog := h.abuseAuditLog.symm

theorem trans (h : Agrees T d d') (h' : Agrees T d' d'') : Agrees T d d'' where
  tenants := h.tenants.trans h'.tenants
  domains := h.domains.trans h'.domains
  accounts := h.accounts.trans h'.accounts
  abusePolicy := h.abusePolicy.trans h'.abusePolicy
  auditLog := h.auditLog.trans h'.auditLog
  abuseDecision := h.abuseDecision.trans h'.abuseDecision
  quarantineItem := h.quarantineItem.trans h'.quarantineItem
  abuseAuditLog := h.abuseAuditLog.trans h'.abuseAuditLog

theorem apply (h : Agrees T d d') (w : Write) : Agrees T (w.apply d) (w.apply d') := by
  cases w with
  | tenant c => exact { h with tenants := h.tenants.put c.new }
  | domain c => exact { h with domains := h.domains.put c.new }
  | account c => exact { h with accounts := h.accounts.put c.new }
  | abusePolicy c => exact { h with abusePolicy := h.abusePolicy.put c.new }
  | audit e =>
      refine { h with auditLog := ?_ }
      simp only [Write.apply, List.filter_append, h.auditLog]
  | abuseDecision c => exact { h with abuseDecision := h.abuseDecision.put c.new }
  | quarantineItem c => exact { h with quarantineItem := h.quarantineItem.put c.new }
  | abuseAudit e =>
      refine { h with abuseAuditLog := ?_ }
      simp only [Write.apply, List.filter_append, h.abuseAuditLog]

end Agrees

/-- The tenant whose row is written. -/
def Write.owner : Write → Option Uuid
  | .tenant c => some c.new.id
  | .domain c => some c.new.tenantId
  | .account c => some c.new.tenantId
  | .abusePolicy c => some c.new.tenantId
  | .audit e => e.tenantId
  | .abuseDecision c => some c.new.tenantId
  | .quarantineItem c => some c.new.tenantId
  | .abuseAudit e => e.tenantId

/-- A write to another tenant's row. No write takes a row from its tenant. -/
theorem Agrees.apply_other {T : Uuid} {d : Database} {w : Write} (hfit : w.fits d)
    (hw : w.owner ≠ some T) : Agrees T d (w.apply d) := by
  have h := Agrees.refl T d
  have hne : ∀ {U : Uuid}, w.owner = some U → U ≠ T := fun hU e => hw (hU.trans (congrArg some e))
  cases w with
  | tenant c => exact { h with tenants := Change.Fits.agreeOn_put hfit (hne rfl) }
  | domain c => exact { h with domains := Change.Fits.agreeOn_put hfit (hne rfl) }
  | account c => exact { h with accounts := Change.Fits.agreeOn_put hfit (hne rfl) }
  | abusePolicy c => exact { h with abusePolicy := Change.Fits.agreeOn_put hfit (hne rfl) }
  | audit e =>
      have hT : e.tenantId ≠ some T := hw
      exact { h with auditLog := by simp [Write.apply, hT] }
  | abuseDecision c => exact { h with abuseDecision := Change.Fits.agreeOn_put hfit (hne rfl) }
  | quarantineItem c =>
      exact { h with quarantineItem := Change.Fits.agreeOn_put hfit (hne rfl) }
  | abuseAudit e =>
      have hT : e.tenantId ≠ some T := hw
      exact { h with abuseAuditLog := by simp [Write.apply, hT] }

/-! ### Statements of a tenant -/

namespace Sql

theorem orderBy_agree {α : Type} {key : α → Uuid} {t t' : Table key} {p : α → Prop}
    (h : t.AgreeOn p t') {q q' : α → Bool} (hq : ∀ r, q r = true → p r) (hqq' : ∀ r, q r = q' r)
    (o : Oracle) (time : α → Nat) :
    orderBy o time key (t.rows.filter q) = orderBy o time key (t'.rows.filter q') := by
  have hfilter : t'.rows.filter q' = t'.rows.filter q :=
    List.filter_congr fun r _ => (hqq' r).symm
  rw [hfilter]
  refine h.insertionSort_eq hq fun a b hab hba => o.rank_injective ?_
  simp only [notAfter, Bool.or_eq_true, Bool.and_eq_true, decide_eq_true_eq] at hab hba
  omega

end Sql

/-- Two sessions of tenant `T` at one time, on stores with the same rows of
`T`. -/
structure Alike (T : Uuid) (s s' : Session) (d d' : Database) : Prop where
  left : s.ForTenant T
  right : s'.ForTenant T
  now : s.now = s'.now
  store : Agrees T d d'

/-- Another tenant has the domain name. -/
def Database.taken (d : Database) (T : Uuid) (fqdn : String) : Bool :=
  d.domains.rows.any fun m => decide (m.fqdn = fqdn) && decide (m.tenantId ≠ T)

theorem Database.taken_eq_true {d : Database} {T : Uuid} {fqdn : String} :
    d.taken T fqdn = true ↔ ∃ m ∈ d.domains, m.fqdn = fqdn ∧ m.tenantId ≠ T := by
  simp [taken]

namespace Alike

variable {T : Uuid} {s s' : Session} {o : Oracle} {d d' : Database} (h : Alike T s s' d d')

include h

theorem sees (tid : Option Uuid) : s.sees tid = s'.sees tid := by
  rw [Bool.eq_iff_iff, h.left.sees_iff, h.right.sees_iff]

theorem tenant_of_sees {r : Uuid} (hr : s.sees (some r) = true) : r = T := by
  simpa using (h.left.sees_iff _).1 hr

theorem has_tenant : d.tenants.has Tenant.id T = d'.tenants.has Tenant.id T :=
  h.store.tenants.has_eq fun _ => id

theorem insertAudit {plane : Plane} {e : AuditEntry} (he : e.tenantId = some T) :
    Sql.insertAudit s d plane e = Sql.insertAudit s' d' plane e := by
  simp only [Sql.insertAudit, h.sees, he, Option.all_some, h.has_tenant]

/-- The answer depends on the one bit whether another tenant has the name. -/
theorem insertDomain {fqdn : String} (hid : d.domains.has Domain.id o.uuid = false)
    (hid' : d'.domains.has Domain.id o.uuid = false) (htaken : d.taken T fqdn = d'.taken T fqdn) :
    Sql.insertDomain s o d T fqdn = Sql.insertDomain s' o d' T fqdn := by
  have hsplit : ∀ v : Database, v.domains.has Domain.fqdn fqdn = true ↔
      (∃ m ∈ v.domains, m.tenantId = T ∧ m.fqdn = fqdn) ∨ v.taken T fqdn = true := by
    intro v
    rw [Table.has_eq_true, Database.taken_eq_true]
    constructor
    · rintro ⟨m, hm, hfqdn⟩
      by_cases hT : m.tenantId = T
      · exact .inl ⟨m, hm, hT, hfqdn⟩
      · exact .inr ⟨m, hm, hfqdn, hT⟩
    · rintro (⟨m, hm, -, hfqdn⟩ | ⟨m, hm, hfqdn, -⟩) <;> exact ⟨m, hm, hfqdn⟩
  have hfqdn : d.domains.has Domain.fqdn fqdn = d'.domains.has Domain.fqdn fqdn := by
    rw [Bool.eq_iff_iff, hsplit, hsplit, htaken, h.store.domains.exists_iff fun _ => And.left]
  simp only [Sql.insertDomain, h.sees, hid, hid', hfqdn, h.has_tenant, h.now]

theorem selectDomains : Sql.selectDomains s o d = Sql.selectDomains s' o d' :=
  Sql.orderBy_agree h.store.domains (fun _ => h.tenant_of_sees) (fun _ => h.sees _) o _

theorem selectDomainFqdn (domainId : Uuid) :
    Sql.selectDomainFqdn s d domainId = Sql.selectDomainFqdn s' d' domainId := by
  have hseen : ∀ (s : Session) (d : Database), Sql.selectDomainFqdn s d domainId =
      (((d.domains.find? domainId).filter fun m => s.sees (some m.tenantId)).filter fun m =>
        decide (m.status ≠ .suspended)).map Domain.fqdn := by
    intro s d
    unfold Sql.selectDomainFqdn
    cases d.domains.find? domainId with
    | none => rfl
    | some m =>
        by_cases hs : s.sees (some m.tenantId) = true <;> by_cases hm : m.status = .suspended <;>
          simp [hs, hm]
  rw [hseen, hseen, h.store.domains.find?_filter_eq fun _ => h.tenant_of_sees]
  simp only [h.sees]

theorem insertAccount {domainId : Uuid} {email displayName : String} {quotaMb : Int}
    (hid : d.accounts.has (fun a => a.id) o.uuid = false)
    (hid' : d'.accounts.has (fun a => a.id) o.uuid = false)
    (hdomain : d.domains.has Domain.id domainId = true)
    (hdomain' : d'.domains.has Domain.id domainId = true)
    (hemail : ∀ a ∈ d.accounts, a.email = email → a.tenantId = T)
    (hemail' : ∀ a ∈ d'.accounts, a.email = email → a.tenantId = T) :
    Sql.insertAccount s o d T domainId email displayName quotaMb =
      Sql.insertAccount s' o d' T domainId email displayName quotaMb := by
  have hunique : d.accounts.has (fun a => a.email) email =
      d'.accounts.has (fun a => a.email) email := by
    rw [Bool.eq_iff_iff, Table.has_eq_true, Table.has_eq_true]
    constructor
    · rintro ⟨a, ha, he⟩
      exact ⟨a, (h.store.accounts a (hemail a ha he)).1 ha, he⟩
    · rintro ⟨a, ha, he⟩
      exact ⟨a, (h.store.accounts a (hemail' a ha he)).2 ha, he⟩
  simp only [Sql.insertAccount, h.sees, hid, hid', hunique, h.has_tenant, hdomain, hdomain', h.now]

theorem activateAccount (id u : Uuid) :
    Sql.activateAccount s d id u = Sql.activateAccount s' d' id u := by
  unfold Sql.activateAccount Sql.activated
  rw [h.store.accounts.find?_filter_eq (fun _ => h.tenant_of_sees) id, h.now]
  simp only [h.sees]

theorem selectAccounts : Sql.selectAccounts s o d = Sql.selectAccounts s' o d' :=
  congrArg (List.map AccountRow.toAccount)
    (Sql.orderBy_agree h.store.accounts (fun _ => h.tenant_of_sees) (fun _ => h.sees _) o _)

theorem selectPolicy (T' : Uuid) : Sql.selectPolicy s d T' = Sql.selectPolicy s' d' T' := by
  unfold Sql.selectPolicy
  rw [h.store.abusePolicy.find?_filter_eq (fun _ => h.tenant_of_sees) T']
  simp only [h.sees]

theorem upsertPolicy (reject addHeader greylist : F64) :
    Sql.upsertPolicy s d T reject addHeader greylist =
      Sql.upsertPolicy s' d' T reject addHeader greylist := by
  have hfind : d.abusePolicy.find? T = d'.abusePolicy.find? T :=
    h.store.abusePolicy.find?_eq fun _ => id
  simp only [Sql.upsertPolicy, h.sees, hfind, h.has_tenant, h.now]

theorem insertDecision {messageRef direction recipient sender : String} {score : F32}
    {action verdict : String} {symbols : Json}
    (hid : d.abuseDecision.has AbuseDecision.id o.uuid = false)
    (hid' : d'.abuseDecision.has AbuseDecision.id o.uuid = false) :
    Sql.insertDecision s o d T messageRef direction recipient sender score action verdict symbols =
      Sql.insertDecision s' o d' T messageRef direction recipient sender score action verdict
        symbols := by
  simp only [Sql.insertDecision, h.sees, hid, hid', h.now]

theorem insertItem {decisionId : Uuid} {messageRef recipient sender subject reason : String}
    (hid : d.quarantineItem.has QuarantineItem.id o.uuid = false)
    (hid' : d'.quarantineItem.has QuarantineItem.id o.uuid = false)
    (hdecision : d.abuseDecision.has AbuseDecision.id decisionId = true)
    (hdecision' : d'.abuseDecision.has AbuseDecision.id decisionId = true) :
    Sql.insertItem s o d T decisionId messageRef recipient sender subject reason =
      Sql.insertItem s' o d' T decisionId messageRef recipient sender subject reason := by
  have hkey : d.quarantineItem.has QuarantineItem.messageKey (T, messageRef) =
      d'.quarantineItem.has QuarantineItem.messageKey (T, messageRef) :=
    h.store.quarantineItem.has_eq fun _ hk => congrArg Prod.fst hk
  simp only [Sql.insertItem, h.sees, hkey, hid, hid', hdecision, hdecision', h.now]

theorem selectHeld : Sql.selectHeld s o d = Sql.selectHeld s' o d' := by
  refine congrArg List.reverse
    (Sql.orderBy_agree h.store.quarantineItem (fun i hi => ?_) (fun i => ?_) o _)
  · rw [Bool.and_eq_true] at hi
    exact h.tenant_of_sees hi.1
  · rw [h.sees]

theorem releaseItem (id : Uuid) (actor : String) :
    Sql.releaseItem s d id actor = Sql.releaseItem s' d' id actor := by
  have hfind := h.store.quarantineItem.find?_filter_eq
    (q := fun i => s.sees (some i.tenantId) && decide (i.status = .held))
    (fun i hi => h.tenant_of_sees (Bool.and_eq_true _ _ ▸ hi).1) id
  unfold Sql.releaseItem
  rw [hfind, h.now]
  simp only [h.sees]

theorem reportItem (id : Uuid) (verdict : String) :
    Sql.reportItem s d id verdict = Sql.reportItem s' d' id verdict := by
  unfold Sql.reportItem
  rw [h.store.quarantineItem.find?_filter_eq (fun _ => h.tenant_of_sees) id]
  simp only [h.sees]

end Alike

/-- What a statement may give away about other tenants. -/
def Stmt.discloses : {R : Type} → Stmt R → Database → Bool
  | _, .insertDomain T fqdn, d => d.taken T fqdn
  | _, _, _ => false

namespace Sql

variable {T : Uuid} {s s' : Session} {o : Oracle} {d d' : Database} {R : Type} {q : Stmt R}

/-- A scoped statement writes rows of its tenant. -/
theorem exec_owned (hq : q.Scoped T s d) {r : R} {ws : List Write}
    (h : exec q s o d = .ok (r, s', ws)) : ∀ w ∈ ws, w.owner = some T := by
  have one : ∀ {w : Write}, w.owner = some T → ∀ w' ∈ [w], w'.owner = some T :=
    fun hw w' hw' => List.mem_singleton.1 hw' ▸ hw
  have none : ∀ w ∈ ([] : List Write), w.owner = some T := fun w hw => absurd hw List.not_mem_nil
  cases q with
  | setConfig setting value =>
      obtain ⟨-, h⟩ := require_bind_eq_ok.1 h
      cases h
      exact none
  | insertAudit plane e =>
      obtain ⟨-, rfl⟩ := insertAudit_ok (keep_eq_ok.1 h).1
      cases plane <;> exact one hq.2
  | insertDomain T' fqdn =>
      obtain ⟨-, -, -, -, rfl, rfl⟩ := insertDomain_ok (keep_eq_ok.1 h).1
      exact one (congrArg some hq.2.1)
  | insertAccount T' domainId email displayName quotaMb =>
      obtain ⟨-, -, -, -, rfl, rfl⟩ := insertAccount_ok (keep_eq_ok.1 h).1
      exact one (congrArg some hq.2.1)
  | activateAccount id u =>
      obtain ⟨a, -, -, -, hsees, -, rfl⟩ := activateAccount_ok (keep_eq_ok.1 h).1
      exact one ((hq.sees_iff _).1 hsees)
  | upsertPolicy T' reject addHeader greylist =>
      obtain ⟨-, -, rfl, ⟨_, -, -, rfl⟩ | ⟨-, -, rfl⟩⟩ := upsertPolicy_ok (keep_eq_ok.1 h).1 <;>
        exact one (congrArg some hq.2)
  | insertDecision T' messageRef direction recipient sender score action verdict symbols =>
      obtain ⟨-, -, -, rfl, rfl⟩ := insertDecision_ok (keep_eq_ok.1 h).1
      exact one (congrArg some hq.2)
  | insertItem T' decisionId messageRef recipient sender subject reason =>
      obtain ⟨-, ⟨-, rfl⟩ | ⟨-, rfl⟩⟩ := insertItem_ok (keep_eq_ok.1 h).1
      · exact none
      · exact one (congrArg some hq.2.1)
  | releaseItem id actor =>
      rcases releaseItem_ok (keep_eq_ok.1 h).1 with ⟨i, -, -, hsees, -, -, rfl⟩ | ⟨-, -, rfl⟩
      · exact one ((hq.sees_iff _).1 hsees)
      · exact none
  | reportItem id verdict =>
      rcases reportItem_ok (keep_eq_ok.1 h).1 with ⟨i, -, -, hsees, -, -, rfl⟩ | ⟨-, rfl⟩
      · exact one ((hq.sees_iff _).1 hsees)
      · exact none
  | selectDomains | selectDomainFqdn | selectAccounts | selectPolicy | selectHeld =>
      cases h
      exact none
  | insertTenant | selectTenants | selectPending | activatePending | setTenantStatus
  | setDomainStatus | setAccountStatus => exact hq.elim

abbrev MatchedFor (T : Uuid) {R : Type} :
    Except DbError (R × Session × List Write) → Except DbError (R × Session × List Write) → Prop :=
  Matched (fun s s' => s.now = s'.now) fun w => decide (w.owner = some T)

/-- Scoped statements on stores with the same rows of the tenant have the same
results. -/
theorem exec_scoped (hq : q.Scoped T s d) (hq' : q.Scoped T s' d') (hfresh : o.Fresh d)
    (hfresh' : o.Fresh d') (hnow : s.now = s'.now) (hagree : Agrees T d d')
    (hbit : q.discloses d = q.discloses d') :
    MatchedFor T (exec q s o d) (exec q s' o d') := by
  have kept : ∀ {x x' : Except DbError (R × List Write)},
      (∀ r ws, exec q s o d = .ok (r, s, ws) → ∀ w ∈ ws, w.owner = some T) →
      exec q s o d = keep s x → x = x' → MatchedFor T (exec q s o d) (keep s' x') := by
    rintro x _ howned hx rfl
    rw [hx] at howned ⊢
    cases x with
    | error e => rfl
    | ok x => exact ⟨rfl, hnow, rfl, fun w hw => decide_eq_true (howned x.1 x.2 rfl w hw)⟩
  have read : ∀ {x x' : R}, x = x' →
      MatchedFor T (.ok (x, s, [])) (.ok (x', s', [])) := by
    rintro x _ rfl
    exact ⟨rfl, hnow, rfl, by simp⟩
  have howned : ∀ r ws, exec q s o d = .ok (r, s, ws) → ∀ w ∈ ws, w.owner = some T :=
    fun r ws h => exec_owned hq h
  obtain ⟨-, hdomain, haccount, hdecision, hitem⟩ := hfresh
  obtain ⟨-, hdomain', haccount', hdecision', hitem'⟩ := hfresh'
  cases q with
  | setConfig setting value =>
      obtain ⟨rfl, rfl, -⟩ := hq
      have hset : ∀ (s : Session) (d : Database),
          exec (.setConfig .currentTenantId T.toText) s o d =
            .ok ((), s.setConfig .currentTenantId T.toText, []) :=
        fun s d => require_bind_eq_ok.2 ⟨textOk_toText T, rfl⟩
      rw [hset, hset]
      exact ⟨rfl, hnow, rfl, by simp⟩
  | insertAudit plane e =>
      have h : Alike T s s' d d' := ⟨hq.1, hq'.1, hnow, hagree⟩
      exact kept howned rfl (h.insertAudit hq.2)
  | insertDomain T' fqdn =>
      obtain ⟨hs, rfl, -⟩ := hq
      have h : Alike T' s s' d d' := ⟨hs, hq'.1, hnow, hagree⟩
      exact kept howned rfl (h.insertDomain (Table.has_eq_false.2 hdomain)
        (Table.has_eq_false.2 hdomain') hbit)
  | selectDomains => exact read (Alike.selectDomains ⟨hq, hq', hnow, hagree⟩)
  | selectDomainFqdn id => exact read (Alike.selectDomainFqdn ⟨hq, hq', hnow, hagree⟩ id)
  | insertAccount T' domainId email displayName quotaMb =>
      obtain ⟨hs, rfl, ⟨m, hm, hid, -⟩, hemail⟩ := hq
      obtain ⟨hs', -, ⟨m', hm', hid', -⟩, hemail'⟩ := hq'
      have h : Alike T' s s' d d' := ⟨hs, hs', hnow, hagree⟩
      exact kept howned rfl (h.insertAccount (Table.has_eq_false.2 haccount)
        (Table.has_eq_false.2 haccount') (Table.has_eq_true.2 ⟨m, hm, hid⟩)
        (Table.has_eq_true.2 ⟨m', hm', hid'⟩) hemail hemail')
  | activateAccount id u =>
      have h : Alike T s s' d d' := ⟨hq, hq', hnow, hagree⟩
      exact kept howned rfl (h.activateAccount id u)
  | selectAccounts => exact read (Alike.selectAccounts ⟨hq, hq', hnow, hagree⟩)
  | selectPolicy T' => exact read (Alike.selectPolicy ⟨hq.1, hq'.1, hnow, hagree⟩ T')
  | upsertPolicy T' reject addHeader greylist =>
      obtain ⟨hs, rfl⟩ := hq
      have h : Alike T' s s' d d' := ⟨hs, hq'.1, hnow, hagree⟩
      exact kept howned rfl (h.upsertPolicy reject addHeader greylist)
  | insertDecision T' messageRef direction recipient sender score action verdict symbols =>
      obtain ⟨hs, rfl⟩ := hq
      have h : Alike T' s s' d d' := ⟨hs, hq'.1, hnow, hagree⟩
      exact kept howned rfl (h.insertDecision (Table.has_eq_false.2 hdecision)
        (Table.has_eq_false.2 hdecision'))
  | insertItem T' decisionId messageRef recipient sender subject reason =>
      obtain ⟨hs, rfl, x, hx, hid, -⟩ := hq
      obtain ⟨hs', -, x', hx', hid', -⟩ := hq'
      have h : Alike T' s s' d d' := ⟨hs, hs', hnow, hagree⟩
      exact kept howned rfl (h.insertItem (Table.has_eq_false.2 hitem)
        (Table.has_eq_false.2 hitem') (Table.has_eq_true.2 ⟨x, hx, hid⟩)
        (Table.has_eq_true.2 ⟨x', hx', hid'⟩))
  | selectHeld => exact read (Alike.selectHeld ⟨hq, hq', hnow, hagree⟩)
  | releaseItem id actor =>
      have h : Alike T s s' d d' := ⟨hq, hq', hnow, hagree⟩
      exact kept howned rfl (h.releaseItem id actor)
  | reportItem id verdict =>
      have h : Alike T s s' d d' := ⟨hq, hq', hnow, hagree⟩
      exact kept howned rfl (h.reportItem id verdict)
  | insertTenant | selectTenants | selectPending | activatePending | setTenantStatus
  | setDomainStatus | setAccountStatus => exact hq.elim

end Sql

/-! ### Handlers of a tenant -/

/-- The part of the store that is a tenant's, and the requests under its path. -/
def tenantPart (sesame : Bool) (answers : ProvisionUser → Except ProviderError Uuid → Prop)
    (T : Uuid) : Part (contract answers fun _ _ => True) (services sesame answers) where
  same := Agrees T
  alike s s' := s.now = s'.now
  owned w := decide (w.owner = some T)
  bit := Stmt.discloses
  low c := ∃ caller route, c = .http caller route ∧ route.tenant = some T
  equiv := ⟨Agrees.refl T, Agrees.symm, Agrees.trans⟩
  alike_open _ _ _ := rfl
  apply_owned _ _ h := h.apply _
  apply_other hfit hw := Agrees.apply_other hfit (of_decide_eq_false hw)
  exec := by
    rintro c R q s s' o d d' ⟨caller, route, rfl, hT⟩ hpre hpre' hfresh hfresh' hnow hagree hbit
    exact Sql.exec_scoped (hpre.2 T hT) (hpre'.2 T hT) hfresh hfresh' hnow hagree hbit

/-- What the answer to a request may give away: whether another tenant has the
domain name asked for. -/
def Route.discloses (d : Database) : Route → Bool
  | .createDomain T req => d.taken T req.fqdn
  | _ => false

/-- Writes of a tenant change nothing about the names of the others. -/
theorem Database.taken_apply {T : Uuid} {w : Write} {d : Database} (hfit : w.fits d)
    (hw : w.owner = some T) (fqdn : String) : (w.apply d).taken T fqdn = d.taken T fqdn := by
  have hothers : ∀ m : Domain, m.tenantId ≠ T → (m ∈ d.domains ↔ m ∈ (w.apply d).domains) := by
    intro m hm
    have hne : w.owner ≠ some m.tenantId := by
      rw [hw]
      exact fun h => hm (Option.some.inj h).symm
    exact (Agrees.apply_other hfit hne).domains m rfl
  rw [Bool.eq_iff_iff, Database.taken_eq_true, Database.taken_eq_true]
  constructor
  · rintro ⟨m, hm, hfqdn, hT⟩
    exact ⟨m, (hothers m hT).2 hm, hfqdn, hT⟩
  · rintro ⟨m, hm, hfqdn, hT⟩
    exact ⟨m, (hothers m hT).1 hm, hfqdn, hT⟩

theorem Route.discloses_apply {route : Route} {T : Uuid} {w : Write} {d : Database}
    (hT : route.tenant = some T) (hfit : w.fits d) (hw : w.owner = some T) :
    route.discloses (w.apply d) = route.discloses d := by
  cases route with
  | createDomain T' req =>
      obtain rfl := Option.some.inj hT
      exact Database.taken_apply hfit hw req.fqdn
  | _ => rfl

/-- A statement gives away no more than the answer may. -/
theorem Request.Runs.discloses {caller : Caller} {route : Route} {T : Uuid} {R : Type}
    {q : Stmt R} {s : Session} {d d' : Database} (hT : route.tenant = some T)
    (h : (Request.http caller route).Runs q s d)
    (hbit : route.discloses d = route.discloses d') : q.discloses d = q.discloses d' := by
  cases q with
  | insertDomain T' fqdn =>
      obtain ⟨⟨req, rfl, rfl⟩, -⟩ := h
      exact hbit
  | _ => rfl

/-- What a request under the path of a tenant commits is the tenant's. -/
theorem Committed.owned {answers : ProvisionUser → Except ProviderError Uuid → Prop}
    {guard : {R : Type} → Stmt R → Database → Prop} {caller : Caller} {route : Route} {T : Uuid}
    (hT : route.tenant = some T) {cs : List (List Write)} {d : Database} {ws : List Write}
    (h : Committed answers guard (.http caller route) cs d ws) :
    ∀ w ∈ ws, w.owner = some T := by
  cases h with
  | nothing => simp
  | createTenant => cases hT
  | createDomain _ _ _ row entry =>
      obtain rfl := Option.some.inj hT
      simp [Write.owner, row.1, entry.tenantId]
  | createAccount _ _ _ row entry =>
      obtain rfl := Option.some.inj hT
      simp [Write.owner, row.1, entry.tenantId]
  | provisioned _ _ _ tenant entry =>
      obtain rfl := Option.some.inj hT
      simp [Write.owner, AccountRow.provisioned, tenant, entry.tenantId]
  | putPolicy _ _ _ row entry =>
      obtain rfl := Option.some.inj hT
      simp [Write.owner, row.1, entry.tenantId]
  | decision row _ entry =>
      obtain rfl := Option.some.inj hT
      simp [Write.owner, row.tenantId, entry.tenantId]
  | quarantine row _ item entry =>
      obtain rfl := Option.some.inj hT
      simp [Write.owner, row.tenantId, item.tenantId, entry.tenantId]
  | release _ tenant _ entry =>
      obtain rfl := Option.some.inj hT
      simp [Write.owner, QuarantineItem.releasedBy, tenant, entry.tenantId]
  | report _ tenant _ entry =>
      obtain rfl := Option.some.inj hT
      simp [Write.owner, tenant, entry.tenantId]

/-! ### A domain name that is taken -/

theorem Sql.insertDomain_taken {T : Uuid} {s : Session} {o : Oracle} {d : Database}
    {fqdn : String} (hs : s.ForTenant T) (hcheck : ∀ m ∈ d.domains, fqdnCheck m.fqdn = true)
    (h : d.taken T fqdn = true) :
    insertDomain s o d T fqdn = .error .uniqueViolation := by
  obtain ⟨m, hm, rfl, -⟩ := Database.taken_eq_true.1 h
  have hfqdn := hcheck m hm
  have hhas : d.domains.has Domain.fqdn m.fqdn = true := Table.has_eq_true.2 ⟨m, hm, rfl⟩
  have hsees : s.sees (some T) = true := (hs.sees_iff _).2 rfl
  simp only [insertDomain, textOk_of_fqdnCheck hfqdn, hsees, hfqdn, hhas, Bool.not_true,
    Bool.and_false, require_true, require_false]
  rfl

/-- The answer to an insertion that hits a unique index. -/
def conflictAnswer : Answer := .http (ApiError.db .uniqueViolation).intoResponse

example : conflictAnswer = .http ⟨409, .error "already exists"⟩ := rfl

/-- A conflict on a domain name is what the handler answers with. -/
def Stmt.Conflicts : {R : Type} → Stmt R → (Except DbError R → Program Answer) → Prop
  | _, .insertDomain _ _, k => k (.error .uniqueViolation) = .ret conflictAnswer
  | _, _, _ => True

theorem createDomain_conflicts (T : Uuid) (caller : Caller) (req : CreateDomain) :
    (createDomain T caller req).serve.Everywhere Stmt.Conflicts := by
  unfold createDomain validateFqdn
  rw [Handler.serve_check]
  split
  · rw [Handler.serve_tenantTx]
    rintro (e | u)
    · trivial
    refine ⟨trivial, ?_⟩
    rintro (e | u)
    · trivial
    change Prog.Everywhere _ (Handler.serve _)
    rw [Handler.serve_query]
    refine ⟨rfl, ?_⟩
    rintro (e | m)
    · trivial
    change Prog.Everywhere _ (Handler.serve _)
    unfold record
    rw [Handler.serve_query]
    refine ⟨trivial, ?_⟩
    rintro (e | u)
    · trivial
    change Prog.Everywhere _ (Handler.serve _)
    rw [Handler.serve_commit]
    rintro (e | u) <;> trivial
  · trivial

theorem program_conflicts (sesame : Bool)
    (answers : ProvisionUser → Except ProviderError Uuid → Prop) (c : Request) :
    ((services sesame answers).program c).Everywhere fun q k =>
      ∀ caller T req, c = .http caller (.createDomain T req) → q.Conflicts k := by
  by_cases hc : ∃ caller T req, c = .http caller (.createDomain T req)
  · obtain ⟨caller, T, req, rfl⟩ := hc
    exact (createDomain_conflicts T caller req).mono fun _ _ hq _ _ _ _ => hq
  · exact Prog.everywhere_of_forall (fun _ _ caller T req h => absurd ⟨caller, T, req, h⟩ hc) _

/-! ### Isolation -/

/-- A request under the path of tenant `T` is isolated from all other tenants. -/
structure Isolated (sesame : Bool) (answers : ProvisionUser → Except ProviderError Uuid → Prop)
    (T : Uuid) (caller : Caller) (route : Route) : Prop where
  /-- Two runs from states that agree on `T`, as far as the request has taken the
  same steps in them and the others have made the same changes to rows of `T`:
  the request goes on in the same way, what it has answered is the same, and the
  states agree on `T` again. -/
  noninterference : ∀ {σ₁ σ₂ σ₁' σ₂' p es}, Reached sesame answers σ₁ →
    Reached sesame answers σ₂ → p ∉ σ₁.started → p ∉ σ₂.started →
    Agrees T σ₁.store σ₂.store → (∀ c b, .own (.spawn p c) b ∈ es → c = .http caller route) →
    (tenantPart sesame answers T).Observed (fun _ => True) p σ₁ es σ₁' →
    (tenantPart sesame answers T).Observed (fun _ => True) p σ₂ es σ₂' →
      Agrees T σ₁'.store σ₂'.store ∧ σ₁'.ahead p = σ₂'.ahead p ∧
        σ₁'.answersOf p = σ₂'.answersOf p
  /-- Run on any two databases that agree on `T`, and on the one bit that the
  answer may give away, the request is answered the same, the databases agree on
  `T` again, and all rows of other tenants are what they were. -/
  response : ∀ {w : Weather} {z z' : Solo Session Database}, Consistent z.store →
    Consistent z'.store → z.session.Idle → z'.session.Idle → (∀ x, answers x (w.answer x)) →
    FreshEval postgres w ((Request.http caller route).program sesame) none z →
    FreshEval postgres w ((Request.http caller route).program sesame) none z' →
    z.clock = z'.clock → route.discloses z.store = route.discloses z'.store →
    Agrees T z.store z'.store →
      (eval postgres w ((Request.http caller route).program sesame) none z).1 =
          (eval postgres w ((Request.http caller route).program sesame) none z').1 ∧
        Agrees T (eval postgres w ((Request.http caller route).program sesame) none z).2.store
          (eval postgres w ((Request.http caller route).program sesame) none z').2.store ∧
        ∀ T', T' ≠ T → Agrees T' z.store
          (eval postgres w ((Request.http caller route).program sesame) none z).2.store
  /-- No step of the request changes a row of another tenant. -/
  others : ∀ {σ σ' P l}, Reached sesame answers σ → σ.procs l.pid = some P →
    P.request = .http caller route → Steps sesame answers σ l σ' →
    ∀ T', T' ≠ T → Agrees T' σ.store σ'.store
  /-- A domain name of another tenant: a conflict, and nothing has changed. -/
  conflict : ∀ {σ σ' p P t o k fqdn req}, Reached sesame answers σ →
    σ.procs p = some P → P.request = .http caller route → route = .createDomain T req →
    P.prog = .stmt (.insertDomain T fqdn) k → P.tx = some t →
    (postgres.applyAll t.writes σ.store).taken T fqdn = true →
    Steps sesame answers σ (.stmt p o) σ' →
      σ'.store = σ.store ∧ ∃ P', σ'.procs p = some P' ∧ P'.prog = .ret conflictAnswer ∧
        P'.tx = none ∧ P'.commits = []

section

variable {sesame : Bool} {answers : ProvisionUser → Except ProviderError Uuid → Prop} {T : Uuid}
  {caller : Caller} {route : Route}

/-- Writes to the rows of `T` are no one else's business. -/
theorem Agrees.applyAll_other {ws : List Write} {d : Database} {T' : Uuid}
    (hpend : postgres.Pending Write.fits ws d) (hws : ∀ w ∈ ws, w.owner = some T) (hT : T' ≠ T) :
    Agrees T' d (postgres.applyAll ws d) := by
  induction ws generalizing d with
  | nil => exact .refl T' d
  | cons w ws ih =>
      obtain ⟨hfit, hrest⟩ := postgres_lawful.pending_cons hpend
      have hw : w.owner ≠ some T' := by
        rw [hws w List.mem_cons_self]
        exact fun h => hT (Option.some.inj h).symm
      exact (Agrees.apply_other hfit hw).trans
        (ih hrest fun x hx => hws x (List.mem_cons_of_mem _ hx))

/-- A request under the path of `T` changes no row of another tenant. -/
theorem agrees_other (hT : route.tenant = some T) {σ σ' : State}
    {P : Proc Stmt Session Database Write DbError ProvisionUser (Except ProviderError Uuid)
      Request Answer} {l : Event} (h : Reached sesame answers σ) (hP : σ.procs l.pid = some P)
    (hreq : P.request = .http caller route) (hstep : Steps sesame answers σ l σ') {T' : Uuid}
    (hT' : T' ≠ T) : Agrees T' σ.store σ'.store := by
  rcases hstep.store_eq with ⟨-, hstore, -⟩ | ⟨p, P', t, k, rfl, hp, hprog, ht, hstore, -⟩
  · rw [hstore]
    exact .refl _ _
  · obtain rfl : P = P' := Option.some.inj (hP.symm.trans hp)
    obtain ⟨-, hpend, hpost⟩ := (reached_started sesame answers).commit_post h hp hprog ht
    have hpost : Committed answers (fun _ _ => True) P.request P.commits σ.store t.writes := hpost
    rw [hreq] at hpost
    rw [hstore]
    exact Agrees.applyAll_other hpend (hpost.owned hT) hT'

/-! ### A request run alone -/

variable {w : Weather} {z z' : Solo Session Database}

/-- A request can be run alone on consistent databases. -/
theorem ready (c : Request) (hz : Consistent z.store) (hidle : z.session.Idle) :
    (contract answers fun _ _ => True).Ready (services sesame answers) c z.store
      (c.program sesame) [] none z :=
  .out (Evolves.refl z.store) (program_kept c z.store) hz hidle z.clock

/-- Run alone, a request under the path of `T` leaves the rows of all other
tenants as they are. -/
theorem agrees_eval (hT : route.tenant = some T) (hz : Consistent z.store)
    (hidle : z.session.Idle) (hanswer : ∀ x, answers x (w.answer x))
    (hfresh : FreshEval postgres w ((Request.http caller route).program sesame) none z)
    {T' : Uuid} (hT' : T' ≠ T) :
    Agrees T' z.store
      (eval postgres w ((Request.http caller route).program sesame) none z).2.store := by
  have hready : (contract answers fun _ _ => True).Ready (services sesame answers)
      (.http caller route) z.store ((Request.http caller route).program sesame) [] none z :=
    ready (.http caller route) hz hidle
  refine hready.evolve contract_sound (fun _ _ => trivial) hanswer (Agrees.refl T') Agrees.trans
    ?_ hfresh
  intro cs d ws _ hpend hpost
  have hpost : Committed answers (fun _ _ => True) (.http caller route) cs d ws := hpost
  exact Agrees.applyAll_other hpend (hpost.owned hT) hT'

/-- Run alone on databases with the same rows of `T`, a request under the path
of `T` is answered the same, if it may give the same away about domain names of
other tenants. -/
theorem eval_agrees (hT : route.tenant = some T) (hz : Consistent z.store)
    (hz' : Consistent z'.store) (hidle : z.session.Idle) (hidle' : z'.session.Idle)
    (hanswer : ∀ x, answers x (w.answer x))
    (hfresh : FreshEval postgres w ((Request.http caller route).program sesame) none z)
    (hfresh' : FreshEval postgres w ((Request.http caller route).program sesame) none z')
    (hclock : z.clock = z'.clock) (hbit : route.discloses z.store = route.discloses z'.store)
    (hagree : Agrees T z.store z'.store) :
    (eval postgres w ((Request.http caller route).program sesame) none z).1 =
        (eval postgres w ((Request.http caller route).program sesame) none z').1 ∧
      Agrees T (eval postgres w ((Request.http caller route).program sesame) none z).2.store
        (eval postgres w ((Request.http caller route).program sesame) none z').2.store := by
  have hbits : ∀ {R : Type} {q : Stmt R} {s : Session} {d d' : Database},
      (Request.http caller route).Runs q s d → route.discloses d = route.discloses d' →
        q.discloses d = q.discloses d' := fun h hd => h.discloses hT hd
  refine (tenantPart sesame answers T).eval_same contract_sound (fun _ _ => trivial) hanswer
    ⟨caller, route, rfl, hT⟩ (r := fun d d' => route.discloses d = route.discloses d') hbits
    (fun hfit hfit' hw hd => ?_) (ready _ hz hidle) (ready _ hz' hidle') hfresh hfresh' hclock
    hagree hbit .none
  have hw := of_decide_eq_true hw
  exact (Route.discloses_apply hT hfit hw).trans
    (hd.trans (Route.discloses_apply hT hfit' hw).symm)

/-! ### In every run -/

/-- A domain name that another tenant has is a conflict, and the transaction is
dropped. -/
theorem conflict_of_taken {σ σ' : State} {p : Nat}
    {P : Proc Stmt Session Database Write DbError ProvisionUser (Except ProviderError Uuid)
      Request Answer} {t : Tx Session Write} {o : Oracle} {fqdn : String}
    {k : Except DbError Domain → Program Answer} {req : CreateDomain}
    (h : Reached sesame answers σ) (hP : σ.procs p = some P)
    (hreq : P.request = .http caller (.createDomain T req))
    (hprog : P.prog = .stmt (.insertDomain T fqdn) k) (ht : P.tx = some t)
    (htaken : (postgres.applyAll t.writes σ.store).taken T fqdn = true)
    (hstep : Steps sesame answers σ (.stmt p o) σ') :
    σ'.store = σ.store ∧ ∃ P', σ'.procs p = some P' ∧ P'.prog = .ret conflictAnswer ∧
      P'.tx = none ∧ P'.commits = [] := by
  have hs := reached_started sesame answers
  have hk : k (.error .uniqueViolation) = .ret conflictAnswer := by
    have hall := h.everywhere (program_conflicts sesame answers) p P hP
    rw [hprog] at hall
    exact hall.1 caller T req hreq
  have hafter := hs.inv (h.step hstep)
  obtain ⟨P', t', R, q, k', hp, hprog', ht', hfresh, -, rfl⟩ := hstep.stmt_cases
  obtain rfl : P = P' := Option.some.inj (hP.symm.trans hp)
  obtain rfl : t = t' := Option.some.inj (ht.symm.trans ht')
  rw [hprog] at hprog'
  cases hprog'
  have hconflict : (services sesame answers).exec (.insertDomain T fqdn) t.session o
      ((services sesame answers).applyAll t.writes σ.store) = .error .uniqueViolation := by
    obtain ⟨-, -, hpre⟩ := hs.stmt_pre h hP hprog ht hfresh trivial
    have hpre : P.request.Runs (.insertDomain T fqdn) t.session
        (postgres.applyAll t.writes σ.store) := hpre
    rw [hreq] at hpre
    obtain ⟨hsession, -, hcheck⟩ := hpre.2 T rfl
    exact congrArg (Sql.keep t.session) (Sql.insertDomain_taken hsession hcheck htaken)
  rw [hconflict] at hafter ⊢
  refine ⟨by simp [Sys.executed], _, Function.update_self .., hk, rfl, ?_⟩
  -- an answer that is no success means that nothing has been committed
  obtain ⟨d₁, hev, -, hout⟩ := hafter.good p _ (Function.update_self ..)
  rw [hk] at hout
  have hret : Answered P.request P.since P.commits _ conflictAnswer :=
    hout _ hev hafter.store
  rw [hreq] at hret
  generalize hr : conflictAnswer = r at hret
  change P.commits = []
  generalize P.commits = cs at hret ⊢
  cases hret with
  | served hserved =>
      cases hr
      have hstatus := hserved.status
      exact absurd hstatus (by decide)
  | refused => rfl

/-- Every handler under the path of a tenant is isolated, in every run. -/
theorem tenant_isolated (hT : route.tenant = some T) :
    Isolated sesame answers T caller route := by
  have hs := reached_started sesame answers
  refine ⟨?_, ?_, ?_, ?_⟩
  · intro σ₁ σ₂ σ₁' σ₂' p es h₁ h₂ hp₁ hp₂ hagree hreq hrun₁ hrun₂
    have hstart : (tenantPart sesame answers T).Indistinct p σ₁ σ₂ :=
      .of_not_started h₁ h₂ hp₁ hp₂ hagree
    have hlow : ∀ c b, .own (.spawn p c) b ∈ es → (tenantPart sesame answers T).low c :=
      fun c b hc => ⟨caller, route, hreq c b hc, hT⟩
    have hend := Part.noninterference hs h₁ h₂ hlow hstart hrun₁ hrun₂
    exact ⟨hend.store, hend.ahead, hend.answers⟩
  · intro w z z' hz hz' hidle hidle' hanswer hfresh hfresh' hclock hbit hagree
    obtain ⟨hanswers, hstores⟩ := eval_agrees hT hz hz' hidle hidle' hanswer hfresh hfresh' hclock
      hbit hagree
    exact ⟨hanswers, hstores, fun T' hT' => agrees_eval hT hz hidle hanswer hfresh hT'⟩
  · exact fun h hP hreq hstep T' hT' => agrees_other hT h hP hreq hstep hT'
  · rintro σ σ' p P t o k fqdn req h hP hreq rfl hprog ht htaken hstep
    exact conflict_of_taken h hP hreq hprog ht htaken hstep

end

/-! ### A tenant beside another -/

def Request.isUnder (T : Uuid) : Request → Bool
  | .http _ route => decide (route.tenant = some T)
  | _ => false

/-- Whatever is requested under the path of `U`, in any interleaving, the rows of
the other tenants stay what they are. -/
theorem agrees_of_run {sesame : Bool}
    {answers : ProvisionUser → Except ProviderError Uuid → Prop} {T U : Uuid} (hT : T ≠ U)
    {σ σ' : State} {ls : List Event} (h : Reached sesame answers σ)
    (hunder : ∀ p P, σ.procs p = some P → P.request.isUnder U = true)
    (hrun : Run (services sesame answers) (fun c => c.isUnder U = true) (fun _ _ => True) σ ls
      σ') : Agrees T σ.store σ'.store := by
  induction hrun with
  | nil => exact .refl T _
  | @cons σ l σ₁ ls σ' hstep _ ih =>
      have hstep' : Steps sesame answers σ l σ₁ := hstep.mono fun _ _ => trivial
      have hrest := ih (h.step hstep') (hstep.programs
        (fun (c : Request) (_ : Program Answer) => c.isUnder U = true) (fun _ hc => hc)
        (fun _ _ _ _ hc => hc) hunder)
      refine Agrees.trans ?_ hrest
      rcases hstep'.store_eq with ⟨-, hstore, -⟩ | ⟨p, P, t, k, rfl, hp, -, -, -, -⟩
      · rw [hstore]
        exact .refl T _
      · have hP := hunder p P hp
        cases hreq : P.request with
        | http caller route =>
            rw [hreq] at hP
            exact agrees_other (l := .commit p) (of_decide_eq_true hP) h hp hreq hstep' hT
        | reconcile | operator =>
            rw [hreq] at hP
            cases hP

instance {answers : ProvisionUser → Except ProviderError Uuid → Prop} {R : Type} (q : Stmt R)
    (d : Database) : Decidable ((contract answers fun _ _ => True).guard q d) :=
  inferInstanceAs (Decidable True)

/-- Two tenants, the first with a domain. -/
def twoTenants : List Event :=
  let admin : Caller := ⟨"admin", none, []⟩
  [.spawn 0 (.http admin (.createTenant { slug := "acme", name := "Acme" }))] ++
    undisturbed 0 1 3 ++ [.reply 0] ++
  [.spawn 1 (.http admin (.createTenant { slug := "initech", name := "Initech" }))] ++
    undisturbed 1 10 3 ++ [.reply 1] ++
  [.spawn 2 (.http admin (.createDomain (.number 2) { fqdn := "acme.example" }))] ++
    undisturbed 2 20 3 ++ [.reply 2]

/-- The second tenant gets a domain and an account. -/
def secondGrows : List Event :=
  let admin : Caller := ⟨"admin", none, []⟩
  [.spawn 3 (.http admin (.createDomain (.number 11) { fqdn := "initech.io" }))] ++
    undisturbed 3 30 3 ++ [.reply 3] ++
  [.spawn 4 (.http admin (.createAccount (.number 11)
    { domainId := .number 31, localPart := "ann", displayName := "Ann" }))] ++
    undisturbed 4 40 4 ++ [.reply 4]

/-- A caller of the first tenant. -/
def firstCaller : Caller := ⟨"ann", some (.number 2), []⟩

def firstAccount : Route :=
  .createAccount (.number 2) { domainId := .number 21, localPart := "ann", displayName := "Ann" }

/-- An account of the same name for the first tenant. -/
def firstGrows : List Event :=
  [.spawn 5 (.http firstCaller firstAccount)] ++ undisturbed 5 50 4 ++ [.reply 5]

/-- The request of the first tenant is run on two states that differ in the rows
of the second. -/
structure Neighbours (σ₁ σ₂ σ₁' σ₂' : State) : Prop where
  left : Reached false (fun _ _ => False) σ₁
  right : Reached false (fun _ _ => False) σ₂
  notStarted : 5 ∉ σ₁.started ∧ 5 ∉ σ₂.started
  agrees : ∀ T, T ≠ .number 11 → Agrees T σ₁.store σ₂.store
  differs : σ₁.store.accounts.rows = [] ∧ ∃ a ∈ σ₂.store.accounts, a.tenantId = .number 11
  runLeft : replay (services false fun _ _ => False) (fun _ => True) (fun _ _ => True) σ₁
    firstGrows = some σ₁'
  runRight : replay (services false fun _ _ => False) (fun _ => True) (fun _ _ => True) σ₂
    firstGrows = some σ₂'
  bits : (tenantPart false (fun _ _ => False) (.number 2)).bits (fun _ => True) σ₁ firstGrows =
    (tenantPart false (fun _ _ => False) (.number 2)).bits (fun _ => True) σ₂ firstGrows
  answered : (σ₁'.answersOf 5).map Answer.status = [some 201]

theorem exists_neighbours : ∃ σ₁ σ₂ σ₁' σ₂', Neighbours σ₁ σ₂ σ₁' σ₂' := by
  have hplay : ((play false (fun _ _ => False) twoTenants).any fun σ₁ =>
      σ₁.started.all (fun p => (σ₁.procs p).isNone) && decide (5 ∉ σ₁.started) &&
      (replay (services false fun _ _ => False) (fun c => c.isUnder (.number 11) = true)
        (fun _ _ => True) σ₁ secondGrows).any fun σ₂ => decide (5 ∉ σ₂.started) &&
          (σ₁.store.accounts.rows.isEmpty &&
            σ₂.store.accounts.rows.any fun a => decide (a.tenantId = .number 11)) &&
          decide ((tenantPart false (fun _ _ => False) (.number 2)).bits (fun _ => True) σ₁
            firstGrows = (tenantPart false (fun _ _ => False) (.number 2)).bits (fun _ => True) σ₂
              firstGrows) &&
          (replay (services false fun _ _ => False) (fun _ => True) (fun _ _ => True) σ₁
            firstGrows).any fun σ₁' =>
              decide ((σ₁'.answersOf 5).map Answer.status = [some 201]) &&
                (replay (services false fun _ _ => False) (fun _ => True) (fun _ _ => True) σ₂
                  firstGrows).isSome) = true := by
    decide +kernel
  obtain ⟨σ₁, h₁, h⟩ := reached_of_play hplay
  simp only [Bool.and_eq_true, decide_eq_true_eq, List.all_eq_true, Option.isNone_iff_eq_none]
    at h
  obtain ⟨⟨hquiet, hnew₁⟩, h⟩ := h
  obtain ⟨σ₂, hσ₂, h⟩ := (Option.any_eq_true _ _).1 h
  simp only [Bool.and_eq_true, decide_eq_true_eq, List.isEmpty_iff, List.any_eq_true] at h
  obtain ⟨⟨⟨hnew₂, hempty, a, ha, haT⟩, hbits⟩, h⟩ := h
  obtain ⟨σ₁', hσ₁', h⟩ := (Option.any_eq_true _ _).1 h
  simp only [Bool.and_eq_true, decide_eq_true_eq] at h
  obtain ⟨σ₂', hσ₂'⟩ := Option.isSome_iff_exists.1 h.2
  have hrun := run_of_replay_mono (fun _ _ => trivial) h₁ hσ₂
  have hunder : ∀ p P, σ₁.procs p = some P → P.request.isUnder (.number 11) = true := by
    intro p P hp
    rw [hquiet p (h₁.recorded.started hp)] at hp
    cases hp
  refine ⟨σ₁, σ₂, σ₁', σ₂', h₁, h₁.run (hrun.mono fun _ _ => trivial), ⟨hnew₁, hnew₂⟩, ?_,
    ⟨hempty, a, ha, haT⟩, hσ₁', hσ₂', hbits, h.1⟩
  exact fun T hT => agrees_of_run hT h₁ hunder hrun

theorem spawn_firstGrows {c : Request} (h : .spawn 5 c ∈ firstGrows) :
    c = .http firstCaller firstAccount := by
  simpa [firstGrows, undisturbed] using h

theorem tenant_isolated_neighbours :
    ∃ σ₁ σ₂ σ₁' σ₂', Neighbours σ₁ σ₂ σ₁' σ₂' ∧ Agrees (.number 2) σ₁'.store σ₂'.store ∧
      σ₁'.answersOf 5 = σ₂'.answersOf 5 ∧ (σ₂'.answersOf 5).map Answer.status = [some 201] := by
  obtain ⟨σ₁, σ₂, σ₁', σ₂', h⟩ := exists_neighbours
  have hpid : ∀ l ∈ firstGrows, l.pid = 5 := by
    decide
  have hobserved₂ := (tenantPart false (fun _ _ => False) (.number 2)).observed_of_replay
    h.right hpid h.runRight
  rw [← h.bits] at hobserved₂
  have hisolated : Isolated false (fun _ _ => False) (.number 2) firstCaller firstAccount :=
    tenant_isolated rfl
  obtain ⟨hstore, -, hanswers⟩ := hisolated.noninterference h.left h.right h.notStarted.1
    h.notStarted.2 (h.agrees _ (by decide))
    (fun c b hc => spawn_firstGrows (Part.spawn_of_mem_zipWith hc))
    (Part.observed_of_replay _ h.left hpid h.runLeft) hobserved₂
  exact ⟨σ₁, σ₂, σ₁', σ₂', h, hstore, hanswers, hanswers ▸ h.answered⟩

end OpenGroupware
