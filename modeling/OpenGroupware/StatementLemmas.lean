import OpenGroupware.Statements

/-!
What a statement that succeeds has checked and what it writes: one lemma for
each statement, and from them the law of the engine.
-/

namespace OpenGroupware

open Relational Transactional

/-! ### Sessions -/

namespace Session

/-- A connection in the pool: its settings are unset or empty. -/
def Idle (s : Session) : Prop :=
  (s.currentTenantId = none ∨ s.currentTenantId = some "") ∧
    (s.isPlatformAdmin = none ∨ s.isPlatformAdmin = some "")

/-- The settings of a transaction scoped to one tenant. -/
def ForTenant (s : Session) (T : Uuid) : Prop :=
  s.currentTenantId = some T.toText ∧ (s.isPlatformAdmin = none ∨ s.isPlatformAdmin = some "")

/-- The settings of a platform-admin transaction. -/
def ForPlatform (s : Session) : Prop :=
  (s.currentTenantId = none ∨ s.currentTenantId = some "") ∧ s.isPlatformAdmin = some "true"

variable {s : Session}

theorem idle_new : Session.new.Idle := ⟨.inl rfl, .inl rfl⟩

theorem idle_closeTx (s : Session) : s.closeTx.Idle := by
  constructor
  · cases h : s.currentTenantId <;> simp [closeTx, h]
  · cases h : s.isPlatformAdmin <;> simp [closeTx, h]

theorem Idle.forTenant (h : s.Idle) (o : Oracle) (T : Uuid) :
    ((s.openTx o).setConfig .currentTenantId T.toText).ForTenant T :=
  ⟨rfl, h.2⟩

theorem Idle.forPlatform (h : s.Idle) (o : Oracle) :
    ((s.openTx o).setConfig .isPlatformAdmin "true").ForPlatform :=
  ⟨h.1, rfl⟩

theorem platform_of_not_true (h : s.isPlatformAdmin = none ∨ s.isPlatformAdmin = some "") :
    s.platform.holds = false := by
  rcases h with h | h <;> rw [platform, h] <;> decide

/-- A tenant session sees the rows of its tenant and no others. -/
theorem ForTenant.sees_iff {T : Uuid} (h : s.ForTenant T) (tid : Option Uuid) :
    s.sees tid = true ↔ tid = some T := by
  have hp := platform_of_not_true h.2
  rw [sees, holds_sqlOr, hp, Bool.or_false, holds_sqlEq, h.1]
  cases tid <;> simp [eq_comm]

theorem ForPlatform.platform (h : s.ForPlatform) : s.platform.holds = true := by
  rw [Session.platform, h.2]
  decide

theorem ForPlatform.sees (h : s.ForPlatform) (tid : Option Uuid) : s.sees tid = true := by
  rw [Session.sees, holds_sqlOr, h.platform, Bool.or_true]

/-- Between transactions a connection sees nothing. -/
theorem Idle.sees (h : s.Idle) (tid : Option Uuid) : s.sees tid = false := by
  have hp := platform_of_not_true h.2
  rw [Session.sees, holds_sqlOr, hp, Bool.or_false, Bool.eq_false_iff, ne_eq, holds_sqlEq]
  rintro ⟨v, hv, hs⟩
  obtain ⟨T, -, rfl⟩ : ∃ T, tid = some T ∧ T.toText = v := by simpa using hv
  rcases h.1 with h | h
  · simp [h] at hs
  · exact T.toText_ne_empty (by simpa [h] using hs.symm)

end Session

/-! ### Statements -/

/-- The write that appends to the audit log of a database. -/
def Plane.appendix : Plane → AuditEntry → Write
  | .control => .audit
  | .abuse => .abuseAudit

namespace Sql

section

variable {α : Type} (o : Oracle) (time : α → Nat) (id : α → Uuid)

instance : IsTrans α fun a b => notAfter o time id a b = true where
  trans a b c hab hbc := by
    simp only [notAfter, Bool.or_eq_true, Bool.and_eq_true, decide_eq_true_eq] at hab hbc ⊢
    omega

instance : Std.Total fun a b => notAfter o time id a b = true where
  total a b := by
    simp only [notAfter, Bool.or_eq_true, Bool.and_eq_true, decide_eq_true_eq]
    omega

theorem orderBy_perm (rows : List α) : (orderBy o time id rows).Perm rows :=
  List.perm_insertionSort _ _

theorem orderBy_sorted (rows : List α) :
    (orderBy o time id rows).Pairwise fun a b => notAfter o time id a b = true :=
  List.pairwise_insertionSort _ rows

end

theorem require_bind_eq_ok {α : Type} {b : Bool} {e : DbError} {f : Unit → Except DbError α}
    {x : α} : (require b e >>= f) = .ok x ↔ b = true ∧ f () = .ok x := by
  cases b <;> simp [require, bind, Except.bind]

variable {s : Session} {o : Oracle} {d : Database} {ws : List Write}

theorem insertAudit_ok {plane : Plane} {e : AuditEntry} {u : Unit}
    (h : insertAudit s d plane e = .ok (u, ws)) :
    s.sees e.tenantId = true ∧ ws = [plane.appendix e] := by
  simp only [insertAudit, require_bind_eq_ok] at h
  obtain ⟨-, hsees, h⟩ := h
  cases plane with
  | control =>
      simp only [require_bind_eq_ok] at h
      obtain ⟨-, h⟩ := h
      cases h
      exact ⟨hsees, rfl⟩
  | abuse =>
      cases h
      exact ⟨hsees, rfl⟩

theorem insertAudit_eq_ok {plane : Plane} {e : AuditEntry}
    (htext : (textOk e.actor && textOk e.action && textOk e.entityType && textOk e.entityId &&
      e.payload.storable) = true) (hsees : s.sees e.tenantId = true)
    (htenant : plane = .control → e.tenantId.all (d.tenants.has Tenant.id) = true) :
    insertAudit s d plane e = .ok ((), [plane.appendix e]) := by
  unfold insertAudit
  refine require_bind_eq_ok.2 ⟨htext, require_bind_eq_ok.2 ⟨hsees, ?_⟩⟩
  cases plane with
  | control => exact require_bind_eq_ok.2 ⟨htenant rfl, rfl⟩
  | abuse => rfl

theorem insertTenant_ok {slug name plan : String} {t : Tenant}
    (h : insertTenant s o d slug name plan = .ok (t, ws)) :
    slugCheck slug = true ∧ (∀ x ∈ d.tenants, x.id ≠ t.id ∧ x.slug ≠ slug) ∧
      t = ⟨o.uuid, slug, name, plan, .active, s.now⟩ ∧ ws = [.tenant ⟨none, t⟩] := by
  simp only [insertTenant, require_bind_eq_ok, Bool.and_eq_true, Bool.not_eq_true',
    Table.has_eq_false] at h
  obtain ⟨-, -, hslug, ⟨hid, hunique⟩, h⟩ := h
  cases h
  exact ⟨hslug, fun x hx => ⟨hid x hx, hunique x hx⟩, rfl, rfl⟩

theorem insertDomain_ok {T : Uuid} {fqdn : String} {m : Domain}
    (h : insertDomain s o d T fqdn = .ok (m, ws)) :
    s.sees (some T) = true ∧ fqdnCheck fqdn = true ∧
      (∀ x ∈ d.domains, x.id ≠ m.id ∧ x.fqdn ≠ fqdn) ∧ (∃ t ∈ d.tenants, t.id = T) ∧
      m = ⟨o.uuid, T, fqdn, .pendingDns, s.now⟩ ∧ ws = [.domain ⟨none, m⟩] := by
  simp only [insertDomain, require_bind_eq_ok, Bool.and_eq_true, Bool.not_eq_true',
    Table.has_eq_false, Table.has_eq_true] at h
  obtain ⟨-, hsees, hfqdn, ⟨hid, hunique⟩, hT, h⟩ := h
  cases h
  exact ⟨hsees, hfqdn, fun x hx => ⟨hid x hx, hunique x hx⟩, hT, rfl, rfl⟩

theorem selectDomainFqdn_some {id : Uuid} {fqdn : String}
    (h : selectDomainFqdn s d id = some fqdn) :
    ∃ m ∈ d.domains, m.id = id ∧ s.sees (some m.tenantId) = true ∧ m.status ≠ .suspended ∧
      m.fqdn = fqdn := by
  simp only [selectDomainFqdn, bind, Option.bind_eq_some_iff] at h
  obtain ⟨m, hm, h⟩ := h
  split at h
  · rename_i hc
    simp only [Bool.and_eq_true, decide_eq_true_eq] at hc
    obtain ⟨hmem, hid⟩ := Table.find?_eq_some.1 hm
    exact ⟨m, hmem, hid, hc.1, hc.2, by simpa using h⟩
  · simp at h

theorem insertAccount_ok {T domainId : Uuid} {email displayName : String} {quotaMb : Int}
    {a : Account} (h : insertAccount s o d T domainId email displayName quotaMb = .ok (a, ws)) :
    s.sees (some T) = true ∧ quotaCheck quotaMb = true ∧
      (∀ x ∈ d.accounts, x.id ≠ a.id ∧ x.email ≠ email) ∧ (∃ t ∈ d.tenants, t.id = T) ∧
      a = ⟨o.uuid, T, domainId, email, displayName, quotaMb, .pendingProvisioning, s.now⟩ ∧
      ws = [.account ⟨none, { a with sesameUserId := none, updatedAt := s.now }⟩] := by
  simp only [insertAccount, require_bind_eq_ok, Bool.and_eq_true, Bool.not_eq_true',
    Table.has_eq_false, Table.has_eq_true] at h
  obtain ⟨-, hsees, hquota, ⟨hid, hunique⟩, ⟨hT, -⟩, h⟩ := h
  cases h
  exact ⟨hsees, hquota, fun x hx => ⟨hid x hx, hunique x hx⟩, hT, rfl, rfl⟩

theorem activateAccount_ok {id u : Uuid} {a : Account}
    (h : activateAccount s d id u = .ok (a, ws)) :
    ∃ old ∈ d.accounts, d.accounts.find? id = some old ∧ old.id = id ∧
      s.sees (some old.tenantId) = true ∧
      a = (activated s old u).toAccount ∧ ws = [.account ⟨some old, activated s old u⟩] := by
  unfold activateAccount at h
  split at h
  · rename_i old hold
    rw [Option.filter_eq_some_iff] at hold
    obtain ⟨hmem, hid⟩ := Table.find?_eq_some.1 hold.1
    cases h
    exact ⟨old, hmem, hold.1, hid, hold.2, rfl, rfl⟩
  · cases h

theorem upsertPolicy_ok {T : Uuid} {reject addHeader greylist : F64} {p : AbusePolicy}
    (h : upsertPolicy s d T reject addHeader greylist = .ok (p, ws)) :
    s.sees (some T) = true ∧ policyCheck reject addHeader greylist = true ∧
      p = ⟨T, reject, addHeader, greylist, s.now⟩ ∧
      ((∃ old ∈ d.abusePolicy, old.tenantId = T ∧ ws = [.abusePolicy ⟨some old, p⟩]) ∨
        ((∀ x ∈ d.abusePolicy, x.tenantId ≠ T) ∧ (∃ t ∈ d.tenants, t.id = T) ∧
          ws = [.abusePolicy ⟨none, p⟩])) := by
  simp only [upsertPolicy, require_bind_eq_ok] at h
  obtain ⟨hsees, hcheck, h⟩ := h
  split at h
  · rename_i old hold
    obtain ⟨hmem, hid⟩ := Table.find?_eq_some.1 hold
    cases h
    exact ⟨hsees, hcheck, rfl, .inl ⟨old, hmem, hid, rfl⟩⟩
  · rename_i hnone
    simp only [require_bind_eq_ok, Table.has_eq_true] at h
    obtain ⟨hT, h⟩ := h
    cases h
    exact ⟨hsees, hcheck, rfl, .inr ⟨Table.find?_eq_none.1 hnone, hT, rfl⟩⟩

theorem insertDecision_ok {T : Uuid} {messageRef direction recipient sender : String}
    {score : F32} {action verdict : String} {symbols : Json} {x : AbuseDecision}
    (h : insertDecision s o d T messageRef direction recipient sender score action verdict
      symbols = .ok (x, ws)) :
    s.sees (some T) = true ∧
      (directionCheck direction && actionCheck action && verdictCheck verdict) = true ∧
      (∀ y ∈ d.abuseDecision, y.id ≠ x.id) ∧
      x = ⟨o.uuid, T, messageRef, direction, recipient, sender, score, action, verdict, symbols,
        s.now⟩ ∧ ws = [.abuseDecision ⟨none, x⟩] := by
  simp only [insertDecision, require_bind_eq_ok, Bool.not_eq_true', Table.has_eq_false] at h
  obtain ⟨-, hsees, hcheck, hid, -, h⟩ := h
  cases h
  exact ⟨hsees, hcheck, hid, rfl, rfl⟩

theorem insertItem_ok {T decisionId : Uuid} {messageRef recipient sender subject reason : String}
    {u : Unit}
    (h : insertItem s o d T decisionId messageRef recipient sender subject reason = .ok (u, ws)) :
    s.sees (some T) = true ∧
      ((∃ i ∈ d.quarantineItem, i.messageKey = (T, messageRef)) ∧ ws = [] ∨
        (∀ i ∈ d.quarantineItem, i.id ≠ o.uuid ∧ i.messageKey ≠ (T, messageRef)) ∧
          ws = [.quarantineItem ⟨none, ⟨o.uuid, T, decisionId, messageRef, recipient, sender,
            subject, reason, .held, none, s.now, none, none⟩⟩]) := by
  simp only [insertItem, require_bind_eq_ok] at h
  obtain ⟨-, hsees, h⟩ := h
  refine ⟨hsees, ?_⟩
  split at h
  · rename_i hhas
    cases h
    exact .inl ⟨Table.has_eq_true.1 hhas, rfl⟩
  · rename_i hhas
    rw [Bool.not_eq_true, Table.has_eq_false] at hhas
    simp only [require_bind_eq_ok, Bool.not_eq_true', Table.has_eq_false] at h
    obtain ⟨hid, -, -, h⟩ := h
    cases h
    exact .inr ⟨fun i hi => ⟨hid i hi, hhas i hi⟩, rfl⟩

theorem insertItem_text {T decisionId : Uuid}
    {messageRef recipient sender subject reason : String} {u : Unit}
    (h : insertItem s o d T decisionId messageRef recipient sender subject reason = .ok (u, ws)) :
    textOk messageRef = true := by
  simp only [insertItem, require_bind_eq_ok, Bool.and_eq_true] at h
  exact h.1.1.1.1.1

theorem mem_selectHeld {i : QuarantineItem} :
    i ∈ selectHeld s o d ↔ i ∈ d.quarantineItem ∧ s.sees (some i.tenantId) = true ∧
      i.status = .held := by
  simp [selectHeld, orderBy]

theorem releaseItem_ok {id : Uuid} {actor : String} {r : Option QuarantineItem}
    (h : releaseItem s d id actor = .ok (r, ws)) :
    (∃ i ∈ d.quarantineItem, i.id = id ∧ s.sees (some i.tenantId) = true ∧ i.status = .held ∧
        r = some { i with
          status := .released, resolvedAt := some s.now, resolvedBy := some actor } ∧
        ws = [.quarantineItem ⟨some i, { i with
          status := .released, resolvedAt := some s.now, resolvedBy := some actor }⟩]) ∨
      (∀ i ∈ d.quarantineItem, i.id = id → s.sees (some i.tenantId) = true → i.status ≠ .held) ∧
        r = none ∧ ws = [] := by
  simp only [releaseItem, require_bind_eq_ok] at h
  obtain ⟨-, h⟩ := h
  split at h
  · rename_i i hi
    rw [Option.filter_eq_some_iff, Bool.and_eq_true, decide_eq_true_eq] at hi
    obtain ⟨hmem, hid⟩ := Table.find?_eq_some.1 hi.1
    cases h
    exact .inl ⟨i, hmem, hid, hi.2.1, hi.2.2, rfl, rfl⟩
  · rename_i hnone
    cases h
    refine .inr ⟨fun i hi hid hsees hheld => ?_, rfl, rfl⟩
    rw [Option.filter_eq_none_iff] at hnone
    exact hnone i (Table.find?_eq_some.2 ⟨hi, hid⟩) (by simp [hsees, hheld])

theorem reportItem_ok {id : Uuid} {verdict : String} {r : Option QuarantineItem}
    (h : reportItem s d id verdict = .ok (r, ws)) :
    (∃ i ∈ d.quarantineItem, i.id = id ∧ s.sees (some i.tenantId) = true ∧
        reportedAsCheck verdict = true ∧ r = some { i with reportedAs := some verdict } ∧
        ws = [.quarantineItem ⟨some i, { i with reportedAs := some verdict }⟩]) ∨
      r = none ∧ ws = [] := by
  simp only [reportItem, require_bind_eq_ok] at h
  obtain ⟨-, h⟩ := h
  split at h
  · rename_i i hi
    rw [Option.filter_eq_some_iff] at hi
    obtain ⟨hmem, hid⟩ := Table.find?_eq_some.1 hi.1
    simp only [require_bind_eq_ok] at h
    obtain ⟨hcheck, h⟩ := h
    cases h
    exact .inl ⟨i, hmem, hid, hi.2, hcheck, rfl, rfl⟩
  · cases h
    exact .inr ⟨rfl, rfl⟩

theorem selectPending_ok {batch : Int} {rows : List PendingRow}
    (h : selectPending s o d batch = .ok rows) :
    ∀ row ∈ rows, ∃ a ∈ d.accounts, s.sees (some a.tenantId) = true ∧
      a.status = .pendingProvisioning ∧ row = pendingRow a := by
  simp only [selectPending, require_bind_eq_ok] at h
  obtain ⟨-, h⟩ := h
  cases h
  intro row hrow
  obtain ⟨a, ha, rfl⟩ := List.mem_map.1 hrow
  have ha := List.mem_of_mem_take ha
  simp only [orderBy, List.mem_insertionSort, List.mem_filter, Bool.and_eq_true,
    decide_eq_true_eq] at ha
  exact ⟨a, ha.1, ha.2.1, ha.2.2, rfl⟩

theorem activatePending_cases (s : Session) (d : Database) (id u : Uuid) :
    (∃ a ∈ d.accounts, a.id = id ∧ s.sees (some a.tenantId) = true ∧
        a.status = .pendingProvisioning ∧
        activatePending s d id u = (1, [.account ⟨some a, activated s a u⟩])) ∨
      (∀ a ∈ d.accounts, a.id = id → s.sees (some a.tenantId) = true →
        a.status ≠ .pendingProvisioning) ∧ activatePending s d id u = (0, []) := by
  unfold activatePending
  split
  · rename_i a ha
    rw [Option.filter_eq_some_iff, Bool.and_eq_true, decide_eq_true_eq] at ha
    obtain ⟨hmem, hid⟩ := Table.find?_eq_some.1 ha.1
    exact .inl ⟨a, hmem, hid, ha.2.1, ha.2.2, rfl⟩
  · rename_i hnone
    refine .inr ⟨fun a ha hid hsees hpending => ?_, rfl⟩
    rw [Option.filter_eq_none_iff] at hnone
    exact hnone a (Table.find?_eq_some.2 ⟨ha, hid⟩) (by simp [hsees, hpending])

theorem setTenantStatus_cases (d : Database) (id : Uuid) (status : TenantStatus) :
    (∃ t ∈ d.tenants, t.id = id ∧
        setTenantStatus d id status = [.tenant ⟨some t, { t with status := status }⟩]) ∨
      setTenantStatus d id status = [] := by
  unfold setTenantStatus
  split
  · rename_i t ht
    obtain ⟨hmem, hid⟩ := Table.find?_eq_some.1 ht
    exact .inl ⟨t, hmem, hid, rfl⟩
  · exact .inr rfl

theorem setDomainStatus_cases (d : Database) (id : Uuid) (status : DomainStatus) :
    (∃ m ∈ d.domains, m.id = id ∧
        setDomainStatus d id status = [.domain ⟨some m, { m with status := status }⟩]) ∨
      setDomainStatus d id status = [] := by
  unfold setDomainStatus
  split
  · rename_i m hm
    obtain ⟨hmem, hid⟩ := Table.find?_eq_some.1 hm
    exact .inl ⟨m, hmem, hid, rfl⟩
  · exact .inr rfl

theorem setAccountStatus_cases (d : Database) (id : Uuid) (status : AccountStatus) :
    (∃ a ∈ d.accounts, a.id = id ∧
        setAccountStatus d id status = [.account ⟨some a, { a with status := status }⟩]) ∨
      setAccountStatus d id status = [] := by
  unfold setAccountStatus
  split
  · rename_i a ha
    obtain ⟨hmem, hid⟩ := Table.find?_eq_some.1 ha
    exact .inl ⟨a, hmem, hid, rfl⟩
  · exact .inr rfl

/-- Every write of a statement fits the view it was run on. -/
theorem exec_fits {R : Type} {q : Stmt R} {s' : Session} {r : R}
    (h : exec q s o d = .ok (r, s', ws)) : (∀ w ∈ ws, w.fits d) ∧ ws.length ≤ 1 := by
  have one : ∀ {w : Write}, w.fits d → (∀ w' ∈ [w], w'.fits d) ∧ [w].length ≤ 1 := by
    intro w hw
    exact ⟨by simpa using hw, Nat.le_refl 1⟩
  have zero : (∀ w ∈ ([] : List Write), w.fits d) ∧ ([] : List Write).length ≤ 1 := by simp
  cases q with
  | setConfig setting value =>
      simp only [exec, require_bind_eq_ok] at h
      obtain ⟨-, h⟩ := h
      cases h
      exact zero
  | insertAudit plane e =>
      obtain ⟨-, rfl⟩ := insertAudit_ok (keep_eq_ok.1 h).1
      exact one (by cases plane <;> trivial)
  | insertTenant slug name plan =>
      obtain ⟨-, hnew, rfl, rfl⟩ := insertTenant_ok (keep_eq_ok.1 h).1
      exact one hnew
  | insertDomain T fqdn =>
      obtain ⟨-, -, hnew, -, rfl, rfl⟩ := insertDomain_ok (keep_eq_ok.1 h).1
      exact one hnew
  | insertAccount T domainId email displayName quotaMb =>
      obtain ⟨-, -, hnew, -, rfl, rfl⟩ := insertAccount_ok (keep_eq_ok.1 h).1
      exact one hnew
  | activateAccount id u =>
      obtain ⟨old, hold, -, -, -, -, rfl⟩ := activateAccount_ok (keep_eq_ok.1 h).1
      exact one ⟨hold, rfl, rfl, rfl⟩
  | upsertPolicy T reject addHeader greylist =>
      obtain ⟨-, -, rfl, ⟨old, hold, hT, rfl⟩ | ⟨hnew, -, rfl⟩⟩ :=
        upsertPolicy_ok (keep_eq_ok.1 h).1
      · exact one ⟨hold, hT, hT, hT⟩
      · exact one fun x hx => ⟨hnew x hx, hnew x hx⟩
  | insertDecision T messageRef direction recipient sender score action verdict symbols =>
      obtain ⟨-, -, hnew, rfl, rfl⟩ := insertDecision_ok (keep_eq_ok.1 h).1
      exact one fun x hx => ⟨hnew x hx, hnew x hx⟩
  | insertItem T decisionId messageRef recipient sender subject reason =>
      obtain ⟨-, ⟨-, rfl⟩ | ⟨hnew, rfl⟩⟩ := insertItem_ok (keep_eq_ok.1 h).1
      · exact zero
      · exact one hnew
  | releaseItem id actor =>
      rcases releaseItem_ok (keep_eq_ok.1 h).1 with ⟨i, hi, -, -, -, -, rfl⟩ | ⟨-, -, rfl⟩
      · exact one ⟨hi, rfl, rfl, rfl⟩
      · exact zero
  | reportItem id verdict =>
      rcases reportItem_ok (keep_eq_ok.1 h).1 with ⟨i, hi, -, -, -, -, rfl⟩ | ⟨-, rfl⟩
      · exact one ⟨hi, rfl, rfl, rfl⟩
      · exact zero
  | activatePending id u =>
      cases h
      rcases activatePending_cases s d id u with ⟨a, ha, -, -, -, heq⟩ | ⟨-, heq⟩
      · rw [heq]
        exact one ⟨ha, rfl, rfl, rfl⟩
      · rw [heq]
        exact zero
  | setTenantStatus id status =>
      cases h
      rcases setTenantStatus_cases d id status with ⟨t, ht, -, heq⟩ | heq
      · rw [heq]
        exact one ⟨ht, rfl, rfl, rfl⟩
      · rw [heq]
        exact zero
  | setDomainStatus id status =>
      cases h
      rcases setDomainStatus_cases d id status with ⟨m, hm, -, heq⟩ | heq
      · rw [heq]
        exact one ⟨hm, rfl, rfl, rfl⟩
      · rw [heq]
        exact zero
  | setAccountStatus id status =>
      cases h
      rcases setAccountStatus_cases d id status with ⟨a, ha, -, heq⟩ | heq
      · rw [heq]
        exact one ⟨ha, rfl, rfl, rfl⟩
      · rw [heq]
        exact zero
  | selectPending batch =>
      simp only [exec] at h
      cases hrows : selectPending s o d batch with
      | error e => simp [hrows, Except.map] at h
      | ok rows =>
          simp only [hrows, Except.map, Except.ok.injEq, Prod.mk.injEq] at h
          obtain ⟨-, -, rfl⟩ := h
          exact zero
  | selectTenants | selectDomains | selectDomainFqdn | selectAccounts | selectPolicy
  | selectHeld =>
      cases h
      exact zero

end Sql

theorem postgres_lawful : postgres.Lawful Write.fits := by
  refine ⟨Write.clash_symm, Write.fits_apply_iff, ?_⟩
  intro R q s s' o d r ws h
  obtain ⟨hfit, hlen⟩ := Sql.exec_fits (show Sql.exec q s o d = .ok (r, s', ws) from h)
  refine ⟨hfit, ?_⟩
  -- a statement writes one row at most
  rcases ws with _ | ⟨w, _ | ⟨w', ws⟩⟩
  · exact List.Pairwise.nil
  · exact List.pairwise_singleton _ w
  · simp at hlen

end OpenGroupware
