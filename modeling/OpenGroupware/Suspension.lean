import OpenGroupware.Activation
import OpenGroupware.Transactional.Guided

/-!
Suspended domains. `create_account` refuses a domain that is suspended, once,
in its first transaction. The updates that activate an account later look at
the account only. An account of a suspended domain stays inactive in the runs
in which that makes no difference.
-/

namespace OpenGroupware

open Relational Transactional

/-- The account's domain is suspended. -/
def Database.suspends (d : Database) (a : AccountRow) : Bool :=
  (d.domains.find? a.domainId).any fun m => decide (m.status = .suspended)

/-- No account becomes active while its domain is suspended. -/
def RespectsSuspension (d d' : Database) : Prop :=
  ∀ a ∈ d.accounts, ∀ a' ∈ d'.accounts, a'.id = a.id → a.status ≠ .active →
    a'.status = .active → d.suspends a = false

/-- The account a statement makes active. -/
def Stmt.activates : {R : Type} → Stmt R → Option Uuid
  | _, .activateAccount id _ => some id
  | _, .activatePending id _ => some id
  | _, .setAccountStatus id status => if status = .active then some id else none
  | _, _ => none

namespace Write

/-- The account a write makes active. -/
def activates : Write → Option AccountRow
  | .account ⟨some a, a'⟩ => if a.status ≠ .active ∧ a'.status = .active then some a else none
  | _ => none

/-- The domain a write suspends. -/
def suspends : Write → Option Uuid
  | .domain c => if c.new.status = .suspended then some c.new.id else none
  | _ => none

end Write

/-- The condition that no update checks: when it runs, the domain of the account
it makes active is not suspended, and no suspension of that domain is committed
before the activation is. -/
def unsuspended (σ : State) : Event → Bool
  | .stmt p _ =>
      match σ.procs p with
      | some ⟨_, _, .stmt q _, some t, _⟩ =>
          (q.activates.bind (postgres.applyAll t.writes σ.store).accounts.find?).all fun a =>
            decide (a.status = .active) || !σ.store.suspends a
      | _ => true
  | .commit p =>
      match σ.procs p with
      | some ⟨_, _, _, some t, _⟩ =>
          t.writes.all fun w => σ.txs.all fun t' => decide (t'.1 = p) ||
            t'.2.writes.all fun w' =>
              w'.activates.all fun a => decide (w.suspends ≠ some a.domainId)
      | _ => true
  | _ => true

/-- Requests of the services, and operators who change the status of domains. -/
def Request.sparesAccounts : Request → Bool
  | .operator (.domain _ _) => true
  | c => c.isService

/-- Only an activating statement makes an account active, one that it finds. -/
theorem Sql.exec_activates {R : Type} {q : Stmt R} {s s' : Session} {o : Oracle} {d : Database}
    {r : R} {ws : List Write} (h : exec q s o d = .ok (r, s', ws)) :
    ∀ w ∈ ws, ∀ a, w.activates = some a →
      q.activates.bind d.accounts.find? = some a ∧ a.status ≠ .active := by
  have one : ∀ {a a' : AccountRow}, d.accounts.find? a.id = some a →
      (a'.status = .active → q.activates = some a.id) →
      ∀ w ∈ [Write.account ⟨some a, a'⟩], ∀ b, w.activates = some b →
        q.activates.bind d.accounts.find? = some b ∧ b.status ≠ .active := by
    intro a a' hfind hq w hw b hb
    rw [List.mem_singleton] at hw
    subst hw
    simp only [Write.activates, Option.ite_none_right_eq_some, Option.some.injEq] at hb
    obtain ⟨⟨hne, hactive⟩, rfl⟩ := hb
    rw [hq hactive]
    exact ⟨hfind, hne⟩
  have none : ∀ {w : Write}, w.activates = none → ∀ w' ∈ [w], ∀ b, w'.activates = some b →
      q.activates.bind d.accounts.find? = some b ∧ b.status ≠ .active := by
    intro w hw w' hw' b hb
    rw [List.mem_singleton.1 hw', hw] at hb
    cases hb
  cases q with
  | setConfig setting value =>
      simp only [exec, require_bind_eq_ok] at h
      obtain ⟨-, h⟩ := h
      cases h
      simp
  | insertAudit plane e =>
      obtain ⟨-, rfl⟩ := insertAudit_ok (keep_eq_ok.1 h).1
      exact none (by cases plane <;> rfl)
  | insertTenant slug name plan =>
      obtain ⟨-, -, -, rfl⟩ := insertTenant_ok (keep_eq_ok.1 h).1
      exact none rfl
  | insertDomain T fqdn =>
      obtain ⟨-, -, -, -, -, rfl⟩ := insertDomain_ok (keep_eq_ok.1 h).1
      exact none rfl
  | insertAccount T domainId email displayName quotaMb =>
      obtain ⟨-, -, -, -, -, rfl⟩ := insertAccount_ok (keep_eq_ok.1 h).1
      exact none rfl
  | activateAccount id u =>
      obtain ⟨a, -, hfind, rfl, -, -, rfl⟩ := activateAccount_ok (keep_eq_ok.1 h).1
      exact one hfind fun _ => rfl
  | upsertPolicy T reject addHeader greylist =>
      obtain ⟨-, -, rfl, ⟨old, -, -, rfl⟩ | ⟨-, -, rfl⟩⟩ := upsertPolicy_ok (keep_eq_ok.1 h).1
      · exact none rfl
      · exact none rfl
  | insertDecision T messageRef direction recipient sender score action verdict symbols =>
      obtain ⟨-, -, -, -, rfl⟩ := insertDecision_ok (keep_eq_ok.1 h).1
      exact none rfl
  | insertItem T decisionId messageRef recipient sender subject reason =>
      obtain ⟨-, ⟨-, rfl⟩ | ⟨-, rfl⟩⟩ := insertItem_ok (keep_eq_ok.1 h).1
      · simp
      · exact none rfl
  | releaseItem id actor =>
      rcases releaseItem_ok (keep_eq_ok.1 h).1 with ⟨i, -, -, -, -, -, rfl⟩ | ⟨-, -, rfl⟩
      · exact none rfl
      · simp
  | reportItem id verdict =>
      rcases reportItem_ok (keep_eq_ok.1 h).1 with ⟨i, -, -, -, -, -, rfl⟩ | ⟨-, rfl⟩
      · exact none rfl
      · simp
  | activatePending id u =>
      cases h
      rcases activatePending_cases s d id u with ⟨a, ha, rfl, -, -, heq⟩ | ⟨-, heq⟩
      · rw [heq]
        exact one (Table.find?_eq_some.2 ⟨ha, rfl⟩) fun _ => rfl
      · simp [heq]
  | setTenantStatus id status =>
      cases h
      rcases setTenantStatus_cases d id status with ⟨t, -, -, heq⟩ | heq
      · rw [heq]
        exact none rfl
      · simp [heq]
  | setDomainStatus id status =>
      cases h
      rcases setDomainStatus_cases d id status with ⟨m, -, -, heq⟩ | heq
      · rw [heq]
        exact none rfl
      · simp [heq]
  | setAccountStatus id status =>
      cases h
      rcases setAccountStatus_cases d id status with ⟨a, ha, rfl, heq⟩ | heq
      · rw [heq]
        refine one (Table.find?_eq_some.2 ⟨ha, rfl⟩) fun hactive => ?_
        have hstatus : status = .active := hactive
        simp [Stmt.activates, hstatus]
      · simp [heq]
  | selectPending batch =>
      simp only [exec] at h
      cases hrows : selectPending s o d batch with
      | error e => simp [hrows, Except.map] at h
      | ok rows =>
          simp only [hrows, Except.map, Except.ok.injEq, Prod.mk.injEq] at h
          obtain ⟨-, -, rfl⟩ := h
          simp
  | selectTenants | selectDomains | selectDomainFqdn | selectAccounts | selectPolicy
  | selectHeld =>
      cases h
      simp

/-! ### Rows after a transaction -/

theorem mem_accounts_applyAll {ws : List Write} {d : Database} {a : AccountRow}
    (h : a ∈ (postgres.applyAll ws d).accounts) :
    a ∈ d.accounts ∨ ∃ old, .account ⟨old, a⟩ ∈ ws := by
  have hone : ∀ (w : Write) (d : Database), a ∈ (w.apply d).accounts →
      a ∈ d.accounts ∨ ∃ old, w = .account ⟨old, a⟩ := by
    intro w d h
    cases w with
    | account c =>
        rcases Table.mem_put.1 h with rfl | ⟨h, -⟩
        · exact .inr ⟨c.old, rfl⟩
        · exact .inl h
    | _ => exact .inl h
  rcases postgres.exists_of_applyAll (a ∈ ·.accounts) hone h with h | ⟨w, hw, old, rfl⟩
  · exact .inl h
  · exact .inr ⟨old, hw⟩

theorem mem_domains_applyAll {ws : List Write} {d : Database} {m : Domain}
    (h : m ∈ (postgres.applyAll ws d).domains) :
    m ∈ d.domains ∨ ∃ old, .domain ⟨old, m⟩ ∈ ws := by
  have hone : ∀ (w : Write) (d : Database), m ∈ (w.apply d).domains →
      m ∈ d.domains ∨ ∃ old, w = .domain ⟨old, m⟩ := by
    intro w d h
    cases w with
    | domain c =>
        rcases Table.mem_put.1 h with rfl | ⟨h, -⟩
        · exact .inr ⟨c.old, rfl⟩
        · exact .inl h
    | _ => exact .inl h
  rcases postgres.exists_of_applyAll (m ∈ ·.domains) hone h with h | ⟨w, hw, old, rfl⟩
  · exact .inl h
  · exact .inr ⟨old, hw⟩

theorem suspends_iff {d : Database} {a : AccountRow} :
    d.suspends a = true ↔ ∃ m ∈ d.domains, m.id = a.domainId ∧ m.status = .suspended := by
  simp only [Database.suspends, Option.any_eq_true, decide_eq_true_eq]
  constructor
  · rintro ⟨m, hm, hstatus⟩
    obtain ⟨hmem, hid⟩ := Table.find?_eq_some.1 hm
    exact ⟨m, hmem, hid, hstatus⟩
  · rintro ⟨m, hmem, hid, hstatus⟩
    exact ⟨m, Table.find?_eq_some.2 ⟨hmem, hid⟩, hstatus⟩

/-! ### Runs -/

section

variable {sesame : Bool} {answers : ProvisionUser → Except ProviderError Uuid → Prop}
  {σ σ' : State}

/-- The states of runs of the services and of operators who change domains,
whose steps meet the condition `cond`. -/
abbrev Activating (sesame : Bool) (answers : ProvisionUser → Except ProviderError Uuid → Prop)
    (cond : State → Event → Bool) (σ : State) : Prop :=
  Guided (services sesame answers) (fun c => c.sparesAccounts = true) (fun _ _ => True)
    (fun σ l => cond σ l = true) Database.empty Session.new σ

/-- The steps of such runs. -/
abbrev ActivatingStep (sesame : Bool)
    (answers : ProvisionUser → Except ProviderError Uuid → Prop) : State → Event → State → Prop :=
  Step (services sesame answers) (fun c => c.sparesAccounts = true) (fun _ _ => True)

/-- The domain of an account that an open transaction has made active is not
suspended. -/
theorem pending_unsuspended
    (h : Activating sesame answers unsuspended σ) :
    ∀ p P t, σ.procs p = some P → P.tx = some t → ∀ w ∈ t.writes, ∀ a,
      w.activates = some a → σ.store.suspends a = false := by
  refine Guided.pending
    (φ := fun (d : Database) (w : Write) => ∀ a, w.activates = some a → d.suspends a = false)
    ?_ ?_ h
  · intro σ p o P t R q k r s' ws _ hcond hp hprog ht hexec w hw a ha
    obtain ⟨hfind, hne⟩ := Sql.exec_activates hexec w hw a ha
    obtain ⟨c, b, prog, tx, cs⟩ := P
    obtain rfl : prog = .stmt q k := hprog
    obtain rfl : tx = some t := ht
    simp only [unsuspended, hp] at hcond
    rw [show postgres.applyAll t.writes σ.store =
      (services sesame answers).applyAll t.writes σ.store from rfl, hfind] at hcond
    simpa [hne] using hcond
  · intro σ p P t k p' P' t' hσ hcond hp hprog ht hne hp' ht' w hw hpending a ha
    obtain ⟨c, b, prog, tx, cs⟩ := P
    obtain rfl : tx = some t := ht
    simp only [unsuspended, hp, List.all_eq_true, Bool.or_eq_true, decide_eq_true_eq] at hcond
    have hother := Sys.mem_txs hσ.reachable.recorded hp' ht'
    by_contra hsus
    rw [Bool.not_eq_false] at hsus
    obtain ⟨m, hm, hid, hstatus⟩ := suspends_iff.1 hsus
    rcases mem_domains_applyAll hm with hm | ⟨old, hold⟩
    · have hbefore := suspends_iff.2 ⟨m, hm, hid, hstatus⟩
      rw [hpending a ha] at hbefore
      cases hbefore
    · have hclear := (hcond _ hold _ hother).resolve_left hne w hw
      rw [ha] at hclear
      simp [Write.suspends, hstatus, hid] at hclear

/-- No account becomes active while its domain is suspended, in every run whose
activation updates only run, and are only committed, while the domain is not
suspended. -/
theorem suspension_respected
    (h : Activating sesame answers unsuspended σ) {l : Event}
    (hstep : ActivatingStep sesame answers σ l σ') : RespectsSuspension σ.store σ'.store := by
  have hs : (contract answers fun _ _ => True).Started (services sesame answers)
      (fun c => c.sparesAccounts = true) Database.empty Session.new :=
    services_started Consistent.empty
  intro a ha a' ha' hid hinactive hactive
  have hkey : ∀ b ∈ σ.store.accounts, b.id = a.id → b = a := fun b hb hbid =>
    Table.eq_of_key hb ha hbid
  rcases hstep.store_eq with ⟨-, hstore, -⟩ | ⟨p, P, t, k, rfl, hp, hprog, ht, hstore, -⟩
  · rw [hstore] at ha'
    rw [hkey a' ha' hid] at hactive
    exact absurd hactive hinactive
  · obtain ⟨-, hpend, -⟩ := hs.commit_post h.reachable hp hprog ht
    rw [hstore] at ha'
    rcases mem_accounts_applyAll ha' with ha' | ⟨old, hwrite⟩
    · rw [hkey a' ha' hid] at hactive
      exact absurd hactive hinactive
    · have hfit : Write.fits (.account ⟨old, a'⟩) σ.store := hpend.fits _ hwrite
      cases old with
      | none => exact absurd hid.symm (hfit a ha).1
      | some b =>
          -- an update replaces the row of its account
          have hb : b = a := hkey b hfit.1 (hfit.2.1.trans hid)
          refine pending_unsuspended h p P t hp ht _ hwrite a ?_
          simp [Write.activates, hb, hinactive, hactive]

end

/-- An operator suspends the domain while its account is being provisioned. -/
def suspendDomain : List Event :=
  [.spawn 3 (.operator (.domain (.number 11) .suspended))] ++ undisturbed 3 30 1 ++ [.reply 3]

/-- The activation transaction of the request that created it, up to its commit. -/
def activating : List Event :=
  [.start 2 0 (.number 50), .stmt 2 (.number 50), .stmt 2 (.number 51), .stmt 2 (.number 52)]

theorem activating_step_of_replay (sesame : Bool)
    (answers : ProvisionUser → Except ProviderError Uuid → Prop) [∀ x y, Decidable (answers x y)]
    (cond : State → Event → Bool) (events : List Event) (l : Event) (p : State → State → Bool)
    (h : ((replayIf (services sesame answers) (fun c => c.sparesAccounts = true)
      (fun _ _ => True) (fun σ l => cond σ l = true) (Sys.init Database.empty Session.new)
      events).any fun σ => decide (cond σ l = true) &&
        (next (services sesame answers) (fun c => c.sparesAccounts = true) (fun _ _ => True) σ
          l).any (p σ)) = true) :
    ∃ σ σ', Activating sesame answers cond σ ∧ ActivatingStep sesame answers σ l σ' ∧
      p σ σ' = true := by
  obtain ⟨σ, σ', hσ, -, hstep, hp⟩ := guided_step_of_replay h
  exact ⟨σ, σ', hσ, hstep, hp⟩

theorem suspension_ignored :
    ∃ σ σ' l, Activating true (assigns (.number 900)) (fun _ _ => true) σ ∧
      ActivatingStep true (assigns (.number 900)) σ l σ' ∧
      ¬RespectsSuspension σ.store σ'.store := by
  obtain ⟨σ, σ', hσ, hstep, h⟩ :=
    activating_step_of_replay true (assigns (.number 900)) (fun _ _ => true)
      (slowProvision ++ suspendDomain ++ activating) (.commit 2)
      (fun σ σ' => σ.store.accounts.rows.any fun a => σ'.store.accounts.rows.any fun a' =>
        decide (a'.id = a.id ∧ a.status ≠ .active ∧ a'.status = .active) && σ.store.suspends a)
      (by decide +kernel)
  simp only [List.any_eq_true, Bool.and_eq_true, decide_eq_true_eq] at h
  obtain ⟨a, ha, a', ha', ⟨hid, hinactive, hactive⟩, hsus⟩ := h
  refine ⟨σ, σ', _, hσ, hstep, fun hrespects => ?_⟩
  rw [hrespects a ha a' ha' hid hinactive hactive] at hsus
  cases hsus

theorem suspension_respected_slowProvision :
    ∃ σ σ' l, Activating true (assigns (.number 900)) unsuspended σ ∧
      ActivatingStep true (assigns (.number 900)) σ l σ' ∧
      σ.store.accounts.rows.map (fun a => a.status) = [.pendingProvisioning] ∧
      σ'.store.accounts.rows.map (fun a => a.status) = [.active] ∧
      RespectsSuspension σ.store σ'.store := by
  obtain ⟨σ, σ', hσ, hstep, h⟩ :=
    activating_step_of_replay true (assigns (.number 900)) unsuspended
      (slowProvision ++ activating) (.commit 2)
      (fun σ σ' => decide (σ.store.accounts.rows.map (fun a => a.status) =
        [.pendingProvisioning] ∧ σ'.store.accounts.rows.map (fun a => a.status) = [.active]))
      (by decide +kernel)
  obtain ⟨hbefore, hafter⟩ := of_decide_eq_true h
  exact ⟨σ, σ', _, hσ, hstep, hbefore, hafter, suspension_respected hσ hstep⟩

end OpenGroupware
