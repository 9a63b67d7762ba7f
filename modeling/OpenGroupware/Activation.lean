import OpenGroupware.Audit

/-!
Activation of accounts: by the second transaction of `create_account` and by
reconciliation. Reconciliation updates an account only while it is pending;
`provision_into_sesame` updates it whatever its status is. Activation happens
once in the runs in which that makes no difference.
-/

namespace OpenGroupware

open Relational Transactional

/-- The actions of the two paths that activate an account. -/
def activationActions : List String := ["account.provisioned", "account.reconciled"]

/-- The activation entries about an account. -/
def activations (log : List AuditEntry) (id : Uuid) : List AuditEntry :=
  about activationActions log id

/-- Requests of the services, and operators who suspend or delete accounts or
change the status of tenants and domains. -/
def Request.isOrderly : Request → Bool
  | .operator (.account _ status) => status = .suspended || status = .deleted
  | _ => true

/-- The condition the update of `provision_into_sesame` does not check: the
account it names is pending. -/
def stillPending : {R : Type} → Stmt R → Database → Bool
  | _, .activateAccount id _, d =>
      (d.accounts.find? id).all fun a => decide (a.status = .pendingProvisioning)
  | _, _, _ => true

/-- Activation happens once, whichever path wins. -/
structure ActivatedOnce (σ : State) : Prop where
  once : ∀ a ∈ σ.store.accounts, (activations σ.store.auditLog a.id).length ≤ 1
  /-- An activation entry is written by the transaction that moves the account
  from pending to active. -/
  moved : ∀ e ∈ σ.history, ∀ entry ∈ entries .control e.writes,
    entry.action ∈ activationActions → ∃ a a' : AccountRow, .account ⟨some a, a'⟩ ∈ e.writes ∧
      entry.entityId = a.id.toText ∧ a.status = .pendingProvisioning ∧ a'.status = .active
  /-- The services update pending accounts only. -/
  kept : ∀ e ∈ σ.history, e.request.isService = true → ∀ a a' : AccountRow,
    .account ⟨some a, a'⟩ ∈ e.writes → a.status = .pendingProvisioning

/-- What holds of accounts and their audit log in every store. -/
structure Activations (d : Database) : Prop where
  pending : ∀ a ∈ d.accounts, a.status = .pendingProvisioning → activations d.auditLog a.id = []
  once : ∀ a ∈ d.accounts, (activations d.auditLog a.id).length ≤ 1
  known : ∀ e ∈ d.auditLog, e.action ∈ activationActions →
    ∃ a ∈ d.accounts, e.entityId = a.id.toText

namespace Activations

variable {d : Database}

theorem empty : Activations Database.empty := by
  constructor <;> simp [Database.empty]

theorem log (h : Activations d) {e : AuditEntry} (he : e.action ∉ activationActions) :
    Activations (Write.apply (.audit e) d) := by
  have hsame : ∀ id, activations (d.auditLog ++ [e]) id = activations d.auditLog id := by
    intro id
    rw [activations, about_append, about_other he, List.append_nil]
    rfl
  refine ⟨fun a ha hst => ?_, fun a ha => ?_, fun e' he' haction => ?_⟩
  · rw [Write.apply, hsame]
    exact h.pending a ha hst
  · rw [Write.apply, hsame]
    exact h.once a ha
  · rcases List.mem_append.1 he' with he' | he'
    · exact h.known e' he' haction
    · rw [List.mem_singleton] at he'
      exact absurd (he' ▸ haction) he

theorem create (h : Activations d) {a : AccountRow}
    (hfit : Write.fits (.account ⟨none, a⟩) d) :
    Activations (Write.apply (.account ⟨none, a⟩) d) := by
  have hnone : activations d.auditLog a.id = [] :=
    about_eq_nil h.known fun x hx => (hfit x hx).1
  refine ⟨fun x hx hst => ?_, fun x hx => ?_, fun e he haction => ?_⟩
  · rcases Table.mem_put.1 hx with rfl | ⟨hx, -⟩
    · exact hnone
    · exact h.pending x hx hst
  · rcases Table.mem_put.1 hx with rfl | ⟨hx, -⟩
    · change (activations d.auditLog x.id).length ≤ 1
      rw [hnone]
      exact Nat.zero_le 1
    · exact h.once x hx
  · obtain ⟨x, hx, hid⟩ := h.known e he haction
    exact ⟨x, Table.mem_put.2 (.inr ⟨hx, (hfit x hx).1⟩), hid⟩

/-- A pending account is activated under one entry. -/
theorem activate (h : Activations d) {a a' : AccountRow} {T : Uuid} {actor action : String}
    {e : AuditEntry} (ha : a ∈ d.accounts) (hpending : a.status = .pendingProvisioning)
    (hid : a'.id = a.id) (hactive : a'.status = .active)
    (he : e.Names T actor action "account" a.id) (haction : action ∈ activationActions) :
    Activations (Write.apply (.audit e) (Write.apply (.account ⟨some a, a'⟩) d)) := by
  have hlog : ∀ id, activations (d.auditLog ++ [e]) id =
      activations d.auditLog id ++ if a.id = id then [e] else [] := by
    intro id
    rw [activations, about_append, about_names he haction]
    rfl
  refine ⟨fun x hx hst => ?_, fun x hx => ?_, fun e' he' haction' => ?_⟩
  · rcases Table.mem_put.1 hx with rfl | ⟨hx, hne⟩
    · rw [hactive] at hst
      cases hst
    · simp only [Write.apply]
      rw [hlog, if_neg fun hax => hne (hax.symm.trans hid.symm), List.append_nil]
      exact h.pending x hx hst
  · simp only [Write.apply]
    rw [hlog]
    rcases Table.mem_put.1 hx with rfl | ⟨hx, hne⟩
    · rw [hid, h.pending a ha hpending, if_pos rfl]
      exact Nat.le_refl 1
    · rw [if_neg fun hax => hne (hax.symm.trans hid.symm), List.append_nil]
      exact h.once x hx
  · have hput : ∀ x ∈ d.accounts, ∃ x' ∈ d.accounts.put a', x'.id = x.id :=
      fun x hx => Table.exists_key_put ⟨x, hx, rfl⟩
    rcases List.mem_append.1 he' with he' | he'
    · obtain ⟨x, hx, hname⟩ := h.known e' he' haction'
      obtain ⟨x', hx', hid'⟩ := hput x hx
      exact ⟨x', hx', by rw [hid', hname]⟩
    · rw [List.mem_singleton] at he'
      obtain ⟨x', hx', hid'⟩ := hput a ha
      exact ⟨x', hx', by rw [he', he.entityId, hid']⟩

/-- An operator takes an account out of service. -/
theorem setStatus (h : Activations d) {a : AccountRow} {status : AccountStatus}
    (ha : a ∈ d.accounts) (hstatus : status ≠ .pendingProvisioning) :
    Activations (Write.apply (.account ⟨some a, { a with status := status }⟩) d) := by
  refine ⟨fun x hx hst => ?_, fun x hx => ?_, fun e he haction => ?_⟩
  · rcases Table.mem_put.1 hx with rfl | ⟨hx, -⟩
    · exact absurd hst hstatus
    · exact h.pending x hx hst
  · rcases Table.mem_put.1 hx with rfl | ⟨hx, -⟩
    · exact h.once a ha
    · exact h.once x hx
  · obtain ⟨x, hx, hname⟩ := h.known e he haction
    obtain ⟨x', hx', hid'⟩ := Table.exists_key_put
      (r := ({ a with status := status } : AccountRow)) ⟨x, hx, rfl⟩
    exact ⟨x', hx', by rw [hid', hname]⟩

end Activations

section

variable {sesame : Bool} {answers : ProvisionUser → Except ProviderError Uuid → Prop}
  {σ : State}

/-- In runs whose activation updates meet the condition, what a request commits
meets it as well. -/
theorem pending_of_guarded {a : AccountRow} {u : Uuid}
    (h : ∃ v, v.accounts.find? a.id = some a ∧ stillPending (.activateAccount a.id u) v = true) :
    a.status = .pendingProvisioning := by
  obtain ⟨v, hfind, hguard⟩ := h
  simpa [stillPending, hfind] using hguard

theorem Activations.commit {d : Database} (h : Activations d) {c : Request}
    {cs : List (List Write)} {ws : List Write} (hc : c.isOrderly = true)
    (hpend : postgres.Pending Write.fits ws d)
    (hpost : Committed answers (fun q d => stillPending q d = true) c cs d ws) :
    Activations (postgres.applyAll ws d) := by
  have other : ∀ {action : String}, action ∉ activationActions → ∀ {e : AuditEntry},
      e.action = action → e.action ∉ activationActions := fun hne _ he => he ▸ hne
  cases hpost with
  | nothing => exact h
  | createTenant _ _ _ entry | createDomain _ _ _ _ entry | putPolicy _ _ _ _ entry =>
      have hlog := h.log (other (by decide) entry.action)
      exact ⟨hlog.pending, hlog.once, hlog.known⟩
  | createAccount _ _ _ _ entry =>
      exact (h.create (hpend.fits _ List.mem_cons_self)).log (other (by decide) entry.action)
  | provisioned _ _ guarded _ entry =>
      exact h.activate (hpend.fits _ List.mem_cons_self).1 (pending_of_guarded guarded) rfl rfl
        entry (by decide)
  | reconcile _ pending entry =>
      exact h.activate (hpend.fits _ List.mem_cons_self).1 pending rfl rfl entry (by decide)
  | @accountStatus status =>
      refine h.setStatus (hpend.fits _ List.mem_cons_self).1 ?_
      rintro rfl
      simp [Request.isOrderly] at hc
  | decision | quarantine | release | report | tenantStatus | domainStatus =>
      exact ⟨h.pending, h.once, h.known⟩

/-- The two writes of an activation. -/
theorem activation_logged {a : AccountRow} {e : AuditEntry}
    (hpending : a.status = .pendingProvisioning) (hid : e.entityId = a.id.toText) (u : Uuid)
    (now : Timestamp) :
    (∀ entry ∈ entries .control [.account ⟨some a, a.provisioned u now⟩, .audit e],
      ∃ b b' : AccountRow,
        .account ⟨some b, b'⟩ ∈ [.account ⟨some a, a.provisioned u now⟩, Write.audit e] ∧
          entry.entityId = b.id.toText ∧ b.status = .pendingProvisioning ∧ b'.status = .active) ∧
    ∀ b b' : AccountRow,
      .account ⟨some b, b'⟩ ∈ [.account ⟨some a, a.provisioned u now⟩, Write.audit e] →
        b.status = .pendingProvisioning := by
  constructor
  · simp only [entries, List.filterMap_cons, List.filterMap_nil, Write.entry,
      List.mem_singleton, forall_eq]
    exact ⟨a, a.provisioned u now, by simp, hid, hpending, rfl⟩
  · intro b b' hb
    simp only [List.mem_cons, Write.account.injEq, Change.mk.injEq, Option.some.injEq,
      reduceCtorEq, List.not_mem_nil, or_false] at hb
    rw [hb.1]
    exact hpending

/-- What one orderly transaction does to accounts. -/
theorem Committed.activates {d : Database} {c : Request} {cs : List (List Write)}
    {ws : List Write} (hpost : Committed answers (fun q d => stillPending q d = true) c cs d ws) :
    (∀ entry ∈ entries .control ws, entry.action ∈ activationActions →
      ∃ a a' : AccountRow, .account ⟨some a, a'⟩ ∈ ws ∧ entry.entityId = a.id.toText ∧
        a.status = .pendingProvisioning ∧ a'.status = .active) ∧
    (c.isService = true → ∀ a a' : AccountRow, .account ⟨some a, a'⟩ ∈ ws →
      a.status = .pendingProvisioning) := by
  have other : ∀ {action : String}, action ∉ activationActions → ∀ {e : AuditEntry},
      e.action = action → e.action ∈ activationActions → False := fun hne _ he h => hne (he ▸ h)
  cases hpost with
  | nothing | decision | quarantine | release | report | tenantStatus | domainStatus =>
      simp [entries, Write.entry]
  | createTenant _ _ _ entry | createDomain _ _ _ _ entry | putPolicy _ _ _ _ entry
  | createAccount _ _ _ _ entry =>
      refine ⟨?_, by simp⟩
      simp only [entries, List.filterMap_cons, List.filterMap_nil, Write.entry,
        List.mem_singleton, forall_eq]
      exact fun haction => (other (by decide) entry.action haction).elim
  | @provisioned _ _ _ _ _ _ a u now e _ _ guarded _ entry =>
      obtain ⟨hlogged, hchanged⟩ :=
        activation_logged (pending_of_guarded guarded) entry.entityId u now
      exact ⟨fun x hx _ => hlogged x hx, fun _ => hchanged⟩
  | @reconcile _ _ _ a u now e _ pending entry =>
      obtain ⟨hlogged, hchanged⟩ := activation_logged pending entry.entityId u now
      exact ⟨fun x hx _ => hlogged x hx, fun _ => hchanged⟩
  | accountStatus =>
      refine ⟨by simp [entries, Write.entry], fun h => ?_⟩
      cases h

/-- The states of orderly runs. -/
abbrev Orderly (sesame : Bool) (answers : ProvisionUser → Except ProviderError Uuid → Prop)
    (guard : {R : Type} → Stmt R → Database → Prop) (σ : State) : Prop :=
  Reachable (services sesame answers) (fun c => c.isOrderly = true) guard Database.empty
    Session.new σ

/-- Activation happens once in every orderly run in which the update of
`provision_into_sesame` only ever runs on an account that is still pending. -/
theorem activated_once (h : Orderly sesame answers (fun q d => stillPending q d = true) σ) :
    ActivatedOnce σ := by
  have hs : (contract answers fun q d => stillPending q d = true).Started
      (services sesame answers) (fun c => c.isOrderly = true) Database.empty Session.new :=
    services_started Consistent.empty
  have hstore : Activations σ.store :=
    hs.store_induction Activations.empty
      (fun _ _ _ _ hc _ hpend hpost hd => hd.commit hc hpend hpost) h
  refine ⟨hstore.once, fun e he => ?_, fun e he => ?_⟩
  · obtain ⟨cs, d, -, -, hpost, -⟩ := hs.history_post h e he
    exact (Committed.activates hpost).1
  · obtain ⟨cs, d, -, -, hpost, -⟩ := hs.history_post h e he
    exact (Committed.activates hpost).2

end

/-! ### A slow provision call -/

/-- sesame-idam always answers with the same user. -/
def assigns (u : Uuid) (_ : ProvisionUser) : Except ProviderError Uuid → Prop
  | .ok v => v = u
  | .error _ => False

instance (u : Uuid) (x : ProvisionUser) : (y : Except ProviderError Uuid) →
    Decidable (assigns u x y)
  | .ok v => inferInstanceAs (Decidable (v = u))
  | .error _ => inferInstanceAs (Decidable False)

/-- A tenant, its domain and an account, whose provision call is answered but
not yet acted upon. -/
def slowProvision : List Event :=
  let admin : Caller := ⟨"admin", none, []⟩
  [.spawn 0 (.http admin (.createTenant { slug := "acme", name := "Acme" }))] ++
    undisturbed 0 1 3 ++ [.reply 0] ++
  [.spawn 1 (.http admin (.createDomain (.number 2) { fqdn := "acme.example" }))] ++
    undisturbed 1 10 3 ++ [.reply 1] ++
  [.spawn 2 (.http admin (.createAccount (.number 2)
    { domainId := .number 11, localPart := "ann" }))] ++
    undisturbed 2 20 4 ++ [.call 2 (.ok (.number 900))]

/-- A cycle that finds the account pending and activates it. -/
def overtakingCycle : List Event :=
  [.spawn 3 (.reconcile 50)] ++ undisturbed 3 30 2 ++ [.call 3 (.ok (.number 900))] ++
    undisturbed 3 40 3 ++ [.reply 3]

/-- The account is activated twice when a cycle overtakes the request that
created it. -/
theorem overtaken_activated_twice :
    ∃ σ, Orderly true (assigns (.number 900)) (fun _ _ => True) σ ∧ ¬ActivatedOnce σ := by
  have hreplay : ((replay (services true (assigns (.number 900)))
      (fun c => c.isOrderly = true) (fun _ _ => True) (Sys.init Database.empty Session.new)
      (slowProvision ++ overtakingCycle ++ undisturbed 2 50 3 ++ [.reply 2])).any fun σ =>
        σ.store.accounts.rows.any fun a =>
          decide (1 < (activations σ.store.auditLog a.id).length)) = true := by
    decide +kernel
  obtain ⟨σ, hσ, h⟩ := exists_of_replay hreplay
  obtain ⟨a, ha, hlen⟩ := List.any_eq_true.1 h
  exact ⟨σ, hσ, fun hone => Nat.not_le.2 (of_decide_eq_true hlen) (hone.once a ha)⟩

theorem activated_once_slowProvision :
    ∃ σ, Orderly true (assigns (.number 900)) (fun q d => stillPending q d = true) σ ∧
      σ.store.accounts.rows.map (fun a => a.status) = [.active] ∧ ActivatedOnce σ := by
  have hreplay : ((replay (services true (assigns (.number 900)))
      (fun c => c.isOrderly = true) (fun q d => stillPending q d = true)
      (Sys.init Database.empty Session.new)
      (slowProvision ++ undisturbed 2 50 3 ++ [.reply 2])).any fun σ =>
        decide (σ.store.accounts.rows.map (fun a => a.status) = [.active])) = true := by
    decide +kernel
  obtain ⟨σ, hσ, h⟩ := exists_of_replay hreplay
  exact ⟨σ, hσ, of_decide_eq_true h, activated_once hσ⟩

end OpenGroupware
