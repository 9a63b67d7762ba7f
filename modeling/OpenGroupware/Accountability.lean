import OpenGroupware.Audit
import OpenGroupware.Authentication
import Mathlib.Logic.Relation

/-!
The services with their front doors. Each of the two has its own cache of keys
and authenticates what reaches its router; a handler runs for what has passed.
Every row that they leave in the audit trail can then be traced to a signed
token, or to a job-runner.
-/

namespace OpenGroupware

open Relational Transactional

/-! ### Handlers and their paths -/

deriving instance DecidableEq for Api

/-- The handler of a route. -/
def Route.endpoint : Route → Endpoint
  | .createTenant _ => .createTenant
  | .listTenants => .listTenants
  | .createDomain _ _ => .createDomain
  | .listDomains _ => .listDomains
  | .createAccount _ _ => .createAccount
  | .listAccounts _ => .listAccounts
  | .getPolicy _ _ => .getPolicy
  | .putPolicy _ _ => .putPolicy
  | .recordDecision _ _ => .recordDecision
  | .listQuarantine _ => .listQuarantine
  | .releaseItem _ _ => .releaseItem
  | .reportItem _ _ _ => .reportItem

/-- The identifiers its extractors take from the path. -/
def Route.ids : Route → List Uuid
  | .createTenant _ => []
  | .listTenants => []
  | .createDomain T _ => [T]
  | .listDomains T => [T]
  | .createAccount T _ => [T]
  | .listAccounts T => [T]
  | .getPolicy T _ => [T]
  | .putPolicy T _ => [T]
  | .recordDecision T _ => [T]
  | .listQuarantine T => [T]
  | .releaseItem T itemId => [T, itemId]
  | .reportItem T itemId _ => [T, itemId]

/-- The actions it leaves in the audit trail. -/
def Endpoint.actions : Endpoint → List String
  | .createTenant => ["tenant.create"]
  | .createDomain => ["domain.create"]
  | .createAccount => ["account.create", "account.provisioned"]
  | .putPolicy => ["policy.set"]
  | .recordDecision => ["abuse.decision"]
  | .releaseItem => ["quarantine.release"]
  | .reportItem => ["quarantine.report"]
  | _ => []

/-- The segments of a path that a template leaves open. -/
def captures : List Segment → List (List Char) → List (List Char)
  | .text _ :: template, _ :: path => captures template path
  | .param _ :: template, cs :: path => cs :: captures template path
  | _, _ => []

/-- The template that covers a path, and its handlers. -/
def Api.routed (api : Api) (path : List Char) :
    Option (List Segment × List (Method × Endpoint)) :=
  api.routes.find? fun route => pathMatches route.1 path

/-- What the router captures. -/
def Api.captured (api : Api) (path : List Char) : List (List Char) :=
  ((api.routed path).map fun route => captures route.1 (path.splitOn '/').tail).getD []

/-- The handler a request goes to. -/
def Api.endpoint (api : Api) (req : HttpRequest) : Option Endpoint :=
  (api.routed req.path).bind fun route => handlerFor route.2 req.method

/-- What the extractors deliver: an identifier is the text of its segment, once
percent-encoding is undone. The body may say anything. -/
def Route.ExtractedFrom (crates : Crates) (percentDecode : List Char → Option String) (api : Api)
    (req : HttpRequest) (route : Route) : Prop :=
  (api.captured req.path).mapM (fun cs => (percentDecode cs).bind crates.parseUuid) =
    some route.ids

/-! ### The stack -/

/-- Two front doors and the databases behind them. -/
structure Stack where
  front : Api → Timed.Sys CachedKeys Bytes HttpRequest Outcome
  back : State

def Stack.init : Stack where
  front _ := .init
  back := Sys.init Database.empty Session.new

section

variable (crates : Crates) (cfg : Api → AuthConfig) (percentDecode : List Char → Option String)

/-- The requests for which a handler may run: those a front door has let
through. Job-runners and operators need none. -/
def Stack.Admits (σ : Stack) : Request → Prop
  | .http caller route => ∃ api, ∃ reply ∈ (σ.front api).replies,
      reply.answer = .handler route.endpoint (some caller) ∧
        route.ExtractedFrom crates percentDecode api reply.job
  | _ => True

/-- The front doors, the handlers, job-runners and operators take their steps in
any order. The config-compiler, which answers no request, is not among them. -/
inductive Stack.Step (sesame : Bool) (answers : ProvisionUser → Except ProviderError Uuid → Prop) :
    Stack → Stack → Prop
  | front {σ api l φ} :
      Timed.step (fun req => api.serve crates (cfg api) req) (σ.front api) l = some φ →
      Step sesame answers σ { σ with front := Function.update σ.front api φ }
  | back {σ l β} :
      Transactional.Step (services sesame answers) (σ.Admits crates percentDecode)
        (fun _ _ => True) σ.back l β →
      Step sesame answers σ { σ with back := β }

abbrev Stack.Run (sesame : Bool) (answers : ProvisionUser → Except ProviderError Uuid → Prop) :
    Stack → Stack → Prop :=
  Relation.ReflTransGen (Stack.Step crates cfg percentDecode sesame answers)

/-- The states of all runs of the stack. -/
abbrev Stack.Reached (sesame : Bool)
    (answers : ProvisionUser → Except ProviderError Uuid → Prop) : Stack → Prop :=
  Stack.Run crates cfg percentDecode sesame answers .init

end

section

variable {crates : Crates} {cfg : Api → AuthConfig} {percentDecode : List Char → Option String}
  {sesame : Bool} {answers : ProvisionUser → Except ProviderError Uuid → Prop} {σ : Stack}

theorem Stack.Admits.front {api : Api} {l : Timed.Label Bytes HttpRequest}
    {φ : Timed.Sys CachedKeys Bytes HttpRequest Outcome}
    (hstep : Timed.step (fun req => api.serve crates (cfg api) req) (σ.front api) l = some φ)
    {c : Request} (h : σ.Admits crates percentDecode c) :
    Stack.Admits crates percentDecode { σ with front := Function.update σ.front api φ } c := by
  cases c with
  | http caller route =>
      obtain ⟨api', reply, hreply, hanswer⟩ := h
      refine ⟨api', reply, ?_, hanswer⟩
      by_cases hapi : api' = api
      · rw [hapi] at hreply ⊢
        simp only [Function.update_self]
        exact (Timed.replies_step hstep).subset hreply
      · simpa only [Function.update_of_ne hapi] using hreply
  | reconcile batch | operator change => trivial

/-- What a front door has decided stays on record. -/
theorem Stack.Run.replies {σ' : Stack}
    (h : Stack.Run crates cfg percentDecode sesame answers σ σ') (api : Api) :
    (σ.front api).replies <+: (σ'.front api).replies := by
  induction h with
  | refl => exact List.prefix_rfl
  | tail _ hstep ih =>
      cases hstep with
      | back _ => exact ih
      | @front api' l φ hstep =>
          refine ih.trans ?_
          by_cases hapi : api = api'
          · subst hapi
            simp only [Function.update_self]
            exact Timed.replies_step hstep
          · simp only [Function.update_of_ne hapi]
            exact List.prefix_rfl

/-- A run of the stack is a run of each of its parts. -/
theorem Stack.Reached.parts (h : Stack.Reached crates cfg percentDecode sesame answers σ) :
    (∀ api, Timed.Reached (fun req => api.serve crates (cfg api) req) (fun _ _ => True)
      (σ.front api)) ∧
      Reachable (services sesame answers) (σ.Admits crates percentDecode) (fun _ _ => True)
        Database.empty Session.new σ.back := by
  induction h with
  | refl => exact ⟨fun _ => .init, .init⟩
  | tail _ hstep ih =>
      cases hstep with
      | @front api l φ hstep =>
          refine ⟨fun api' => ?_, ih.2.mono fun c => Stack.Admits.front hstep⟩
          by_cases hapi : api' = api
          · subst hapi
            simp only [Function.update_self]
            exact (ih.1 api').step trivial hstep
          · simp only [Function.update_of_ne hapi]
            exact ih.1 api'
      | back hstep => exact ⟨ih.1, ih.2.step hstep⟩

end

/-! ### Front doors -/

section

variable {crates : Crates} {cfg : AuthConfig} {fetched : List (Bytes × Nat)}

/-- Whatever tokens are asked for, the cache is filled from fetched documents. -/
theorem meets_callerFrom_any (headers : List (String × Bytes)) {got : Option (Bytes × Nat)}
    {t : Nat} : Timed.Meets (provenance crates fetched) (fun _ _ _ => True) got t
      (callerFrom crates cfg headers).run := by
  cases henforcing : cfg.enforcing with
  | true => exact (meets_callerFrom henforcing ⟨.get, [], headers⟩).mono fun _ _ _ _ => trivial
  | false =>
      unfold callerFrom
      rw [henforcing]
      exact trivial

theorem meets_requireAuth_any {req : HttpRequest} {next : Option Caller → Outcome}
    {good : Outcome → Prop} (hrefused : good .unauthorized) (hnext : ∀ caller, good (next caller))
    {got : Option (Bytes × Nat)} {t : Nat} :
    Timed.Meets (provenance crates fetched) (fun _ _ out => good out) got t
      (requireAuth crates cfg req next) := by
  unfold requireAuth
  split
  · exact hnext none
  · refine Timed.Meets.bind ((meets_callerFrom_any req.headers).mono fun _ _ r _ => ?_)
    cases r with
    | error e => exact hrefused
    | ok caller => exact hnext (some caller)

/-- A request goes to the handler its method and path name, or to none. -/
theorem meets_endpoint (api : Api) (req : HttpRequest) {got : Option (Bytes × Nat)} {t : Nat} :
    Timed.Meets (provenance crates fetched) (fun _ _ out => ∀ e caller, out = .handler e caller →
      api.endpoint req = some e) got t (api.serve crates cfg req) := by
  unfold Api.serve Api.endpoint Api.routed
  split
  · rename_i template handlers hroute
    rw [hroute, Option.bind_some]
    refine meets_requireAuth_any nofun fun c e caller hout => ?_
    split at hout
    · rename_i e' he'
      cases hout
      exact he'
    · cases hout
  · split
    · split
      · exact nofun
      · exact nofun
    · exact meets_requireAuth_any nofun fun c => nofun

/-- Handlers that leave a row in the audit trail are reached by `POST` and
`PUT` only. -/
theorem method_of_endpoint {api : Api} {req : HttpRequest} {e : Endpoint} {action : String}
    (h : api.endpoint req = some e) (haction : action ∈ e.actions) :
    req.method = .post ∨ req.method = .put := by
  obtain ⟨⟨template, handlers⟩, hroute, hhandler⟩ := Option.bind_eq_some_iff.1 h
  obtain ⟨before, after, hhandlers, -⟩ := List.lookup_eq_some_iff.1 hhandler
  have hmem : (if req.method = .head then .get else req.method, e) ∈ handlers := by
    rw [show handlers = _ from hhandlers]
    exact List.mem_append_right before List.mem_cons_self
  have hroutes : ∀ route ∈ api.routes, ∀ handler ∈ route.2, handler.2.actions ≠ [] →
      handler.1 = .post ∨ handler.1 = .put := by
    cases api <;> decide +kernel
  have hmethod := hroutes _ (List.mem_of_find?_eq_some hroute) _ hmem
    (List.ne_nil_of_mem haction)
  by_cases hhead : req.method = .head
  · rw [if_pos hhead] at hmethod
    rcases hmethod with hmethod | hmethod <;> cases hmethod
  · rwa [if_neg hhead] at hmethod

end

/-! ### Entries and their requests -/

/-- The entry is one that a handler leaves for its caller and its path. -/
structure AuditEntry.LeftBy (e : AuditEntry) (caller : Caller) (route : Route) : Prop where
  actor : e.actor = caller.subject
  action : e.action ∈ route.endpoint.actions
  tenant : ∀ T ids, route.ids = T :: ids → e.tenantId = some T

/-- The entry is about a tenant there is. -/
def AuditEntry.Founds (e : AuditEntry) (d : Database) : Prop :=
  ∃ t ∈ d.tenants, e.tenantId = some t.id ∧ e.entityType = "tenant" ∧ e.entityId = t.id.toText

theorem AuditEntry.Founds.evolves {e : AuditEntry} {d d' : Database} (h : e.Founds d)
    (hev : Evolves d d') : e.Founds d' := by
  obtain ⟨t, ht, htenant, htype, hentity⟩ := h
  obtain ⟨t', ht', hfixed⟩ := hev.tenants t ht
  have hid : t'.fixed.id = t.fixed.id := congrArg Tenant.id hfixed
  change t'.id = t.id at hid
  rw [← hid] at htenant hentity
  exact ⟨t', ht', htenant, htype, hentity⟩

/-- A job-runner has activated an account, and another entry tells of its
creation. -/
structure AuditEntry.Runner (e : AuditEntry) (log : List AuditEntry) : Prop where
  actor : e.actor = "job-runner"
  action : e.action = "account.reconciled"
  created : ∃ e' ∈ log, e'.action = "account.create" ∧ e'.entityId = e.entityId

theorem Route.tenant_of_ids {route : Route} {T : Uuid} {ids : List Uuid}
    (h : route.ids = T :: ids) : route.tenant = some T := by
  cases route <;> cases h <;> rfl

/-- A transaction that ends with an entry has no other one. -/
theorem eq_of_mem_entries {e e₀ : AuditEntry} {plane : Plane} (p : Plane) (ws : List Write)
    (hws : ∀ w ∈ ws, w.entry plane = none) (he : e ∈ entries plane (ws ++ [p.appendix e₀])) :
    e = e₀ := by
  rw [entries, List.mem_filterMap] at he
  obtain ⟨w, hw, hentry⟩ := he
  rcases List.mem_append.1 hw with hw | hw
  · rw [hws w hw] at hentry
    cases hentry
  · rw [List.mem_singleton.1 hw] at hentry
    cases p <;> cases plane <;> first | exact (Option.some.inj hentry).symm | cases hentry

theorem AuditEntry.Names.leftBy {e e₀ : AuditEntry} {T entity : Uuid} {action entityType : String}
    {caller : Caller} {route : Route} {plane : Plane}
    (h : e₀.Names T caller.actor action entityType entity) (p : Plane) (ws : List Write)
    (haction : action ∈ route.endpoint.actions)
    (hT : route.tenant = none ∨ route.tenant = some T) (hws : ∀ w ∈ ws, w.entry plane = none)
    (he : e ∈ entries plane (ws ++ [p.appendix e₀])) : e.LeftBy caller route := by
  obtain rfl := eq_of_mem_entries p ws hws he
  refine ⟨h.actor, h.action ▸ haction, fun T' ids hids => ?_⟩
  rcases hT with hT | hT
  · cases (Route.tenant_of_ids hids).symm.trans hT
  · rw [h.tenantId, ← hT, Route.tenant_of_ids hids]

section

variable {answers : ProvisionUser → Except ProviderError Uuid → Prop}
  {guard : {R : Type} → Stmt R → Database → Prop}

/-- The entries of a transaction are left by its request. -/
theorem Committed.leftBy {caller : Caller} {route : Route} {cs : List (List Write)} {d : Database}
    {ws : List Write} (h : Committed answers guard (.http caller route) cs d ws) {plane : Plane}
    {e : AuditEntry} (he : e ∈ entries plane ws) : e.LeftBy caller route := by
  cases h with
  | nothing => cases he
  | @createTenant _ _ _ t _ _ _ _ entry =>
      exact entry.leftBy .control [.tenant ⟨none, t⟩]
        (by simp [Route.endpoint, Endpoint.actions]) (.inl rfl) (by simp [Write.entry]) he
  | @createDomain _ _ _ _ m _ _ _ _ _ entry =>
      exact entry.leftBy .control [.domain ⟨none, m⟩]
        (by simp [Route.endpoint, Endpoint.actions]) (.inr rfl) (by simp [Write.entry]) he
  | @createAccount _ _ _ _ a _ _ _ _ _ entry =>
      exact entry.leftBy .control [.account ⟨none, a⟩]
        (by simp [Route.endpoint, Endpoint.actions]) (.inr rfl) (by simp [Write.entry]) he
  | @provisioned _ _ _ _ _ _ a u now _ _ _ _ _ entry =>
      exact entry.leftBy .control [.account ⟨some a, a.provisioned u now⟩]
        (by simp [Route.endpoint, Endpoint.actions]) (.inr rfl) (by simp [Write.entry]) he
  | @putPolicy _ _ _ _ old q _ _ _ _ _ entry =>
      exact entry.leftBy .control [.abusePolicy ⟨old, q⟩]
        (by simp [Route.endpoint, Endpoint.actions]) (.inr rfl) (by simp [Write.entry]) he
  | @decision _ _ _ _ x _ _ _ entry =>
      exact entry.leftBy .abuse [.abuseDecision ⟨none, x⟩]
        (by simp [Route.endpoint, Endpoint.actions]) (.inr rfl) (by simp [Write.entry]) he
  | @quarantine _ _ _ _ x i _ _ _ _ entry =>
      exact entry.leftBy .abuse [.abuseDecision ⟨none, x⟩, .quarantineItem ⟨none, i⟩]
        (by simp [Route.endpoint, Endpoint.actions]) (.inr rfl) (by simp [Write.entry]) he
  | @release _ _ _ _ i now _ _ _ _ entry =>
      exact entry.leftBy .abuse [.quarantineItem ⟨some i, i.releasedBy _ now⟩]
        (by simp [Route.endpoint, Endpoint.actions]) (.inr rfl) (by simp [Write.entry]) he
  | @report _ _ _ _ _ i _ _ _ _ entry =>
      exact entry.leftBy .abuse [.quarantineItem ⟨some i, _⟩]
        (by simp [Route.endpoint, Endpoint.actions]) (.inr rfl) (by simp [Write.entry]) he

/-- A transaction of a handler whose path names no tenant has made one. -/
theorem Committed.founds {caller : Caller} {route : Route} {cs : List (List Write)} {d : Database}
    {ws : List Write} (h : Committed answers guard (.http caller route) cs d ws)
    (hids : route.ids = []) {plane : Plane} {e : AuditEntry} (he : e ∈ entries plane ws) :
    e.Founds (postgres.applyAll ws d) := by
  cases h with
  | nothing => cases he
  | @createTenant _ _ _ t _ _ _ _ entry =>
      obtain rfl := eq_of_mem_entries .control [.tenant ⟨none, t⟩] (by simp [Write.entry]) he
      exact ⟨t, Table.mem_put.2 (.inl rfl), entry.tenantId, entry.entityType, entry.entityId⟩
  | _ => cases hids

/-- The log tells of the creation of every account. -/
def Introduced (d : Database) : Prop :=
  ∀ a ∈ d.accounts, ∃ e ∈ d.auditLog, e.action = "account.create" ∧ e.entityId = a.id.toText

theorem Introduced.keep {d d' : Database} (h : Introduced d)
    (haccounts : ∀ a ∈ d'.accounts, ∃ a₀ ∈ d.accounts, a₀.id = a.id)
    (hlog : d.auditLog ⊆ d'.auditLog) : Introduced d' := by
  intro a ha
  obtain ⟨a₀, ha₀, hid⟩ := haccounts a ha
  obtain ⟨e, he, haction, hentity⟩ := h a₀ ha₀
  exact ⟨e, hlog he, haction, hid ▸ hentity⟩

theorem Introduced.commit {c : Request} {cs : List (List Write)} {d : Database} {ws : List Write}
    (h : Introduced d) (hpend : postgres.Pending Write.fits ws d)
    (hws : Committed answers guard c cs d ws) : Introduced (postgres.applyAll ws d) := by
  -- an account that changes keeps its identifier
  have change : ∀ {a a' : AccountRow}, (Write.account ⟨some a, a'⟩).fits d → a'.id = a.id →
      ∀ x ∈ d.accounts.put a', ∃ a₀ ∈ d.accounts, a₀.id = x.id := by
    intro a a' hfits hid x hx
    rcases Table.mem_put.1 hx with rfl | ⟨hx, -⟩
    · exact ⟨a, hfits.1, hid.symm⟩
    · exact ⟨x, hx, rfl⟩
  have same : ∀ x ∈ d.accounts, ∃ a₀ ∈ d.accounts, a₀.id = x.id := fun x hx => ⟨x, hx, rfl⟩
  cases hws with
  | nothing => exact h
  | createTenant | createDomain | putPolicy => exact h.keep same (List.subset_append_left _ _)
  | decision | quarantine | release | report | tenantStatus | domainStatus =>
      exact h.keep same (List.Subset.refl _)
  | @createAccount _ _ _ _ a e _ _ _ _ entry =>
      intro x hx
      rcases Table.mem_put.1 hx with rfl | ⟨hx, -⟩
      · exact ⟨e, List.mem_append_right _ (List.mem_singleton_self e), entry.action,
          entry.entityId⟩
      · obtain ⟨e', he', hcreated⟩ := h x hx
        exact ⟨e', List.mem_append_left _ he', hcreated⟩
  | provisioned | reconcile =>
      exact h.keep (change (hpend.fits _ List.mem_cons_self) rfl) (List.subset_append_left _ _)
  | accountStatus =>
      exact h.keep (change (hpend.fits _ List.mem_cons_self) rfl) (List.Subset.refl _)

/-- Where an entry of a log comes from. -/
def Traced (admitted : Request → Prop) (d : Database) (e : AuditEntry) : Prop :=
  (∃ caller route, admitted (.http caller route) ∧ e.LeftBy caller route ∧
    (route.ids = [] → e.Founds d)) ∨ e.Runner d.auditLog

theorem Traced.evolves {admitted : Request → Prop} {d d' : Database} {e : AuditEntry}
    (h : Traced admitted d e) (hev : Evolves d d') : Traced admitted d' e := by
  rcases h with ⟨caller, route, hadmitted, hleft, hfounds⟩ | hrunner
  · exact .inl ⟨caller, route, hadmitted, hleft, fun hids => (hfounds hids).evolves hev⟩
  · obtain ⟨e', he', hcreated⟩ := hrunner.created
    exact .inr ⟨hrunner.actor, hrunner.action, e', hev.auditLog.subset he', hcreated⟩

theorem Committed.traced {admitted : Request → Prop} {c : Request} {cs : List (List Write)}
    {d : Database} {ws : List Write} (h : Committed answers guard c cs d ws)
    (hadmitted : admitted c) (hpend : postgres.Pending Write.fits ws d) (hd : Introduced d)
    (hgrow : d.auditLog ⊆ (postgres.applyAll ws d).auditLog) {plane : Plane} {e : AuditEntry}
    (he : e ∈ entries plane ws) : Traced admitted (postgres.applyAll ws d) e := by
  cases c with
  | http caller route =>
      exact .inl ⟨caller, route, hadmitted, h.leftBy he, fun hids => h.founds hids he⟩
  | reconcile batch =>
      cases h with
      | nothing => cases he
      | @reconcile _ _ _ a u now _ _ _ entry =>
          obtain rfl := eq_of_mem_entries .control [.account ⟨some a, a.provisioned u now⟩]
            (by simp [Write.entry]) he
          have ha : a ∈ d.accounts := (hpend.fits _ List.mem_cons_self).1
          obtain ⟨e', he', haction, hentity⟩ := hd a ha
          exact .inr ⟨entry.actor, entry.action, e', hgrow he', haction,
            hentity.trans entry.entityId.symm⟩
  | operator change => cases h <;> cases plane <;> cases he

end

/-- In every run the entries of both logs can be traced. -/
theorem entries_traced {admitted : Request → Prop} {sesame : Bool}
    {answers : ProvisionUser → Except ProviderError Uuid → Prop} {σ : State}
    (h : Reachable (services sesame answers) admitted (fun _ _ => True) Database.empty Session.new
      σ) (plane : Plane) : ∀ e ∈ σ.store.log plane, Traced admitted σ.store e := by
  have hs : (contract answers fun _ _ => True).Started (services sesame answers) admitted
      Database.empty Session.new := services_started Consistent.empty
  have hall := hs.store_induction
    (J := fun d => Introduced d ∧ ∀ plane, ∀ e ∈ d.log plane, Traced admitted d e)
    ⟨nofun, fun plane => by cases plane <;> exact nofun⟩ ?_ h
  · exact hall.2 plane
  · intro c cs d ws hc hinv hpend hpost ⟨hd, hlogs⟩
    have hev : Evolves d (postgres.applyAll ws d) :=
      (Write.LegalAll.sound (hpost.legal hinv hpend) hinv hpend).2
    refine ⟨hd.commit hpend hpost, fun plane e he => ?_⟩
    have hlog : (postgres.applyAll ws d).log plane = d.log plane ++ entries plane ws :=
      log_applyAll plane ws d
    rcases List.mem_append.1 (hlog ▸ he) with he | he
    · exact (hlogs plane e he).evolves hev
    · exact hpost.traced hc hpend hd hev.auditLog.subset he

/-! ### Accountability -/

/-- The request that answers for an entry: it carried a genuine token of the
entry's actor, to the method and the path of its action and its tenant. Where
the path names no tenant, the entry is about the one that it has founded. -/
structure AuditEntry.AnsweredFor (e : AuditEntry) (d : Database) (crates : Crates)
    (cfg : AuthConfig) (percentDecode : List Char → Option String) (fetched : List (Bytes × Nat))
    (api : Api) (req : HttpRequest) (caller : Caller) : Prop where
  authenticated : Authenticated crates cfg fetched req caller
  actor : e.actor = caller.subject
  method : req.method = .post ∨ req.method = .put
  action : ∃ endpoint, api.endpoint req = some endpoint ∧ e.action ∈ endpoint.actions
  tenant : ∀ cs rest, api.captured req.path = cs :: rest →
    (percentDecode cs).bind crates.parseUuid = e.tenantId
  founded : api.captured req.path = [] → e.action = "tenant.create" ∧ e.Founds d

theorem AuditEntry.LeftBy.tenant_of_path {e : AuditEntry} {caller : Caller} {route : Route}
    {crates : Crates} {percentDecode : List Char → Option String} {api : Api} {req : HttpRequest}
    (h : e.LeftBy caller route) (hpath : route.ExtractedFrom crates percentDecode api req)
    {cs : List Char} {rest : List (List Char)} (hcaptured : api.captured req.path = cs :: rest) :
    (percentDecode cs).bind crates.parseUuid = e.tenantId := by
  rw [Route.ExtractedFrom, hcaptured, List.mapM_cons] at hpath
  obtain ⟨T, hT, hrest⟩ := Option.bind_eq_some_iff.1 hpath
  obtain ⟨ids, -, hids⟩ := Option.bind_eq_some_iff.1 hrest
  rw [hT, h.tenant T ids (Option.some.inj hids).symm]

/-- Nothing else is done on a path that names no tenant. -/
theorem AuditEntry.LeftBy.action_of_ids {e : AuditEntry} {caller : Caller} {route : Route}
    (h : e.LeftBy caller route) (hids : route.ids = []) : e.action = "tenant.create" := by
  have haction := h.action
  cases route with
  | createTenant req => exact List.mem_singleton.1 haction
  | listTenants => cases haction
  | _ => cases hids

section

variable {crates : Crates} {cfg : Api → AuthConfig} {percentDecode : List Char → Option String}
  {sesame : Bool} {answers : ProvisionUser → Except ProviderError Uuid → Prop} {σ : Stack}

/-- A front door lets a request through to the handler it names, and, when it
asks for tokens, with the caller of its token. -/
theorem Stack.handled (h : Stack.Reached crates cfg percentDecode sesame answers σ) {api : Api}
    {reply : Timed.Reply HttpRequest Outcome} (hreply : reply ∈ (σ.front api).replies)
    {e : Endpoint} {caller : Option Caller} (hanswer : reply.answer = .handler e caller) :
    api.endpoint reply.job = some e ∧ ((cfg api).enforcing = true → ∃ c, caller = some c ∧
      Authenticated crates (cfg api) (σ.front api).fetched reply.job c) := by
  have hreached := (h.parts.1 api).fetched.mono fun σ' l hl => provenance_allows crates hl.2
  have hrouted := Timed.Reached.holds (fun req _ => meets_endpoint api req) hreached
  obtain ⟨-, -, hendpoint⟩ := hrouted.replies reply hreply
  refine ⟨hendpoint _ _ hanswer, fun henforcing => ?_⟩
  have hholds := Timed.Reached.holds (fun req _ => meets_serve henforcing api req) hreached
  obtain ⟨-, -, hserved⟩ := hholds.replies reply hreply
  exact hserved _ _ hanswer

/-- Every row in the audit trail of the services is answered for: by the holder of
a signed token, who asked for this action on this path, or by a job-runner, for
an account that such a holder has created. -/
theorem accountable (henforcing : ∀ api, (cfg api).enforcing = true)
    (h : Stack.Reached crates cfg percentDecode sesame answers σ) (plane : Plane) :
    ∀ e ∈ σ.back.store.log plane, e.Runner σ.back.store.auditLog ∨
      ∃ api caller, ∃ reply ∈ (σ.front api).replies,
        e.AnsweredFor σ.back.store crates (cfg api) percentDecode (σ.front api).fetched api
          reply.job caller := by
  intro e he
  rcases entries_traced h.parts.2 plane e he with
    ⟨caller, route, hadmitted, hleft, hfounds⟩ | hrunner
  · obtain ⟨api, reply, hreply, hanswer, hpath⟩ := hadmitted
    obtain ⟨hroute, hauthentic⟩ := Stack.handled h hreply hanswer
    obtain ⟨_, ⟨⟩, hauthenticated⟩ := hauthentic (henforcing api)
    refine .inr ⟨api, caller, reply, hreply, hauthenticated, hleft.actor,
      method_of_endpoint hroute hleft.action, ⟨_, hroute, hleft.action⟩,
      fun cs rest => hleft.tenant_of_path hpath, fun hcaptured => ?_⟩
    rw [Route.ExtractedFrom, hcaptured] at hpath
    have hids : route.ids = [] := (Option.some.inj hpath).symm
    exact ⟨hleft.action_of_ids hids, hfounds hids⟩
  · exact .inl hrunner

end

/-! ### A tenant that Ann founds -/

section

variable {crates : Crates} {cfg : Api → AuthConfig} {percentDecode : List Char → Option String}
  {sesame : Bool} {answers : ProvisionUser → Except ProviderError Uuid → Prop} {σ : Stack}

theorem Stack.run_front {api : Api} {ls : List (Timed.Label Bytes HttpRequest)}
    {φ : Timed.Sys CachedKeys Bytes HttpRequest Outcome}
    (hreplay : Timed.replay (fun req => api.serve crates (cfg api) req) (fun _ _ => true) ls
      (σ.front api) = some φ) :
    Stack.Run crates cfg percentDecode sesame answers σ
      { σ with front := Function.update σ.front api φ } := by
  induction ls generalizing σ with
  | nil =>
      obtain rfl := Option.some.inj hreplay
      rw [Function.update_eq_self]
  | cons l ls ih =>
      rw [Timed.replay, if_pos rfl] at hreplay
      obtain ⟨φ₁, hstep, hrest⟩ := Option.bind_eq_some_iff.1 hreplay
      have hlast := ih (σ := { σ with front := Function.update σ.front api φ₁ })
        (by simpa only [Function.update_self] using hrest)
      rw [Function.update_idem] at hlast
      exact .head (.front hstep) hlast

theorem Stack.run_back {allow : Request → Prop}
    (hallow : ∀ c, allow c → σ.Admits crates percentDecode c) {ls : List Event} {β : State}
    (hrun : Transactional.Run (services sesame answers) allow (fun _ _ => True) σ.back ls β) :
    Stack.Run crates cfg percentDecode sesame answers σ { σ with back := β } := by
  obtain ⟨front, back⟩ := σ
  change Transactional.Run _ _ _ back ls β at hrun
  induction hrun with
  | nil => exact .refl
  | cons hstep _ ih => exact .head (.back (hstep.mono hallow)) (ih hallow)

end

def foundRequest : HttpRequest :=
  ⟨.post, "/api/v1/tenants".toList,
    [("authorization", textBytes ("Bearer ".toList ++ sampleToken))]⟩

def foundFront : List (Timed.Label Bytes HttpRequest) :=
  [.spawn 0 foundRequest, .act 0 .look, .act 0 (.serve loneBody), .act 0 .deliver,
    .act 0 .stamp, .act 0 .put, .act 0 .look, .act 0 (.clock (some 0)), .reply 0]

def foundBack : List Event :=
  [.spawn 1 (.http ⟨"ann", none, []⟩ (.createTenant { slug := "acme", name := "Acme" }))] ++
    undisturbed 1 10 3

/-- What the front door has let through. -/
def Outcome.founds : Outcome → Bool
  | .handler .createTenant (some ⟨"ann", none, []⟩) => true
  | _ => false

def Request.founds : Request → Bool
  | .http ⟨"ann", none, []⟩ (.createTenant _) => true
  | _ => false

theorem accountable_found : ∃ σ, Stack.Reached publishingCrates (fun _ => sampleConfig)
    (fun cs => some (String.ofList cs)) false (fun _ _ => False) σ ∧
      ∃ e ∈ σ.back.store.log .control, e.actor = "ann" ∧ e.action = "tenant.create" ∧
        ∃ api caller, ∃ reply ∈ (σ.front api).replies,
          e.AnsweredFor σ.back.store publishingCrates sampleConfig
            (fun cs => some (String.ofList cs)) (σ.front api).fetched api reply.job caller := by
  have hfront : (Timed.replay (fun req => Api.admin.serve publishingCrates sampleConfig req)
      (fun _ _ => true) foundFront .init).any (fun φ => φ.replies.any fun reply =>
        decide (reply.job.path = foundRequest.path) && reply.answer.founds) = true := by
    decide +kernel
  have hback : (replay (services false fun _ _ => False) (fun c => c.founds = true)
      (fun _ _ => True) (Sys.init Database.empty Session.new) foundBack).any (fun β =>
        β.store.auditLog.any fun e => decide (e.actor = "ann" ∧ e.action = "tenant.create")) =
      true := by
    decide +kernel
  obtain ⟨φ, hφ, hreply⟩ := (Option.any_eq_true _ _).1 hfront
  obtain ⟨reply, hmem, hreply⟩ := List.any_eq_true.1 hreply
  rw [Bool.and_eq_true, decide_eq_true_eq] at hreply
  obtain ⟨β, hβ, hentry⟩ := (Option.any_eq_true _ _).1 hback
  obtain ⟨e, he, hentry⟩ := List.any_eq_true.1 hentry
  obtain ⟨hactor, haction⟩ := of_decide_eq_true hentry
  have hσ : Stack.Reached publishingCrates (fun _ => sampleConfig)
      (fun cs => some (String.ofList cs)) false (fun _ _ => False)
      { Stack.init with front := Function.update Stack.init.front .admin φ } :=
    Stack.run_front hφ
  have hσ' := hσ.trans (Stack.run_back (fun c => ?_) (run_of_replay .init hβ))
  · refine ⟨_, hσ', e, he, hactor, haction, ?_⟩
    rcases accountable (fun _ => rfl) hσ' .control e he with hrunner | hanswered
    · exact absurd (hactor.symm.trans hrunner.actor) (by decide)
    · exact hanswered
  · intro hc
    unfold Request.founds at hc
    split at hc
    · refine ⟨.admin, reply, by simpa only [Function.update_self] using hmem, ?_, ?_⟩
      · have hanswer := hreply.2
        unfold Outcome.founds at hanswer
        split at hanswer
        · rename_i houtcome
          exact houtcome
        · cases hanswer
      · rw [Route.ExtractedFrom, hreply.1]
        have hcaptured : Api.admin.captured foundRequest.path = [] := by decide +kernel
        rw [hcaptured]
        rfl
    · cases hc

end OpenGroupware
