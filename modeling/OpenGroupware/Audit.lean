import OpenGroupware.Progress

/-!
The audit trail. A transaction that changes a row appends one entry to the
log of its database, about that row; other transactions append none; and the
logs hold these entries and nothing else, in the order of the commits.
-/

namespace OpenGroupware

open Relational Transactional

/-- Requests to the services themselves; operators work around the API. -/
def Request.isService : Request → Bool
  | .http _ _ => true
  | .reconcile _ => true
  | .operator _ => false

/-- Who an audit entry of the request has to name. -/
def Request.actor : Request → String
  | .http caller _ => caller.subject
  | .reconcile _ => "job-runner"
  | .operator _ => ""

/-- The row a write changes: its tenant, its table and its key. -/
structure RowName where
  tenantId : Uuid
  entityType : String
  entityId : Uuid
deriving DecidableEq

namespace Write

def row : Write → Option RowName
  | .tenant c => some ⟨c.new.id, "tenant", c.new.id⟩
  | .domain c => some ⟨c.new.tenantId, "domain", c.new.id⟩
  | .account c => some ⟨c.new.tenantId, "account", c.new.id⟩
  | .abusePolicy c => some ⟨c.new.tenantId, "abuse_policy", c.new.tenantId⟩
  | .audit _ => none
  | .abuseDecision c => some ⟨c.new.tenantId, "abuse_decision", c.new.id⟩
  | .quarantineItem c => some ⟨c.new.tenantId, "quarantine_item", c.new.id⟩
  | .abuseAudit _ => none

/-- The database the row belongs to. -/
def plane : Write → Plane
  | .abuseDecision _ => .abuse
  | .quarantineItem _ => .abuse
  | .abuseAudit _ => .abuse
  | _ => .control

def entry (plane : Plane) : Write → Option AuditEntry
  | .audit e => match plane with
      | .control => some e
      | .abuse => none
  | .abuseAudit e => match plane with
      | .control => none
      | .abuse => some e
  | _ => none

end Write

/-- The rows a transaction changes. -/
def changes (ws : List Write) : List RowName := ws.filterMap Write.row

/-- What a transaction appends to an audit log. -/
def entries (plane : Plane) (ws : List Write) : List AuditEntry :=
  ws.filterMap (Write.entry plane)

def Database.log (d : Database) : Plane → List AuditEntry
  | .control => d.auditLog
  | .abuse => d.abuseAuditLog

/-- The entry is about the row and names the actor. -/
structure AuditEntry.About (e : AuditEntry) (r : RowName) (actor : String) : Prop where
  tenantId : e.tenantId = some r.tenantId
  entityType : e.entityType = r.entityType
  entityId : e.entityId = r.entityId.toText
  actor : e.actor = actor

theorem AuditEntry.Names.about {e : AuditEntry} {T entity : Uuid}
    {actor action entityType : String} (h : e.Names T actor action entityType entity) :
    e.About ⟨T, entityType, entity⟩ actor :=
  ⟨h.tenantId, h.entityType, h.entityId, h.actor⟩

/-- What a committed transaction of a service changes and logs. -/
inductive Audited (e : Commit Request Write) : Prop
  | silent (writes : e.writes = [])
  | change (w : Write) (r : RowName) (entry : AuditEntry) (row : w.row = some r)
      (writes : e.writes = [w, w.plane.appendix entry])
      (about : entry.About r e.request.actor)
  /-- `record_decision` of a message to be held: the entry is about the
  decision, which the new item refers to. -/
  | quarantine (x : AbuseDecision) (i : QuarantineItem) (entry : AuditEntry)
      (writes : e.writes =
        [.abuseDecision ⟨none, x⟩, .quarantineItem ⟨none, i⟩, .abuseAudit entry])
      (item : i.tenantId = x.tenantId ∧ i.decisionId = x.id)
      (about : entry.About ⟨x.tenantId, "abuse_decision", x.id⟩ e.request.actor)

section

variable {answers : ProvisionUser → Except ProviderError Uuid → Prop}
  {guard : {R : Type} → Stmt R → Database → Prop}

theorem Committed.audited {c : Request} {cs : List (List Write)} {d : Database}
    {ws : List Write} (h : Committed answers guard c cs d ws) (hc : c.isService = true) (p : Nat) :
    Audited ⟨p, c, ws⟩ := by
  cases h with
  | nothing => exact .silent rfl
  | createTenant _ _ _ entry => exact .change _ _ _ rfl rfl entry.about
  | createDomain _ _ _ row entry => exact .change _ _ _ rfl rfl (row.1 ▸ entry.about)
  | createAccount _ _ _ row entry => exact .change _ _ _ rfl rfl (row.1 ▸ entry.about)
  | provisioned _ _ _ tenant entry => exact .change _ _ _ rfl rfl (tenant ▸ entry.about)
  | putPolicy _ _ _ row entry => exact .change _ _ _ rfl rfl (row.1 ▸ entry.about)
  | decision row _ entry => exact .change _ _ _ rfl rfl (row.tenantId ▸ entry.about)
  | quarantine row _ item entry =>
      exact .quarantine _ _ _ rfl ⟨item.tenantId.trans row.tenantId.symm, item.decisionId⟩
        (row.tenantId ▸ entry.about)
  | release _ tenant _ entry => exact .change _ _ _ rfl rfl (tenant ▸ entry.about)
  | report _ tenant _ entry => exact .change _ _ _ rfl rfl (tenant ▸ entry.about)
  | reconcile _ _ entry => exact .change _ _ _ rfl rfl entry.about
  | tenantStatus | domainStatus | accountStatus => cases hc

end

/-! ### The logs -/

theorem log_apply (plane : Plane) (w : Write) (d : Database) :
    (w.apply d).log plane = d.log plane ++ (w.entry plane).toList := by
  cases w <;> cases plane <;> simp [Write.apply, Write.entry, Database.log]

theorem log_applyAll (plane : Plane) (ws : List Write) (d : Database) :
    (postgres.applyAll ws d).log plane = d.log plane ++ entries plane ws := by
  induction ws generalizing d with
  | nil => simp [entries]
  | cons w ws ih =>
      rw [Engine.applyAll_cons, ih]
      change (w.apply d).log plane ++ entries plane ws = _
      rw [log_apply, List.append_assoc]
      cases h : w.entry plane <;> simp [entries, h]

/-- The entries of a log about an entity, with one of the actions. -/
def about (actions : List String) (log : List AuditEntry) (id : Uuid) : List AuditEntry :=
  log.filter fun e => decide (e.action ∈ actions ∧ e.entityId = id.toText)

section

variable {actions : List String}

theorem about_append (log log' : List AuditEntry) (id : Uuid) :
    about actions (log ++ log') id = about actions log id ++ about actions log' id := by
  simp [about]

theorem about_other {e : AuditEntry} (h : e.action ∉ actions) (id : Uuid) :
    about actions [e] id = [] := by
  simp [about, h]

theorem about_names {e : AuditEntry} {T entity : Uuid} {actor action entityType : String}
    (h : e.Names T actor action entityType entity) (haction : action ∈ actions) (id : Uuid) :
    about actions [e] id = if entity = id then [e] else [] := by
  by_cases hid : entity = id <;> simp [about, h.action, h.entityId, haction, hid]

/-- The log has no such entries about an identifier no known row has. -/
theorem about_eq_nil {log : List AuditEntry} {α : Type} {key : α → Uuid} {rows : List α}
    (hknown : ∀ e ∈ log, e.action ∈ actions → ∃ x ∈ rows, e.entityId = (key x).toText)
    {id : Uuid} (hid : ∀ x ∈ rows, key x ≠ id) : about actions log id = [] := by
  rw [about, List.filter_eq_nil_iff]
  intro e he habout
  obtain ⟨haction, hentity⟩ := of_decide_eq_true habout
  obtain ⟨x, hx, hname⟩ := hknown e he haction
  exact hid x hx (Uuid.toText_inj.1 (hname.symm.trans hentity))

end

section

variable {sesame : Bool} {answers : ProvisionUser → Except ProviderError Uuid → Prop}
  {σ σ' : State}

/-- The states of runs in which only the services touch the databases. -/
abbrev Serviced (sesame : Bool) (answers : ProvisionUser → Except ProviderError Uuid → Prop)
    (σ : State) : Prop :=
  Reachable (services sesame answers) (fun c => c.isService = true) (fun _ _ => True)
    Database.empty Session.new σ

/-- The audit trail in a state of the services. -/
structure AuditExact (σ : State) : Prop where
  /-- Every committed transaction has its one entry, or none. -/
  commits : ∀ e ∈ σ.history, Audited e
  /-- One that changes no row appends none. -/
  silent : ∀ e ∈ σ.history, changes e.writes = [] → ∀ plane, entries plane e.writes = []
  /-- The handlers that list and get change no row. -/
  reads : ∀ e ∈ σ.history, ∀ caller route, e.request = .http caller route →
    route.reads = true → changes e.writes = []
  /-- A reconcile update that changes a row has found it pending. -/
  guarded : ∀ e ∈ σ.history, ∀ batch, e.request = .reconcile batch → changes e.writes ≠ [] →
    ∃ (a : AccountRow) (u : Uuid) (now : Timestamp) (entry : AuditEntry),
      a.status = .pendingProvisioning ∧
        e.writes = [.account ⟨some a, a.provisioned u now⟩, .audit entry]
  /-- A request that is answered with an error, not found and validation errors
  among them, has committed nothing. -/
  failed : ∀ e ∈ σ.replies, ∀ r, e.answer = .http r → 400 ≤ r.status → σ.historyOf e.pid = []
  /-- A transaction that has failed is not committed any more. -/
  whole : ∀ p P k, σ.procs p = some P → P.prog = .commit k → ∃ t, P.tx = some t
  /-- The logs hold what the transactions appended, in order. -/
  log : ∀ plane, σ.store.log plane = σ.history.flatMap fun e => entries plane e.writes

/-- Every error is answered with an error status. -/
theorem status_intoResponse (e : ApiError) : 400 ≤ e.intoResponse.status := by
  cases e with
  | db e => cases e <;> simp [ApiError.intoResponse, ApiError.status]
  | _ => simp [ApiError.intoResponse, ApiError.status]

/-- A reconcile transaction writes nothing, or activates an account it has found
pending. -/
theorem Committed.guarded {guard : {R : Type} → Stmt R → Database → Prop} {batch : Int}
    {cs : List (List Write)} {d : Database} {ws : List Write}
    (h : Committed answers guard (.reconcile batch) cs d ws) :
    ws = [] ∨ ∃ (a : AccountRow) (u : Uuid) (now : Timestamp) (entry : AuditEntry),
      a.status = .pendingProvisioning ∧
        ws = [.account ⟨some a, a.provisioned u now⟩, .audit entry] := by
  cases h with
  | nothing => exact .inl rfl
  | reconcile _ pending => exact .inr ⟨_, _, _, _, pending, rfl⟩

theorem Committed.reads {guard : {R : Type} → Stmt R → Database → Prop} {caller : Caller}
    {route : Route} {cs : List (List Write)} {d : Database} {ws : List Write}
    (h : Committed answers guard (.http caller route) cs d ws) (hreads : route.reads = true) :
    ws = [] := by
  cases h with
  | nothing => rfl
  | _ => cases hreads

theorem Audited.silent_of_changes {e : Commit Request Write} (h : Audited e)
    (hnone : changes e.writes = []) (plane : Plane) : entries plane e.writes = [] := by
  cases h with
  | silent hws => rw [hws]; rfl
  | change w r entry row hws => simp [hws, changes, row] at hnone
  | quarantine x i entry hws => simp [hws, changes, Write.row] at hnone

/-- The audit trail is exact in every run; an operation that has not committed
has left the databases as they were, up to what the others have committed; and
no entry is ever changed or removed. -/
theorem audit_exact (h : Serviced sesame answers σ) :
    AuditExact σ ∧
      (∀ p ls σ', Run (services sesame answers) (fun c => c.isService = true) (fun _ _ => True)
          σ ls σ' →
        .commit p ∉ ls → ∃ es, σ'.history = σ.history ++ es ∧ (∀ e ∈ es, e.pid ≠ p) ∧
          σ'.store = postgres.applyAll (es.flatMap Commit.writes) σ.store) ∧
      ∀ ls σ', Run (services sesame answers) (fun c => c.isService = true) (fun _ _ => True)
          σ ls σ' →
        ∀ plane, σ.store.log plane <+: σ'.store.log plane := by
  have hs : (contract answers fun _ _ => True).Started (services sesame answers)
      (fun c => c.isService = true) Database.empty Session.new := services_started Consistent.empty
  have haudited : ∀ e ∈ σ.history, Audited e := by
    refine hs.record_induction (J := fun _ hist => ∀ e ∈ hist, Audited e) (by simp) ?_ h
    intro p c cs d hist ws hc _ _ hpost hJ e he
    rcases List.mem_append.1 he with he | he
    · exact hJ e he
    · rw [List.mem_singleton.1 he]
      exact Committed.audited hpost hc p
  refine ⟨⟨haudited, ?_, ?_, ?_, ?_, ?_, ?_⟩, ?_, ?_⟩
  · exact fun e he hnone plane => (haudited e he).silent_of_changes hnone plane
  · intro e he caller route hreq hreads
    obtain ⟨cs, d, -, -, hpost, -⟩ := hs.history_post h e he
    rw [hreq] at hpost
    rw [Committed.reads hpost hreads]
    rfl
  · intro e he batch hreq hchanges
    obtain ⟨cs, d, -, -, hpost, -⟩ := hs.history_post h e he
    rw [hreq] at hpost
    refine (Committed.guarded hpost).resolve_left fun hnone => hchanges ?_
    rw [hnone]
    rfl
  · intro e he r hr hstatus
    obtain ⟨d, -, -, hret⟩ := hs.replies_ret h e he
    obtain ⟨-, hhist⟩ := h.recorded.replied e he
    rw [hhist]
    have hret : Answered e.request e.since e.commits d e.answer := hret
    rw [hr] at hret
    generalize e.request = c, e.commits = cs at hret ⊢
    cases hret with
    | served hserved => exact absurd hserved.status (Nat.not_lt.2 hstatus)
    | refused => rfl
  · intro p P k hp hprog
    exact (h.orderly postgres_courteous (program_orderly sesame) p P hp).tx_of_commit hprog
  · intro plane
    have hlog := log_applyAll plane (σ.history.flatMap Commit.writes) Database.empty
    have hempty : Database.empty.log plane = [] := by cases plane <;> rfl
    have hstore : σ.store =
        postgres.applyAll (σ.history.flatMap Commit.writes) Database.empty := h.store_eq
    rw [hstore, hlog, hempty, List.nil_append]
    simp [entries, List.filterMap_flatMap]
  · exact fun p ls σ' hrun hp => hrun.others hp
  · intro ls σ' hrun plane
    have hev := hs.evolves h hrun (Evolves.refl σ.store)
    cases plane with
    | control => exact hev.auditLog
    | abuse => exact hev.abuseAuditLog

/-- A scan whose message is held. -/
def heldScan : List Event := [.spawn 0 (scan "a@b.example")] ++ undisturbed 0 1 4 ++ [.reply 0]

/-- The new quarantine item of that run is a changed row that no entry names. -/
theorem heldScan_unaudited :
    ∃ σ, Serviced false (fun _ _ => False) σ ∧ ∃ e ∈ σ.history, ∃ r ∈ changes e.writes,
      ∀ plane, ∀ entry ∈ entries plane e.writes, ¬entry.About r e.request.actor := by
  have hreplay : ((replay (services false fun _ _ => False) (fun c => c.isService = true)
      (fun _ _ => True) (Sys.init Database.empty Session.new) heldScan).any fun σ =>
        σ.history.any fun e => (changes e.writes).any fun r =>
          (entries .control e.writes).isEmpty &&
            (entries .abuse e.writes).all fun entry => decide (entry.entityType ≠ r.entityType)) =
      true := by
    decide +kernel
  obtain ⟨σ, hσ, h⟩ := exists_of_replay hreplay
  simp only [List.any_eq_true, Bool.and_eq_true, List.isEmpty_iff, List.all_eq_true,
    decide_eq_true_eq] at h
  obtain ⟨e, he, r, hr, hcontrol, habuse⟩ := h
  refine ⟨σ, hσ, e, he, r, hr, fun plane entry hentry habout => ?_⟩
  cases plane with
  | control => simp [hcontrol] at hentry
  | abuse => exact habuse entry hentry habout.entityType

/-- The item is released, but the database fails at the commit. -/
def failedRelease : List Event :=
  [.spawn 1 (.http ⟨"operator", none, []⟩ (.releaseItem (.number 100) (.number 3)))] ++
    (undisturbed 1 10 3).dropLast ++ [.fail 1, .reply 1]

theorem audit_exact_failedRelease :
    ∃ σ σ', Serviced false (fun _ _ => False) σ ∧
      Run (services false fun _ _ => False) (fun c => c.isService = true) (fun _ _ => True) σ
        failedRelease σ' ∧
      σ.history.length = 1 ∧ AuditExact σ ∧ σ'.replies.length = 2 ∧ σ'.store = σ.store := by
  have hreplay : ((replay (services false fun _ _ => False) (fun c => c.isService = true)
      (fun _ _ => True) (Sys.init Database.empty Session.new) heldScan).any fun σ =>
        decide (σ.history.length = 1) &&
          (replay (services false fun _ _ => False) (fun c => c.isService = true)
            (fun _ _ => True) σ failedRelease).any fun σ' =>
              decide (σ'.history.length = 1) && decide (σ'.replies.length = 2)) = true := by
    decide +kernel
  obtain ⟨σ, hσ, h⟩ := exists_of_replay hreplay
  rw [Bool.and_eq_true, decide_eq_true_eq, Option.any_eq_true] at h
  obtain ⟨hone, σ', hreplay', h⟩ := h
  rw [Bool.and_eq_true, decide_eq_true_eq, decide_eq_true_eq] at h
  have hrun := run_of_replay hσ hreplay'
  obtain ⟨hexact, hothers, -⟩ := audit_exact hσ
  have hcommit : .commit 1 ∉ failedRelease := by
    simp [failedRelease, undisturbed, List.range_succ]
  obtain ⟨es, hhist, -, hstore⟩ := hothers 1 failedRelease σ' hrun hcommit
  have hnone : es = [] := by
    have hlen := congrArg List.length hhist
    rw [h.1, List.length_append, hone] at hlen
    exact List.eq_nil_of_length_eq_zero (by omega)
  rw [hnone] at hstore
  exact ⟨σ, σ', hσ, hrun, hone, hexact, h.2, hstore⟩

end

end OpenGroupware
