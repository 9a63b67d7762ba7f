import OpenGroupware.Outlines
import OpenGroupware.Transactional.Commits

/-!
The audit trail as a journal. Every transaction that writes a row tells the
trail something of what it has written; read from its beginning, the trail gives
back these columns of every row, and nothing of rows that are not there.
-/

namespace OpenGroupware

open Relational Transactional

/-! ### What a log tells -/

/-- The value an entry gives for a member of an entity. -/
def AuditEntry.tells (e : AuditEntry) (type id name : String) : Option Json :=
  if e.entityType = type ∧ e.entityId = id then
    match e.payload with
    | .obj members => members.lookup name
    | _ => none
  else none

/-- The latest value a log gives for it. -/
def journal (log : List AuditEntry) (type id name : String) : Option Json :=
  log.foldl (fun known e => (e.tells type id name).or known) none

/-- The members of rows that are told. -/
def Tenant.facts (t : Tenant) : List (String × Json) :=
  [("slug", .str t.slug), ("plan", .str t.plan)]

def Domain.facts (m : Domain) : List (String × Json) := [("fqdn", .str m.fqdn)]

def AccountRow.facts (a : AccountRow) : List (String × Json) :=
  [("email", .str a.email), ("quota_mb", .int a.quotaMb)] ++
    match a.sesameUserId with
    | some u => [("sesame_user_id", .str u.toText)]
    | none => []

def AbusePolicy.facts (p : AbusePolicy) : List (String × Json) :=
  [("reject", .ofF64 p.reject), ("add_header", .ofF64 p.addHeader),
    ("greylist", .ofF64 p.greylist)]

def AbuseDecision.facts (x : AbuseDecision) : List (String × Json) :=
  [("action", .str x.action), ("verdict", .str x.verdict), ("score", .ofF64 x.score),
    ("message_ref", .str x.messageRef)]

/-- An item is told of only when something happens to it. -/
def QuarantineItem.facts (i : QuarantineItem) : List (String × Json) :=
  match i.reportedAs with
  | some verdict => [("reported_as", .str verdict), ("message_ref", .str i.messageRef)]
  | none => if i.status = .released then [("message_ref", .str i.messageRef)] else []

/-- A log tells the rows of a table. -/
def Tells (log : List AuditEntry) (type : String) {α : Type} {key : α → Uuid} (t : Table key)
    (facts : α → List (String × Json)) : Prop :=
  ∀ u name, journal log type u.toText name = (t.find? u).bind fun r => (facts r).lookup name

/-- The two logs tell the tables of their planes. -/
structure Journaled (d : Database) : Prop where
  tenants : Tells d.auditLog "tenant" d.tenants Tenant.facts
  domains : Tells d.auditLog "domain" d.domains Domain.facts
  accounts : Tells d.auditLog "account" d.accounts AccountRow.facts
  policies : Tells d.auditLog "abuse_policy" d.abusePolicy AbusePolicy.facts
  decisions : Tells d.abuseAuditLog "abuse_decision" d.abuseDecision AbuseDecision.facts
  items : Tells d.abuseAuditLog "quarantine_item" d.quarantineItem QuarantineItem.facts

/-- An entry about an entity. -/
structure AuditEntry.Reports (e : AuditEntry) (type : String) (u : Uuid)
    (members : List (String × Json)) : Prop where
  entityType : e.entityType = type
  entityId : e.entityId = u.toText
  payload : e.payload = .obj members

section

variable {log : List AuditEntry} {e : AuditEntry} {type : String} {u : Uuid}
  {members : List (String × Json)} {α : Type} {key : α → Uuid} {t : Table key} {r : α}
  {facts : α → List (String × Json)}

theorem journal_append (log : List AuditEntry) (e : AuditEntry) (type id name : String) :
    journal (log ++ [e]) type id name = (e.tells type id name).or (journal log type id name) := by
  rw [journal, List.foldl_append]
  rfl

theorem AuditEntry.Reports.tells_self (h : e.Reports type u members) (name : String) :
    e.tells type u.toText name = members.lookup name := by
  rw [AuditEntry.tells, if_pos ⟨h.entityType, h.entityId⟩, h.payload]

theorem AuditEntry.Reports.tells_other (h : e.Reports type u members) {type' : String} {u' : Uuid}
    (hne : type' ≠ type ∨ u' ≠ u) (name : String) : e.tells type' u'.toText name = none := by
  refine if_neg ?_
  rintro ⟨htype, hid⟩
  rcases hne with hne | hne
  · exact hne (htype.symm.trans h.entityType)
  · exact hne (Uuid.toText_injective (hid.symm.trans h.entityId))

/-- A row is written, and an entry tells what is new about it. -/
theorem Tells.enter (h : Tells log type t facts) (he : e.Reports type (key r) members)
    (hfacts : ∀ name, (members.lookup name).or
      ((t.find? (key r)).bind fun x => (facts x).lookup name) = (facts r).lookup name) :
    Tells (log ++ [e]) type (t.put r) facts := by
  intro u name
  rw [journal_append, Table.find?_put, h u name]
  by_cases hu : key r = u
  · rw [if_pos hu, ← hu, he.tells_self, hfacts]
    rfl
  · rw [if_neg hu, he.tells_other (.inr (Ne.symm hu)), Option.none_or]

/-- An entry about something else. -/
theorem Tells.aside (h : Tells log type t facts) {type' : String}
    (he : e.Reports type' u members) (hne : type ≠ type') : Tells (log ++ [e]) type t facts := by
  intro u name
  rw [journal_append, he.tells_other (.inl hne), Option.none_or, h u name]

/-- A row is written and nothing about it is new. -/
theorem Tells.silent (h : Tells log type t facts)
    (hfacts : ∀ name, ((t.find? (key r)).bind fun x => (facts x).lookup name) =
      (facts r).lookup name) : Tells log type (t.put r) facts := by
  intro u name
  rw [Table.find?_put, h u name]
  by_cases hu : key r = u
  · rw [if_pos hu, ← hu, hfacts]
    rfl
  · rw [if_neg hu]

end

/-! ### What transactions enter -/

/-- The writes of a transaction whose entry tells what is new in its row. -/
inductive Entered : List Write → Prop
  | nothing : Entered []
  | tenant {t : Tenant} {e} (entry : e.Reports "tenant" t.id t.facts) :
      Entered [.tenant ⟨none, t⟩, .audit e]
  | domain {m : Domain} {e} (entry : e.Reports "domain" m.id m.facts) :
      Entered [.domain ⟨none, m⟩, .audit e]
  | account {a : AccountRow} {e} (entry : e.Reports "account" a.id a.facts) :
      Entered [.account ⟨none, a⟩, .audit e]
  | user {a : AccountRow} {u now e}
      (entry : e.Reports "account" a.id [("sesame_user_id", .str u.toText)]) :
      Entered [.account ⟨some a, a.provisioned u now⟩, .audit e]
  | policy {old} {p : AbusePolicy} {e} (entry : e.Reports "abuse_policy" p.tenantId p.facts) :
      Entered [.abusePolicy ⟨old, p⟩, .audit e]
  | decision {x : AbuseDecision} {e} (entry : e.Reports "abuse_decision" x.id x.facts) :
      Entered [.abuseDecision ⟨none, x⟩, .abuseAudit e]
  | held {x : AbuseDecision} {i : QuarantineItem} {e} (silent : i.facts = [])
      (entry : e.Reports "abuse_decision" x.id x.facts) :
      Entered [.abuseDecision ⟨none, x⟩, .quarantineItem ⟨none, i⟩, .abuseAudit e]
  | release {i : QuarantineItem} {actor now e}
      (entry : e.Reports "quarantine_item" i.id [("message_ref", .str i.messageRef)]) :
      Entered [.quarantineItem ⟨some i, i.releasedBy actor now⟩, .abuseAudit e]
  | report {i : QuarantineItem} {verdict e}
      (entry : e.Reports "quarantine_item" i.id
        [("reported_as", .str verdict), ("message_ref", .str i.messageRef)]) :
      Entered [.quarantineItem ⟨some i, { i with reportedAs := some verdict }⟩, .abuseAudit e]
  | tenantStatus {t : Tenant} {status} :
      Entered [.tenant ⟨some t, { t with status := status }⟩]
  | domainStatus {m : Domain} {status} :
      Entered [.domain ⟨some m, { m with status := status }⟩]
  | accountStatus {a : AccountRow} {status} :
      Entered [.account ⟨some a, { a with status := status }⟩]

/-- Later values of all members hide earlier ones. -/
theorem lookup_or_covered {new old : List (String × Json)} (h : ∀ m ∈ old, ∃ m' ∈ new, m'.1 = m.1)
    (name : String) : (new.lookup name).or (old.lookup name) = new.lookup name := by
  cases hnew : new.lookup name with
  | some v => rfl
  | none =>
      rw [Option.none_or]
      cases hold : old.lookup name with
      | none => rfl
      | some v =>
          obtain ⟨before, after, rfl, -⟩ := List.lookup_eq_some_iff.1 hold
          obtain ⟨⟨x, v'⟩, hm, rfl⟩ := h (name, v) (by simp)
          exact absurd rfl (bne_iff_ne.1 (List.lookup_eq_none_iff.1 hnew _ hm))

theorem AccountRow.facts_provisioned (a : AccountRow) (u : Uuid) (now : Timestamp) (name : String) :
    (List.lookup name [("sesame_user_id", Json.str u.toText)]).or (a.facts.lookup name) =
      (a.provisioned u now).facts.lookup name := by
  have hfacts : (a.provisioned u now).facts =
      [("email", .str a.email), ("quota_mb", .int a.quotaMb), ("sesame_user_id", .str u.toText)] :=
    rfl
  by_cases hname : name = "sesame_user_id"
  · rw [hname, hfacts]
    simp [List.lookup_cons]
  · rw [hfacts, AccountRow.facts]
    cases a.sesameUserId <;> simp [List.lookup_cons, beq_eq_false_iff_ne.2 hname]

theorem QuarantineItem.facts_released (i : QuarantineItem) (actor : String) (now : Timestamp)
    (name : String) :
    (List.lookup name [("message_ref", Json.str i.messageRef)]).or (i.facts.lookup name) =
      (i.releasedBy actor now).facts.lookup name := by
  by_cases hname : name = "message_ref"
  · rw [hname]
    cases hreported : i.reportedAs <;>
      simp [QuarantineItem.facts, QuarantineItem.releasedBy, hreported, List.lookup_cons]
  · cases hreported : i.reportedAs with
    | some verdict =>
        simp [QuarantineItem.facts, QuarantineItem.releasedBy, hreported, List.lookup_cons,
          beq_eq_false_iff_ne.2 hname]
    | none =>
        by_cases hstatus : i.status = .released <;>
          simp [QuarantineItem.facts, QuarantineItem.releasedBy, hreported, hstatus,
            List.lookup_cons, beq_eq_false_iff_ne.2 hname]

/-- A transaction that enters what it writes keeps the logs complete. -/
theorem Journaled.commit {d : Database} {ws : List Write} (h : Journaled d)
    (hpend : postgres.Pending Write.fits ws d) (hws : Entered ws) :
    Journaled (postgres.applyAll ws d) := by
  have fits : ∀ w ∈ ws, w.fits d := hpend.fits
  cases hws with
  | nothing => exact h
  | @tenant t e entry =>
      have hnew : d.tenants.find? t.id = none :=
        Table.find?_eq_none.2 fun x hx => (fits _ List.mem_cons_self x hx).1
      exact ⟨h.tenants.enter entry fun name => by rw [hnew]; simp,
        h.domains.aside entry (by decide), h.accounts.aside entry (by decide),
        h.policies.aside entry (by decide), h.decisions, h.items⟩
  | @domain m e entry =>
      have hnew : d.domains.find? m.id = none :=
        Table.find?_eq_none.2 fun x hx => (fits _ List.mem_cons_self x hx).1
      exact ⟨h.tenants.aside entry (by decide),
        h.domains.enter entry fun name => by rw [hnew]; simp,
        h.accounts.aside entry (by decide), h.policies.aside entry (by decide), h.decisions,
        h.items⟩
  | @account a e entry =>
      have hnew : d.accounts.find? a.id = none :=
        Table.find?_eq_none.2 fun x hx => (fits _ List.mem_cons_self x hx).1
      exact ⟨h.tenants.aside entry (by decide), h.domains.aside entry (by decide),
        h.accounts.enter entry fun name => by rw [hnew]; simp,
        h.policies.aside entry (by decide), h.decisions, h.items⟩
  | @user a u now e entry =>
      have hold : d.accounts.find? a.id = some a :=
        Table.find?_eq_some.2 ⟨(fits _ List.mem_cons_self).1, rfl⟩
      exact ⟨h.tenants.aside entry (by decide), h.domains.aside entry (by decide),
        Tells.enter h.accounts (r := a.provisioned u now) entry fun name => by
          rw [show (a.provisioned u now).id = a.id from rfl, hold]
          exact a.facts_provisioned u now name,
        h.policies.aside entry (by decide), h.decisions, h.items⟩
  | @policy old p e entry =>
      refine ⟨h.tenants.aside entry (by decide), h.domains.aside entry (by decide),
        h.accounts.aside entry (by decide), h.policies.enter entry fun name => ?_, h.decisions,
        h.items⟩
      cases d.abusePolicy.find? p.tenantId with
      | none => exact Option.or_none
      | some p' => exact lookup_or_covered (by simp [AbusePolicy.facts]) name
  | @decision x e entry =>
      have hnew : d.abuseDecision.find? x.id = none :=
        Table.find?_eq_none.2 fun y hy => (fits _ List.mem_cons_self y hy).1
      exact ⟨h.tenants, h.domains, h.accounts, h.policies,
        h.decisions.enter entry fun name => by rw [hnew]; simp,
        h.items.aside entry (by decide)⟩
  | @held x i e silent entry =>
      have hnew : d.abuseDecision.find? x.id = none :=
        Table.find?_eq_none.2 fun y hy => (fits _ List.mem_cons_self y hy).1
      have hitem : d.quarantineItem.find? i.id = none :=
        Table.find?_eq_none.2 fun y hy => (fits (.quarantineItem ⟨none, i⟩) (by simp) y hy).1
      refine ⟨h.tenants, h.domains, h.accounts, h.policies,
        h.decisions.enter entry fun name => by rw [hnew]; simp,
        Tells.aside (h.items.silent (r := i) fun name => ?_) entry (by decide)⟩
      rw [hitem, silent]
      rfl
  | @release i actor now e entry =>
      have hold : d.quarantineItem.find? i.id = some i :=
        Table.find?_eq_some.2 ⟨(fits _ List.mem_cons_self).1, rfl⟩
      exact ⟨h.tenants, h.domains, h.accounts, h.policies, h.decisions.aside entry (by decide),
        Tells.enter h.items (r := i.releasedBy actor now) entry fun name => by
          rw [show (i.releasedBy actor now).id = i.id from rfl, hold]
          exact i.facts_released actor now name⟩
  | @report i verdict e entry =>
      have hold : d.quarantineItem.find? i.id = some i :=
        Table.find?_eq_some.2 ⟨(fits _ List.mem_cons_self).1, rfl⟩
      have hitems : Tells (d.abuseAuditLog ++ [e]) "quarantine_item"
          (d.quarantineItem.put { i with reportedAs := some verdict }) QuarantineItem.facts := by
        refine h.items.enter entry fun name => ?_
        rw [hold]
        refine lookup_or_covered (fun m hm => ?_) name
        unfold QuarantineItem.facts at hm
        split at hm
        · rcases List.mem_cons.1 hm with rfl | hm
          · exact ⟨_, List.mem_cons_self, rfl⟩
          · exact ⟨m, List.mem_cons_of_mem _ hm, rfl⟩
        · split at hm
          · exact ⟨m, List.mem_cons_of_mem _ hm, rfl⟩
          · cases hm
      exact ⟨h.tenants, h.domains, h.accounts, h.policies, h.decisions.aside entry (by decide),
        hitems⟩
  | @tenantStatus t status =>
      have hold : d.tenants.find? t.id = some t :=
        Table.find?_eq_some.2 ⟨(fits _ List.mem_cons_self).1, rfl⟩
      have htenants : Tells d.auditLog "tenant" (d.tenants.put { t with status := status })
          Tenant.facts := h.tenants.silent fun name => by rw [hold]; rfl
      exact ⟨htenants, h.domains, h.accounts, h.policies, h.decisions, h.items⟩
  | @domainStatus m status =>
      have hold : d.domains.find? m.id = some m :=
        Table.find?_eq_some.2 ⟨(fits _ List.mem_cons_self).1, rfl⟩
      have hdomains : Tells d.auditLog "domain" (d.domains.put { m with status := status })
          Domain.facts := h.domains.silent fun name => by rw [hold]; rfl
      exact ⟨h.tenants, hdomains, h.accounts, h.policies, h.decisions, h.items⟩
  | @accountStatus a status =>
      have hold : d.accounts.find? a.id = some a :=
        Table.find?_eq_some.2 ⟨(fits _ List.mem_cons_self).1, rfl⟩
      have haccounts : Tells d.auditLog "account" (d.accounts.put { a with status := status })
          AccountRow.facts := h.accounts.silent fun name => by rw [hold]; rfl
      exact ⟨h.tenants, h.domains, haccounts, h.policies, h.decisions, h.items⟩

/-! ### Rules -/

/-- Whatever the computation commits is entered, and unless it fails it ends in
`post`. The first argument is what its transaction has written. -/
def Enters {ε α : Type} (tx : Option (List Write)) (x : ExceptT ε Program α)
    (post : Option (List Write) → α → Prop) : Prop :=
  x.run.Commits postgres Entered (fun tx r => ∀ a, r = .ok a → post tx a) tx

section Rules

variable {ε α β R : Type} {tx : Option (List Write)} {ws : List Write}
  {post : Option (List Write) → α → Prop} {post₀ : Option (List Write) → Unit → Prop}

theorem enters_pure {a : α} (h : post tx a) : Enters tx (pure a : ExceptT ε Program α) post := by
  rintro _ ⟨⟩
  exact h

theorem enters_throw {e : ε} : Enters tx (throw e : ExceptT ε Program α) post :=
  fun _ h => nomatch h

theorem enters_bind {x : ExceptT ε Program β} {f : β → ExceptT ε Program α}
    (h : Enters tx x fun tx b => Enters tx (f b) post) : Enters tx (x >>= f) post := by
  unfold Enters
  rw [ExceptT.run_bind]
  refine Prog.Commits.bind (Prog.Commits.mono h fun tx r hr => ?_)
  cases r with
  | ok b => exact hr b rfl
  | error e => exact fun _ h => nomatch h

theorem enters_db {x : DbM α} (h : Enters tx x post) : Enters tx (liftM x : Handler α) post := by
  refine Prog.Commits.bind (Prog.Commits.mono h fun tx r hr => ?_)
  cases r with
  | ok a =>
      rintro _ ⟨⟩
      exact hr a rfl
  | error e => exact fun _ h => nomatch h

theorem enters_check {x : Except ApiError α} (h : ∀ a, post tx a) :
    Enters tx (liftM x : Handler α) post := by
  cases x with
  | ok a =>
      rintro _ ⟨⟩
      exact h a
  | error e => exact fun _ h => nomatch h

theorem enters_query {q : Stmt α}
    (h : ∀ s o d r s' ws', Sql.exec q s o d = .ok (r, s', ws') → post (some (ws ++ ws')) r) :
    Enters (some ws) (query q) post := by
  refine And.intro (fun e _ h => nomatch h) ?_
  rintro _ ⟨⟩ s o d r s' ws' hexec _ ⟨⟩
  exact h s o d r s' ws' hexec

theorem enters_record {plane : Plane} {e : AuditEntry}
    (h : post₀ (some (ws ++ [plane.appendix e])) ()) : Enters (some ws) (record plane e) post₀ := by
  refine enters_query fun s o d r s' ws' hexec => ?_
  obtain ⟨-, rfl⟩ := Sql.insertAudit_ok (Sql.keep_eq_ok.1 hexec).1
  exact h

theorem enters_commit (hws : Entered ws) (h : post₀ none ()) :
    Enters (some ws) commit post₀ := by
  refine And.intro ?_ fun r => ?_
  · rintro _ ⟨⟩
    exact hws
  · rintro _ rfl
    exact h

/-- A transaction gets its setting. -/
theorem enters_tx {s : Setting} {value : String} (h : post₀ (some []) ()) :
    Enters tx (begin >>= fun _ => query (.setConfig s value)) post₀ := by
  refine enters_bind (And.intro (fun e _ h => nomatch h) ?_)
  rintro _ ⟨⟩
  refine enters_query fun s o d r s' ws' hexec => ?_
  simp only [Sql.exec, Sql.require_bind_eq_ok] at hexec
  obtain ⟨-, hexec⟩ := hexec
  cases hexec
  exact h

/-- A database program inside a handler. -/
theorem enters_step {x : DbM β} {f : β → Handler α}
    (h : Enters tx x fun tx b => Enters tx (f b) post) :
    Enters tx ((liftM x : Handler β) >>= f) post :=
  enters_bind (enters_db h)

/-- A program that cannot fail. -/
theorem enters_lift {prog : Program α} (h : prog.Commits postgres Entered post tx) :
    Enters tx (liftM prog : DbM α) post := by
  refine Prog.Commits.bind (Prog.Commits.mono h fun tx a ha => ?_)
  rintro _ ⟨⟩
  exact ha

end Rules

/-! ### Handlers -/

section Handlers

variable {sesame : Bool} {tx : Option (List Write)} (caller : Caller)

theorem createTenant_enters (req : CreateTenant) :
    Enters tx (createTenant caller req) fun _ _ => True := by
  unfold createTenant
  refine enters_bind (enters_check fun _ => enters_step (enters_tx (enters_step ?_)))
  refine enters_query fun s o d t s' ws' hexec => enters_step (enters_record ?_)
  obtain ⟨-, -, ht, rfl⟩ := Sql.insertTenant_ok (Sql.keep_eq_ok.1 hexec).1
  exact enters_step (enters_commit (.tenant ⟨rfl, rfl, rfl⟩) (enters_pure trivial))

theorem createDomain_enters (T : Uuid) (req : CreateDomain) :
    Enters tx (createDomain T caller req) fun _ _ => True := by
  unfold createDomain
  refine enters_bind (enters_check fun _ => enters_step (enters_tx (enters_step ?_)))
  refine enters_query fun s o d m s' ws' hexec => enters_step (enters_record ?_)
  obtain ⟨-, -, -, -, hm, rfl⟩ := Sql.insertDomain_ok (Sql.keep_eq_ok.1 hexec).1
  exact enters_step (enters_commit (.domain ⟨rfl, rfl, rfl⟩) (enters_pure trivial))

theorem activateProvisioned_enters (T : Uuid) (a : Account) (u : Uuid) (actor : String) :
    Enters tx (activateProvisioned T a u actor) fun _ _ => True := by
  unfold activateProvisioned
  refine enters_bind (enters_tx (enters_bind ?_))
  refine enters_query fun s o d updated s' ws' hexec => enters_bind (enters_record ?_)
  obtain ⟨old, -, -, hid, -, rfl, rfl⟩ := Sql.activateAccount_ok (Sql.keep_eq_ok.1 hexec).1
  refine enters_bind (enters_commit ?_ (enters_pure trivial))
  exact @Entered.user old _ s.now _ ⟨rfl, rfl, rfl⟩

theorem provisionIntoSesame_enters (T : Uuid) (a : Account) (actor : String) :
    (provisionIntoSesame T a actor).Commits postgres Entered (fun _ _ => True) tx := by
  unfold provisionIntoSesame provision
  refine Prog.Commits.bind fun y => ?_
  cases y with
  | error e => exact trivial
  | ok u =>
      refine Prog.Commits.bind ?_
      refine Prog.Commits.mono (activateProvisioned_enters T a u actor) fun tx r _ => ?_
      cases r with
      | ok updated => exact trivial
      | error e => exact trivial

theorem createAccount_enters (T : Uuid) (req : CreateAccount) :
    Enters tx (createAccount sesame T caller req) fun _ _ => True := by
  unfold createAccount
  refine enters_bind (enters_check fun _ => enters_step (enters_tx (enters_step ?_)))
  refine enters_query fun s o d fqdn s' ws' hexec => ?_
  cases hexec
  cases hfqdn : Sql.selectDomainFqdn s d req.domainId with
  | none => exact enters_throw
  | some fqdn =>
      refine enters_step (enters_query fun s o d a s' ws' hexec => ?_)
      obtain ⟨-, -, -, -, ha, rfl⟩ := Sql.insertAccount_ok (Sql.keep_eq_ok.1 hexec).1
      refine enters_step (enters_record (enters_step (enters_commit ?_ ?_)))
      · refine .account (a := ⟨a, none, s.now⟩) ⟨rfl, rfl, ?_⟩
        rw [AccountRow.facts, ha]
        rfl
      · split
        · refine enters_bind (enters_db (enters_lift ?_))
          exact Prog.Commits.mono (provisionIntoSesame_enters T a caller.actor)
            fun _ _ _ => enters_pure trivial
        · exact enters_pure trivial

theorem putPolicy_enters (T : Uuid) (req : SetAbusePolicy) :
    Enters tx (putPolicy T caller req) fun _ _ => True := by
  unfold putPolicy
  refine enters_bind (enters_check fun _ => enters_step (enters_tx (enters_step ?_)))
  refine enters_query fun s o d p s' ws' hexec => enters_step (enters_record ?_)
  obtain ⟨-, -, rfl, hws⟩ := Sql.upsertPolicy_ok (Sql.keep_eq_ok.1 hexec).1
  refine enters_step (enters_commit ?_ (enters_pure trivial))
  rcases hws with ⟨old, -, -, rfl⟩ | ⟨-, -, rfl⟩
  · exact @Entered.policy (some old) _ _ ⟨rfl, rfl, rfl⟩
  · exact @Entered.policy none _ _ ⟨rfl, rfl, rfl⟩

theorem recordDecision_enters (T : Uuid) (req : RecordDecision) :
    Enters tx (recordDecision T caller req) fun _ _ => True := by
  unfold recordDecision auditDecision
  refine enters_bind (enters_check fun _ => enters_step (enters_tx (enters_step ?_)))
  refine enters_query fun s o d x s' ws' hexec => ?_
  obtain ⟨-, -, -, hx, rfl⟩ := Sql.insertDecision_ok (Sql.keep_eq_ok.1 hexec).1
  have hfacts : x.facts = [("action", .str req.action), ("verdict", .str req.verdict),
      ("score", .ofF64 req.score), ("message_ref", .str req.messageRef)] := by
    rw [hx]
    rfl
  split
  · refine enters_step (enters_query fun s o d u s' ws' hexec => ?_)
    obtain ⟨-, ⟨-, rfl⟩ | ⟨-, rfl⟩⟩ := Sql.insertItem_ok (Sql.keep_eq_ok.1 hexec).1
    · refine enters_step (enters_record (enters_step (enters_commit ?_ (enters_pure trivial))))
      exact .decision ⟨rfl, rfl, by rw [hfacts]⟩
    · refine enters_step (enters_record (enters_step (enters_commit ?_ (enters_pure trivial))))
      exact .held rfl ⟨rfl, rfl, by rw [hfacts]⟩
  · refine enters_step (enters_record (enters_step (enters_commit ?_ (enters_pure trivial))))
    exact .decision ⟨rfl, rfl, by rw [hfacts]⟩

theorem releaseItem_enters (T itemId : Uuid) :
    Enters tx (releaseItem T itemId caller) fun _ _ => True := by
  unfold releaseItem
  refine enters_step (enters_tx (enters_step ?_))
  refine enters_query fun s o d r s' ws' hexec => ?_
  rcases Sql.releaseItem_ok (Sql.keep_eq_ok.1 hexec).1 with
    ⟨i, -, -, -, -, rfl, rfl⟩ | ⟨-, rfl, rfl⟩
  · refine enters_step (enters_record (enters_step (enters_commit ?_ (enters_pure trivial))))
    exact @Entered.release i caller.actor s.now _ ⟨rfl, rfl, rfl⟩
  · exact enters_throw

theorem reportItem_enters (T itemId : Uuid) (req : ReportFeedback) :
    Enters tx (reportItem T itemId caller req) fun _ _ => True := by
  unfold reportItem
  refine enters_bind (enters_check fun _ => enters_step (enters_tx (enters_step ?_)))
  refine enters_query fun s o d r s' ws' hexec => ?_
  rcases Sql.reportItem_ok (Sql.keep_eq_ok.1 hexec).1 with
    ⟨i, -, -, -, -, rfl, rfl⟩ | ⟨rfl, rfl⟩
  · refine enters_step (enters_record (enters_step (enters_commit ?_ (enters_pure trivial))))
    exact .report (i := i) ⟨rfl, rfl, rfl⟩
  · exact enters_throw

/-- A transaction that only reads. -/
theorem reading_enters {R : Type} {setting : Setting} {value : String} {q : Stmt R}
    {f : R → Response} (hq : ∀ s o d r s' ws', Sql.exec q s o d = .ok (r, s', ws') → ws' = []) :
    Enters tx (do
      (begin >>= fun _ => query (.setConfig setting value) : DbM Unit)
      let r ← query q
      commit
      return f r : Handler Response) fun _ _ => True := by
  refine enters_step (enters_tx (enters_step (enters_query fun s o d r s' ws' hexec => ?_)))
  rw [hq s o d r s' ws' hexec]
  exact enters_step (enters_commit .nothing (enters_pure trivial))

theorem Route.handler_enters (route : Route) :
    Enters tx (route.handler sesame caller) fun _ _ => True := by
  have read : ∀ {R : Type} {x : R} {s s' : Session} {r : R} {ws' : List Write},
      (Except.ok (x, s, []) : Except DbError (R × Session × List Write)) = .ok (r, s', ws') →
        ws' = [] := by
    rintro R x s s' r ws' ⟨⟩
    rfl
  cases route with
  | createTenant req => exact createTenant_enters caller req
  | listTenants => exact reading_enters fun s o d r s' ws' hexec => read hexec
  | createDomain T req => exact createDomain_enters caller T req
  | listDomains T => exact reading_enters fun s o d r s' ws' hexec => read hexec
  | createAccount T req => exact createAccount_enters caller T req
  | listAccounts T => exact reading_enters fun s o d r s' ws' hexec => read hexec
  | getPolicy T now => exact reading_enters fun s o d r s' ws' hexec => read hexec
  | putPolicy T req => exact putPolicy_enters caller T req
  | recordDecision T req => exact recordDecision_enters caller T req
  | listQuarantine T => exact reading_enters fun s o d r s' ws' hexec => read hexec
  | releaseItem T itemId => exact releaseItem_enters caller T itemId
  | reportItem T itemId req => exact reportItem_enters caller T itemId req

end Handlers

/-! ### Cycles and operators -/

theorem reconcileEach_enters (rows : List PendingRow) (activated : Nat)
    (tx : Option (List Write)) : Enters tx (reconcileEach rows activated) fun _ _ => True := by
  induction rows generalizing activated tx with
  | nil => exact enters_pure trivial
  | cons row rest ih =>
      rw [reconcileEach]
      refine enters_bind (enters_lift ?_)
      intro y
      cases y with
      | error e => exact ih _ _
      | ok u =>
          refine enters_bind (enters_tx (enters_bind ?_))
          refine enters_query fun s o d updated s' ws' hexec => ?_
          cases hexec
          rcases Sql.activatePending_cases s d row.id u with ⟨a, -, hid, -, -, heq⟩ | ⟨-, heq⟩
          · rw [heq, if_pos rfl, ← hid]
            refine enters_bind (enters_record (enters_bind (enters_commit ?_ (ih _ _))))
            exact @Entered.user a _ s.now _ ⟨rfl, rfl, rfl⟩
          · rw [heq, if_neg Nat.zero_ne_one]
            exact enters_bind (enters_commit .nothing (ih _ _))

theorem reconcileOnce_enters (batch : Int) (tx : Option (List Write)) :
    Enters tx (reconcileOnce batch) fun _ _ => True := by
  unfold reconcileOnce
  refine enters_bind (enters_tx (enters_bind ?_))
  refine enters_query fun s o d rows s' ws' hexec => ?_
  simp only [Sql.exec] at hexec
  cases hrows : Sql.selectPending s o d batch with
  | error e => simp [hrows, Except.map] at hexec
  | ok rows =>
      simp only [hrows, Except.map, Except.ok.injEq, Prod.mk.injEq] at hexec
      obtain ⟨-, -, rfl⟩ := hexec
      exact enters_bind (enters_commit .nothing (reconcileEach_enters _ _ _))

theorem operatorChange_enters (c : OperatorChange) (tx : Option (List Write)) :
    Enters tx (operatorChange c) fun _ _ => True := by
  unfold operatorChange
  refine enters_bind (And.intro (fun e _ h => nomatch h) ?_)
  rintro _ ⟨⟩
  refine enters_bind (enters_query fun s o d u s' ws' hexec => enters_commit ?_ trivial)
  cases c with
  | tenant id status =>
      cases hexec
      rcases Sql.setTenantStatus_cases d id status with ⟨t, -, -, heq⟩ | heq
      · rw [heq]
        exact .tenantStatus
      · rw [heq]
        exact .nothing
  | domain id status =>
      cases hexec
      rcases Sql.setDomainStatus_cases d id status with ⟨m, -, -, heq⟩ | heq
      · rw [heq]
        exact .domainStatus
      · rw [heq]
        exact .nothing
  | account id status =>
      cases hexec
      rcases Sql.setAccountStatus_cases d id status with ⟨a, -, -, heq⟩ | heq
      · rw [heq]
        exact .accountStatus
      · rw [heq]
        exact .nothing

theorem Request.program_enters (sesame : Bool) (c : Request) :
    (c.program sesame).Commits postgres Entered (fun _ _ => True) none := by
  cases c with
  | http caller route =>
      refine Prog.Commits.bind (Prog.Commits.bind ?_)
      refine Prog.Commits.mono (route.handler_enters caller) fun tx r _ => ?_
      cases r with
      | ok r => exact trivial
      | error e => exact trivial
  | reconcile batch =>
      exact Prog.Commits.bind (Prog.Commits.mono (reconcileOnce_enters batch none)
        fun _ _ _ => trivial)
  | operator c =>
      exact Prog.Commits.bind (Prog.Commits.mono (operatorChange_enters c none)
        fun _ _ _ => trivial)

/-! ### The journal -/

theorem Journaled.empty : Journaled Database.empty :=
  ⟨fun _ _ => rfl, fun _ _ => rfl, fun _ _ => rfl, fun _ _ => rfl, fun _ _ => rfl, fun _ _ => rfl⟩

section

variable {sesame : Bool} {answers : ProvisionUser → Except ProviderError Uuid → Prop} {σ : State}

/-- Read in the order of its entries, the audit trail gives back what is in the
tables, whatever runs at the same time. -/
theorem journaled (h : Reached sesame answers σ) : Journaled σ.store := by
  have hentered : ∀ e ∈ σ.history, Entered e.writes :=
    (h.committing fun c _ => c.program_enters sesame).history
  refine (reached_started sesame answers).record_induction
    (J := fun d hist => (∀ e ∈ hist, Entered e.writes) → Journaled d)
    (fun _ => Journaled.empty) ?_ h hentered
  intro p c cs d hist ws _ _ hpend _ ih hall
  have hd : Journaled d := ih fun e he => hall e (List.mem_append_left _ he)
  exact hd.commit hpend (hall ⟨p, c, ws⟩ (by simp))

end

/-- Two policies for one tenant at a time: the second waits for the first. -/
def overruled : List Event :=
  [.spawn 1 (.http ⟨"ops", none, []⟩ (.createTenant { slug := "acme", name := "Acme" }))] ++
    undisturbed 1 10 3 ++
    [.spawn 2 (.http ⟨"ann", none, []⟩ (.putPolicy (.number 11) ⟨.fin 20, .fin 10, .fin 5⟩)),
      .spawn 3 (.http ⟨"bob", none, []⟩ (.putPolicy (.number 11) ⟨.fin 12, .fin 6, .fin 3⟩)),
      .start 3 0 (.number 30), .stmt 3 (.number 31), .start 2 1 (.number 20),
      .stmt 2 (.number 21), .stmt 2 (.number 22), .stmt 2 (.number 23), .commit 2,
      .stmt 3 (.number 32), .stmt 3 (.number 33), .commit 3]

theorem journaled_overruled : ∃ σ, Reached false (fun _ _ => False) σ ∧
    journal σ.store.auditLog "abuse_policy" (Uuid.number 11).toText "reject" =
      some (.ofF64 (.fin 12)) := by
  have hplay : ((play false (fun _ _ => False) overruled).any fun σ =>
      decide ((σ.store.abusePolicy.find? (.number 11)).map AbusePolicy.reject =
        some (F64.fin 12))) = true := by
    decide +kernel
  obtain ⟨σ, hσ, h⟩ := reached_of_play hplay
  obtain ⟨p, hp, hreject⟩ := Option.map_eq_some_iff.1 (of_decide_eq_true h)
  refine ⟨σ, hσ, ((journaled hσ).policies (.number 11) "reject").trans ?_⟩
  rw [hp, ← hreject]
  rfl

end OpenGroupware
