import OpenGroupware.Outlines
import OpenGroupware.Transactional.Snapshot

/-!
What clients are shown. A listing is the truth about the database at one moment
between its request and its answer; a creation that has been acknowledged is
in every listing asked for afterwards; and no two clients are told that they
have created the same thing.
-/

namespace OpenGroupware

open Relational Transactional

/-- The services get from one state to another. -/
def Leads (sesame : Bool) (answers : ProvisionUser → Except ProviderError Uuid → Prop)
    (σ σ' : State) : Prop :=
  ∃ ls, Run (services sesame answers) (fun _ => True) (fun _ _ => True) σ ls σ'

section

variable {sesame : Bool} {answers : ProvisionUser → Except ProviderError Uuid → Prop}
  {σ₀ σ₁ σ₂ : State}

theorem Leads.trans (h : Leads sesame answers σ₀ σ₁) (h' : Leads sesame answers σ₁ σ₂) :
    Leads sesame answers σ₀ σ₂ := by
  obtain ⟨ls, hrun⟩ := h
  obtain ⟨ls', hrun'⟩ := h'
  exact ⟨ls ++ ls', hrun.append hrun'⟩

theorem Leads.reached (h : Leads sesame answers σ₀ σ₁) (hσ : Reached sesame answers σ₀) :
    Reached sesame answers σ₁ := by
  obtain ⟨ls, hrun⟩ := h
  exact hσ.run hrun

end

/-! ### A listing between two creations -/

def foundTenant (slug : String) : Request :=
  .http ⟨"ops", none, []⟩ (.createTenant { slug := slug, name := slug })

/-- The first tenant is created. -/
def firstTenant : List Event :=
  [.spawn 1 (foundTenant "acme")] ++ undisturbed 1 10 3 ++ [.reply 1]

/-- The second one is created while the tenants are listed. -/
def listedTenants : List Event :=
  [.spawn 2 (foundTenant "initech"), .spawn 3 (.http ⟨"ops", none, []⟩ .listTenants),
    .start 3 1 (.number 30), .stmt 3 (.number 30)] ++ undisturbed 2 20 3 ++
    [.stmt 3 (.number 31), .reply 2, .commit 3, .reply 3]

/-- The request of `p` has been answered so. -/
def answeredBy (σ : State) (p : Nat) (f : Request → Answer → Bool) : Bool :=
  σ.replies.any fun e => decide (e.pid = p) && f e.request e.answer

theorem reply_of_answeredBy {σ : State} {p : Nat} {f : Request → Answer → Bool}
    (h : answeredBy σ p f = true) :
    ∃ e ∈ σ.replies, e.pid = p ∧ f e.request e.answer = true := by
  obtain ⟨e, he, h⟩ := List.any_eq_true.1 h
  rw [Bool.and_eq_true, decide_eq_true_eq] at h
  exact ⟨e, he, h⟩

def foundedAs (slug : String) (_ : Request) : Answer → Bool
  | .http ⟨201, .tenant t⟩ => decide (t.slug = slug)
  | _ => false

def listedAll : Request → Answer → Bool
  | .http _ .listTenants, .http ⟨200, .tenants ts⟩ =>
      decide (ts.map Tenant.slug = ["acme", "initech"])
  | _, _ => false

theorem told_tenants :
    ∃ σ σ', Reached false (fun _ _ => False) σ ∧
      Run (services false fun _ _ => False) (fun _ => True) (fun _ _ => True) σ listedTenants σ' ∧
      3 ∉ σ.started ∧
      (∃ e ∈ σ.replies, e.pid = 1 ∧ ∃ t, e.answer = .http (.created (.tenant t))) ∧
      (∃ e ∈ σ'.replies, e.pid = 1 ∧ ∃ t, e.answer = .http (.created (.tenant t))) ∧
      (∃ e ∈ σ'.replies, e.pid = 2 ∧ ∃ t, e.answer = .http (.created (.tenant t))) ∧
      ∃ e ∈ σ'.replies, e.pid = 3 ∧ (∃ caller, e.request = .http caller .listTenants) ∧
        ∃ ts, e.answer = .http (.ok (.tenants ts)) ∧ ts.map Tenant.slug = ["acme", "initech"] := by
  have hplay : ((play false (fun _ _ => False) firstTenant).any fun σ =>
      (decide (3 ∉ σ.started) && answeredBy σ 1 (foundedAs "acme")) &&
        (replay (services false fun _ _ => False) (fun _ => True) (fun _ _ => True) σ
          listedTenants).any fun σ' => answeredBy σ' 1 (foundedAs "acme") &&
            answeredBy σ' 2 (foundedAs "initech") && answeredBy σ' 3 listedAll) = true := by
    decide +kernel
  obtain ⟨σ, hσ, h⟩ := reached_of_play hplay
  simp only [Bool.and_eq_true, decide_eq_true_eq] at h
  obtain ⟨⟨hnew, h₁⟩, h⟩ := h
  obtain ⟨σ', hσ', h⟩ := (Option.any_eq_true _ _).1 h
  simp only [Bool.and_eq_true] at h
  obtain ⟨⟨h₁', h₂⟩, h₃⟩ := h
  have founded : ∀ {σ : State} {p slug}, answeredBy σ p (foundedAs slug) = true →
      ∃ e ∈ σ.replies, e.pid = p ∧ ∃ t, e.answer = .http (.created (.tenant t)) := by
    intro σ p slug h
    obtain ⟨e, he, hpid, h⟩ := reply_of_answeredBy h
    refine ⟨e, he, hpid, ?_⟩
    unfold foundedAs at h
    split at h
    · rename_i t hanswer
      exact ⟨t, hanswer⟩
    · cases h
  refine ⟨σ, σ', hσ, run_of_replay hσ hσ', hnew, founded h₁, founded h₁', founded h₂, ?_⟩
  obtain ⟨e, he, hpid, h⟩ := reply_of_answeredBy h₃
  refine ⟨e, he, hpid, ?_⟩
  unfold listedAll at h
  split at h
  · rename_i caller ts hreq hanswer
    exact ⟨⟨caller, hreq⟩, ts, hanswer, of_decide_eq_true h⟩
  · cases h

/-! ### Listings -/

/-- What the routes that read show of a database, ties of the order settled by
the oracle. -/
def Route.shows (d : Database) (o : Oracle) : Route → Option Body
  | .listTenants => some (.tenants (Sql.orderBy o Tenant.createdAt Tenant.id d.tenants.rows))
  | .listDomains T => some (.domains (Sql.orderBy o Domain.createdAt Domain.id
      (d.domains.rows.filter fun m => decide (m.tenantId = T))))
  | .listAccounts T => some (.accounts ((Sql.orderBy o (fun a : AccountRow => a.createdAt)
      (fun a => a.id) (d.accounts.rows.filter fun a => decide (a.tenantId = T))).map
        AccountRow.toAccount))
  | .getPolicy T now =>
      some (.policy ((d.abusePolicy.find? T).getD (AbusePolicy.defaults T now)))
  | .listQuarantine T => some (.items (Sql.orderBy o QuarantineItem.heldAt QuarantineItem.id
      (d.quarantineItem.rows.filter fun i =>
        decide (i.tenantId = T) && decide (i.status = .held))).reverse)
  | _ => none

/-- A successful answer of a route that reads is what it shows of one of the
databases that its statements have seen. -/
def Request.Tells (c : Request) (seen : Set Database) (a : Answer) : Prop :=
  ∀ caller route body, c = .http caller route → route.reads = true →
    a = .http (.ok body) → ∃ d ∈ seen, ∃ o, route.shows d o = some body

theorem Request.tells_failed (c : Request) (seen : Set Database) (e : DbError) :
    c.Tells seen (.http (ApiError.db e).intoResponse) := by
  intro caller route body _ _ h
  cases e <;> cases h

section

variable {sesame : Bool} {answers : ProvisionUser → Except ProviderError Uuid → Prop}
  {c : Request} {R : Type} {q : Stmt R} {body : R → Body}

/-- How a handler that reads ends: with what its one statement has read. -/
theorem tells_query {s : Session} (h : ∀ d o r s' ws,
      Sql.exec q s o d = .ok (r, s', ws) → c.Tells {d} (.http (.ok (body r))))
    (seen : Set Database) :
    ((liftM (query q) : Handler R) >>= fun r => liftM commit >>= fun _ =>
      pure (Response.ok (body r))).serve.Tells (services sesame answers) Session.Idle c.Tells
        (some (s, [])) seen := by
  rw [Handler.serve_query]
  refine ⟨fun e => c.tells_failed _ e, ?_⟩
  rintro s ws ⟨⟩ d o r s' ws' hexec
  change Prog.Tells _ _ _ (Handler.serve _) _ _
  rw [Handler.serve_commit]
  rintro (e | u)
  · exact c.tells_failed _ e
  · intro caller route body' hc hroute hbody
    obtain ⟨d', rfl, hshows⟩ := h d o r s' ws' hexec caller route body' hc hroute hbody
    exact ⟨d', Set.mem_insert _ _, hshows⟩

theorem tells_tenantTx {T : Uuid} (h : ∀ (s : Session) d o r s' ws, s.ForTenant T →
      Sql.exec q s o d = .ok (r, s', ws) → c.Tells {d} (.http (.ok (body r)))) :
    ((liftM (tenantTx T) : Handler Unit) >>= fun _ => liftM (query q) >>= fun r =>
      liftM commit >>= fun _ => pure (Response.ok (body r))).serve.Tells (services sesame answers)
        Session.Idle c.Tells none ∅ := by
  rw [Handler.serve_tenantTx]
  refine ⟨fun e => c.tells_failed _ e, fun s o hs => ⟨fun e => c.tells_failed _ e, ?_⟩⟩
  rintro s₁ ws ⟨⟩ d o' r s' ws' hexec
  obtain ⟨-, hset⟩ := Sql.require_bind_eq_ok.1 hexec
  cases hset
  exact tells_query (fun d o r s' ws => h _ d o r s' ws (hs.forTenant o T)) _

theorem tells_platformTx (h : ∀ (s : Session) d o r s' ws, s.ForPlatform →
      Sql.exec q s o d = .ok (r, s', ws) → c.Tells {d} (.http (.ok (body r)))) :
    ((liftM platformTx : Handler Unit) >>= fun _ => liftM (query q) >>= fun r =>
      liftM commit >>= fun _ => pure (Response.ok (body r))).serve.Tells (services sesame answers)
        Session.Idle c.Tells none ∅ := by
  rw [Handler.serve_platformTx]
  refine ⟨fun e => c.tells_failed _ e, fun s o hs => ⟨fun e => c.tells_failed _ e, ?_⟩⟩
  rintro s₁ ws ⟨⟩ d o' r s' ws' hexec
  obtain ⟨-, hset⟩ := Sql.require_bind_eq_ok.1 hexec
  cases hset
  exact tells_query (fun d o r s' ws => h _ d o r s' ws (hs.forPlatform o)) _

/-- What a session of a tenant sees are the rows of the tenant. -/
theorem Session.ForTenant.filter_sees {α : Type} {s : Session} {T : Uuid} (hs : s.ForTenant T)
    (tenant : α → Uuid) (p : α → Bool) (rows : List α) :
    (rows.filter fun x => s.sees (some (tenant x)) && p x) =
      rows.filter fun x => decide (tenant x = T) && p x := by
  refine List.filter_congr fun x _ => ?_
  congr 1
  rw [Bool.eq_iff_iff, hs.sees_iff, decide_eq_true_iff, Option.some.injEq]

theorem program_tells (c : Request) : ((services sesame answers).program c).Tells
    (services sesame answers) Session.Idle c.Tells none ∅ := by
  by_cases hreads : ∃ caller route, c = .http caller route ∧ route.reads = true
  · obtain ⟨caller, route, rfl, hroute⟩ := hreads
    cases route with
    | listTenants =>
        refine tells_platformTx fun s d o r s' ws hs hexec => ?_
        cases hexec
        rintro _ _ _ ⟨⟩ - ⟨⟩
        refine ⟨d, rfl, o, ?_⟩
        have hrows : d.tenants.rows.filter (fun t => s.sees (some t.id)) = d.tenants.rows :=
          List.filter_eq_self.2 fun t _ => hs.sees _
        simp only [Route.shows, Sql.selectTenants, hrows]
    | listDomains T =>
        refine tells_tenantTx fun s d o r s' ws hs hexec => ?_
        cases hexec
        rintro _ _ _ ⟨⟩ - ⟨⟩
        refine ⟨d, rfl, o, ?_⟩
        have hrows := hs.filter_sees Domain.tenantId (fun _ => true) d.domains.rows
        simp only [Bool.and_true] at hrows
        simp only [Route.shows, Sql.selectDomains, hrows]
    | listAccounts T =>
        refine tells_tenantTx fun s d o r s' ws hs hexec => ?_
        cases hexec
        rintro _ _ _ ⟨⟩ - ⟨⟩
        refine ⟨d, rfl, o, ?_⟩
        have hrows := hs.filter_sees (fun a : AccountRow => a.tenantId) (fun _ => true)
          d.accounts.rows
        simp only [Bool.and_true] at hrows
        simp only [Route.shows, Sql.selectAccounts, hrows]
    | getPolicy T now =>
        refine tells_tenantTx fun s d o r s' ws hs hexec => ?_
        cases hexec
        rintro _ _ _ ⟨⟩ - ⟨⟩
        refine ⟨d, rfl, o, ?_⟩
        have hfind : (d.abusePolicy.find? T).filter (fun p => s.sees (some p.tenantId)) =
            d.abusePolicy.find? T := by
          cases hp : d.abusePolicy.find? T with
          | none => rfl
          | some p =>
              obtain ⟨-, hT⟩ := Table.find?_eq_some.1 hp
              exact if_pos ((hs.sees_iff _).2 (congrArg some hT))
        simp only [Route.shows, Sql.selectPolicy, hfind]
    | listQuarantine T =>
        refine tells_tenantTx fun s d o r s' ws hs hexec => ?_
        cases hexec
        rintro _ _ _ ⟨⟩ - ⟨⟩
        refine ⟨d, rfl, o, ?_⟩
        have hrows := hs.filter_sees QuarantineItem.tenantId
          (fun i => decide (i.status = .held)) d.quarantineItem.rows
        simp only [Route.shows, Sql.selectHeld, hrows]
    | _ => cases hroute
  · refine Prog.tells_of_forall (fun seen a caller route body hc hroute => ?_) _ _ _
    exact absurd ⟨caller, route, hc, hroute⟩ hreads

/-- A successful answer of a route that reads is what it shows of a database
that the run passed while the request was running. -/
theorem shown_passed {σ₀ σ : State} {ls : List Event} (h : Reached sesame answers σ₀)
    (hrun : Run (services sesame answers) (fun _ => True) (fun _ _ => True) σ₀ ls σ)
    {e : Reply Request Database Write Answer} (he : e ∈ σ.replies) (hnew : e.pid ∉ σ₀.started)
    {caller : Caller} {route : Route} (hreq : e.request = .http caller route)
    (hroute : route.reads = true) {body : Body} (hbody : e.answer = .http (.ok body)) :
    ∃ d o, Passed (services sesame answers) (fun _ => True) (fun _ _ => True) σ₀ ls σ e.pid d ∧
      route.shows d o = some body := by
  have hidle : ∀ τ, Reached sesame answers τ → ∀ conn, Session.Idle (τ.conns conn) :=
    fun τ hτ => ((reached_started sesame answers).inv hτ).idle
  have htelling : Telling (services sesame answers) Session.Idle (fun _ => True) (fun _ _ => True)
      Request.Tells σ₀ ls σ := hrun.telling program_tells h hidle
  obtain ⟨seen, hseen, htells⟩ := htelling.replies e he hnew
  obtain ⟨d, hd, o, hshows⟩ := htells caller route body hreq hroute hbody
  exact ⟨d, o, hseen d hd, hshows⟩

/-- Listings are snapshots: on the way of the run from any state before the
request came in, there was a moment at which the request was running and its
answer is exactly what the database then held. -/
theorem listing_snapshot {σ₀ σ : State} {ls : List Event} (h : Reached sesame answers σ₀)
    (hrun : Run (services sesame answers) (fun _ => True) (fun _ _ => True) σ₀ ls σ)
    {e : Reply Request Database Write Answer} (he : e ∈ σ.replies) (hnew : e.pid ∉ σ₀.started)
    {caller : Caller} {route : Route} (hreq : e.request = .http caller route)
    (hroute : route.reads = true) {body : Body} (hbody : e.answer = .http (.ok body)) :
    ∃ ls₁ ls₂ ρ P o, ls = ls₁ ++ ls₂ ∧
      Run (services sesame answers) (fun _ => True) (fun _ _ => True) σ₀ ls₁ ρ ∧
      Run (services sesame answers) (fun _ => True) (fun _ _ => True) ρ ls₂ σ ∧
      ρ.procs e.pid = some P ∧ route.shows ρ.store o = some body := by
  obtain ⟨d, o, ⟨ls₁, ls₂, ρ, P, hls, hrun₁, hrun₂, hP, rfl⟩, hshows⟩ :=
    shown_passed h hrun he hnew hreq hroute hbody
  exact ⟨ls₁, ls₂, ρ, P, o, hls, hrun₁, hrun₂, hP, hshows⟩

end

theorem listing_snapshot_concurrent :
    ∃ σ₀ ls σ, Reached false (fun _ _ => False) σ₀ ∧
      Run (services false fun _ _ => False) (fun _ => True) (fun _ _ => True) σ₀ ls σ ∧
      ∃ e ∈ σ.replies, e.pid = 3 ∧ ∃ ts, e.answer = .http (.ok (.tenants ts)) ∧
        ts.map Tenant.slug = ["acme", "initech"] ∧ ∃ ls₁ ls₂ ρ P o, ls = ls₁ ++ ls₂ ∧
          Run (services false fun _ _ => False) (fun _ => True) (fun _ _ => True) σ₀ ls₁ ρ ∧
          Run (services false fun _ _ => False) (fun _ => True) (fun _ _ => True) ρ ls₂ σ ∧
          ρ.procs e.pid = some P ∧ Route.listTenants.shows ρ.store o = some (.tenants ts) := by
  obtain ⟨σ, σ', hσ, hrun, hnew, -, -, -, e, he, hpid, ⟨caller, hreq⟩, ts, hanswer, hts⟩ :=
    told_tenants
  refine ⟨σ, _, σ', hσ, hrun, e, he, hpid, ts, hanswer, hts, ?_⟩
  exact listing_snapshot hσ hrun he (by rwa [hpid]) hreq rfl hanswer

/-! ### Acknowledged creations -/

/-- What a write has left is there, in the columns that never change. -/
def Write.Stays (d : Database) : Write → Prop
  | .tenant c => ∃ t ∈ d.tenants, t.fixed = c.new.fixed
  | .domain c => ∃ m ∈ d.domains, m.fixed = c.new.fixed
  | .account c => ∃ a ∈ d.accounts, a.fixed = c.new.fixed
  | .abusePolicy c => ∃ p ∈ d.abusePolicy, p.tenantId = c.new.tenantId
  | .audit e => e ∈ d.auditLog
  | .abuseDecision c => ∃ x ∈ d.abuseDecision, c.new = x
  | .quarantineItem c => ∃ i ∈ d.quarantineItem, c.new.Follows i
  | .abuseAudit e => e ∈ d.abuseAuditLog

/-- The write makes a new row. -/
def Write.Inserts : Write → Prop
  | .tenant c => c.old = none
  | .domain c => c.old = none
  | .account c => c.old = none
  | .abusePolicy c => c.old = none
  | .audit _ => False
  | .abuseDecision c => c.old = none
  | .quarantineItem c => c.old = none
  | .abuseAudit _ => False

namespace Write

variable {w w' : Write} {ws : List Write} {d d' : Database}

theorem stays_apply (w : Write) (d : Database) : w.Stays (w.apply d) := by
  cases w with
  | tenant c => exact ⟨c.new, Table.mem_put.2 (.inl rfl), rfl⟩
  | domain c => exact ⟨c.new, Table.mem_put.2 (.inl rfl), rfl⟩
  | account c => exact ⟨c.new, Table.mem_put.2 (.inl rfl), rfl⟩
  | abusePolicy c => exact ⟨c.new, Table.mem_put.2 (.inl rfl), rfl⟩
  | audit e => exact List.mem_append_right _ List.mem_cons_self
  | abuseDecision c => exact ⟨c.new, Table.mem_put.2 (.inl rfl), rfl⟩
  | quarantineItem c =>
      exact ⟨c.new, Table.mem_put.2 (.inl rfl), QuarantineItem.Follows.refl _⟩
  | abuseAudit e => exact List.mem_append_right _ List.mem_cons_self

theorem Stays.evolves (h : w.Stays d) (hev : Evolves d d') : w.Stays d' := by
  cases w with
  | tenant c =>
      obtain ⟨t, ht, hfixed⟩ := h
      obtain ⟨t', ht', hfixed'⟩ := hev.tenants t ht
      exact ⟨t', ht', hfixed'.trans hfixed⟩
  | domain c =>
      obtain ⟨m, hm, hfixed⟩ := h
      obtain ⟨m', hm', hfixed'⟩ := hev.domains m hm
      exact ⟨m', hm', hfixed'.trans hfixed⟩
  | account c =>
      obtain ⟨a, ha, hfixed⟩ := h
      obtain ⟨a', ha', hfixed'⟩ := hev.accounts a ha
      exact ⟨a', ha', hfixed'.trans hfixed⟩
  | abusePolicy c =>
      obtain ⟨p, hp, hT⟩ := h
      obtain ⟨p', hp', hT'⟩ := hev.abusePolicy p hp
      exact ⟨p', hp', hT'.trans hT⟩
  | audit e => exact hev.auditLog.subset h
  | abuseDecision c =>
      obtain ⟨x, hx, rfl⟩ := h
      exact hev.abuseDecision _ hx
  | quarantineItem c =>
      obtain ⟨i, hi, hfollows⟩ := h
      obtain ⟨i', hi', hfollows'⟩ := hev.quarantineItem i hi
      exact ⟨i', hi', hfollows.trans hfollows'⟩
  | abuseAudit e => exact hev.abuseAuditLog.subset h

theorem LegalAll.stays (h : LegalAll d ws) (hinv : Consistent d)
    (hpend : postgres.Pending fits ws d) : ∀ w ∈ ws, w.Stays (postgres.applyAll ws d) := by
  induction ws generalizing d with
  | nil => exact fun w hw => absurd hw List.not_mem_nil
  | cons w ws ih =>
      obtain ⟨hfit, hrest⟩ := postgres_lawful.pending_cons hpend
      have hcons := h.1.consistent hinv hfit
      intro w' hw'
      rcases List.mem_cons.1 hw' with rfl | hw'
      · exact (stays_apply w' d).evolves (h.2.sound hcons hrest).2
      · exact ih h.2 hcons hrest w' hw'

/-- What is there keeps its keys from being inserted again. -/
theorem Stays.apart (h : w.Stays d) (hins : w'.Inserts) (hfit : w'.fits d) : ¬w.clash w' := by
  cases w' with
  | tenant c' =>
      simp only [Inserts] at hins
      simp only [fits, Change.Fits, hins] at hfit
      cases w with
      | tenant c =>
          obtain ⟨t, ht, hfixed⟩ := h
          have hid := congrArg Tenant.id hfixed
          have hslug := congrArg Tenant.slug hfixed
          rintro (hkey | hkey)
          · exact (hfit t ht).1 (hid.trans hkey)
          · exact (hfit t ht).2 (hslug.trans hkey)
      | _ => exact id
  | domain c' =>
      simp only [Inserts] at hins
      simp only [fits, Change.Fits, hins] at hfit
      cases w with
      | domain c =>
          obtain ⟨m, hm, hfixed⟩ := h
          have hid := congrArg Domain.id hfixed
          have hfqdn := congrArg Domain.fqdn hfixed
          rintro (hkey | hkey)
          · exact (hfit m hm).1 (hid.trans hkey)
          · exact (hfit m hm).2 (hfqdn.trans hkey)
      | _ => exact id
  | account c' =>
      simp only [Inserts] at hins
      simp only [fits, Change.Fits, hins] at hfit
      cases w with
      | account c =>
          obtain ⟨a, ha, hfixed⟩ := h
          obtain ⟨hid, -, -, hemail, -⟩ := AccountRow.columns_of_fixed hfixed
          rintro (hkey | hkey)
          · exact (hfit a ha).1 (hid.trans hkey)
          · exact (hfit a ha).2 (hemail.trans hkey)
      | _ => exact id
  | abusePolicy c' =>
      simp only [Inserts] at hins
      simp only [fits, Change.Fits, hins] at hfit
      cases w with
      | abusePolicy c =>
          obtain ⟨p, hp, hT⟩ := h
          rintro (hkey | hkey)
          · exact (hfit p hp).1 (hT.trans hkey)
          · exact (hfit p hp).1 (hT.trans hkey)
      | _ => exact id
  | abuseDecision c' =>
      simp only [Inserts] at hins
      simp only [fits, Change.Fits, hins] at hfit
      cases w with
      | abuseDecision c =>
          obtain ⟨x, hx, rfl⟩ := h
          rintro (hkey | hkey)
          · exact (hfit _ hx).1 hkey
          · exact (hfit _ hx).1 hkey
      | _ => exact id
  | quarantineItem c' =>
      simp only [Inserts] at hins
      simp only [fits, Change.Fits, hins] at hfit
      cases w with
      | quarantineItem c =>
          obtain ⟨i, hi, hfixed, -⟩ := h
          have hid := congrArg QuarantineItem.id hfixed
          have hmessage := congrArg QuarantineItem.messageKey hfixed
          rintro (hkey | hkey)
          · exact (hfit i hi).1 (hid.trans hkey)
          · exact (hfit i hi).2 (hmessage.trans hkey)
      | _ => exact id
  | audit | abuseAudit => exact hins.elim

end Write

section

variable {sesame : Bool} {answers : ProvisionUser → Except ProviderError Uuid → Prop}
  {σ σ' : State}

/-- Everything that has been committed is there, and no insertion clashes with
what was committed before it. -/
theorem history_stays (h : Reached sesame answers σ) :
    (∀ a ∈ σ.history, ∀ w ∈ a.writes, w.Stays σ.store) ∧
      σ.history.Pairwise fun a b => ∀ w ∈ a.writes, ∀ w' ∈ b.writes, w'.Inserts → ¬w.clash w' := by
  refine (reached_started sesame answers).record_induction (J := fun d hist =>
    (∀ a ∈ hist, ∀ w ∈ a.writes, w.Stays d) ∧
      hist.Pairwise fun a b => ∀ w ∈ a.writes, ∀ w' ∈ b.writes, w'.Inserts → ¬w.clash w')
    ⟨fun a ha => absurd ha List.not_mem_nil, .nil⟩ ?_ h
  rintro p c cs d hist ws - hinv hpend hpost ⟨hstays, hapart⟩
  have hlegal := hpost.legal hinv hpend
  have hev := (hlegal.sound hinv hpend).2
  refine ⟨fun a ha w hw => ?_, List.pairwise_append.2 ⟨hapart, List.pairwise_singleton _ _, ?_⟩⟩
  · rcases List.mem_append.1 ha with ha | ha
    · exact (hstays a ha w hw).evolves hev
    · obtain rfl := List.mem_singleton.1 ha
      exact hlegal.stays hinv hpend w hw
  · intro a ha b hb w hw w' hw' hins
    obtain rfl := List.mem_singleton.1 hb
    exact (hstays a ha w hw).apart hins (hpend.fits w' hw')

/-- The write is the insertion that a creation is acknowledged for. -/
def Body.MadeBy : Body → Write → Prop
  | .tenant t, .tenant c => c.old = none ∧ c.new = t
  | .domain m, .domain c => c.old = none ∧ c.new = m
  | .account a, .account c => c.old = none ∧ { c.new.toAccount with status := a.status } = a
  | .decision x, .abuseDecision c => c.old = none ∧ c.new = x
  | _, _ => False

theorem Body.MadeBy.inserts {body : Body} {w : Write} (h : body.MadeBy w) : w.Inserts := by
  cases body <;> cases w <;> first | exact h.1 | exact h.elim

theorem ApiError.intoResponse_ne_created {e : ApiError} {body : Body} :
    Answer.http e.intoResponse ≠ .http (.created body) := by
  intro h
  have hstatus := congrArg Response.status (Answer.http.inj h)
  cases e with
  | db e => cases e <;> cases hstatus
  | _ => cases hstatus

/-- Whoever is told of a creation has committed the insertion. -/
theorem acknowledged_made (h : Reached sesame answers σ)
    {e : Reply Request Database Write Answer} (he : e ∈ σ.replies) {body : Body}
    (hbody : e.answer = .http (.created body)) :
    ∃ a ∈ σ.history, a.pid = e.pid ∧ ∃ w ∈ a.writes, body.MadeBy w := by
  have hstarted := reached_started sesame answers
  obtain ⟨d, -, -, hret⟩ := hstarted.replies_ret h e he
  have hchain := (hstarted.chain h).2 e he
  have hret : Answered e.request e.since e.commits d e.answer := hret
  -- the first transaction of the request holds the insertion
  suffices ∃ ws ∈ e.commits, ∃ w ∈ ws, body.MadeBy w by
    obtain ⟨ws, hws, w, hw, hmade⟩ := this
    exact ⟨_, h.recorded.mem_history he hws, rfl, w, hw, hmade⟩
  generalize e.request = c, e.commits = cs, e.answer = answer at hret hchain hbody
  cases hret with
  | cycle | cycleFailed | operator => cases hbody
  | refused => cases ApiError.intoResponse_ne_created hbody
  | served hserved =>
      obtain rfl := Answer.http.inj hbody
      generalize hr : Response.created body = r at hserved
      cases hserved with
      | createTenant | createDomain | createAccount | recordDecision | recordQuarantine =>
          cases hr
          obtain ⟨d', -, -, hpost⟩ := hchain.first
          cases hpost
          exact ⟨_, List.mem_cons_self, _, List.mem_cons_self, rfl, rfl⟩
      | createProvisioned =>
          cases hr
          obtain ⟨d', -, -, hpost⟩ := hchain.second
          cases hpost with
          | provisioned _ same =>
              have hcolumns := (congrArg AccountRow.toAccount same).symm
              exact ⟨_, List.mem_cons_self, _, List.mem_cons_self, rfl, hcolumns⟩
      | _ => cases hr

/-- Two things that can both be there. -/
def Body.Apart : Body → Body → Prop
  | .tenant t, .tenant t' => t.id ≠ t'.id ∧ t.slug ≠ t'.slug
  | .domain m, .domain m' => m.id ≠ m'.id ∧ m.fqdn ≠ m'.fqdn
  | .account a, .account a' => a.id ≠ a'.id ∧ a.email ≠ a'.email
  | .decision x, .decision x' => x.id ≠ x'.id
  | _, _ => True

theorem Body.MadeBy.apart {body body' : Body} {w w' : Write} (h : body.MadeBy w)
    (h' : body'.MadeBy w') (hno : ¬w.clash w') : body.Apart body' := by
  cases body with
  | tenant t =>
      cases body' with
      | tenant t' =>
          cases w <;> cases w' <;> first | exact h.elim | exact h'.elim | skip
          obtain ⟨-, rfl⟩ := h
          obtain ⟨-, rfl⟩ := h'
          exact not_or.1 hno
      | _ => trivial
  | domain m =>
      cases body' with
      | domain m' =>
          cases w <;> cases w' <;> first | exact h.elim | exact h'.elim | skip
          obtain ⟨-, rfl⟩ := h
          obtain ⟨-, rfl⟩ := h'
          exact not_or.1 hno
      | _ => trivial
  | account a =>
      cases body' with
      | account a' =>
          cases w <;> cases w' <;> first | exact h.elim | exact h'.elim | skip
          obtain ⟨-, ha⟩ := h
          obtain ⟨-, ha'⟩ := h'
          rw [← ha, ← ha']
          exact not_or.1 hno
      | _ => trivial
  | decision x =>
      cases body' with
      | decision x' =>
          cases w <;> cases w' <;> first | exact h.elim | exact h'.elim | skip
          obtain ⟨-, rfl⟩ := h
          obtain ⟨-, rfl⟩ := h'
          exact (not_or.1 hno).1
      | _ => trivial
  | _ => trivial

/-- No two clients are told that they have created the same thing: tenants
have slugs of their own, domains names, and accounts addresses. -/
theorem acknowledged_apart (h : Reached sesame answers σ)
    {e e' : Reply Request Database Write Answer} (he : e ∈ σ.replies) (he' : e' ∈ σ.replies)
    (hne : e.pid ≠ e'.pid) {body body' : Body} (hbody : e.answer = .http (.created body))
    (hbody' : e'.answer = .http (.created body')) : body.Apart body' := by
  obtain ⟨a, ha, hpid, w, hw, hmade⟩ := acknowledged_made h he hbody
  obtain ⟨a', ha', hpid', w', hw', hmade'⟩ := acknowledged_made h he' hbody'
  refine hmade.apart hmade' ?_
  -- one of the two was committed first
  have hpairs := List.pairwise_iff_getElem.1 (history_stays h).2
  obtain ⟨i, hi, rfl⟩ := List.getElem_of_mem ha
  obtain ⟨j, hj, rfl⟩ := List.getElem_of_mem ha'
  rcases Nat.lt_trichotomy i j with hij | rfl | hji
  · exact hpairs i j hi hj hij w hw w' hw' hmade'.inserts
  · exact absurd (hpid.symm.trans hpid') hne
  · exact fun hclash => hpairs j i hj hi hji w' hw' w hw hmade.inserts (Write.clash_symm hclash)

end

theorem acknowledged_apart_tenants :
    ∃ σ e e' t t', Reached false (fun _ _ => False) σ ∧ e ∈ σ.replies ∧ e' ∈ σ.replies ∧
      e.answer = .http (.created (.tenant t)) ∧ e'.answer = .http (.created (.tenant t')) ∧
      e.pid ≠ e'.pid ∧ t.id ≠ t'.id ∧ t.slug ≠ t'.slug := by
  obtain ⟨σ, σ', hσ, hrun, -, -, ⟨e, he, hpid, t, hanswer⟩, ⟨e', he', hpid', t', hanswer'⟩, -⟩ :=
    told_tenants
  have hne : e.pid ≠ e'.pid := by
    rw [hpid, hpid']
    exact Nat.succ_ne_self 1 ∘ Eq.symm
  exact ⟨σ', e, e', t, t', hσ.run hrun, he, he', hanswer, hanswer', hne,
    acknowledged_apart (hσ.run hrun) he he' hne hanswer hanswer'⟩

/-! ### Creations in listings -/

/-- The route that lists things of this kind. -/
def Body.listing : Body → Option Route
  | .tenant _ => some .listTenants
  | .domain m => some (.listDomains m.tenantId)
  | .account a => some (.listAccounts a.tenantId)
  | _ => none

/-- What has been created is in the list, up to its status. -/
def Body.ListedIn : Body → Body → Prop
  | .tenant t, .tenants ts => ∃ t' ∈ ts, t'.fixed = t.fixed
  | .domain m, .domains ms => ∃ m' ∈ ms, m'.fixed = m.fixed
  | .account a, .accounts as => ∃ a' ∈ as, { a' with status := a.status } = a
  | _, _ => False

theorem Sql.mem_orderBy {α : Type} {o : Oracle} {time : α → Nat} {id : α → Uuid}
    {rows : List α} {x : α} : x ∈ orderBy o time id rows ↔ x ∈ rows :=
  (orderBy_perm o time id rows).mem_iff

theorem Body.MadeBy.listed {body shown : Body} {w : Write} {route : Route} {d : Database}
    {o : Oracle} (h : body.MadeBy w) (hstays : w.Stays d) (hroute : body.listing = some route)
    (hshows : route.shows d o = some shown) : body.ListedIn shown := by
  cases body with
  | tenant t =>
      cases w <;> first | exact h.elim | skip
      obtain ⟨-, rfl⟩ := h
      obtain rfl := Option.some.inj hroute
      obtain rfl := Option.some.inj hshows
      obtain ⟨t', ht', hfixed⟩ := hstays
      exact ⟨t', Sql.mem_orderBy.2 ht', hfixed⟩
  | domain m =>
      cases w <;> first | exact h.elim | skip
      obtain ⟨-, rfl⟩ := h
      obtain rfl := Option.some.inj hroute
      obtain rfl := Option.some.inj hshows
      obtain ⟨m', hm', hfixed⟩ := hstays
      have hT := congrArg Domain.tenantId hfixed
      refine ⟨m', Sql.mem_orderBy.2 (List.mem_filter.2 ⟨hm', ?_⟩), hfixed⟩
      exact decide_eq_true hT
  | account a =>
      cases w <;> first | exact h.elim | skip
      obtain ⟨-, ha⟩ := h
      obtain rfl := Option.some.inj hroute
      obtain rfl := Option.some.inj hshows
      obtain ⟨a', ha', hfixed⟩ := hstays
      have hT' := congrArg (fun r : AccountRow => r.tenantId) hfixed
      have hT := congrArg Account.tenantId ha
      have hcolumns := congrArg
        (fun r : AccountRow => ({ r.toAccount with status := a.status } : Account)) hfixed
      refine ⟨a'.toAccount, List.mem_map_of_mem (Sql.mem_orderBy.2 (List.mem_filter.2 ⟨ha', ?_⟩)),
        hcolumns.trans ha⟩
      exact decide_eq_true (hT'.trans hT)
  | _ => cases hroute

section

variable {sesame : Bool} {answers : ProvisionUser → Except ProviderError Uuid → Prop}
  {σ σ' : State}

/-- Clients read their own writes, and each other's: what has been acknowledged
as created is in every listing asked for afterwards. -/
theorem read_your_writes (h : Reached sesame answers σ) {ls : List Event}
    (hrun : Run (services sesame answers) (fun _ => True) (fun _ _ => True) σ ls σ')
    {e e' : Reply Request Database Write Answer} (he : e ∈ σ.replies) {body shown : Body}
    (hbody : e.answer = .http (.created body)) (he' : e' ∈ σ'.replies)
    (hnew : e'.pid ∉ σ.started) {caller : Caller} {route : Route}
    (hroute : body.listing = some route) (hreq : e'.request = .http caller route)
    (hshown : e'.answer = .http (.ok shown)) : body.ListedIn shown := by
  obtain ⟨a, ha, -, w, hw, hmade⟩ := acknowledged_made h he hbody
  have hreads : route.reads = true := by
    cases body <;> cases hroute <;> rfl
  obtain ⟨d, o, ⟨ls₁, -, ρ, P, -, hrun₁, -, -, rfl⟩, hshows⟩ :=
    shown_passed h hrun he' hnew hreq hreads hshown
  have hev : Evolves σ.store ρ.store :=
    (reached_started sesame answers).evolves h hrun₁ (Evolves.refl _)
  exact hmade.listed (((history_stays h).1 a ha w hw).evolves hev) hroute hshows

end

theorem read_your_writes_tenants :
    ∃ σ σ' e e' t ts, Reached false (fun _ _ => False) σ ∧
      Run (services false fun _ _ => False) (fun _ => True) (fun _ _ => True) σ listedTenants σ' ∧
      e ∈ σ.replies ∧ e.answer = .http (.created (.tenant t)) ∧ e' ∈ σ'.replies ∧
      e'.answer = .http (.ok (.tenants ts)) ∧ ∃ t' ∈ ts, t'.fixed = t.fixed := by
  obtain ⟨σ, σ', hσ, hrun, hnew, ⟨e, he, -, t, hanswer⟩, -, -, e', he', hpid', ⟨caller, hreq⟩, ts,
    hanswer', -⟩ := told_tenants
  refine ⟨σ, σ', e, e', t, ts, hσ, hrun, he, hanswer, he', hanswer', ?_⟩
  exact read_your_writes hσ hrun he hanswer he' (by rwa [hpid']) rfl hreq hanswer'

end OpenGroupware
