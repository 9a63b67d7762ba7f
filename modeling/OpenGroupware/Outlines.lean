import OpenGroupware.Transactions

/-!
The programs keep to the contract: an outline for each handler, for the
reconciliation cycle and for operator changes. The handlers are first put in
the form of their interactions; the rules then follow these one at a time.
-/

namespace OpenGroupware

open Relational Transactional

/-! ### Programs as interactions -/

/-- The whole program of a request to a route. -/
def Handler.serve (h : Handler Response) : Program Answer := do return .http (← h.respond)

/-- How a handler goes on after an interaction with the database. -/
def Handler.resume {R : Type} (f : R → Handler Response) : Except DbError R → Program Answer
  | .ok x => (f x).serve
  | .error e => .ret (.http (ApiError.db e).intoResponse)

namespace Handler

variable {R : Type}

theorem serve_query (q : Stmt R) (f : R → Handler Response) :
    ((liftM (query q) : Handler R) >>= f).serve = .stmt q (resume f) :=
  congrArg (Prog.stmt q) (funext fun r => by cases r <;> rfl)

theorem serve_commit (f : Unit → Handler Response) :
    ((liftM commit : Handler Unit) >>= f).serve = .commit (resume f) :=
  congrArg Prog.commit (funext fun r => by cases r <;> rfl)

/-- How a handler goes on once it has a connection: it makes the setting. -/
def resumeTx (setting : Setting) (value : String) (f : Unit → Handler Response) :
    Except DbError Unit → Program Answer
  | .ok () => .stmt (.setConfig setting value) (resume f)
  | .error e => .ret (.http (ApiError.db e).intoResponse)

theorem serve_tenantTx (T : Uuid) (f : Unit → Handler Response) :
    ((liftM (tenantTx T) : Handler Unit) >>= f).serve =
      .start (resumeTx .currentTenantId T.toText f) := by
  refine congrArg Prog.start (funext fun r => ?_)
  cases r with
  | error e => rfl
  | ok u => exact congrArg (Prog.stmt _) (funext fun r => by cases r <;> rfl)

theorem serve_platformTx (f : Unit → Handler Response) :
    ((liftM platformTx : Handler Unit) >>= f).serve =
      .start (resumeTx .isPlatformAdmin "true" f) := by
  refine congrArg Prog.start (funext fun r => ?_)
  cases r with
  | error e => rfl
  | ok u => exact congrArg (Prog.stmt _) (funext fun r => by cases r <;> rfl)

theorem serve_check (x : Except ApiError Unit) (f : Unit → Handler Response) :
    ((liftM x : Handler Unit) >>= f).serve = match x with
      | .ok () => (f ()).serve
      | .error e => .ret (.http e.intoResponse) := by
  cases x <;> rfl

theorem serve_pure (r : Response) : (pure r : Handler Response).serve = .ret (.http r) := rfl

theorem serve_lift (p : Program R) (f : R → Handler Response) :
    ((liftM p : Handler R) >>= f).serve = p >>= fun a => (f a).serve := by
  have hrun : ((liftM p : Handler R) >>= f).run = p >>= fun a => (f a).run := by
    have hlift : (liftM p : Handler R).run = Except.ok <$> p := by
      change (Except.mapError ApiError.db <$> (Except.ok <$> p) : Program _) = _
      simp [Except.mapError]
    rw [ExceptT.run_bind, hlift, bind_map_left]
  simp only [serve, respond, hrun, bind_assoc]

end Handler

namespace DbM

variable {α R : Type}

/-- How a database program goes on after an interaction. -/
def resume (f : R → DbM α) : Except DbError R → Program (Except DbError α)
  | .ok x => (f x).run
  | .error e => .ret (.error e)

theorem run_query (q : Stmt R) (f : R → DbM α) :
    (query q >>= f).run = .stmt q (resume f) :=
  congrArg (Prog.stmt q) (funext fun r => by cases r <;> rfl)

theorem run_begin (f : Unit → DbM α) : (begin >>= f).run = .start (resume f) :=
  congrArg Prog.start (funext fun r => by cases r <;> rfl)

theorem run_commit (f : Unit → DbM α) : (commit >>= f).run = .commit (resume f) :=
  congrArg Prog.commit (funext fun r => by cases r <;> rfl)

theorem run_lift (p : Program R) (f : R → DbM α) :
    ((liftM p : DbM R) >>= f).run = p >>= fun a => (f a).run := by
  change ExceptT.run (ExceptT.lift p >>= f) = _
  simp

end DbM

/-! ### Rules -/

/-- What is left of the program of a request keeps to the contract. -/
abbrev Kept (answers : ProvisionUser → Except ProviderError Uuid → Prop)
    (guard : {R : Type} → Stmt R → Database → Prop) (sesame : Bool) (c : Request)
    (b : Database) : Program Answer → List (List Write) → Database →
      Option (Session × List Write) → Prop :=
  (contract answers guard).Outline (services sesame answers) c b

section Rules

variable {answers : ProvisionUser → Except ProviderError Uuid → Prop}
  {guard : {R : Type} → Stmt R → Database → Prop} {sesame : Bool} {caller : Caller}
  {route : Route} {b d₀ : Database}

theorem kept_refused {e : ApiError} {tx : Option (Session × List Write)}
    (he : ∀ d, route.Refuses b d e) :
    Kept answers guard sesame (.http caller route) b (.ret (.http e.intoResponse)) [] d₀ tx :=
  fun d _ _ => .refused (he d)

theorem kept_failed {e : DbError} {tx : Option (Session × List Write)} :
    Kept answers guard sesame (.http caller route) b
      (.ret (.http (ApiError.db e).intoResponse)) [] d₀ tx :=
  kept_refused fun d => by simp [Route.Refuses]

theorem kept_check {x : Except ApiError Unit} {f : Unit → Handler Response}
    (hx : ∀ e, x = .error e → ∀ d, route.Refuses b d e)
    (h : x = .ok () → Kept answers guard sesame (.http caller route) b (f ()).serve [] d₀ none) :
    Kept answers guard sesame (.http caller route) b ((liftM x : Handler Unit) >>= f).serve
      [] d₀ none := by
  rw [Handler.serve_check]
  cases x with
  | error e => exact kept_refused (hx e rfl)
  | ok u => exact h rfl

theorem kept_validate {p : Bool} {m : String} {f : Unit → Handler Response}
    (hm : ∀ d, route.Refuses b d (.validation m))
    (h : p = true →
      Kept answers guard sesame (.http caller route) b (f ()).serve [] d₀ none) :
    Kept answers guard sesame (.http caller route) b
      ((liftM (if p then .ok () else .error (.validation m) : Except ApiError Unit) :
        Handler Unit) >>= f).serve [] d₀ none := by
  refine kept_check (fun e he => ?_) fun hok => h ?_
  · split at he <;> cases he
    exact hm
  · split at hok
    · assumption
    · cases hok

/-- The start of a transaction: a connection from the pool gets its setting. -/
theorem kept_start {setting : Setting} {value : String} {f : Unit → Handler Response}
    (hruns : ∀ (s : Session) o v, s.Idle →
      (Request.http caller route).Runs (.setConfig setting value) (s.openTx o) v)
    (h : ∀ (s : Session) o d, s.Idle → Evolves d₀ d → Consistent d →
      Kept answers guard sesame (.http caller route) b (f ()).serve [] d
        (some ((s.openTx o).setConfig setting value, []))) :
    Kept answers guard sesame (.http caller route) b
      (.start (Handler.resumeTx setting value f)) [] d₀ none := by
  refine .start (kept_failed) fun s o hs => .stmt (kept_failed) ?_
  refine fun d o' hev hinv _ _ _ => ⟨hruns s o _ hs, fun r s' ws' hexec => ?_, fun e _ => ?_⟩
  · obtain ⟨-, hset⟩ := Sql.require_bind_eq_ok.1 hexec
    cases hset
    exact ⟨by simp, h s o d hs hev hinv⟩
  · exact kept_failed

theorem kept_tenantTx {T : Uuid} {f : Unit → Handler Response} (hT : route.tenant = some T)
    (h : ∀ (s : Session) d, s.ForTenant T → Evolves d₀ d → Consistent d →
      Kept answers guard sesame (.http caller route) b (f ()).serve [] d (some (s, []))) :
    Kept answers guard sesame (.http caller route) b
      ((liftM (tenantTx T) : Handler Unit) >>= f).serve [] d₀ none := by
  rw [Handler.serve_tenantTx]
  exact kept_start (fun s o v hs => .scoped hT trivial ⟨rfl, rfl, hs⟩)
    fun s o d hs => h _ d (hs.forTenant o T)

theorem kept_platformTx {f : Unit → Handler Response} (hT : route.tenant = none)
    (h : ∀ (s : Session) d, s.ForPlatform → Evolves d₀ d → Consistent d →
      Kept answers guard sesame (.http caller route) b (f ()).serve [] d (some (s, []))) :
    Kept answers guard sesame (.http caller route) b
      ((liftM platformTx : Handler Unit) >>= f).serve [] d₀ none := by
  rw [Handler.serve_platformTx]
  refine kept_start (fun s o v _ => ⟨trivial, fun T' hT' => ?_⟩)
    fun s o d hs => h _ d (hs.forPlatform o)
  simp [hT] at hT'

theorem kept_query {R : Type} {q : Stmt R} {f : R → Handler Response} {s : Session}
    {ws : List Write}
    (h : ∀ d o, Evolves d₀ d → Consistent d → postgres.Pending Write.fits ws d →
      guard q (postgres.applyAll ws d) →
      (Request.http caller route).Runs q s (postgres.applyAll ws d) ∧
        ∀ r s' ws', Sql.exec q s o (postgres.applyAll ws d) = .ok (r, s', ws') →
          (∀ w' ∈ ws', ∀ w ∈ ws, ¬w'.clash w) ∧
            Kept answers guard sesame (.http caller route) b (f r).serve [] d
              (some (s', ws ++ ws'))) :
    Kept answers guard sesame (.http caller route) b
      ((liftM (query q) : Handler R) >>= f).serve [] d₀ (some (s, ws)) := by
  rw [Handler.serve_query]
  refine .stmt (kept_failed) fun d o hev hinv hpend _ hguard => ?_
  obtain ⟨hpre, hok⟩ := h d o hev hinv hpend hguard
  exact ⟨hpre, hok, fun e _ => kept_failed⟩

/-- A statement that only reads. -/
theorem kept_read {R : Type} {q : Stmt R} {f : R → Handler Response} {s : Session}
    {read : Oracle → Database → R}
    (hread : ∀ o d, Sql.exec q s o d = .ok (read o d, s, []))
    (hruns : ∀ v, (Request.http caller route).Runs q s v)
    (h : ∀ d o, Evolves d₀ d → Consistent d →
      Kept answers guard sesame (.http caller route) b (f (read o d)).serve [] d
        (some (s, []))) :
    Kept answers guard sesame (.http caller route) b
      ((liftM (query q) : Handler R) >>= f).serve [] d₀ (some (s, [])) := by
  refine kept_query fun d o hev hinv _ _ => ⟨hruns _, fun r s' ws' hexec => ?_⟩
  rw [hread] at hexec
  cases hexec
  exact ⟨by simp, h d o hev hinv⟩

theorem kept_record {plane : Plane} {e : AuditEntry} {f : Unit → Handler Response}
    {s : Session} {ws : List Write}
    (hruns : ∀ v, (Request.http caller route).Runs (.insertAudit plane e) s v)
    (h : ∀ d, Evolves d₀ d → Consistent d →
      Kept answers guard sesame (.http caller route) b (f ()).serve [] d
        (some (s, ws ++ [plane.appendix e]))) :
    Kept answers guard sesame (.http caller route) b
      ((liftM (record plane e) : Handler Unit) >>= f).serve [] d₀ (some (s, ws)) := by
  refine kept_query fun d o hev hinv _ _ => ⟨hruns _, fun r s' ws' hexec => ?_⟩
  obtain ⟨haudit, rfl⟩ := Sql.keep_eq_ok.1 hexec
  obtain ⟨-, rfl⟩ := Sql.insertAudit_ok haudit
  refine ⟨?_, h d hev hinv⟩
  intro w' hw' w _
  rw [List.mem_singleton] at hw'
  cases plane <;> cases w <;> simp [hw', Plane.appendix, Write.clash]

theorem kept_commit {f : Unit → Handler Response} {s : Session} {ws : List Write}
    (h : ∀ d, Evolves d₀ d → Consistent d → postgres.Pending Write.fits ws d →
      Committed answers guard (.http caller route) [] d ws ∧
        Kept answers guard sesame (.http caller route) b (f ()).serve [ws]
          (postgres.applyAll ws d) none) :
    Kept answers guard sesame (.http caller route) b
      ((liftM commit : Handler Unit) >>= f).serve [] d₀ (some (s, ws)) := by
  rw [Handler.serve_commit]
  exact .commit (kept_failed) h

theorem kept_served {r : Response} {cs : List (List Write)}
    {tx : Option (Session × List Write)} (h : Served route cs r) :
    Kept answers guard sesame (.http caller route) b (pure r : Handler Response).serve cs d₀ tx :=
  fun _ _ _ => .served h

end Rules

/-! ### Rules for programs below the handlers

`K` is what the caller of such a program does with its result; whatever the
program has met, `K` of an error keeps to the contract. -/

section DbRules

variable {answers : ProvisionUser → Except ProviderError Uuid → Prop}
  {guard : {R : Type} → Stmt R → Database → Prop} {sesame : Bool} {c : Request}
  {b d₀ : Database} {cs : List (List Write)} {α R : Type}
  {K : Except DbError α → Program Answer}

theorem kept_db_start {setting : Setting} {value : String} {f : Unit → DbM α}
    (hK : ∀ e d, Kept answers guard sesame c b (K (.error e)) cs d none)
    (hruns : ∀ (s : Session) o v, s.Idle → c.Runs (.setConfig setting value) (s.openTx o) v)
    (h : ∀ (s : Session) o d, s.Idle → Evolves d₀ d → Consistent d →
      Kept answers guard sesame c b ((f ()).run >>= K) cs d
        (some ((s.openTx o).setConfig setting value, []))) :
    Kept answers guard sesame c b
      ((begin >>= fun _ => query (.setConfig setting value) >>= f).run >>= K) cs d₀ none := by
  rw [DbM.run_begin, Prog.start_bind]
  refine .start (hK _ _) fun s o hs => ?_
  simp only [DbM.resume]
  rw [DbM.run_query, Prog.stmt_bind]
  refine .stmt (hK _ _) fun d o' hev hinv _ _ _ => ⟨hruns s o _ hs, ?_, fun e _ => hK e d⟩
  intro r s' ws' hexec
  obtain ⟨-, hset⟩ := Sql.require_bind_eq_ok.1 hexec
  cases hset
  exact ⟨by simp, h s o d hs hev hinv⟩

theorem kept_db_query {q : Stmt R} {f : R → DbM α} {s : Session} {ws : List Write}
    (hK : ∀ e d, Kept answers guard sesame c b (K (.error e)) cs d none)
    (h : ∀ d o, Evolves d₀ d → Consistent d → postgres.Pending Write.fits ws d →
      guard q (postgres.applyAll ws d) → c.Runs q s (postgres.applyAll ws d) ∧
        ∀ r s' ws', Sql.exec q s o (postgres.applyAll ws d) = .ok (r, s', ws') →
          (∀ w' ∈ ws', ∀ w ∈ ws, ¬w'.clash w) ∧
            Kept answers guard sesame c b ((f r).run >>= K) cs d (some (s', ws ++ ws'))) :
    Kept answers guard sesame c b ((query q >>= f).run >>= K) cs d₀ (some (s, ws)) := by
  rw [DbM.run_query, Prog.stmt_bind]
  refine .stmt (hK _ _) fun d o hev hinv hpend _ hguard => ?_
  obtain ⟨hpre, hok⟩ := h d o hev hinv hpend hguard
  exact ⟨hpre, hok, fun e _ => hK e d⟩

theorem kept_db_record {plane : Plane} {e : AuditEntry} {f : Unit → DbM α} {s : Session}
    {ws : List Write} (hK : ∀ e d, Kept answers guard sesame c b (K (.error e)) cs d none)
    (hruns : ∀ v, c.Runs (.insertAudit plane e) s v)
    (h : ∀ d, Evolves d₀ d → Consistent d →
      Kept answers guard sesame c b ((f ()).run >>= K) cs d
        (some (s, ws ++ [plane.appendix e]))) :
    Kept answers guard sesame c b ((record plane e >>= f).run >>= K) cs d₀ (some (s, ws)) := by
  refine kept_db_query hK fun d o hev hinv _ _ => ⟨hruns _, fun r s' ws' hexec => ?_⟩
  obtain ⟨haudit, rfl⟩ := Sql.keep_eq_ok.1 hexec
  obtain ⟨-, rfl⟩ := Sql.insertAudit_ok haudit
  refine ⟨?_, h d hev hinv⟩
  intro w' hw' w _
  rw [List.mem_singleton] at hw'
  cases plane <;> cases w <;> simp [hw', Plane.appendix, Write.clash]

theorem kept_db_commit {f : Unit → DbM α} {s : Session} {ws : List Write}
    (hK : ∀ e d, Kept answers guard sesame c b (K (.error e)) cs d none)
    (hcommit : ∀ d, Evolves d₀ d → Consistent d → Committed answers guard c cs d ws)
    (h : ∀ d, Evolves d₀ d → Consistent d →
      Kept answers guard sesame c b ((f ()).run >>= K) (cs ++ [ws]) d none) :
    Kept answers guard sesame c b ((commit >>= f).run >>= K) cs d₀ (some (s, ws)) := by
  rw [DbM.run_commit, Prog.commit_bind]
  refine .commit (hK _ _) fun d hev hinv hpend => ?_
  have hws := hcommit d hev hinv
  obtain ⟨hinv', hev'⟩ := (hws.legal hinv hpend).sound hinv hpend
  exact ⟨hws, h _ (hev.trans hev') hinv'⟩

end DbRules

/-! ### Handlers of admin-api -/

section Handlers

variable {answers : ProvisionUser → Except ProviderError Uuid → Prop}
  {guard : {R : Type} → Stmt R → Database → Prop} {sesame : Bool} {caller : Caller}
  {b d₀ : Database}

theorem createTenant_kept (req : CreateTenant) :
    Kept answers guard sesame (.http caller (.createTenant req)) b
      (createTenant caller req).serve [] d₀ none := by
  unfold createTenant validateSlug
  refine kept_validate (fun _ => trivial) fun hvalid => kept_platformTx rfl fun s d hs _ _ => ?_
  refine kept_query fun d o _ _ _ _ => ⟨by simp [Request.Runs, Route.tenant, Stmt.AskedBy], ?_⟩
  intro t s' ws' hexec
  obtain ⟨hinsert, rfl⟩ := Sql.keep_eq_ok.1 hexec
  obtain ⟨hcheck, -, ht, rfl⟩ := Sql.insertTenant_ok hinsert
  refine ⟨by simp, ?_⟩
  refine kept_record (by simp [Request.Runs, Route.tenant, Stmt.AskedBy]) fun d _ _ => ?_
  refine kept_commit fun d _ _ _ => ⟨?_, kept_served .createTenant⟩
  exact .createTenant hvalid (by rw [ht]; exact hcheck) (by simp [ht]) ⟨rfl, rfl, rfl, rfl, rfl⟩

theorem listTenants_kept :
    Kept answers guard sesame (.http caller .listTenants) b listTenants.serve [] d₀ none := by
  unfold listTenants
  refine kept_platformTx rfl fun s d hs _ _ => ?_
  refine kept_read (fun _ _ => rfl) (by simp [Request.Runs, Route.tenant, Stmt.AskedBy])
    fun d o _ _ => ?_
  exact kept_commit fun d _ _ _ => ⟨.nothing rfl, kept_served .listTenants⟩

theorem createDomain_kept (T : Uuid) (req : CreateDomain) :
    Kept answers guard sesame (.http caller (.createDomain T req)) b
      (createDomain T caller req).serve [] d₀ none := by
  unfold createDomain validateFqdn
  refine kept_validate (fun _ => trivial) fun hvalid => kept_tenantTx rfl fun s d hs _ _ => ?_
  refine kept_query fun d o _ hinv _ _ => ⟨?_, ?_⟩
  · exact .scoped rfl ⟨req, rfl, rfl⟩ ⟨hs, rfl, hinv.fqdn_check⟩
  intro m s' ws' hexec
  obtain ⟨hinsert, rfl⟩ := Sql.keep_eq_ok.1 hexec
  obtain ⟨-, hcheck, -, hT, hm, rfl⟩ := Sql.insertDomain_ok hinsert
  refine ⟨by simp, ?_⟩
  refine kept_record (fun v => ?_) fun d' hev _ => ?_
  · exact .scoped rfl trivial ⟨hs, rfl⟩
  refine kept_commit fun d'' hev' _ _ => ⟨?_, kept_served .createDomain⟩
  exact .createDomain hvalid (by rw [hm]; exact hcheck)
    (hev'.tenant_exists (hev.tenant_exists hT)) (by simp [hm]) ⟨rfl, rfl, rfl, rfl, rfl⟩

theorem listDomains_kept (T : Uuid) :
    Kept answers guard sesame (.http caller (.listDomains T)) b (listDomains T).serve
      [] d₀ none := by
  unfold listDomains
  refine kept_tenantTx rfl fun s d hs _ _ => ?_
  refine kept_read (fun _ _ => rfl) (fun v => ?_) fun d o _ _ => ?_
  · exact .scoped rfl trivial hs
  · exact kept_commit fun d _ _ _ => ⟨.nothing rfl, kept_served .listDomains⟩

theorem provisionIntoSesame_kept {T : Uuid} {req : CreateAccount} (a₀ : AccountRow)
    {e₀ : AuditEntry} (ha₀ : ∃ a ∈ d₀.accounts, a.fixed = a₀.fixed) :
    Kept answers guard sesame (.http caller (.createAccount T req)) b
      (provisionIntoSesame T a₀.toAccount caller.actor >>= fun account =>
        (pure (.created (.account account)) : Handler Response).serve)
      [[.account ⟨none, a₀⟩, .audit e₀]] d₀ none := by
  -- whatever goes wrong, the answer is the account as it was inserted
  have asInserted : ∀ d tx, Kept answers guard sesame (.http caller (.createAccount T req)) b
      (pure (.created (.account a₀.toAccount)) : Handler Response).serve
      [[.account ⟨none, a₀⟩, .audit e₀]] d tx :=
    fun d tx => kept_served (.createAccount (c := ⟨none, a₀⟩))
  unfold provisionIntoSesame provision
  simp only [Prog.call_bind, Prog.ret_bind]
  intro y hy
  cases y with
  | error e => exact asInserted d₀ none
  | ok u =>
      simp only [bind_assoc]
      unfold activateProvisioned tenantTx
      rw [bind_assoc]
      refine kept_db_start (fun e d => asInserted d none) (fun s o v hs => ?_)
        fun s o d hs hev _ => ?_
      · exact .scoped rfl trivial ⟨rfl, rfl, hs⟩
      have hs := hs.forTenant o T
      refine kept_db_query (fun e d => asInserted d none) fun d' o hev' _ _ hguard => ⟨?_, ?_⟩
      · exact .scoped rfl trivial hs
      intro updated s' ws' hexec
      obtain ⟨hactivate, rfl⟩ := Sql.keep_eq_ok.1 hexec
      obtain ⟨a, ha, hfind, hid, hsees, rfl, rfl⟩ := Sql.activateAccount_ok hactivate
      have haT : a.tenantId = T := by simpa using (hs.sees_iff _).1 hsees
      -- the row is the one this request inserted, as others have left it
      have hsame : a.fixed = a₀.fixed := by
        obtain ⟨a₁, ha₁, hfixed⟩ := ha₀
        obtain ⟨a₂, ha₂, hfixed'⟩ := (hev.trans hev').accounts a₁ ha₁
        have hid₂ := (AccountRow.columns_of_fixed (hfixed'.trans hfixed)).1
        rw [Table.eq_of_key ha ha₂ (hid.trans hid₂.symm)]
        exact hfixed'.trans hfixed
      refine ⟨by simp, ?_⟩
      refine kept_db_record (fun e d => asInserted d none) (fun v => ?_) fun d'' _ _ => ?_
      · exact .scoped rfl trivial ⟨hs, rfl⟩
      refine kept_db_commit (fun e d => asInserted d none) (fun d _ _ => ?_) fun d _ _ => ?_
      · exact .provisioned hy hsame ⟨d', by rw [hid]; exact hfind, by rw [hid]; exact hguard⟩ haT
          ⟨rfl, rfl, rfl, rfl, rfl⟩
      · exact kept_served (.createProvisioned (c := ⟨none, a₀⟩))

theorem createAccount_kept (T : Uuid) (req : CreateAccount) :
    Kept answers guard sesame (.http caller (.createAccount T req)) b
      (createAccount sesame T caller req).serve [] d₀ none := by
  unfold createAccount validateLocalPart
  refine kept_validate (fun _ => trivial) fun hvalid => kept_tenantTx rfl fun s d hs _ _ => ?_
  refine kept_read (fun _ _ => rfl) (fun v => ?_) fun d o _ _ => ?_
  · exact .scoped rfl trivial hs
  cases hfqdn : Sql.selectDomainFqdn s d req.domainId with
  | none => exact fun _ _ _ => .refused trivial
  | some fqdn =>
      obtain ⟨m, hm, hid, hsees, -, rfl⟩ := Sql.selectDomainFqdn_some hfqdn
      have hmT : m.tenantId = T := by simpa using (hs.sees_iff _).1 hsees
      refine kept_query fun d' o hev hinv _ _ => ⟨?_, ?_⟩
      · refine .scoped rfl trivial ?_
        obtain ⟨m', hm', hid', hT', hfqdn'⟩ := hev.domain_exists hm
        refine ⟨hs, rfl, ⟨m', hm', hid'.trans hid, hT'.trans hmT⟩, fun a ha hemail => ?_⟩
        rw [← hfqdn'] at hemail
        exact (hinv.email_tenant hm' ha hvalid hemail).trans (hT'.trans hmT)
      intro a s' ws' hexec
      obtain ⟨hinsert, rfl⟩ := Sql.keep_eq_ok.1 hexec
      obtain ⟨-, hquota, -, -, ha, rfl⟩ := Sql.insertAccount_ok hinsert
      refine ⟨by simp, kept_record (fun v => ?_) fun d'' hev' _ => ?_⟩
      · exact .scoped rfl trivial ⟨hs, rfl⟩
      refine kept_commit fun d₃ hev'' _ hpend => ⟨?_, ?_⟩
      · obtain ⟨m', hm', hid', hT', hfqdn'⟩ := (hev.trans (hev'.trans hev'')).domain_exists hm
        exact .createAccount hvalid (by rw [ha]; exact hquota)
          ⟨m', hm', by rw [ha]; exact hid'.trans hid, hT'.trans hmT, by rw [ha, hfqdn']⟩
          (by simp [ha]) ⟨rfl, rfl, rfl, rfl, rfl⟩
      · split
        · rw [Handler.serve_lift]
          refine provisionIntoSesame_kept ⟨a, none, s'.now⟩ ⟨_, ?_, rfl⟩
          simp [postgres, Engine.applyAll, Write.apply, Plane.appendix]
        · exact kept_served (.createAccount (c := ⟨none, ⟨a, none, s'.now⟩⟩))

theorem listAccounts_kept (T : Uuid) :
    Kept answers guard sesame (.http caller (.listAccounts T)) b (listAccounts T).serve
      [] d₀ none := by
  unfold listAccounts
  refine kept_tenantTx rfl fun s d hs _ _ => ?_
  refine kept_read (fun _ _ => rfl) (fun v => ?_) fun d o _ _ => ?_
  · exact .scoped rfl trivial hs
  · exact kept_commit fun d _ _ _ => ⟨.nothing rfl, kept_served .listAccounts⟩

theorem getPolicy_kept (T : Uuid) (now : Timestamp) :
    Kept answers guard sesame (.http caller (.getPolicy T now)) b (getPolicy T now).serve
      [] d₀ none := by
  unfold getPolicy
  refine kept_tenantTx rfl fun s d hs _ _ => ?_
  refine kept_read (fun _ _ => rfl) (fun v => ?_) fun d o _ _ => ?_
  · exact .scoped rfl trivial ⟨hs, rfl⟩
  · exact kept_commit fun d _ _ _ => ⟨.nothing rfl, kept_served .getPolicy⟩

theorem putPolicy_kept (T : Uuid) (req : SetAbusePolicy) :
    Kept answers guard sesame (.http caller (.putPolicy T req)) b
      (putPolicy T caller req).serve [] d₀ none := by
  unfold putPolicy validatePolicy
  refine kept_validate (fun _ => trivial) fun hvalid => kept_tenantTx rfl fun s d hs _ _ => ?_
  refine kept_query fun d o _ hinv _ _ => ⟨?_, ?_⟩
  · exact .scoped rfl trivial ⟨hs, rfl⟩
  intro p s' ws' hexec
  obtain ⟨hupsert, rfl⟩ := Sql.keep_eq_ok.1 hexec
  obtain ⟨-, hcheck, hp, hws⟩ := Sql.upsertPolicy_ok hupsert
  obtain ⟨old, hT, rfl⟩ : ∃ old, (∃ t ∈ d.tenants, t.id = T) ∧
      ws' = [.abusePolicy ⟨old, p⟩] := by
    rcases hws with ⟨old, hold, rfl, hws⟩ | ⟨-, hT, hws⟩
    · exact ⟨some old, hinv.policy_tenant old hold, hws⟩
    · exact ⟨none, hT, hws⟩
  refine ⟨by simp, kept_record (fun v => ?_) fun d' hev _ => ?_⟩
  · exact .scoped rfl trivial ⟨hs, rfl⟩
  refine kept_commit fun d'' hev' _ _ => ⟨?_, kept_served (.putPolicy (c := ⟨old, p⟩))⟩
  exact .putPolicy hvalid (by rw [hp]; exact hcheck)
    (hev'.tenant_exists (hev.tenant_exists hT)) (by simp [hp]) ⟨rfl, rfl, rfl, rfl, rfl⟩

/-! ### Handlers of abuse-api -/

theorem recordDecision_kept (T : Uuid) (req : RecordDecision) :
    Kept answers guard sesame (.http caller (.recordDecision T req)) b
      (recordDecision T caller req).serve [] d₀ none := by
  unfold recordDecision
  refine kept_check (fun e he => ?_) fun _ => kept_tenantTx rfl fun s d hs _ _ => ?_
  · unfold validateDecision at he
    split at he
    · cases he
      exact fun _ => trivial
    · split at he <;> cases he
      exact fun _ => trivial
  refine kept_query fun d o _ hinv _ _ => ⟨?_, ?_⟩
  · exact .scoped rfl trivial ⟨hs, rfl⟩
  intro x s' ws' hexec
  obtain ⟨hinsert, rfl⟩ := Sql.keep_eq_ok.1 hexec
  obtain ⟨-, hcheck, -, hx, rfl⟩ := Sql.insertDecision_ok hinsert
  have hrow : x.Records T req := by
    rw [hx]
    exact ⟨rfl, rfl, rfl, rfl, hcheck⟩
  refine ⟨by simp, ?_⟩
  split
  · rename_i haction
    refine kept_query fun d' o' _ _ _ _ => ⟨?_, ?_⟩
    · refine .scoped rfl trivial ?_
      refine ⟨hs, rfl, x, ?_, rfl, hrow.tenantId⟩
      simp [postgres, Engine.applyAll, Write.apply]
    intro u s' ws' hexec
    obtain ⟨hitem, rfl⟩ := Sql.keep_eq_ok.1 hexec
    unfold auditDecision
    obtain ⟨-, ⟨hkept, rfl⟩ | ⟨-, rfl⟩⟩ := Sql.insertItem_ok hitem
    · refine ⟨by simp, kept_record (fun v => ?_) fun d'' hev _ => ?_⟩
      · exact .scoped rfl trivial ⟨hs, rfl⟩
      refine kept_commit fun d₃ hev' _ _ => ⟨?_, kept_served .recordDecision⟩
      exact .decision hrow (fun _ => (hev.trans hev').item_exists hkept)
        ⟨rfl, rfl, rfl, rfl, rfl⟩
    · refine ⟨by simp [Write.clash], kept_record (fun v => ?_) fun d'' hev _ => ?_⟩
      · exact .scoped rfl trivial ⟨hs, rfl⟩
      refine kept_commit fun d₃ hev' _ _ => ⟨?_, kept_served .recordQuarantine⟩
      exact .quarantine hrow haction
        ⟨rfl, rfl, rfl, Sql.insertItem_text hitem, rfl, rfl, rfl, rfl, rfl⟩
        ⟨rfl, rfl, rfl, rfl, rfl⟩
  · rename_i haction
    unfold auditDecision
    refine kept_record (fun v => ?_) fun d' _ _ => ?_
    · exact .scoped rfl trivial ⟨hs, rfl⟩
    refine kept_commit fun d'' _ _ _ => ⟨?_, kept_served .recordDecision⟩
    exact .decision hrow (fun h => absurd h haction) ⟨rfl, rfl, rfl, rfl, rfl⟩

theorem listQuarantine_kept (T : Uuid) :
    Kept answers guard sesame (.http caller (.listQuarantine T)) b (listQuarantine T).serve
      [] d₀ none := by
  unfold listQuarantine
  refine kept_tenantTx rfl fun s d hs _ _ => ?_
  refine kept_read (fun _ _ => rfl) (fun v => ?_) fun d o _ _ => ?_
  · exact .scoped rfl trivial hs
  · exact kept_commit fun d _ _ _ => ⟨.nothing rfl, kept_served .listQuarantine⟩

theorem releaseItem_kept (T itemId : Uuid) (hb : Evolves b d₀) :
    Kept answers guard sesame (.http caller (.releaseItem T itemId)) b
      (releaseItem T itemId caller).serve [] d₀ none := by
  unfold releaseItem
  refine kept_tenantTx rfl fun s d hs hev _ => ?_
  refine kept_query fun d' o hev' _ _ _ => ⟨?_, ?_⟩
  · exact .scoped rfl trivial hs
  intro r s' ws' hexec
  obtain ⟨hrelease, rfl⟩ := Sql.keep_eq_ok.1 hexec
  rcases Sql.releaseItem_ok hrelease with ⟨i, hi, hid, hsees, hheld, rfl, rfl⟩ | ⟨hmiss, rfl, rfl⟩
  · have hT : i.tenantId = T := by simpa using (hs.sees_iff _).1 hsees
    refine ⟨by simp, kept_record (fun v => ?_) fun d'' _ _ => ?_⟩
    · exact .scoped rfl trivial ⟨hs, rfl⟩
    refine kept_commit fun d₃ _ _ _ => ⟨?_, ?_⟩
    · exact .release hid hT hheld ⟨rfl, rfl, rfl, rfl, rfl⟩
    · exact kept_served (.releaseItem (c := ⟨some i, i.releasedBy caller.actor s'.now⟩))
  · refine ⟨by simp, fun d₃ hev₃ _ => .refused fun i hi hid hT hdel => ?_⟩
    -- the item was there when the request came in, and is no longer held
    obtain ⟨i', hi', hfixed, hfollows⟩ := (hb.trans (hev.trans hev')).quarantineItem i hi
    have hid' := congrArg QuarantineItem.id hfixed
    have hT' := congrArg QuarantineItem.tenantId hfixed
    have hreleased : i'.status = .released := by
      have hnot := hmiss i' hi' (hid'.trans hid)
        ((hs.sees_iff _).2 (congrArg some (hT'.trans hT)))
      rcases hfollows with ⟨hst, -, -⟩ | ⟨-, hst⟩
      · cases hcase : i'.status with
        | held => exact absurd hcase hnot
        | released => rfl
        | deleted => exact absurd (hst.symm.trans hcase) hdel
      · exact hst
    obtain ⟨i'', hi'', hfixed', hfollows'⟩ := hev₃.quarantineItem i' hi'
    have hid'' := congrArg QuarantineItem.id hfixed'
    refine ⟨i'', hi'', hid''.trans (hid'.trans hid), ?_⟩
    rcases hfollows' with ⟨hst, -, -⟩ | ⟨-, hst⟩
    · exact hst.trans hreleased
    · exact hst

theorem reportItem_kept (T itemId : Uuid) (req : ReportFeedback) :
    Kept answers guard sesame (.http caller (.reportItem T itemId req)) b
      (reportItem T itemId caller req).serve [] d₀ none := by
  unfold reportItem
  refine kept_check (fun e he => ?_) fun _ => kept_tenantTx rfl fun s d hs hev _ => ?_
  · unfold validateFeedback at he
    split at he <;> cases he
    exact fun _ => trivial
  refine kept_query fun d' o hev' _ _ _ => ⟨?_, ?_⟩
  · exact .scoped rfl trivial hs
  intro r s' ws' hexec
  obtain ⟨hreport, rfl⟩ := Sql.keep_eq_ok.1 hexec
  rcases Sql.reportItem_ok hreport with ⟨i, hi, hid, hsees, hcheck, rfl, rfl⟩ | ⟨rfl, rfl⟩
  · have hT : i.tenantId = T := by simpa using (hs.sees_iff _).1 hsees
    refine ⟨by simp, kept_record (fun v => ?_) fun d'' _ _ => ?_⟩
    · exact .scoped rfl trivial ⟨hs, rfl⟩
    refine kept_commit fun d₃ _ _ _ => ⟨?_, ?_⟩
    · exact .report hid hT hcheck ⟨rfl, rfl, rfl, rfl, rfl⟩
    · exact kept_served (.reportItem (c := ⟨some i, { i with reportedAs := some req.verdict }⟩))
  · exact ⟨by simp, fun d₃ _ _ => .refused trivial⟩

end Handlers

/-! ### Reconciliation and operators -/

section Cycles

variable {answers : ProvisionUser → Except ProviderError Uuid → Prop}
  {guard : {R : Type} → Stmt R → Database → Prop} {sesame : Bool} {b d₀ : Database}

/-- The row a cycle has read, still found in the store. -/
def PendingRow.Of (row : PendingRow) (d : Database) : Prop :=
  ∃ a ∈ d.accounts, a.id = row.id ∧ a.tenantId = row.tenantId ∧ a.email = row.email ∧
    a.displayName = row.displayName

theorem PendingRow.Of.evolves {row : PendingRow} {d d' : Database} (h : row.Of d)
    (hev : Evolves d d') : row.Of d' := by
  obtain ⟨a, ha, hid, hT, hemail, hname⟩ := h
  obtain ⟨a', ha', hfixed⟩ := hev.accounts a ha
  obtain ⟨hid', hT', -, hemail', hname', -⟩ := AccountRow.columns_of_fixed hfixed
  exact ⟨a', ha', hid'.trans hid, hT'.trans hT, hemail'.trans hemail, hname'.trans hname⟩

/-- The loop, by induction on the rows that are left of the batch. -/
theorem reconcileEach_kept {batch : Int} (rows : List PendingRow) {n : Nat}
    {cs : List (List Write)} (hn : n = cs.countP fun ws => !ws.isEmpty)
    (hrows : ∀ row ∈ rows, row.Of d₀) :
    Kept answers guard sesame (.reconcile batch) b
      ((reconcileEach rows n).run >>= fun r => .ret (.cycle r)) cs d₀ none := by
  induction rows generalizing n cs d₀ with
  | nil => exact fun _ _ _ => .cycle hn
  | cons row rest ih =>
      have hK : ∀ (cs : List (List Write)) e d, Kept answers guard sesame (.reconcile batch) b
          (.ret (.cycle (.error e))) cs d none := fun _ _ _ _ _ _ => .cycleFailed
      unfold reconcileEach
      rw [DbM.run_lift]
      unfold provision
      simp only [Prog.call_bind, Prog.ret_bind]
      intro y hy
      cases y with
      | error e => exact ih hn fun r hr => hrows r (List.mem_cons_of_mem _ hr)
      | ok u =>
          simp only
          unfold platformTx
          rw [bind_assoc]
          refine kept_db_start (hK cs) (fun s o v hs => trivial) fun s o d hs hev _ => ?_
          have hs := hs.forPlatform o
          refine kept_db_query (hK cs) fun d' o' hev' _ _ _ => ⟨trivial, ?_⟩
          intro updated s' ws' hexec
          have hrest : ∀ r ∈ rest, r.Of d' := fun r hr =>
            (hrows r (List.mem_cons_of_mem _ hr)).evolves (hev.trans hev')
          cases hexec
          rcases Sql.activatePending_cases _ (postgres.applyAll [] d') row.id u with
            ⟨a, ha, hid, -, hpending, heq⟩ | ⟨-, heq⟩
          · -- the row is still the one the batch was read from
            obtain ⟨a', ha', hid', hT, hemail, hname⟩ :=
              (hrows row List.mem_cons_self).evolves (hev.trans hev')
            obtain rfl : a = a' := Table.eq_of_key ha ha' (hid.trans hid'.symm)
            rw [heq]
            refine ⟨by simp, ?_⟩
            simp only [if_true]
            refine kept_db_record (hK cs) (fun v => trivial) fun d'' hev'' _ => ?_
            refine kept_db_commit (hK cs) (fun d₃ _ _ => ?_) fun d₃ hev₃ _ => ?_
            · exact .reconcile (by rw [hemail, hname]; exact hy) hpending
                ⟨congrArg some hT.symm, rfl, rfl, rfl, by rw [hid]⟩
            · exact ih (by simp [hn]) fun r hr => (hrest r hr).evolves (hev''.trans hev₃)
          · rw [heq]
            refine ⟨by simp, ?_⟩
            simp only [Nat.zero_ne_one, if_false]
            refine kept_db_commit (hK cs) (fun _ _ _ => .nothing rfl) fun d₃ hev₃ _ => ?_
            exact ih (by simp [hn]) fun r hr => (hrest r hr).evolves hev₃

theorem reconcileOnce_kept (batch : Int) :
    Kept answers guard sesame (.reconcile batch) b
      ((Request.reconcile batch).program sesame) [] d₀ none := by
  have hK : ∀ e d, Kept answers guard sesame (.reconcile batch) b
      (.ret (.cycle (.error e))) [] d none := fun _ _ _ _ _ => .cycleFailed
  change Kept answers guard sesame (.reconcile batch) b
    ((reconcileOnce batch).run >>= fun r => .ret (.cycle r)) [] d₀ none
  unfold reconcileOnce platformTx
  rw [bind_assoc]
  refine kept_db_start hK (fun s o v hs => trivial) fun s o d hs _ _ => ?_
  refine kept_db_query hK fun d' o' _ _ _ _ => ⟨trivial, ?_⟩
  intro rows s' ws' hexec
  cases hrows : Sql.selectPending ((s.openTx o).setConfig .isPlatformAdmin "true") o'
      d' batch with
  | error e => simp [Sql.exec, hrows, Except.map] at hexec
  | ok found =>
      simp only [Sql.exec, Engine.applyAll_nil, hrows, Except.map, Except.ok.injEq,
        Prod.mk.injEq] at hexec
      obtain ⟨rfl, -, rfl⟩ := hexec
      refine ⟨by simp, kept_db_commit hK (fun _ _ _ => .nothing rfl) fun d'' hev _ => ?_⟩
      refine reconcileEach_kept found rfl fun row hrow => ?_
      obtain ⟨a, ha, -, -, rfl⟩ := Sql.selectPending_ok hrows row hrow
      exact PendingRow.Of.evolves ⟨a, ha, rfl, rfl, rfl, rfl⟩ hev

theorem operatorChange_kept (c : OperatorChange) :
    Kept answers guard sesame (.operator c) b ((Request.operator c).program sesame)
      [] d₀ none := by
  have hK : ∀ e d, Kept answers guard sesame (.operator c) b
      (.ret (.operator (.error e))) [] d none := fun _ _ _ _ _ => .operator
  change Kept answers guard sesame (.operator c) b
    ((operatorChange c).run >>= fun r => .ret (.operator r)) [] d₀ none
  unfold operatorChange
  rw [DbM.run_begin, Prog.start_bind]
  refine .start (hK _ _) fun s o hs => ?_
  simp only [DbM.resume]
  refine kept_db_query hK fun d o' _ _ _ _ => ⟨trivial, fun r s' ws' hexec => ⟨by simp, ?_⟩⟩
  have hcommit : ∀ d', Committed answers guard (.operator c) [] d' ws' := by
    intro d'
    cases c with
    | tenant id status =>
        cases hexec
        rcases Sql.setTenantStatus_cases (postgres.applyAll [] d) id status with
          ⟨t, -, rfl, heq⟩ | heq
        · rw [heq]
          exact .tenantStatus
        · rw [heq]
          exact .nothing rfl
    | domain id status =>
        cases hexec
        rcases Sql.setDomainStatus_cases (postgres.applyAll [] d) id status with
          ⟨m, -, rfl, heq⟩ | heq
        · rw [heq]
          exact .domainStatus
        · rw [heq]
          exact .nothing rfl
    | account id status =>
        cases hexec
        rcases Sql.setAccountStatus_cases (postgres.applyAll [] d) id status with
          ⟨a, -, rfl, heq⟩ | heq
        · rw [heq]
          exact .accountStatus
        · rw [heq]
          exact .nothing rfl
  have hlast : (commit : DbM Unit) = commit >>= pure := (bind_pure _).symm
  rw [hlast]
  exact kept_db_commit hK (fun d' _ _ => hcommit d') fun _ _ _ _ _ _ => .operator

end Cycles

/-! ### The services -/

section

variable {answers : ProvisionUser → Except ProviderError Uuid → Prop}
  {guard : {R : Type} → Stmt R → Database → Prop} {sesame : Bool}

theorem route_kept (caller : Caller) (route : Route) (d : Database) :
    Kept answers guard sesame (.http caller route) d (route.handler sesame caller).serve
      [] d none := by
  cases route with
  | createTenant req => exact createTenant_kept req
  | listTenants => exact listTenants_kept
  | createDomain T req => exact createDomain_kept T req
  | listDomains T => exact listDomains_kept T
  | createAccount T req => exact createAccount_kept T req
  | listAccounts T => exact listAccounts_kept T
  | getPolicy T now => exact getPolicy_kept T now
  | putPolicy T req => exact putPolicy_kept T req
  | recordDecision T req => exact recordDecision_kept T req
  | listQuarantine T => exact listQuarantine_kept T
  | releaseItem T itemId => exact releaseItem_kept T itemId (Evolves.refl d)
  | reportItem T itemId req => exact reportItem_kept T itemId req

theorem program_kept (c : Request) (d : Database) :
    Kept answers guard sesame c d (c.program sesame) [] d none := by
  cases c with
  | http caller route => exact route_kept caller route d
  | reconcile batch => exact reconcileOnce_kept batch
  | operator c => exact operatorChange_kept c

theorem contract_sound : (contract answers guard).Sound (services sesame answers) where
  law := postgres_lawful
  refl := Evolves.refl
  trans := Evolves.trans
  idle_close s _ := Session.idle_closeTx s
  idle_exec _ _ := Session.idle_closeTx _
  idle_open _ _ _ := Session.idle_closeTx _
  commit hinv hpend h := (h.legal hinv hpend).sound hinv hpend

/-- The services keep to the contract from any consistent store on. -/
theorem services_started {allow : Request → Prop} {d₀ : Database} (h : Consistent d₀) :
    (contract answers guard).Started (services sesame answers) allow d₀ Session.new where
  sound := contract_sound
  programs c _ d _ := program_kept c d
  store := h
  idle := Session.idle_new

theorem reached_started (sesame : Bool)
    (answers : ProvisionUser → Except ProviderError Uuid → Prop) :
    (contract answers fun _ _ => True).Started (services sesame answers) (fun _ => True)
      Database.empty Session.new :=
  services_started Consistent.empty

end

end OpenGroupware
