import OpenGroupware.Outlines
import OpenGroupware.Transactional.Progress

/-!
The services never come to a standstill, however small the connection pool and
whatever row locks and unique indexes make their statements wait for. Each
transaction has at most one statement that other requests may have to wait
for, and no transaction is open while sesame-idam is called.
-/

namespace OpenGroupware

open Relational Transactional

/-! ### Waiting in PostgreSQL -/

/-- The statement may have to wait for another transaction. Audit rows have no
unique key but their own, and the identifier of a decision is new. -/
def Stmt.lone : {R : Type} → Stmt R → Bool
  | _, .insertTenant _ _ _ => true
  | _, .insertDomain _ _ => true
  | _, .insertAccount _ _ _ _ _ => true
  | _, .activateAccount _ _ => true
  | _, .upsertPolicy _ _ _ _ => true
  | _, .insertItem _ _ _ _ _ _ _ => true
  | _, .releaseItem _ _ => true
  | _, .reportItem _ _ => true
  | _, .activatePending _ _ => true
  | _, .setTenantStatus _ _ => true
  | _, .setDomainStatus _ _ => true
  | _, .setAccountStatus _ _ => true
  | _, _ => false

/-- Another transaction may have to wait for the one that wrote this. -/
def Write.held : Write → Prop
  | .audit _ => False
  | .abuseAudit _ => False
  | .abuseDecision _ => False
  | _ => True

/-- What statements that are not lone write: an audit row, or a decision under
a new identifier. -/
def Write.Light (o : Oracle) : Write → Prop
  | .audit _ => True
  | .abuseAudit _ => True
  | .abuseDecision c => c.new.id = o.uuid
  | _ => False

theorem Sql.exec_kind {R : Type} {q : Stmt R} {s s' : Session} {o : Oracle} {d : Database}
    {r : R} {ws : List Write} (h : exec q s o d = .ok (r, s', ws)) :
    ∀ w ∈ ws, if q.lone then w.held else w.Light o := by
  have one : ∀ {φ : Write → Prop} {w : Write}, φ w → ∀ w' ∈ [w], φ w' :=
    fun hw => List.forall_mem_singleton.2 hw
  have zero : ∀ {φ : Write → Prop}, ∀ w ∈ ([] : List Write), φ w := fun _ hw => nomatch hw
  cases q with
  | setConfig setting value =>
      simp only [exec, require_bind_eq_ok] at h
      obtain ⟨-, h⟩ := h
      cases h
      exact zero
  | insertAudit plane e =>
      obtain ⟨-, rfl⟩ := insertAudit_ok (keep_eq_ok.1 h).1
      cases plane <;> exact one trivial
  | insertTenant slug name plan =>
      obtain ⟨-, -, rfl, rfl⟩ := insertTenant_ok (keep_eq_ok.1 h).1
      exact one trivial
  | insertDomain T fqdn =>
      obtain ⟨-, -, -, -, rfl, rfl⟩ := insertDomain_ok (keep_eq_ok.1 h).1
      exact one trivial
  | insertAccount T domainId email displayName quotaMb =>
      obtain ⟨-, -, -, -, rfl, rfl⟩ := insertAccount_ok (keep_eq_ok.1 h).1
      exact one trivial
  | activateAccount id u =>
      obtain ⟨old, -, -, -, -, -, rfl⟩ := activateAccount_ok (keep_eq_ok.1 h).1
      exact one trivial
  | upsertPolicy T reject addHeader greylist =>
      obtain ⟨-, -, rfl, ⟨old, -, -, rfl⟩ | ⟨-, -, rfl⟩⟩ := upsertPolicy_ok (keep_eq_ok.1 h).1
      · exact one trivial
      · exact one trivial
  | insertDecision T messageRef direction recipient sender score action verdict symbols =>
      obtain ⟨-, -, -, rfl, rfl⟩ := insertDecision_ok (keep_eq_ok.1 h).1
      exact one rfl
  | insertItem T decisionId messageRef recipient sender subject reason =>
      obtain ⟨-, ⟨-, rfl⟩ | ⟨-, rfl⟩⟩ := insertItem_ok (keep_eq_ok.1 h).1
      · exact zero
      · exact one trivial
  | releaseItem id actor =>
      rcases releaseItem_ok (keep_eq_ok.1 h).1 with ⟨i, -, -, -, -, -, rfl⟩ | ⟨-, -, rfl⟩
      · exact one trivial
      · exact zero
  | reportItem id verdict =>
      rcases reportItem_ok (keep_eq_ok.1 h).1 with ⟨i, -, -, -, -, -, rfl⟩ | ⟨-, rfl⟩
      · exact one trivial
      · exact zero
  | activatePending id u =>
      cases h
      rcases activatePending_cases s d id u with ⟨a, -, -, -, -, heq⟩ | ⟨-, heq⟩
      · rw [heq]
        exact one trivial
      · rw [heq]
        exact zero
  | setTenantStatus id status =>
      cases h
      rcases setTenantStatus_cases d id status with ⟨t, -, -, heq⟩ | heq
      · rw [heq]
        exact one trivial
      · rw [heq]
        exact zero
  | setDomainStatus id status =>
      cases h
      rcases setDomainStatus_cases d id status with ⟨m, -, -, heq⟩ | heq
      · rw [heq]
        exact one trivial
      · rw [heq]
        exact zero
  | setAccountStatus id status =>
      cases h
      rcases setAccountStatus_cases d id status with ⟨a, -, -, heq⟩ | heq
      · rw [heq]
        exact one trivial
      · rw [heq]
        exact zero
  | selectPending batch =>
      simp only [exec] at h
      cases hrows : selectPending s o d batch with
      | error e => simp [hrows, Except.map] at h
      | ok rows =>
          simp only [hrows, Except.map, Except.ok.injEq, Prod.mk.injEq] at h
          obtain ⟨-, -, rfl⟩ := h
          exact zero
  | selectTenants | selectDomains | selectDomainFqdn | selectAccounts | selectPolicy
  | selectHeld =>
      cases h
      exact zero

theorem Write.held_of_clash {w w' : Write} (h : w.clash w') (hw : w.held) : w'.held := by
  cases w <;> cases w' <;> trivial

/-- The row a decision is written to is there as soon as its transaction has
written it. -/
theorem mem_applyAll_decision {ws : List Write} {d : Database} {c : Change AbuseDecision}
    (h : .abuseDecision c ∈ ws) :
    ∃ x ∈ (postgres.applyAll ws d).abuseDecision, x.id = c.new.id := by
  -- it stays there under the writes after it
  have stays : ∀ (ws : List Write) (d : Database),
      (∃ x ∈ d.abuseDecision, x.id = c.new.id) →
        ∃ x ∈ (postgres.applyAll ws d).abuseDecision, x.id = c.new.id := by
    intro ws
    induction ws with
    | nil => exact fun _ hx => hx
    | cons w ws ih =>
        intro d hx
        refine ih _ ?_
        cases w with
        | abuseDecision c' => exact Table.exists_key_put hx
        | _ => exact hx
  induction ws generalizing d with
  | nil => cases h
  | cons w ws ih =>
      rcases List.mem_cons.1 h with rfl | h
      · exact stays ws _ ⟨c.new, Table.mem_put.2 (.inl rfl), rfl⟩
      · exact ih h

theorem postgres_courteous : postgres.Courteous Stmt.lone Write.held where
  light_held := by
    intro R q s s' o d r ws hq hexec w hw
    have hlight := Sql.exec_kind hexec w hw
    rw [hq] at hlight
    cases w with
    | audit | abuseAudit | abuseDecision => exact id
    | _ => exact hlight.elim
  light_free := by
    intro R q s s' o d r ws ws' d' hq hexec hfresh w hw w' hw' hclash
    have hlight := Sql.exec_kind hexec w hw
    rw [hq] at hlight
    cases w with
    | abuseDecision c =>
        cases w' with
        | abuseDecision c' =>
            -- the identifier is new, but the other transaction has used it
            obtain ⟨y, hy, hid⟩ := mem_applyAll_decision (d := d') hw'
            have hfresh : o.Fresh (postgres.applyAll ws' d') := hfresh
            have hkey : c.new.id = c'.new.id := hclash.elim id id
            exact hfresh.2.2.2.1 y hy (hid.trans (hkey.symm.trans hlight))
        | _ => exact hclash
    | audit | abuseAudit => cases w' <;> exact hclash
    | _ => exact hlight.elim
  lone_waits := by
    intro R q s s' o d r ws hq hexec w hw w' hclash
    have hheld := Sql.exec_kind hexec w hw
    rw [hq] at hheld
    exact Write.held_of_clash hclash hheld

/-! ### The programs are orderly -/

/-- The computation takes a transaction from the first state to the second
unless it fails. -/
def Keeps {ε α : Type} (tx tx' : Option Bool) (x : ExceptT ε Program α) : Prop :=
  x.run.Orderly Stmt.lone (fun t r => ∀ a, r = .ok a → t = tx') tx

namespace Keeps

variable {ε α β : Type} {tx tx' tx'' : Option Bool}

theorem pure {a : α} : Keeps tx tx (Pure.pure a : ExceptT ε Program α) := fun _ _ => rfl

theorem throw {e : ε} : Keeps tx tx' (MonadExcept.throw e : ExceptT ε Program α) := nofun

theorem bind {x : ExceptT ε Program α} {f : α → ExceptT ε Program β} (hx : Keeps tx tx' x)
    (hf : ∀ a, Keeps tx' tx'' (f a)) : Keeps tx tx'' (x >>= f) := by
  unfold Keeps
  rw [ExceptT.run_bind]
  refine Prog.Orderly.bind hx fun t r hr => ?_
  cases r with
  | ok a =>
      rw [hr a rfl]
      exact hf a
  | error e => exact nofun

theorem adapt {x : DbM α} (hx : Keeps tx tx' x) : Keeps tx tx' (liftM x : Handler α) := by
  refine Prog.Orderly.bind hx fun t r hr => ?_
  cases r with
  | ok a => exact fun _ _ => hr a rfl
  | error e => exact nofun

theorem check {x : Except ApiError α} : Keeps tx tx (liftM x : Handler α) := by
  cases x with
  | ok a => exact fun _ _ => rfl
  | error e => exact nofun

theorem begin : Keeps none (some false) begin := ⟨rfl, fun _ => nofun, fun _ _ => rfl⟩

theorem light {R : Type} {q : Stmt R} {ran : Bool} (hq : q.lone = false) :
    Keeps (some ran) (some ran) (query q) := by
  refine ⟨fun _ => nofun, ran, rfl, fun _ => hq, fun r _ _ => ?_⟩
  simp [hq]

theorem lone {R : Type} {q : Stmt R} (hq : q.lone = true) :
    Keeps (some false) (some true) (query q) := by
  refine ⟨fun _ => nofun, false, rfl, nofun, fun r _ _ => ?_⟩
  simp [hq]

theorem commit {ran : Bool} : Keeps (some ran) none commit := by
  refine ⟨Option.some_ne_none ran, fun r => ?_⟩
  cases r with
  | ok u => exact fun _ _ => rfl
  | error e => exact nofun

theorem tenantTx (T : Uuid) : Keeps none (some false) (tenantTx T) :=
  begin.bind fun _ => light rfl

theorem platformTx : Keeps none (some false) platformTx := begin.bind fun _ => light rfl

theorem record {plane : Plane} {e : AuditEntry} {ran : Bool} :
    Keeps (some ran) (some ran) (record plane e) := light rfl

end Keeps

section Handlers

variable (caller : Caller)

theorem createTenant_keeps (req : CreateTenant) : Keeps none none (createTenant caller req) := by
  refine .bind .check fun _ => .bind (.adapt .platformTx) fun _ => ?_
  refine .bind (.adapt (.lone rfl)) fun t => .bind (.adapt .record) fun _ => ?_
  exact .bind (.adapt .commit) fun _ => .pure

theorem listTenants_keeps : Keeps none none listTenants := by
  refine .bind (.adapt .platformTx) fun _ => .bind (.adapt (.light rfl)) fun _ => ?_
  exact .bind (.adapt .commit) fun _ => .pure

theorem createDomain_keeps (T : Uuid) (req : CreateDomain) :
    Keeps none none (createDomain T caller req) := by
  refine .bind .check fun _ => .bind (.adapt (.tenantTx T)) fun _ => ?_
  refine .bind (.adapt (.lone rfl)) fun m => .bind (.adapt .record) fun _ => ?_
  exact .bind (.adapt .commit) fun _ => .pure

theorem listDomains_keeps (T : Uuid) : Keeps none none (listDomains T) := by
  refine .bind (.adapt (.tenantTx T)) fun _ => .bind (.adapt (.light rfl)) fun _ => ?_
  exact .bind (.adapt .commit) fun _ => .pure

theorem activateProvisioned_keeps (T : Uuid) (account : Account) (u : Uuid) (actor : String) :
    Keeps none none (activateProvisioned T account u actor) := by
  refine .bind (.tenantTx T) fun _ => .bind (.lone rfl) fun _ => .bind .record fun _ => ?_
  exact .bind .commit fun _ => .pure

/-- sesame-idam is called between the two transactions. -/
theorem provisionIntoSesame_orderly (T : Uuid) (account : Account) (actor : String) :
    (provisionIntoSesame T account actor).Orderly Stmt.lone (fun _ _ => True) none := by
  refine ⟨rfl, fun y => ?_⟩
  cases y with
  | error e => trivial
  | ok u =>
      have hactivate := activateProvisioned_keeps T account u actor
      change Prog.Orderly Stmt.lone _ none ((activateProvisioned T account u actor).run >>= _)
      refine Prog.Orderly.bind hactivate fun t r _ => ?_
      cases r with
      | ok updated => trivial
      | error e => trivial

/-- How a computation ends when nothing follows that takes a connection. -/
def Ends {ε α : Type} (tx : Option Bool) (x : ExceptT ε Program α) : Prop :=
  x.run.Orderly Stmt.lone (fun _ _ => True) tx

theorem Keeps.ends {ε α : Type} {tx tx' : Option Bool} {x : ExceptT ε Program α}
    (h : Keeps tx tx' x) : Ends tx x := Prog.Orderly.mono h fun _ _ _ => trivial

theorem Ends.bind {ε α β : Type} {tx tx' : Option Bool} {x : ExceptT ε Program α}
    {f : α → ExceptT ε Program β} (hx : Keeps tx tx' x) (hf : ∀ a, Ends tx' (f a)) :
    Ends tx (x >>= f) := by
  unfold Ends
  rw [ExceptT.run_bind]
  refine Prog.Orderly.bind hx fun t r hr => ?_
  cases r with
  | ok a =>
      rw [hr a rfl]
      exact hf a
  | error e => trivial

theorem Ends.lift {α β : Type} {tx : Option Bool} {p : Program α} {f : α → Handler β}
    (hp : p.Orderly Stmt.lone (fun _ _ => True) tx) (hf : ∀ t a, Ends t (f a)) :
    Ends tx ((liftM p : Handler α) >>= f) := by
  have hlift : (liftM p : Handler α).run = Except.ok <$> p := by
    change (Except.mapError ApiError.db <$> (Except.ok <$> p) : Program _) = _
    simp [Except.mapError]
  unfold Ends
  rw [ExceptT.run_bind, hlift, bind_map_left]
  exact hp.bind fun t a _ => hf t a

theorem createAccount_ends (sesame : Bool) (T : Uuid) (req : CreateAccount) :
    Ends none (createAccount sesame T caller req) := by
  refine .bind .check fun _ => .bind (.adapt (.tenantTx T)) fun _ => ?_
  refine .bind (.adapt (.light rfl)) fun fqdn => ?_
  cases fqdn with
  | none => exact @Keeps.ends _ _ _ none _ .throw
  | some fqdn =>
      refine .bind (.adapt (.lone rfl)) fun account => .bind (.adapt .record) fun _ => ?_
      refine .bind (.adapt .commit) fun _ => ?_
      cases sesame with
      | true =>
          exact .lift (provisionIntoSesame_orderly T account caller.actor) fun _ _ => trivial
      | false => exact Keeps.pure.ends

theorem listAccounts_keeps (T : Uuid) : Keeps none none (listAccounts T) := by
  refine .bind (.adapt (.tenantTx T)) fun _ => .bind (.adapt (.light rfl)) fun _ => ?_
  exact .bind (.adapt .commit) fun _ => .pure

theorem getPolicy_keeps (T : Uuid) (now : Timestamp) : Keeps none none (getPolicy T now) := by
  refine .bind (.adapt (.tenantTx T)) fun _ => .bind (.adapt (.light rfl)) fun _ => ?_
  exact .bind (.adapt .commit) fun _ => .pure

theorem putPolicy_keeps (T : Uuid) (req : SetAbusePolicy) :
    Keeps none none (putPolicy T caller req) := by
  refine .bind .check fun _ => .bind (.adapt (.tenantTx T)) fun _ => ?_
  refine .bind (.adapt (.lone rfl)) fun m => .bind (.adapt .record) fun _ => ?_
  exact .bind (.adapt .commit) fun _ => .pure

theorem auditDecision_keeps (T : Uuid) (req : RecordDecision) (x : AbuseDecision) (ran : Bool) :
    Keeps (some ran) none (auditDecision T caller req x) := by
  refine .bind (.adapt .record) fun _ => .bind (.adapt .commit) fun _ => .pure

/-- The decision itself waits for no one; its quarantine item may. -/
theorem recordDecision_keeps (T : Uuid) (req : RecordDecision) :
    Keeps none none (recordDecision T caller req) := by
  refine .bind .check fun _ => .bind (.adapt (.tenantTx T)) fun _ => ?_
  refine .bind (.adapt (.light rfl)) fun x => ?_
  by_cases hq : req.action = "quarantine"
  · rw [if_pos hq]
    exact .bind (.adapt (.lone rfl)) fun _ => auditDecision_keeps caller T req x true
  · rw [if_neg hq]
    exact auditDecision_keeps caller T req x false

theorem listQuarantine_keeps (T : Uuid) : Keeps none none (listQuarantine T) := by
  refine .bind (.adapt (.tenantTx T)) fun _ => .bind (.adapt (.light rfl)) fun _ => ?_
  exact .bind (.adapt .commit) fun _ => .pure

theorem releaseItem_keeps (T itemId : Uuid) : Keeps none none (releaseItem T itemId caller) := by
  refine .bind (.adapt (.tenantTx T)) fun _ => .bind (.adapt (.lone rfl)) fun item => ?_
  cases item with
  | none => exact .throw
  | some item =>
      exact .bind (.adapt .record) fun _ => .bind (.adapt .commit) fun _ => .pure

theorem reportItem_keeps (T itemId : Uuid) (req : ReportFeedback) :
    Keeps none none (reportItem T itemId caller req) := by
  refine .bind .check fun _ => .bind (.adapt (.tenantTx T)) fun _ => ?_
  refine .bind (.adapt (.lone rfl)) fun item => ?_
  cases item with
  | none => exact .throw
  | some item =>
      exact .bind (.adapt .record) fun _ => .bind (.adapt .commit) fun _ => .pure

/-- The loop, by induction on the rows that are left of the batch. -/
theorem reconcileEach_keeps (rows : List PendingRow) (n : Nat) :
    Keeps none none (reconcileEach rows n) := by
  induction rows generalizing n with
  | nil => exact .pure
  | cons row rest ih =>
      unfold reconcileEach
      refine @Keeps.bind _ _ _ none none none _ _ ⟨rfl, fun y _ _ => rfl⟩ fun y => ?_
      cases y with
      | error e => exact ih n
      | ok u =>
          refine .bind .platformTx fun _ => .bind (.lone rfl) fun updated => ?_
          by_cases hup : updated = 1
          · rw [if_pos hup]
            exact .bind .record fun _ => .bind .commit fun _ => ih (n + 1)
          · rw [if_neg hup]
            exact .bind .commit fun _ => ih n

theorem reconcileOnce_keeps (batch : Int) : Keeps none none (reconcileOnce batch) := by
  refine .bind .platformTx fun _ => .bind (.light rfl) fun rows => .bind .commit fun _ => ?_
  exact reconcileEach_keeps rows 0

theorem operatorChange_keeps (c : OperatorChange) : Keeps none none (operatorChange c) := by
  refine .bind .begin fun _ => .bind (.lone ?_) fun _ => .commit
  cases c <;> rfl

theorem route_ends (sesame : Bool) (route : Route) : Ends none (route.handler sesame caller) := by
  cases route with
  | createTenant req => exact (createTenant_keeps caller req).ends
  | listTenants => exact listTenants_keeps.ends
  | createDomain T req => exact (createDomain_keeps caller T req).ends
  | listDomains T => exact (listDomains_keeps T).ends
  | createAccount T req => exact createAccount_ends caller sesame T req
  | listAccounts T => exact (listAccounts_keeps T).ends
  | getPolicy T now => exact (getPolicy_keeps T now).ends
  | putPolicy T req => exact (putPolicy_keeps caller T req).ends
  | recordDecision T req => exact (recordDecision_keeps caller T req).ends
  | listQuarantine T => exact (listQuarantine_keeps T).ends
  | releaseItem T itemId => exact (releaseItem_keeps caller T itemId).ends
  | reportItem T itemId req => exact (reportItem_keeps caller T itemId req).ends

end Handlers

theorem program_orderly (sesame : Bool) (c : Request) :
    (c.program sesame).Orderly Stmt.lone (fun _ _ => True) none := by
  cases c with
  | http caller route =>
      have hrespond : (route.handler sesame caller).respond.Orderly Stmt.lone
          (fun _ _ => True) none := by
        refine Prog.Orderly.bind (route_ends caller sesame route) fun t r _ => ?_
        cases r <;> trivial
      exact hrespond.bind fun _ _ _ => trivial
  | reconcile batch => exact Prog.Orderly.bind (reconcileOnce_keeps batch).ends fun _ _ _ => trivial
  | operator c => exact Prog.Orderly.bind (operatorChange_keeps c).ends fun _ _ _ => trivial

/-! ### Two scans of one message -/

/-- The second scan of a message waits for the first, which has inserted the
quarantine item. -/
def contended : List Event :=
  [.spawn 1 (scan "ann@acme.example"), .start 1 0 (.number 1), .stmt 1 (.number 1),
    .stmt 1 (.number 2), .stmt 1 (.number 3), .spawn 2 (scan "bob@acme.example"),
    .start 2 1 (.number 4), .stmt 2 (.number 4), .stmt 2 (.number 5)]

/-- An identifier that no open transaction has used. -/
theorem fresh_of_txs {σ : State} (h : σ.Recorded) {o : Oracle} (hstore : o.Fresh σ.store)
    (htxs : ∀ t ∈ σ.txs, o.Fresh (postgres.applyAll t.2.writes σ.store)) : σ.Fresh postgres o :=
  ⟨hstore, fun _ _ _ hp ht => htxs _ (Sys.mem_txs h hp ht)⟩

/-- The first scan commits, and the second goes on. -/
def released : List Event :=
  [.stmt 1 (.number 6), .commit 1, .reply 1, .stmt 2 (.number 7), .stmt 2 (.number 8), .commit 2,
    .reply 2]

/-- A step that takes a request forward needs one that is being served. -/
theorem exists_of_forward {sesame : Bool}
    {answers : ProvisionUser → Except ProviderError Uuid → Prop} {σ σ' : State} {l : Event}
    {n : Nat} (h : Steps sesame answers σ l σ') (hl : l.Forward n) :
    ∃ p P, σ.procs p = some P := by
  rcases h.moves with ⟨p, c, P, rfl, -⟩ | ⟨p, P, -, hp, -⟩ | ⟨p, P, hp, -⟩
  · exact hl.elim
  · exact ⟨p, P, hp⟩
  · exact ⟨p, P, hp⟩

/-! ### No request is stuck -/

section

variable {sesame : Bool} {answers : ProvisionUser → Except ProviderError Uuid → Prop} {σ : State}

/-- No deadlock: while a request is being served, some step takes one forward,
and one connection in the pool is enough. None is held while sesame-idam is
called. -/
theorem never_stuck (hanswers : ∀ x, ∃ y, answers x y) (h : Reached sesame answers σ)
    (hfresh : ∃ o, σ.Fresh postgres o) {p : Nat} {P} (hp : σ.procs p = some P) :
    (∃ l σ', Steps sesame answers σ l σ' ∧ l.Forward 1) ∧
      ∀ x k, P.prog = .call x k → P.tx = none := by
  have horder := h.orderly postgres_courteous (program_orderly sesame) p P hp
  refine ⟨?_, fun x k hprog => horder.tx_of_call hprog⟩
  exact h.forward postgres_courteous (program_orderly sesame) (fun _ _ => trivial) hanswers
    Nat.one_pos hfresh hp

end

theorem never_stuck_contended :
    ∃ σ P, Reached false (fun _ _ => True) σ ∧ σ.procs 2 = some P ∧
      (next (services false fun _ _ => True) (fun _ => True) (fun _ _ => True) σ
        (.stmt 2 (.number 6))).isNone = true ∧
      ((∃ l σ', Steps false (fun _ _ => True) σ l σ' ∧ l.Forward 1) ∧
        ∀ x k, P.prog = .call x k → P.tx = none) := by
  have hplay : ((play false (fun _ _ => True) contended).any fun σ =>
      (σ.procs 2).isSome &&
        (next (services false fun _ _ => True) (fun _ => True) (fun _ _ => True) σ
          (.stmt 2 (.number 6))).isNone &&
        decide ((Oracle.number 6).Fresh σ.store ∧
          ∀ t ∈ σ.txs, (Oracle.number 6).Fresh (postgres.applyAll t.2.writes σ.store))) = true := by
    decide +kernel
  obtain ⟨σ, hσ, h⟩ := reached_of_play hplay
  simp only [Bool.and_eq_true, decide_eq_true_eq] at h
  obtain ⟨⟨hsome, hwaits⟩, hstore, htxs⟩ := h
  obtain ⟨P, hP⟩ := Option.isSome_iff_exists.1 hsome
  exact ⟨σ, P, hσ, hP, hwaits, never_stuck (fun _ => ⟨.error (.internal ""), trivial⟩) hσ
    ⟨_, fresh_of_txs hσ.recorded hstore htxs⟩ hP⟩

section

variable {sesame : Bool} {answers : ProvisionUser → Except ProviderError Uuid → Prop} {σ : State}

/-- Every request that is not dropped is answered: without new requests no run
goes on for ever, and one that nothing takes forward any more has answered all. -/
theorem requests_answered (hanswers : ∀ x, ∃ y, answers x y) (h : Reached sesame answers σ) :
    (∀ run : Nat → State, run 0 = σ →
      ¬∀ i, ∃ l, Steps sesame answers (run i) l (run (i + 1)) ∧ ∀ p c, l ≠ .spawn p c) ∧
    ∀ ls σ', Run (services sesame answers) (fun _ => True) (fun _ _ => True) σ ls σ' →
      (∃ o, σ'.Fresh postgres o) → (∀ l τ, Steps sesame answers σ' l τ → ¬l.Forward 1) →
      ∀ p P, σ.procs p = some P → .cancel p ∉ ls →
        ∃ e ∈ σ'.replies, e.pid = p ∧ e.request = P.request := by
  refine ⟨?_, ?_⟩
  · rintro run rfl
    exact Reachable.ends run h
  · intro ls σ' hrun hfresh hend p P hp hls
    exact hrun.answered postgres_courteous (program_orderly sesame) (fun _ _ => trivial) hanswers h
      Nat.one_pos hfresh hend hp hls

end

theorem requests_answered_contended :
    ∃ σ σ' P, Reached false (fun _ _ => True) σ ∧
      Run (services false fun _ _ => True) (fun _ => True) (fun _ _ => True) σ released σ' ∧
      σ.procs 2 = some P ∧ ∃ e ∈ σ'.replies, e.pid = 2 ∧ e.request = P.request := by
  have hplay : ((play false (fun _ _ => True) contended).any fun σ => (σ.procs 2).isSome &&
      (replay (services false fun _ _ => True) (fun _ => True) (fun _ _ => True) σ released).any
        fun σ' => (σ'.started.all fun p => (σ'.procs p).isNone) &&
          decide ((Oracle.number 9).Fresh σ'.store ∧
            ∀ t ∈ σ'.txs, (Oracle.number 9).Fresh (postgres.applyAll t.2.writes σ'.store))) =
      true := by
    decide +kernel
  obtain ⟨σ, hσ, h⟩ := reached_of_play hplay
  obtain ⟨hsome, h⟩ := Bool.and_eq_true_iff.1 h
  obtain ⟨P, hP⟩ := Option.isSome_iff_exists.1 hsome
  obtain ⟨σ', hσ', h⟩ := (Option.any_eq_true _ _).1 h
  have hrun := run_of_replay hσ hσ'
  simp only [Bool.and_eq_true, List.all_eq_true, decide_eq_true_eq] at h
  obtain ⟨hidle, hstore, htxs⟩ := h
  have hrecorded := (hσ.run hrun).recorded
  have hend : ∀ l τ, Steps false (fun _ _ => True) σ' l τ → ¬l.Forward 1 := by
    intro l τ hstep hl
    obtain ⟨p, P', hp⟩ := exists_of_forward hstep hl
    have hnone := hidle p (hrecorded.started hp)
    rw [hp] at hnone
    cases hnone
  obtain ⟨-, hanswered⟩ := requests_answered (fun _ => ⟨.error (.internal ""), trivial⟩) hσ
  exact ⟨σ, σ', P, hσ, hrun, hP, hanswered released σ' hrun
    ⟨_, fresh_of_txs hrecorded hstore htxs⟩ hend 2 P hP (by simp [released])⟩

end OpenGroupware
