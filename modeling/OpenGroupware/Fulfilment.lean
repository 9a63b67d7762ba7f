import OpenGroupware.Evaluation
import OpenGroupware.Validation

/-!
What becomes of a request that the handler's own checks accept while the
databases are available. It is fulfilled, or the error is one the caller can
act on, exactly when what the checks leave open can be stored.
-/

namespace OpenGroupware

open Relational Transactional

/-- Success, 404 or 409. -/
def Answer.Fulfilled (a : Answer) : Prop :=
  ∃ n ∈ [200, 201, 404, 409], a.status = some n

instance (a : Answer) : Decidable a.Fulfilled :=
  inferInstanceAs (Decidable (∃ n ∈ [200, 201, 404, 409], a.status = some n))

/-- A body that the checks of its handler accept. -/
def Route.Accepted : Route → Prop
  | .createTenant req => validateSlug req.slug = .ok ()
  | .createDomain _ req => validateFqdn req.fqdn = .ok ()
  | .createAccount _ req => validateLocalPart req.localPart = .ok ()
  | .putPolicy _ req => validatePolicy req = .ok ()
  | .recordDecision _ req => validateDecision req = .ok ()
  | _ => False

/-- What the checks leave open, with what the tables hold: texts without zero
characters, an alphabetic top-level domain, a quota and a direction in their
range, a message reference that the indexes take. A request for something that
exists is turned down before its audit entry is written. -/
def Route.Storable (indexable : String → Bool) (d : Database) (caller : Caller) : Route → Prop
  | .createTenant req => (textOk req.name && textOk req.plan) = true ∧
      ((∃ t ∈ d.tenants, t.slug = req.slug) ∨ textOk caller.subject = true)
  | .createDomain _ req => tldOk (lastLabel req.fqdn.toList) = true ∧
      ((∃ m ∈ d.domains, m.fqdn = req.fqdn) ∨ textOk caller.subject = true)
  | .createAccount T req => ∀ m ∈ d.domains, m.id = req.domainId → m.tenantId = T →
      m.status ≠ .suspended → textOk req.displayName = true ∧ quotaCheck req.quotaMb = true ∧
        ((∃ a ∈ d.accounts, a.email = req.localPart ++ "@" ++ m.fqdn) ∨
          textOk caller.subject = true)
  | .putPolicy _ _ => textOk caller.subject = true
  | .recordDecision _ req => directionCheck req.direction = true ∧
      indexable req.messageRef = true ∧
      (textOk req.messageRef && textOk req.recipient && textOk req.sender &&
        req.symbols.storable) = true ∧
      (req.action = "quarantine" → textOk req.subject = true) ∧ textOk caller.subject = true
  | _ => True

/-! ### Texts -/

theorem textOk_repr (n : Nat) : textOk n.repr = true := by
  have hdigits : n.repr.toList = Nat.toDigits 10 n := String.toList_ofList
  refine textOk_of_all (p := Char.isDigit) ?_ (by decide)
  rw [hdigits, List.all_eq_true]
  exact fun c hc => Nat.isDigit_of_mem_toDigits (by decide) (by decide) hc

theorem textOk_toFixed1 (x : F64) : textOk x.toFixed1 = true := by
  cases x with
  | nan => decide
  | negInf => decide
  | posInf => decide
  | fin q =>
      have hsign : textOk (if q < 0 then "-" else "") = true := by split <;> decide
      have hdot : textOk "." = true := by decide
      simp [F64.toFixed1, textOk_append, textOk_repr, hsign, hdot]

theorem textOk_of_slugOk {slug : String} (h : slugOk slug.toList = true) :
    textOk slug = true := by
  simp only [slugOk, Bool.and_eq_true] at h
  exact textOk_of_all h.1.1.2 (by decide)

theorem textOk_of_localPartOk {l : String} (h : localPartOk l.toList = true) :
    textOk l = true := by
  simp only [localPartOk, Bool.and_eq_true] at h
  exact textOk_of_all h.1.1.2 (by decide)

/-! ### The steps of a handler -/

section

variable {w : Weather} {z : Solo Session Database} {s : Session} {ws : List Write}

/-- Of the errors of a statement only the unique violation is the caller's. -/
theorem fulfilled_error {R : Type} {q : Stmt R} {f : R → Handler Response} {e : DbError}
    (h : Sql.exec q s (w.oracle z.clock) (postgres.applyAll ws z.store) = .error e) :
    (eval postgres w ((liftM (query q) : Handler R) >>= f).serve
      (some (s, ws)) z).1.Fulfilled ↔ e = .uniqueViolation := by
  rw [Handler.eval_query_error h]
  cases e <;> decide

/-- A handler whose audit entry fails has failed; one that can write it is as
good as what it does then. -/
theorem fulfilled_record {plane : Plane} {e : AuditEntry} {f : Unit → Handler Response}
    (htext : (textOk e.action && textOk e.entityType && textOk e.entityId &&
      e.payload.storable) = true) (hsees : s.sees e.tenantId = true)
    (htenant : plane = .control →
      e.tenantId.all ((postgres.applyAll ws z.store).tenants.has Tenant.id) = true)
    (hf : ∀ ws z, (eval postgres w (f ()).serve (some (s, ws)) z).1.Fulfilled) :
    (eval postgres w ((liftM (record plane e) : Handler Unit) >>= f).serve
      (some (s, ws)) z).1.Fulfilled ↔ textOk e.actor = true := by
  rw [show record plane e = query (.insertAudit plane e) from rfl]
  by_cases hactor : textOk e.actor = true
  · have hexec : Sql.exec (.insertAudit plane e) s (w.oracle z.clock)
        (postgres.applyAll ws z.store) = .ok ((), s, [plane.appendix e]) := by
      refine Sql.keep_eq_ok.2 ⟨Sql.insertAudit_eq_ok ?_ hsees htenant, rfl⟩
      simpa [hactor] using htext
    rw [Handler.eval_query hexec]
    exact iff_of_true (hf _ _) hactor
  · have hexec : Sql.exec (.insertAudit plane e) s (w.oracle z.clock)
        (postgres.applyAll ws z.store) = .error .invalidText := by
      rw [Bool.not_eq_true] at hactor
      simp [Sql.exec, Sql.insertAudit, hactor, bind, Except.bind]
    rw [fulfilled_error hexec]
    exact iff_of_false (by decide) hactor

theorem fulfilled_commit {r : Response} (hr : r.status = 200 ∨ r.status = 201) :
    (eval postgres w ((liftM commit : Handler Unit) >>= fun _ => pure r).serve
      (some (s, ws)) z).1.Fulfilled := by
  rw [Handler.eval_commit, Handler.eval_pure]
  exact ⟨r.status, by rcases hr with hr | hr <;> simp [hr], rfl⟩

/-! ### Insertions -/

/-- How an insertion ends. What can be stored is, unless there is a row with its
key. -/
inductive Insertion {R : Type} (stored taken : Prop) (made : R → List Write → Prop)
    (s : Session) : Except DbError (R × Session × List Write) → Prop
  | made {r ws} : stored → ¬taken → made r ws → Insertion stored taken made s (.ok (r, s, ws))
  | conflict : stored → taken → Insertion stored taken made s (.error .uniqueViolation)
  | refused {e} : ¬stored → e ≠ .uniqueViolation → Insertion stored taken made s (.error e)

theorem fulfilled_insertion {R : Type} {q : Stmt R} {f : R → Handler Response}
    {stored taken : Prop} {made : R → List Write → Prop} (goal : Prop)
    (h : Insertion stored taken made s
      (Sql.exec q s (w.oracle z.clock) (postgres.applyAll ws z.store)))
    (hf : ∀ r ws', stored → made r ws' →
      ((eval postgres w (f r).serve (some (s, ws ++ ws'))
        { z with clock := z.clock + 1 }).1.Fulfilled ↔ goal)) :
    (eval postgres w ((liftM (query q) : Handler R) >>= f).serve
      (some (s, ws)) z).1.Fulfilled ↔ stored ∧ (taken ∨ goal) := by
  generalize hexec : Sql.exec q s (w.oracle z.clock) (postgres.applyAll ws z.store) = x at h
  cases h with
  | made hstored hnew hmade =>
      rw [Handler.eval_query hexec, hf _ _ hstored hmade, or_iff_right hnew]
      exact (and_iff_right hstored).symm
  | conflict hstored htaken =>
      rw [fulfilled_error hexec]
      exact iff_of_true rfl ⟨hstored, .inl htaken⟩
  | refused hno he =>
      rw [fulfilled_error hexec]
      exact iff_of_false he fun h => hno h.1

variable {o : Oracle} {d : Database} {T : Uuid}

theorem insertTenant_ends {slug name plan : String} (hs : s.ForPlatform)
    (hfresh : o.Fresh d) (hslug : slugOk slug.toList = true) :
    Insertion ((textOk name && textOk plan) = true) (∃ t ∈ d.tenants, t.slug = slug)
      (fun t ws => t.slug = slug ∧ t.plan = plan ∧ ws = [.tenant ⟨none, t⟩]) s
      (Sql.exec (.insertTenant slug name plan) s o d) := by
  have htslug := textOk_of_slugOk hslug
  have hcheck := slugCheck_of_slugOk hslug
  have hid : d.tenants.has Tenant.id o.uuid = false := Table.has_eq_false.2 hfresh.1
  by_cases htext : (textOk name && textOk plan) = true
  · by_cases htaken : ∃ t ∈ d.tenants, t.slug = slug
    · have hexec : Sql.exec (.insertTenant slug name plan) s o d = .error .uniqueViolation := by
        simp [Sql.exec, Sql.insertTenant, htslug, htext, hs.platform, hcheck, hid,
          Table.has_eq_true.2 htaken, bind, Except.bind]
      rw [hexec]
      exact .conflict htext htaken
    · have hnew : d.tenants.has Tenant.slug slug = false := by
        rw [← Bool.not_eq_true, Table.has_eq_true]
        exact htaken
      obtain ⟨t, hslug', hplan, hexec⟩ : ∃ t : Tenant, t.slug = slug ∧ t.plan = plan ∧
          Sql.exec (.insertTenant slug name plan) s o d = .ok (t, s, [.tenant ⟨none, t⟩]) := by
        refine ⟨⟨o.uuid, slug, name, plan, .active, s.now⟩, rfl, rfl, ?_⟩
        simp only [Sql.exec, Sql.insertTenant, htslug, hcheck, hid, hnew, htext, hs.platform,
          Bool.true_and, Bool.and_true, Bool.not_false, Sql.require_true, bind, Except.bind]
        rfl
      rw [hexec]
      exact .made htext htaken ⟨hslug', hplan, rfl⟩
  · have hexec : Sql.exec (.insertTenant slug name plan) s o d = .error .invalidText := by
      rw [Bool.not_eq_true] at htext
      simp [Sql.exec, Sql.insertTenant, htslug, htext, bind, Except.bind]
    rw [hexec]
    exact .refused htext (by decide)

theorem insertDomain_ends {fqdn : String} (hs : s.ForTenant T) (hfresh : o.Fresh d)
    (hT : ∃ t ∈ d.tenants, t.id = T) :
    Insertion (fqdnCheck fqdn = true) (∃ m ∈ d.domains, m.fqdn = fqdn)
      (fun m ws => m.fqdn = fqdn ∧ ws = [.domain ⟨none, m⟩]) s
      (Sql.exec (.insertDomain T fqdn) s o d) := by
  have hsees := (hs.sees_iff (some T)).2 rfl
  have hid : d.domains.has Domain.id o.uuid = false := Table.has_eq_false.2 hfresh.2.1
  by_cases hcheck : fqdnCheck fqdn = true
  · have htext := textOk_of_fqdnCheck hcheck
    by_cases htaken : ∃ m ∈ d.domains, m.fqdn = fqdn
    · have hexec : Sql.exec (.insertDomain T fqdn) s o d = .error .uniqueViolation := by
        simp [Sql.exec, Sql.insertDomain, htext, hsees, hcheck, hid, Table.has_eq_true.2 htaken,
          bind, Except.bind]
      rw [hexec]
      exact .conflict hcheck htaken
    · have hnew : d.domains.has Domain.fqdn fqdn = false := by
        rw [← Bool.not_eq_true, Table.has_eq_true]
        exact htaken
      obtain ⟨m, hfqdn, hexec⟩ : ∃ m : Domain, m.fqdn = fqdn ∧
          Sql.exec (.insertDomain T fqdn) s o d = .ok (m, s, [.domain ⟨none, m⟩]) := by
        refine ⟨⟨o.uuid, T, fqdn, .pendingDns, s.now⟩, rfl, ?_⟩
        simp only [Sql.exec, Sql.insertDomain, htext, hsees, hcheck, hid, hnew,
          Table.has_eq_true.2 hT, Bool.and_true, Bool.not_false, Sql.require_true, bind,
          Except.bind]
        rfl
      rw [hexec]
      exact .made hcheck htaken ⟨hfqdn, rfl⟩
  · have hfalse : fqdnCheck fqdn = false := Bool.not_eq_true _ ▸ hcheck
    cases htext : textOk fqdn with
    | true =>
        have hexec : Sql.exec (.insertDomain T fqdn) s o d = .error .checkViolation := by
          simp [Sql.exec, Sql.insertDomain, htext, hsees, hfalse, bind, Except.bind]
        rw [hexec]
        exact .refused hcheck (by decide)
    | false =>
        have hexec : Sql.exec (.insertDomain T fqdn) s o d = .error .invalidText := by
          simp [Sql.exec, Sql.insertDomain, htext, bind, Except.bind]
        rw [hexec]
        exact .refused hcheck (by decide)

theorem insertAccount_ends {domainId : Uuid} {email displayName : String} {quotaMb : Int}
    (hs : s.ForTenant T) (hfresh : o.Fresh d) (hT : ∃ t ∈ d.tenants, t.id = T)
    (hdomain : ∃ m ∈ d.domains, m.id = domainId) (hemail : textOk email = true) :
    Insertion (textOk displayName = true ∧ quotaCheck quotaMb = true)
      (∃ a ∈ d.accounts, a.email = email) (fun _ ws => ∃ row, ws = [.account ⟨none, row⟩]) s
      (Sql.exec (.insertAccount T domainId email displayName quotaMb) s o d) := by
  have hsees := (hs.sees_iff (some T)).2 rfl
  have hid : d.accounts.has (fun a => a.id) o.uuid = false := Table.has_eq_false.2 hfresh.2.2.1
  by_cases hname : textOk displayName = true
  · by_cases hquota : quotaCheck quotaMb = true
    · by_cases htaken : ∃ a ∈ d.accounts, a.email = email
      · have hexec : Sql.exec (.insertAccount T domainId email displayName quotaMb) s o d =
            .error .uniqueViolation := by
          simp [Sql.exec, Sql.insertAccount, hemail, hname, hsees, hquota, hid,
            Table.has_eq_true.2 htaken, bind, Except.bind]
        rw [hexec]
        exact .conflict ⟨hname, hquota⟩ htaken
      · have hnew : d.accounts.has (fun a => a.email) email = false := by
          rw [← Bool.not_eq_true, Table.has_eq_true]
          exact htaken
        obtain ⟨a, row, hexec⟩ : ∃ (a : Account) (row : AccountRow),
            Sql.exec (.insertAccount T domainId email displayName quotaMb) s o d =
              .ok (a, s, [.account ⟨none, row⟩]) := by
          simp only [Sql.exec, Sql.insertAccount, hemail, hname, hsees, hquota, hid, hnew,
            Table.has_eq_true.2 hT, Table.has_eq_true.2 hdomain, Bool.and_true, Bool.not_false,
            Sql.require_true, bind, Except.bind]
          exact ⟨_, _, rfl⟩
        rw [hexec]
        exact .made ⟨hname, hquota⟩ htaken ⟨row, rfl⟩
    · have hexec : Sql.exec (.insertAccount T domainId email displayName quotaMb) s o d =
          .error .checkViolation := by
        have hfalse : quotaCheck quotaMb = false := Bool.not_eq_true _ ▸ hquota
        simp [Sql.exec, Sql.insertAccount, hemail, hname, hsees, hfalse, bind, Except.bind]
      rw [hexec]
      exact .refused (fun h => hquota h.2) (by decide)
  · have hexec : Sql.exec (.insertAccount T domainId email displayName quotaMb) s o d =
        .error .invalidText := by
      have hfalse : textOk displayName = false := Bool.not_eq_true _ ▸ hname
      simp [Sql.exec, Sql.insertAccount, hfalse, bind, Except.bind]
    rw [hexec]
    exact .refused (fun h => hname h.1) (by decide)

theorem upsertPolicy_ends {reject addHeader greylist : F64} (hs : s.ForTenant T)
    (hT : ∃ t ∈ d.tenants, t.id = T) (hcheck : policyCheck reject addHeader greylist = true) :
    Insertion True False (fun p ws => ∃ old, ws = [.abusePolicy ⟨old, p⟩]) s
      (Sql.exec (.upsertPolicy T reject addHeader greylist) s o d) := by
  have hsees := (hs.sees_iff (some T)).2 rfl
  obtain ⟨p, hexec⟩ : ∃ p : AbusePolicy,
      Sql.exec (.upsertPolicy T reject addHeader greylist) s o d =
        .ok (p, s, [.abusePolicy ⟨d.abusePolicy.find? T, p⟩]) := by
    refine ⟨⟨T, reject, addHeader, greylist, s.now⟩, ?_⟩
    simp only [Sql.exec, Sql.upsertPolicy, hsees, hcheck, Sql.require_true, bind, Except.bind]
    cases d.abusePolicy.find? T with
    | some old => rfl
    | none =>
        simp only [Table.has_eq_true.2 hT, Sql.require_true]
        rfl
  rw [hexec]
  exact .made trivial id ⟨_, rfl⟩

theorem validateDecision_eq_ok {req : RecordDecision} (h : validateDecision req = .ok ()) :
    actionCheck req.action = true ∧ verdictCheck req.verdict = true := by
  unfold validateDecision at h
  split at h
  · cases h
  rename_i haction
  split at h
  · cases h
  rename_i hverdict
  rw [Bool.not_eq_true, Bool.not_eq_false'] at haction hverdict
  exact ⟨haction, hverdict⟩

theorem textOk_of_contains {ss : List String} {s : String} (h : ss.contains s = true)
    (hall : ss.all textOk = true) : textOk s = true :=
  List.all_eq_true.1 hall s (List.contains_iff_mem.1 h)

theorem insertDecision_ends {messageRef direction recipient sender : String} {score : F32}
    {action verdict : String} {symbols : Json} (hs : s.ForTenant T) (hfresh : o.Fresh d)
    (haction : actionCheck action = true) (hverdict : verdictCheck verdict = true) :
    Insertion (directionCheck direction = true ∧ o.indexable messageRef = true ∧
        (textOk messageRef && textOk recipient && textOk sender && symbols.storable) = true)
      False (fun x ws => ws = [.abuseDecision ⟨none, x⟩]) s
      (Sql.exec (.insertDecision T messageRef direction recipient sender score action verdict
        symbols) s o d) := by
  have hsees := (hs.sees_iff (some T)).2 rfl
  have hid : d.abuseDecision.has AbuseDecision.id o.uuid = false :=
    Table.has_eq_false.2 hfresh.2.2.2.1
  have htaction := textOk_of_contains haction (by decide)
  have htverdict := textOk_of_contains hverdict (by decide)
  cases htext : textOk messageRef && textOk direction && textOk recipient && textOk sender &&
      textOk action && textOk verdict && symbols.storable with
  | false =>
      have hexec : Sql.exec (.insertDecision T messageRef direction recipient sender score action
          verdict symbols) s o d = .error .invalidText := by
        simp only [Sql.exec, Sql.insertDecision, htext]
        rfl
      rw [hexec]
      refine .refused (fun h => ?_) (by decide)
      -- a direction in its range has no zero characters
      have htdirection := textOk_of_contains h.1 (by decide)
      have hstored := h.2.2
      simp only [Bool.and_eq_true] at hstored
      obtain ⟨⟨⟨hmessage, hrecipient⟩, hsender⟩, hsymbols⟩ := hstored
      simp [hmessage, htdirection, hrecipient, hsender, htaction, htverdict, hsymbols] at htext
  | true =>
      by_cases hdirection : directionCheck direction = true
      · cases hindex : o.indexable messageRef with
        | true =>
            obtain ⟨x, hexec⟩ : ∃ x : AbuseDecision,
                Sql.exec (.insertDecision T messageRef direction recipient sender score action
                  verdict symbols) s o d = .ok (x, s, [.abuseDecision ⟨none, x⟩]) := by
              refine ⟨⟨o.uuid, T, messageRef, direction, recipient, sender, score, action, verdict,
                symbols, s.now⟩, ?_⟩
              simp only [Sql.exec, Sql.insertDecision, htext, hsees, hdirection, haction, hverdict,
                hid, hindex, Bool.and_true, Bool.not_false, Sql.require_true, bind, Except.bind]
              rfl
            rw [hexec]
            simp only [Bool.and_eq_true] at htext
            refine .made ⟨hdirection, rfl, ?_⟩ id rfl
            simp only [Bool.and_eq_true]
            exact ⟨⟨⟨htext.1.1.1.1.1.1, htext.1.1.1.1.2⟩, htext.1.1.1.2⟩, htext.2⟩
        | false =>
            have hexec : Sql.exec (.insertDecision T messageRef direction recipient sender score
                action verdict symbols) s o d = .error .programLimitExceeded := by
              simp only [Sql.exec, Sql.insertDecision, htext, hsees, hdirection, haction, hverdict,
                hid, hindex]
              rfl
            rw [hexec]
            exact .refused (fun h => by cases h.2.1) (by decide)
      · have hexec : Sql.exec (.insertDecision T messageRef direction recipient sender score
            action verdict symbols) s o d = .error .checkViolation := by
          have hfalse : directionCheck direction = false := Bool.not_eq_true _ ▸ hdirection
          simp only [Sql.exec, Sql.insertDecision, htext, hsees, hfalse]
          rfl
        rw [hexec]
        exact .refused (fun h => hdirection h.1) (by decide)

/-- A message that can be stored is held, unless one with its reference is. -/
theorem insertItem_ends {decisionId : Uuid} {messageRef recipient sender subject reason : String}
    (hs : s.ForTenant T) (hid : d.quarantineItem.has QuarantineItem.id o.uuid = false)
    (hdecision : d.abuseDecision.has AbuseDecision.id decisionId = true)
    (hindex : o.indexable messageRef = true)
    (htext : (textOk messageRef && textOk recipient && textOk sender && textOk reason) = true) :
    Insertion (textOk subject = true) False (fun _ _ => True) s
      (Sql.exec (.insertItem T decisionId messageRef recipient sender subject reason) s o d) := by
  have hsees := (hs.sees_iff (some T)).2 rfl
  simp only [Bool.and_eq_true] at htext
  obtain ⟨⟨⟨hmessage, hrecipient⟩, hsender⟩, hreason⟩ := htext
  by_cases hsubject : textOk subject = true
  · obtain ⟨ws, hexec⟩ : ∃ ws, Sql.exec (.insertItem T decisionId messageRef recipient sender
        subject reason) s o d = .ok ((), s, ws) := by
      simp only [Sql.exec, Sql.insertItem, hmessage, hrecipient, hsender, hsubject, hreason,
        hsees, hid, hdecision, hindex, Bool.and_true, Bool.not_false, Sql.require_true, bind,
        Except.bind]
      split
      · exact ⟨_, rfl⟩
      · exact ⟨_, rfl⟩
    rw [hexec]
    exact .made hsubject id trivial
  · have hexec : Sql.exec (.insertItem T decisionId messageRef recipient sender subject reason)
        s o d = .error .invalidText := by
      have hfalse : textOk subject = false := Bool.not_eq_true _ ▸ hsubject
      simp [Sql.exec, Sql.insertItem, hfalse, bind, Except.bind]
    rw [hexec]
    exact .refused hsubject (by decide)

/-! ### The handlers -/

variable {caller : Caller} {indexable : String → Bool}

theorem fulfilled_createTenant {req : CreateTenant} (hidle : z.session.Idle)
    (hfresh : ∀ n, (w.oracle n).Fresh z.store) (hok : validateSlug req.slug = .ok ()) :
    (eval postgres w (createTenant caller req).serve none z).1.Fulfilled ↔
      (Route.createTenant req).Storable indexable z.store caller := by
  have hslug := validateSlug_eq_ok.1 hok
  have hs := hidle.forPlatform (w.oracle z.clock)
  unfold createTenant
  rw [Handler.eval_check hok, Handler.eval_platformTx]
  generalize (z.session.openTx (w.oracle z.clock)).setConfig .isPlatformAdmin "true" = s at hs ⊢
  refine fulfilled_insertion _ (insertTenant_ends hs (hfresh _) hslug) ?_
  rintro t _ htext ⟨hslug', hplan, rfl⟩
  rw [Bool.and_eq_true] at htext
  rw [fulfilled_record]
  · rfl
  · simp [Json.storable, Json.storableMembers, hslug', hplan, textOk_of_slugOk hslug, htext.2]
    decide
  · exact hs.sees _
  · exact fun _ => Table.has_eq_true.2 ⟨t, Table.mem_put.2 (.inl rfl), rfl⟩
  · exact fun ws z => fulfilled_commit (.inr rfl)

theorem fulfilled_createDomain {req : CreateDomain} (hidle : z.session.Idle)
    (hfresh : ∀ n, (w.oracle n).Fresh z.store) (hT : ∃ t ∈ z.store.tenants, t.id = T)
    (hok : validateFqdn req.fqdn = .ok ()) :
    (eval postgres w (createDomain T caller req).serve none z).1.Fulfilled ↔
      (Route.createDomain T req).Storable indexable z.store caller := by
  have hs := hidle.forTenant (w.oracle z.clock) T
  unfold createDomain
  rw [Handler.eval_check hok, Handler.eval_tenantTx]
  generalize (z.session.openTx (w.oracle z.clock)).setConfig .currentTenantId T.toText = s
    at hs ⊢
  simp only [Route.Storable, ← fqdnCheck_iff (validateFqdn_eq_ok.1 hok)]
  refine fulfilled_insertion _ (insertDomain_ends hs (hfresh _) hT) ?_
  rintro m _ hcheck ⟨hfqdn, rfl⟩
  rw [fulfilled_record]
  · rfl
  · simp [Json.storable, Json.storableMembers, hfqdn, textOk_of_fqdnCheck hcheck]
    decide
  · exact (hs.sees_iff (some T)).2 rfl
  · exact fun _ => Table.has_eq_true.2 hT
  · exact fun ws z => fulfilled_commit (.inr rfl)

theorem fulfilled_putPolicy {req : SetAbusePolicy} (hidle : z.session.Idle)
    (hT : ∃ t ∈ z.store.tenants, t.id = T) (hok : validatePolicy req = .ok ()) :
    (eval postgres w (putPolicy T caller req).serve none z).1.Fulfilled ↔
      (Route.putPolicy T req).Storable indexable z.store caller := by
  have hcheck := policyCheck_of_policyOk (validatePolicy_eq_ok.1 hok)
  have hs := hidle.forTenant (w.oracle z.clock) T
  unfold putPolicy
  rw [Handler.eval_check hok, Handler.eval_tenantTx]
  generalize (z.session.openTx (w.oracle z.clock)).setConfig .currentTenantId T.toText = s
    at hs ⊢
  have hstorable : (Route.putPolicy T req).Storable indexable z.store caller ↔
      True ∧ (False ∨ textOk caller.subject = true) := by
    rw [true_and, false_or]
    rfl
  rw [hstorable]
  refine fulfilled_insertion _ (upsertPolicy_ends hs hT hcheck) ?_
  rintro p _ - ⟨old, rfl⟩
  rw [fulfilled_record]
  · rfl
  · have hjson : ∀ x : F64, (Json.ofF64 x).storable = true := fun x => by cases x <;> rfl
    simp [Json.storable, Json.storableMembers, hjson]
    decide
  · exact (hs.sees_iff (some T)).2 rfl
  · exact fun _ => Table.has_eq_true.2 hT
  · exact fun ws z => fulfilled_commit (.inl rfl)

theorem fulfilled_auditDecision {T : Uuid} {req : RecordDecision} {x : AbuseDecision}
    (hsees : s.sees (some T) = true) (hok : validateDecision req = .ok ())
    (hmessage : textOk req.messageRef = true) :
    (eval postgres w (auditDecision T caller req x).serve (some (s, ws)) z).1.Fulfilled ↔
      textOk caller.subject = true := by
  obtain ⟨haction, hverdict⟩ := validateDecision_eq_ok hok
  have hscore : (Json.ofF64 req.score).storable = true := by cases req.score <;> rfl
  unfold auditDecision
  rw [fulfilled_record]
  · rfl
  · simp [Json.storable, Json.storableMembers, hscore, hmessage,
      textOk_of_contains haction (by decide), textOk_of_contains hverdict (by decide)]
    decide
  · exact hsees
  · exact fun h => by cases h
  · exact fun ws z => fulfilled_commit (.inr rfl)

theorem fulfilled_recordDecision {req : RecordDecision} (hidle : z.session.Idle)
    (hfresh : ∀ n, (w.oracle n).Fresh z.store)
    (hindexable : ∀ n, (w.oracle n).indexable = indexable) (hok : validateDecision req = .ok ()) :
    (eval postgres w (recordDecision T caller req).serve none z).1.Fulfilled ↔
      (Route.recordDecision T req).Storable indexable z.store caller := by
  obtain ⟨haction, hverdict⟩ := validateDecision_eq_ok hok
  have hs := hidle.forTenant (w.oracle z.clock) T
  have hsees := (hs.sees_iff (some T)).2 rfl
  have hsymbols : (if req.symbols.isNull then Json.arr [] else req.symbols).storable =
      req.symbols.storable := by
    cases req.symbols <;> rfl
  unfold recordDecision
  rw [Handler.eval_check hok]
  generalize (if req.symbols.isNull then Json.arr [] else req.symbols) = symbols at hsymbols ⊢
  rw [Handler.eval_tenantTx]
  generalize (z.session.openTx (w.oracle z.clock)).setConfig .currentTenantId T.toText = s
    at hs hsees ⊢
  have hstorable : (Route.recordDecision T req).Storable indexable z.store caller ↔
      (directionCheck req.direction = true ∧ (w.oracle (z.clock + 2)).indexable req.messageRef =
        true ∧ (textOk req.messageRef && textOk req.recipient && textOk req.sender &&
          symbols.storable) = true) ∧
      (False ∨ (req.action = "quarantine" → textOk req.subject = true) ∧
        textOk caller.subject = true) := by
    rw [false_or, and_assoc, and_assoc, hsymbols, hindexable]
    rfl
  rw [hstorable]
  refine fulfilled_insertion _ (insertDecision_ends hs (hfresh _) haction hverdict) ?_
  rintro x _ ⟨-, hindex, htext⟩ rfl
  simp only [Bool.and_eq_true] at htext
  obtain ⟨⟨⟨hmessage, hrecipient⟩, hsender⟩, -⟩ := htext
  by_cases hquarantine : req.action = "quarantine"
  · rw [if_pos hquarantine]
    have hview : (postgres.applyAll [.abuseDecision ⟨none, x⟩] z.store).abuseDecision.has
        AbuseDecision.id x.id = true :=
      Table.has_eq_true.2 ⟨x, Table.mem_put.2 (.inl rfl), rfl⟩
    -- a decision leaves the items as they are
    have hitem : (postgres.applyAll [.abuseDecision ⟨none, x⟩] z.store).quarantineItem.has
        QuarantineItem.id (w.oracle (z.clock + 3)).uuid = false :=
      Table.has_eq_false.2 (hfresh _).2.2.2.2
    have hreason : textOk (quarantineReason req) = true := by
      have hopen : textOk " (score " = true := by decide
      have hclose : textOk ")" = true := by decide
      have htverdict := textOk_of_contains hverdict (by decide)
      simp [quarantineReason, textOk_append, htverdict, textOk_toFixed1, hopen, hclose]
    have htexts : (textOk req.messageRef && textOk req.recipient && textOk req.sender &&
        textOk (quarantineReason req)) = true := by
      simp [hmessage, hrecipient, hsender, hreason]
    have hindex' : (w.oracle (z.clock + 3)).indexable req.messageRef = true := by
      rw [hindexable, ← hindexable (z.clock + 2)]
      exact hindex
    have hsubject : (req.action = "quarantine" → textOk req.subject = true) ∧
        textOk caller.subject = true ↔
        textOk req.subject = true ∧ (False ∨ textOk caller.subject = true) := by
      simp [hquarantine]
    rw [hsubject]
    exact fulfilled_insertion _ (insertItem_ends hs hitem hview hindex' htexts)
      fun _ _ _ _ => fulfilled_auditDecision hsees hok hmessage
  · rw [if_neg hquarantine, fulfilled_auditDecision hsees hok hmessage]
    simp [hquarantine]

/-- The domain a session of a tenant finds for a new account. -/
theorem selectDomainFqdn_cases {T : Uuid} (hs : s.ForTenant T) (d : Database) (id : Uuid) :
    (∃ m ∈ d.domains, m.id = id ∧ m.tenantId = T ∧ m.status ≠ .suspended ∧
        Sql.selectDomainFqdn s d id = some m.fqdn) ∨
      (∀ m ∈ d.domains, m.id = id → m.tenantId = T → m.status = .suspended) ∧
        Sql.selectDomainFqdn s d id = none := by
  cases h : Sql.selectDomainFqdn s d id with
  | some fqdn =>
      obtain ⟨m, hm, hid, hsees, hstatus, rfl⟩ := Sql.selectDomainFqdn_some h
      have hT : m.tenantId = T := by simpa using (hs.sees_iff _).1 hsees
      exact .inl ⟨m, hm, hid, hT, hstatus, rfl⟩
  | none =>
      refine .inr ⟨fun m hm hid hT => ?_, rfl⟩
      by_contra hstatus
      have hfind : d.domains.find? id = some m := Table.find?_eq_some.2 ⟨hm, hid⟩
      simp [Sql.selectDomainFqdn, hfind, (hs.sees_iff _).2 (congrArg some hT), hstatus] at h

/-- Whatever becomes of provisioning, the account has been created. -/
theorem fulfilled_provision {p : Program Account} {tx : Option (Session × List Write)} :
    (eval postgres w ((liftM p : Handler Account) >>= fun a =>
      pure (Response.created (.account a))).serve tx z).1.Fulfilled := by
  rw [Handler.serve_lift]
  simp only [Handler.serve_pure]
  rw [eval_map postgres w fun a => Answer.http (Response.created (.account a))]
  exact ⟨201, by simp, rfl⟩

theorem fulfilled_createAccount {sesame : Bool} {req : CreateAccount}
    (hinv : Consistent z.store) (hidle : z.session.Idle)
    (hfresh : ∀ n, (w.oracle n).Fresh z.store) (hT : ∃ t ∈ z.store.tenants, t.id = T)
    (hok : validateLocalPart req.localPart = .ok ()) :
    (eval postgres w (createAccount sesame T caller req).serve none z).1.Fulfilled ↔
      (Route.createAccount T req).Storable indexable z.store caller := by
  have hlocal := validateLocalPart_eq_ok.1 hok
  have hs := hidle.forTenant (w.oracle z.clock) T
  unfold createAccount
  rw [Handler.eval_check hok, Handler.eval_tenantTx]
  generalize (z.session.openTx (w.oracle z.clock)).setConfig .currentTenantId T.toText = s
    at hs ⊢
  have hexec : Sql.exec (.selectDomainFqdn req.domainId) s (w.oracle (z.clock + 2)) z.store =
      .ok (Sql.selectDomainFqdn s z.store req.domainId, s, []) := rfl
  rw [Handler.eval_query hexec]
  simp only [Route.Storable]
  rcases selectDomainFqdn_cases hs z.store req.domainId with
    ⟨m, hm, hmid, hmT, hstatus, hfound⟩ | ⟨hnone, hfound⟩
  · rw [hfound]
    have hemail : textOk (req.localPart ++ "@" ++ m.fqdn) = true := by
      have hat : textOk "@" = true := by decide
      simp [textOk_append, textOk_of_localPartOk hlocal, hat,
        textOk_of_fqdnCheck (hinv.fqdn_check m hm)]
    -- the domain is the only one with its identifier
    have honly : (∀ m ∈ z.store.domains, m.id = req.domainId → m.tenantId = T →
        m.status ≠ .suspended → textOk req.displayName = true ∧ quotaCheck req.quotaMb = true ∧
          ((∃ a ∈ z.store.accounts, a.email = req.localPart ++ "@" ++ m.fqdn) ∨
            textOk caller.subject = true)) ↔
        textOk req.displayName = true ∧ quotaCheck req.quotaMb = true ∧
          ((∃ a ∈ z.store.accounts, a.email = req.localPart ++ "@" ++ m.fqdn) ∨
            textOk caller.subject = true) := by
      constructor
      · exact fun h => h m hm hmid hmT hstatus
      · rintro h m' hm' hmid' - -
        obtain rfl : m' = m := Table.eq_of_key hm' hm (hmid'.trans hmid.symm)
        exact h
    rw [honly, ← and_assoc]
    refine fulfilled_insertion _
      (insertAccount_ends hs (hfresh _) hT ⟨m, hm, hmid⟩ hemail) ?_
    rintro a _ - ⟨row, rfl⟩
    rw [fulfilled_record]
    · rfl
    · simp [Json.storable, Json.storableMembers, hemail]
      decide
    · exact (hs.sees_iff (some T)).2 rfl
    · exact fun _ => Table.has_eq_true.2 hT
    · intro ws z
      rw [Handler.eval_commit]
      split
      · exact fulfilled_provision
      · rw [Handler.eval_pure]
        exact ⟨201, by simp, rfl⟩
  · rw [hfound]
    refine iff_of_true ⟨404, by simp, rfl⟩ fun m hm hmid hmT hstatus => ?_
    exact absurd (hnone m hm hmid hmT) hstatus

/-! ### Accepted requests -/

variable {sesame : Bool} {answers : ProvisionUser → Except ProviderError Uuid → Prop}

/-- An accepted request of an existing tenant is fulfilled exactly when what
the checks leave open can be stored. -/
theorem accepted_fulfilled_iff {σ : State} (hσ : Reached sesame answers σ) (w : Weather)
    {z : Solo Session Database} (hstore : z.store = σ.store) (hidle : z.session.Idle)
    (hfresh : ∀ n, (w.oracle n).Fresh z.store)
    (hindexable : ∀ n, (w.oracle n).indexable = indexable) (caller : Caller) {route : Route}
    (htenant : ∀ T, route.tenant = some T → ∃ t ∈ σ.store.tenants, t.id = T)
    (hok : route.Accepted) :
    (eval postgres w ((Request.http caller route).program sesame) none z).1.Fulfilled ↔
      route.Storable indexable σ.store caller := by
  have hinv : Consistent z.store := hstore ▸ ((reached_started sesame answers).inv hσ).store
  rw [← hstore] at htenant ⊢
  cases route with
  | createTenant req => exact fulfilled_createTenant hidle hfresh hok
  | createDomain T req => exact fulfilled_createDomain hidle hfresh (htenant T rfl) hok
  | createAccount T req =>
      exact fulfilled_createAccount hinv hidle hfresh (htenant T rfl) hok
  | putPolicy T req => exact fulfilled_putPolicy hidle (htenant T rfl) hok
  | recordDecision T req => exact fulfilled_recordDecision hidle hfresh hindexable hok
  | listTenants | listDomains T | listAccounts T | getPolicy T now | listQuarantine T
  | releaseItem T itemId | reportItem T itemId req => exact hok.elim

end

/-- One tenant and nothing else. -/
def founded : List Event :=
  [.spawn 0 (.http ⟨"admin", none, []⟩ (.createTenant { slug := "acme", name := "Acme" }))] ++
    undisturbed 0 1 3 ++ [.reply 0]

/-- The oracles of a request that comes next; no user is ever assigned. -/
def nextWeather : Weather := ⟨fun _ => .number 50, fun _ => .error (.unavailable "")⟩

/-- A top-level domain with a digit passes the validator and not the CHECK. -/
theorem accepted_domain_fails :
    ∃ σ, Reached false (fun _ _ => False) σ ∧ (∃ t ∈ σ.store.tenants, t.id = .number 2) ∧
      (Route.createDomain (.number 2) ⟨"acme.c0m"⟩).Accepted ∧
      (∀ n, (nextWeather.oracle n).Fresh σ.store) ∧
      (eval postgres nextWeather ((Request.http ⟨"admin", none, []⟩
        (.createDomain (.number 2) ⟨"acme.c0m"⟩)).program false) none
          ⟨σ.store, Session.new, 0⟩).1.status = some 500 := by
  have hplay : ((play false (fun _ _ => False) founded).any fun σ =>
      σ.store.tenants.has Tenant.id (.number 2) &&
        decide ((Oracle.number 50).Fresh σ.store) &&
        decide ((eval postgres nextWeather ((Request.http ⟨"admin", none, []⟩
          (.createDomain (.number 2) ⟨"acme.c0m"⟩)).program false) none
            ⟨σ.store, Session.new, 0⟩).1.status = some 500)) = true := by
    decide +kernel
  obtain ⟨σ, hσ, h⟩ := reached_of_play hplay
  simp only [Bool.and_eq_true, decide_eq_true_eq] at h
  exact ⟨σ, hσ, Table.has_eq_true.1 h.1.1, by rfl, fun _ => h.1.2, h.2⟩

theorem accepted_fulfilled_iff_founded :
    ∃ σ, Reached false (fun _ _ => False) σ ∧
      (eval postgres nextWeather ((Request.http ⟨"admin", none, []⟩
        (.createDomain (.number 2) ⟨"acme.example"⟩)).program false) none
          ⟨σ.store, Session.new, 0⟩).1.Fulfilled := by
  have hplay : ((play false (fun _ _ => False) founded).any fun σ =>
      σ.store.tenants.has Tenant.id (.number 2) &&
        decide ((Oracle.number 50).Fresh σ.store)) = true := by
    decide +kernel
  obtain ⟨σ, hσ, h⟩ := reached_of_play hplay
  simp only [Bool.and_eq_true, decide_eq_true_eq] at h
  have htenant : ∀ T, (Route.createDomain (.number 2) ⟨"acme.example"⟩).tenant = some T →
      ∃ t ∈ σ.store.tenants, t.id = T := by
    rintro T ⟨⟩
    exact Table.has_eq_true.1 h.1
  exact ⟨σ, hσ, (accepted_fulfilled_iff (z := ⟨σ.store, Session.new, 0⟩) hσ nextWeather rfl
    Session.idle_new (fun _ => h.2) (fun _ => rfl) ⟨"admin", none, []⟩ htenant rfl).2
      ⟨by decide, .inr (by decide)⟩⟩

end OpenGroupware
