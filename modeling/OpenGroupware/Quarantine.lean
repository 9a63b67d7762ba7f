import OpenGroupware.Audit
import OpenGroupware.Evaluation
import OpenGroupware.Transactional.Unfailing

/-!
The quarantine workflow: an item belongs to a decision that quarantined its
message, is released at most once, and carries who released it and when as the
audit log has it.
-/

namespace OpenGroupware

open Relational Transactional

/-- The actors of the release entries about an item, in the order of the log. -/
def releasers (log : List AuditEntry) (id : Uuid) : List String :=
  (about ["quarantine.release"] log id).map AuditEntry.actor

theorem releasers_append (log log' : List AuditEntry) (id : Uuid) :
    releasers (log ++ log') id = releasers log id ++ releasers log' id := by
  simp [releasers, about_append]

theorem releasers_other {e : AuditEntry} (h : e.action ≠ "quarantine.release") (id : Uuid) :
    releasers [e] id = [] := by
  simp [releasers, about_other, h]

theorem releasers_release {e : AuditEntry} {T entity : Uuid} {actor : String}
    (h : e.Names T actor "quarantine.release" "quarantine_item" entity) (id : Uuid) :
    releasers [e] id = if entity = id then [actor] else [] := by
  rw [releasers, about_names h (by simp)]
  split
  · simp [h.actor]
  · rfl

/-- What holds of decisions, items and their audit log in every store. -/
structure Workflow (d : Database) : Prop where
  decided : ∀ i ∈ d.quarantineItem, ∃ x ∈ d.abuseDecision, x.id = i.decisionId ∧
    x.tenantId = i.tenantId ∧ x.messageRef = i.messageRef ∧ x.action = "quarantine"
  resolved : ∀ i ∈ d.quarantineItem,
    i.status = .held ∧ i.resolvedAt = none ∧ i.resolvedBy = none ∨
      i.status = .released ∧ i.resolvedAt.isSome ∧ i.resolvedBy.isSome
  audited : ∀ i ∈ d.quarantineItem, releasers d.abuseAuditLog i.id = i.resolvedBy.toList
  known : ∀ e ∈ d.abuseAuditLog, e.action ∈ ["quarantine.release"] →
    ∃ i ∈ d.quarantineItem, e.entityId = i.id.toText
  storable : ∀ i ∈ d.quarantineItem, textOk i.messageRef = true

namespace Workflow

variable {answers : ProvisionUser → Except ProviderError Uuid → Prop}
  {guard : {R : Type} → Stmt R → Database → Prop} {d : Database}

theorem empty : Workflow Database.empty := by
  constructor <;> simp [Database.empty]

/-- A log entry that is no release. -/
theorem log (h : Workflow d) {e : AuditEntry} (he : e.action ≠ "quarantine.release") :
    Workflow (Write.apply (.abuseAudit e) d) where
  decided := h.decided
  resolved := h.resolved
  audited i hi := by
    rw [Write.apply, releasers_append, releasers_other he, List.append_nil]
    exact h.audited i hi
  known e' he' haction := by
    rcases List.mem_append.1 he' with he' | he'
    · exact h.known e' he' haction
    · rw [List.mem_singleton] at he'
      exact absurd (he' ▸ List.mem_singleton.1 haction) he
  storable := h.storable

theorem decide (h : Workflow d) {x : AbuseDecision}
    (hfit : Write.fits (.abuseDecision ⟨none, x⟩) d) :
    Workflow (Write.apply (.abuseDecision ⟨none, x⟩) d) where
  decided i hi := by
    obtain ⟨y, hy, hrest⟩ := h.decided i hi
    exact ⟨y, Table.mem_put.2 (.inr ⟨hy, (hfit y hy).1⟩), hrest⟩
  resolved := h.resolved
  audited := h.audited
  known := h.known
  storable := h.storable

/-- A new item has no release entries yet: entries are about known items, and
its identifier is new. -/
theorem hold (h : Workflow d) {i : QuarantineItem} {x : AbuseDecision} {T : Uuid}
    {req : RecordDecision} (hx : x ∈ d.abuseDecision) (hrow : x.Records T req)
    (haction : req.action = "quarantine") (hi : i.Holds x T req)
    (hfit : Write.fits (.quarantineItem ⟨none, i⟩) d) :
    Workflow (Write.apply (.quarantineItem ⟨none, i⟩) d) where
  decided j hj := by
    rcases Table.mem_put.1 hj with rfl | ⟨hj, -⟩
    · exact ⟨x, hx, hi.decisionId.symm, hrow.tenantId.trans hi.tenantId.symm,
        hrow.messageRef.trans hi.messageRef.symm, hrow.action.trans haction⟩
    · exact h.decided j hj
  resolved j hj := by
    rcases Table.mem_put.1 hj with rfl | ⟨hj, -⟩
    · exact .inl ⟨hi.status, hi.resolvedAt, hi.resolvedBy⟩
    · exact h.resolved j hj
  audited j hj := by
    rcases Table.mem_put.1 hj with rfl | ⟨hj, -⟩
    · have hnone := about_eq_nil h.known fun i' hi' => (hfit i' hi').1
      rw [hi.resolvedBy]
      exact congrArg (List.map AuditEntry.actor) hnone
    · exact h.audited j hj
  known e he haction := by
    obtain ⟨j, hj, hid⟩ := h.known e he haction
    exact ⟨j, Table.mem_put.2 (.inr ⟨hj, (hfit j hj).1⟩), hid⟩
  storable j hj := by
    rcases Table.mem_put.1 hj with rfl | ⟨hj, -⟩
    · exact hi.messageRef ▸ hi.text
    · exact h.storable j hj

theorem release (h : Workflow d) {i : QuarantineItem} {T : Uuid} {actor : String}
    {now : Timestamp} {e : AuditEntry} (hi : i ∈ d.quarantineItem) (hheld : i.status = .held)
    (he : e.Names T actor "quarantine.release" "quarantine_item" i.id) :
    Workflow (Write.apply (.abuseAudit e)
      (Write.apply (.quarantineItem ⟨some i, i.releasedBy actor now⟩) d)) where
  decided j hj := by
    rcases Table.mem_put.1 hj with rfl | ⟨hj, -⟩
    · exact h.decided i hi
    · exact h.decided j hj
  resolved j hj := by
    rcases Table.mem_put.1 hj with rfl | ⟨hj, -⟩
    · exact .inr ⟨rfl, rfl, rfl⟩
    · exact h.resolved j hj
  audited j hj := by
    simp only [Write.apply]
    rw [releasers_append, releasers_release he]
    rcases Table.mem_put.1 hj with rfl | ⟨hj, hne⟩
    · have hnone : releasers d.abuseAuditLog i.id = [] := by
        rw [h.audited i hi]
        rcases h.resolved i hi with ⟨-, -, hby⟩ | ⟨hreleased, -, -⟩
        · rw [hby]
          rfl
        · rw [hheld] at hreleased
          cases hreleased
      change releasers d.abuseAuditLog i.id ++ (if i.id = i.id then [actor] else []) = [actor]
      rw [hnone, if_pos rfl, List.nil_append]
    · rw [if_neg fun hid => hne hid.symm, List.append_nil]
      exact h.audited j hj
  known e' he' haction := by
    have hput : ∀ j ∈ d.quarantineItem,
        ∃ j' ∈ d.quarantineItem.put (i.releasedBy actor now), j'.id = j.id :=
      fun j hj => Table.exists_key_put ⟨j, hj, rfl⟩
    rcases List.mem_append.1 he' with he' | he'
    · obtain ⟨j, hj, hid⟩ := h.known e' he' haction
      obtain ⟨j', hj', hid'⟩ := hput j hj
      exact ⟨j', hj', by rw [hid', hid]⟩
    · rw [List.mem_singleton] at he'
      obtain ⟨j', hj', hid'⟩ := hput i hi
      exact ⟨j', hj', by rw [he', he.entityId, hid']⟩
  storable j hj := by
    rcases Table.mem_put.1 hj with rfl | ⟨hj, -⟩
    · exact h.storable i hi
    · exact h.storable j hj

/-- Feedback touches `reported_as` and nothing else. -/
theorem report (h : Workflow d) {i : QuarantineItem} (hi : i ∈ d.quarantineItem)
    (verdict : String) :
    Workflow (Write.apply (.quarantineItem ⟨some i, { i with reportedAs := some verdict }⟩)
      d) where
  decided j hj := by
    rcases Table.mem_put.1 hj with rfl | ⟨hj, -⟩
    · exact h.decided i hi
    · exact h.decided j hj
  resolved j hj := by
    rcases Table.mem_put.1 hj with rfl | ⟨hj, -⟩
    · exact h.resolved i hi
    · exact h.resolved j hj
  audited j hj := by
    rcases Table.mem_put.1 hj with rfl | ⟨hj, -⟩
    · exact h.audited i hi
    · exact h.audited j hj
  known e he haction := by
    obtain ⟨j, hj, hid⟩ := h.known e he haction
    obtain ⟨j', hj', hid'⟩ := Table.exists_key_put (r := { i with reportedAs := some verdict })
      ⟨j, hj, rfl⟩
    exact ⟨j', hj', by rw [hid', hid]⟩
  storable j hj := by
    rcases Table.mem_put.1 hj with rfl | ⟨hj, -⟩
    · exact h.storable i hi
    · exact h.storable j hj

theorem commit (h : Workflow d) {c : Request} {cs : List (List Write)} {ws : List Write}
    (hpend : postgres.Pending Write.fits ws d) (hc : Committed answers guard c cs d ws) :
    Workflow (postgres.applyAll ws d) := by
  have other : ∀ {action : String}, action ≠ "quarantine.release" → ∀ {e : AuditEntry},
      e.action = action → e.action ≠ "quarantine.release" := fun hne _ he => he ▸ hne
  cases hc with
  | decision row _ entry =>
      obtain ⟨hfit, -⟩ := postgres_lawful.pending_cons hpend
      exact (h.decide hfit).log (other (by decide) entry.action)
  | @quarantine _ _ _ _ x _ _ row action item entry =>
      obtain ⟨hfit, hpend⟩ := postgres_lawful.pending_cons hpend
      obtain ⟨hfit', -⟩ := postgres_lawful.pending_cons hpend
      have hx : x ∈ (Write.apply (.abuseDecision ⟨none, x⟩) d).abuseDecision :=
        Table.mem_put.2 (.inl rfl)
      exact ((h.decide hfit).hold hx row action item hfit').log (other (by decide) entry.action)
  | release _ _ held entry =>
      exact h.release (hpend.fits _ List.mem_cons_self).1 held entry
  | report _ _ _ entry =>
      exact (h.report (hpend.fits _ List.mem_cons_self).1 _).log (other (by decide) entry.action)
  | nothing => exact h
  | _ => exact ⟨h.decided, h.resolved, h.audited, h.known, h.storable⟩

end Workflow

/-! ### Releases -/

/-- The writes move the item from held to released. -/
def releases (id : Uuid) (ws : List Write) : Bool :=
  ws.any fun w => match w with
    | .quarantineItem ⟨some i, i'⟩ =>
        decide (i'.id = id ∧ i.status = .held ∧ i'.status = .released)
    | _ => false

section

variable {sesame : Bool} {answers : ProvisionUser → Except ProviderError Uuid → Prop}
  {σ σ' : State}

/-- A commit logs as many releases of an item as it makes. -/
theorem releasers_commit {guard : {R : Type} → Stmt R → Database → Prop} {c : Request}
    {cs : List (List Write)} {d : Database} {ws : List Write}
    (hc : Committed answers guard c cs d ws) (id : Uuid) :
    (releasers (postgres.applyAll ws d).abuseAuditLog id).length =
      (releasers d.abuseAuditLog id).length + if releases id ws then 1 else 0 := by
  have other : ∀ {action : String}, action ≠ "quarantine.release" → ∀ {e : AuditEntry},
      e.action = action → releasers (d.abuseAuditLog ++ [e]) id = releasers d.abuseAuditLog id := by
    intro action hne e he
    rw [releasers_append, releasers_other (he ▸ hne), List.append_nil]
  cases hc with
  | decision _ _ entry | quarantine _ _ _ entry =>
      have hlog := other (by decide) entry.action
      simpa [postgres, Engine.applyAll, Write.apply, releases] using congrArg List.length hlog
  | @report _ _ _ req _ i e _ _ _ entry =>
      have hlog := other (by decide) entry.action
      have hsame : ¬(i.status = .held ∧ i.status = .released) := by
        rintro ⟨hheld, hreleased⟩
        rw [hheld] at hreleased
        cases hreleased
      have hno : releases id [.quarantineItem ⟨some i,
          { i with reportedAs := some req.verdict }⟩, .abuseAudit e] = false := by
        simp only [releases, List.any_cons, List.any_nil, Bool.or_false, decide_eq_false_iff_not]
        exact fun h => hsame h.2
      rw [hno]
      simpa [postgres, Engine.applyAll, Write.apply] using congrArg List.length hlog
  | @release _ _ _ _ i now e _ _ held entry =>
      have hlog : releasers (d.abuseAuditLog ++ [e]) id = _ := releasers_append _ _ _
      rw [releasers_release entry] at hlog
      have hlen := congrArg List.length hlog
      by_cases hid : i.id = id
      · simpa [postgres, Engine.applyAll, Write.apply, releases, QuarantineItem.releasedBy, hid,
          held] using hlen
      · simpa [postgres, Engine.applyAll, Write.apply, releases, QuarantineItem.releasedBy,
          hid] using hlen
  | _ => simp [postgres, Engine.applyAll, Write.apply, releases]

theorem releases_logged (h : Reached sesame answers σ) (id : Uuid) :
    σ.history.countP (fun e => releases id e.writes) =
      (releasers σ.store.abuseAuditLog id).length := by
  refine (reached_started sesame answers).record_induction
    (J := fun d hist => hist.countP (fun e => releases id e.writes) =
      (releasers d.abuseAuditLog id).length) rfl ?_ h
  intro p c cs d hist ws _ _ _ hpost hJ
  have hcommit := releasers_commit hpost id
  rw [List.countP_append, hJ, List.countP_singleton]
  exact hcommit.symm

theorem workflow (h : Reached sesame answers σ) : Workflow σ.store :=
  (reached_started sesame answers).store_induction Workflow.empty
    (fun _ _ _ _ _ _ hpend hpost hd => hd.commit hpend hpost) h

/-! ### Releases that do not fail -/

/-- A release is settled when it answers 200 or 404. -/
def Request.Settles : Request → Answer → Prop
  | .http caller (.releaseItem _ _), a =>
      textOk caller.actor = true → a.status = some 200 ∨ a.status = some 404
  | _, _ => True

/-- What is left of a request answers as `post` says unless an interaction
fails, on stores as `inv` says. -/
abbrev Unfailing (sesame : Bool) (answers : ProvisionUser → Except ProviderError Uuid → Prop)
    (inv : Database → Prop) (post : Answer → Prop) :
    Program Answer → Option (Session × List Write) → Prop :=
  Prog.Unfailing (services sesame answers) Session.Idle inv post

section

variable {inv : Database → Prop} {post : Answer → Prop}

/-- A statement that the database does not refuse. -/
theorem unfailing_query {R : Type} {q : Stmt R} {f : R → Handler Response} {s : Session}
    {ws : List Write} (h : ∀ d o, inv d → ∃ r s' ws',
      Sql.exec q s o (postgres.applyAll ws d) = .ok (r, s', ws') ∧
        Unfailing sesame answers inv post (f r).serve (some (s', ws ++ ws'))) :
    Unfailing sesame answers inv post ((liftM (query q) : Handler R) >>= f).serve
      (some (s, ws)) := by
  rw [Handler.serve_query]
  refine .stmt fun d o hd => ?_
  obtain ⟨r, s', ws', hexec, hnext⟩ := h d o hd
  constructor
  · intro r₁ s₁ ws₁ hexec₁
    cases hexec.symm.trans hexec₁
    exact hnext
  · intro e herror
    cases hexec.symm.trans herror

theorem unfailing_tenantTx {T : Uuid} {f : Unit → Handler Response}
    (h : ∀ s : Session, s.ForTenant T →
      Unfailing sesame answers inv post (f ()).serve (some (s, []))) :
    Unfailing sesame answers inv post ((liftM (tenantTx T) : Handler Unit) >>= f).serve none := by
  rw [Handler.serve_tenantTx]
  intro s o hidle
  refine unfailing_query (q := .setConfig .currentTenantId T.toText) fun d o' _ => ?_
  refine ⟨(), (s.openTx o).setConfig .currentTenantId T.toText, [], ?_, h _ (hidle.forTenant o T)⟩
  exact Sql.require_bind_eq_ok.2 ⟨textOk_toText T, rfl⟩

theorem unfailing_commit {f : Unit → Handler Response} {tx : Option (Session × List Write)}
    (h : Unfailing sesame answers inv post (f ()).serve none) :
    Unfailing sesame answers inv post ((liftM commit : Handler Unit) >>= f).serve tx := by
  rw [Handler.serve_commit]
  exact h

end

/-- Nothing but a failing interaction keeps a release from being settled. -/
theorem releaseItem_unfailing (caller : Caller) (T itemId : Uuid) :
    Unfailing sesame answers (fun d => ∀ i ∈ d.quarantineItem, textOk i.messageRef = true)
      (Request.http caller (.releaseItem T itemId)).Settles
      (releaseItem T itemId caller).serve none := by
  by_cases hactor : textOk caller.actor = true
  swap
  · exact .of_forall (fun _ h => absurd h hactor) _
  unfold releaseItem
  refine unfailing_tenantTx fun s hs => unfailing_query fun d o hitems => ?_
  cases hfind : (d.quarantineItem.find? itemId).filter fun i =>
      s.sees (some i.tenantId) && decide (i.status = .held) with
  | none =>
      refine ⟨none, s, [], Sql.keep_eq_ok.2 ⟨?_, rfl⟩, fun _ => .inr rfl⟩
      change Sql.releaseItem s d itemId caller.actor = _
      simp only [Sql.releaseItem, hactor, hfind, Sql.require_true, bind, Except.bind]
      rfl
  | some i =>
      have hi : i ∈ d.quarantineItem :=
        (Table.find?_eq_some.1 (Option.filter_eq_some_iff.1 hfind).1).1
      refine ⟨some (i.releasedBy caller.actor s.now), s,
        [.quarantineItem ⟨some i, i.releasedBy caller.actor s.now⟩],
        Sql.keep_eq_ok.2 ⟨?_, rfl⟩, ?_⟩
      · change Sql.releaseItem s d itemId caller.actor = _
        simp only [Sql.releaseItem, hactor, hfind, Sql.require_true, bind, Except.bind]
        rfl
      · refine unfailing_query (q := .insertAudit .abuse _) fun d' o' _ => ?_
        refine ⟨(), s, _, Sql.keep_eq_ok.2 ⟨Sql.insertAudit_eq_ok ?_ ?_ ?_, rfl⟩,
          unfailing_commit fun _ => .inl rfl⟩
        · have hmessage : textOk (i.releasedBy caller.actor s.now).messageRef = true :=
            hitems i hi
          simp [Json.storable, Json.storableMembers, hactor, hmessage]
          decide
        · exact (hs.sees_iff (some T)).2 rfl
        · intro hplane
          cases hplane

/-- A release that no interaction of fails is settled. -/
theorem release_settles {ls : List Event} (hrun : RunsTo sesame answers ls σ)
    {e : Reply Request Database Write Answer} (he : e ∈ σ.replies)
    (hfail : .fail e.pid ∉ ls) : e.request.Settles e.answer := by
  have hprogram : ∀ c, (fun _ => True) c → Unfailing sesame answers
      (fun d => ∀ i ∈ d.quarantineItem, textOk i.messageRef = true) (Request.Settles c)
      ((services sesame answers).program c) none := by
    intro c _
    cases c with
    | http caller route =>
        cases route with
        | releaseItem T itemId => exact releaseItem_unfailing caller T itemId
        | _ => exact .of_forall (fun _ => trivial) _
    | reconcile batch | operator change => exact .of_forall (fun _ => trivial) _
  exact (Sys.Unfailed.run (reached_started sesame answers) hprogram
    (fun hσ => (workflow hσ).storable) .init (.init _ _) hrun hfail).replies e he rfl

/-- What a finished release call has answered and done in a run with the given
events. -/
inductive ReleaseOutcome (ls : List Event) (σ : State)
    (e : Reply Request Database Write Answer) (caller : Caller) (T id : Uuid) : Prop
  | released (i : QuarantineItem) (now : Timestamp) (entry : AuditEntry)
      (item : i.id = id ∧ i.tenantId = T ∧ i.status = .held)
      (history : σ.historyOf e.pid = [⟨e.pid, e.request,
        [.quarantineItem ⟨some i, i.releasedBy caller.actor now⟩, .abuseAudit entry]⟩])
      (answer : e.answer = .http (.ok (.item (i.releasedBy caller.actor now))))
  | notFound (history : σ.historyOf e.pid = [])
      (answer : e.answer = .http ApiError.notFound.intoResponse)
      (gone : ∀ i ∈ e.since.quarantineItem, i.id = id → i.tenantId = T →
        ∃ i' ∈ σ.store.quarantineItem, i'.id = id ∧ i'.status = .released)
  | failed (err : DbError) (history : σ.historyOf e.pid = [])
      (answer : e.answer = .http (ApiError.db err).intoResponse)
      (cause : .fail e.pid ∈ ls ∨ textOk caller.actor = false)

theorem release_outcome {ls : List Event} (hrun : RunsTo sesame answers ls σ)
    {e : Reply Request Database Write Answer} (he : e ∈ σ.replies) {caller : Caller}
    {T id : Uuid} (hreq : e.request = .http caller (.releaseItem T id)) :
    ReleaseOutcome ls σ e caller T id := by
  have h := hrun.reached
  have hsettles := release_settles hrun he
  have hs := reached_started sesame answers
  obtain ⟨d, hinv, hev, hret⟩ := hs.replies_ret h e he
  obtain ⟨-, hhist⟩ := h.recorded.replied e he
  obtain ⟨σ₀, hσ₀, hsince⟩ := h.since.2 e he
  obtain ⟨pid, request, since, commits, answer⟩ := e
  obtain rfl : request = .http caller (.releaseItem T id) := hreq
  cases hret with
  | served hserved =>
      cases hserved with
      | @releaseItem _ _ c entry =>
          have hmem : (⟨pid, .http caller (.releaseItem T id),
              [.quarantineItem c, .abuseAudit entry]⟩ : Commit Request Write) ∈ σ.history := by
            refine List.mem_of_mem_filter (p := fun e => decide (e.pid = pid)) ?_
            change _ ∈ σ.historyOf pid
            rw [hhist]
            exact List.mem_singleton.2 rfl
          obtain ⟨cs, d', -, -, hpost, -⟩ := hs.history_post h _ hmem
          cases hpost with
          | @release _ _ _ _ i now _ hid hT hheld _ =>
              exact .released i now entry ⟨hid, hT, hheld⟩ hhist rfl
  | @refused _ _ _ _ err hrefuses =>
      cases err with
      | db err =>
          refine .failed err hhist rfl (Classical.or_iff_not_imp_left.2 fun hfail => ?_)
          refine Bool.eq_false_iff.2 fun hactor => ?_
          -- the error of a statement is neither of the two answers
          rcases error_status err with hstatus | hstatus <;>
            rcases hsettles hfail hactor with hsettled | hsettled <;>
            cases hstatus.symm.trans hsettled
      | notFound =>
          refine .notFound hhist rfl fun i hi hid hT => ?_
          have hdel : i.status ≠ .deleted := by
            have hi : i ∈ σ₀.store.quarantineItem := hsince ▸ hi
            rcases (workflow hσ₀).resolved i hi with ⟨hst, -⟩ | ⟨hst, -⟩ <;> rw [hst] <;> simp
          obtain ⟨i', hi', hid', hreleased⟩ := hrefuses i hi hid hT hdel
          obtain ⟨i'', hi'', hfixed, hfollows⟩ := hev.quarantineItem i' hi'
          have hid'' := congrArg QuarantineItem.id hfixed
          refine ⟨i'', hi'', hid''.trans hid', ?_⟩
          rcases hfollows with ⟨hst, -, -⟩ | ⟨-, hst⟩
          · exact hst.trans hreleased
          · exact hst
      | unauthorized | conflict _ | validation _ => exact hrefuses.elim

/-- The quarantine state machine in the state that a run with the given events
leads to. -/
structure QuarantineSound (ls : List Event) (σ : State) : Prop where
  unique : ∀ i ∈ σ.store.quarantineItem, ∀ i' ∈ σ.store.quarantineItem,
    i.tenantId = i'.tenantId → i.messageRef = i'.messageRef → i = i'
  decided : ∀ i ∈ σ.store.quarantineItem, ∃ x ∈ σ.store.abuseDecision, x.id = i.decisionId ∧
    x.tenantId = i.tenantId ∧ x.messageRef = i.messageRef ∧ x.action = "quarantine"
  resolved : ∀ i ∈ σ.store.quarantineItem,
    i.status = .held ∧ i.resolvedAt = none ∧ i.resolvedBy = none ∨
      i.status = .released ∧ i.resolvedAt.isSome ∧ i.resolvedBy.isSome
  /-- A released item has one release entry, by the actor the item names; a
  held one has none. -/
  audited : ∀ i ∈ σ.store.quarantineItem,
    releasers σ.store.abuseAuditLog i.id = i.resolvedBy.toList
  releasedOnce : ∀ i ∈ σ.store.quarantineItem,
    σ.history.countP (fun e => releases i.id e.writes) = if i.status = .released then 1 else 0
  releaseOutcome : ∀ e ∈ σ.replies, ∀ caller T id,
    e.request = .http caller (.releaseItem T id) → ReleaseOutcome ls σ e caller T id
  reported : ∀ e ∈ σ.history, ∀ caller T id req,
    e.request = .http caller (.reportItem T id req) → ∃ (i : QuarantineItem) (entry : AuditEntry),
      i.id = id ∧ i.tenantId = T ∧
        e.writes = [.quarantineItem ⟨some i, { i with reportedAs := some req.verdict }⟩,
          .abuseAudit entry]

/-- In every run the quarantine state machine is sound, and items only move
from held to released. -/
theorem quarantine_sound {ls : List Event} (hrun : RunsTo sesame answers ls σ) :
    QuarantineSound ls σ ∧ ∀ ls' σ', Run (services sesame answers) (fun _ => True)
      (fun _ _ => True) σ ls' σ' →
        σ.store.quarantineItem.Leads QuarantineItem.Follows σ'.store.quarantineItem := by
  have h := hrun.reached
  have hs := reached_started sesame answers
  have hw := workflow h
  refine ⟨⟨?_, hw.decided, hw.resolved, hw.audited, ?_, ?_, ?_⟩, ?_⟩
  · intro i hi i' hi' hT href
    exact (hs.inv h).store.item_unique i hi i' hi' (Prod.ext hT href)
  · intro i hi
    rw [releases_logged h, hw.audited i hi]
    rcases hw.resolved i hi with ⟨hst, -, hby⟩ | ⟨hst, -, hby⟩
    · simp [hst, hby]
    · obtain ⟨actor, hactor⟩ := Option.isSome_iff_exists.1 hby
      simp [hst, hactor]
  · exact fun e he caller T id hreq => release_outcome hrun he hreq
  · intro e he caller T id req hreq
    obtain ⟨cs, d, -, -, hpost, -⟩ := hs.history_post h e he
    rw [hreq] at hpost
    generalize e.writes = ws at hpost ⊢
    cases hpost with
    | nothing hreads => cases hreads
    | @report _ _ _ _ _ i entry hid hT => exact ⟨i, entry, hid, hT, rfl⟩
  · exact fun ls' σ' hrun' => (hs.evolves h hrun' (Evolves.refl _)).quarantineItem

/-- A message is quarantined, released, and released again. -/
def releaseTwice : List Event :=
  let release : Request :=
    .http ⟨"operator", none, []⟩ (.releaseItem (.number 100) (.number 3))
  [.spawn 0 (scan "a@b.example")] ++ undisturbed 0 1 4 ++ [.reply 0] ++
  [.spawn 1 release] ++ undisturbed 1 10 3 ++ [.reply 1] ++
  [.spawn 2 release, .start 2 0 (.number 20), .stmt 2 (.number 20), .stmt 2 (.number 21),
    .reply 2]

theorem quarantine_sound_releaseTwice :
    ∃ σ, RunsTo false (fun _ _ => False) releaseTwice σ ∧
      σ.replies.map (fun e => e.answer.status) = [some 201, some 200, some 404] ∧
      QuarantineSound releaseTwice σ ∧
      ∀ ls σ', Run (services false fun _ _ => False) (fun _ => True) (fun _ _ => True) σ ls σ' →
        σ.store.quarantineItem.Leads QuarantineItem.Follows σ'.store.quarantineItem := by
  have hplay : (play false (fun _ _ => False) releaseTwice).any (fun σ =>
      decide (σ.replies.map (fun e => e.answer.status) = [some 201, some 200, some 404])) =
      true := by
    decide +kernel
  obtain ⟨σ, hσ, hanswers⟩ := runsTo_of_play hplay
  exact ⟨σ, hσ, of_decide_eq_true hanswers, quarantine_sound hσ⟩

/-! ### Held messages -/

/-- `list_quarantine` of the tenant shows a held item for the message and the
recipient. -/
def Listed (d : Database) (T : Uuid) (messageRef recipient : String) : Prop :=
  ∀ (s : Session) o, s.ForTenant T →
    ∃ i ∈ Sql.selectHeld s o d, i.messageRef = messageRef ∧ i.recipient = recipient

theorem listed_iff {d : Database} {T : Uuid} {messageRef recipient : String} :
    Listed d T messageRef recipient ↔ ∃ i ∈ d.quarantineItem, i.tenantId = T ∧
      i.status = .held ∧ i.messageRef = messageRef ∧ i.recipient = recipient := by
  constructor
  · intro h
    have hs := Session.idle_new.forTenant (.number 0) T
    obtain ⟨i, hi, hrest⟩ := h _ (.number 0) hs
    obtain ⟨hmem, hsees, hheld⟩ := Sql.mem_selectHeld.1 hi
    have hT : i.tenantId = T := by simpa using (hs.sees_iff _).1 hsees
    exact ⟨i, hmem, hT, hheld, hrest⟩
  · rintro ⟨i, hi, hT, hheld, hrest⟩ s o hs
    exact ⟨i, Sql.mem_selectHeld.2 ⟨hi, (hs.sees_iff _).2 (congrArg some hT), hheld⟩, hrest⟩

/-- A quarantine decision that commits leaves a held item listed exactly when
no earlier item of the message stands in the way: none at all, or one that is
still held, for the same recipient. -/
theorem quarantine_listed_iff (h : Reached sesame answers σ) {p : Nat}
    {P : Proc Stmt Session Database Write DbError ProvisionUser (Except ProviderError Uuid)
      Request Answer} (hp : σ.procs p = some P) {caller : Caller} {T : Uuid}
    {req : RecordDecision} (hreq : P.request = .http caller (.recordDecision T req))
    (haction : req.action = "quarantine") (hstep : Steps sesame answers σ (.commit p) σ') :
    Listed σ'.store T req.messageRef req.recipient ↔
      ∀ i ∈ σ.store.quarantineItem, i.tenantId = T → i.messageRef = req.messageRef →
        i.status = .held ∧ i.recipient = req.recipient := by
  rw [listed_iff]
  cases hstep with
  | @commit _ P' t k hp' hprog ht =>
      obtain rfl : P = P' := Option.some.inj (hp.symm.trans hp')
      obtain ⟨hinv, hpend, hpost⟩ := (reached_started sesame answers).commit_post h hp hprog ht
      have hpost : Committed answers (fun _ _ => True) P.request P.commits σ.store t.writes :=
        hpost
      have hpend : postgres.Pending Write.fits t.writes σ.store := hpend
      rw [hreq] at hpost
      change (∃ i ∈ (postgres.applyAll t.writes σ.store).quarantineItem, _) ↔ _
      generalize t.writes = ws at hpost hpend ⊢
      generalize P.commits = cs at hpost
      cases hpost with
      | nothing hreads => cases hreads
      | decision row kept =>
          obtain ⟨i, hi, hkey⟩ := kept haction
          have hT : i.tenantId = T := congrArg Prod.fst hkey
          have href : i.messageRef = req.messageRef := congrArg Prod.snd hkey
          change (∃ i ∈ σ.store.quarantineItem, _) ↔ _
          constructor
          · rintro ⟨j, hj, hjT, hheld, hjref, hjrcpt⟩ i' hi' hT' href'
            have hji : j = i' :=
              hinv.item_unique j hj i' hi' (Prod.ext (hjT.trans hT'.symm) (hjref.trans href'.symm))
            exact hji ▸ ⟨hheld, hjrcpt⟩
          · intro hall
            obtain ⟨hheld, hrcpt⟩ := hall i hi hT href
            exact ⟨i, hi, hT, hheld, href, hrcpt⟩
      | @quarantine _ _ _ _ x i _ row _ item =>
          have hfit := hpend.fits (.quarantineItem ⟨none, i⟩) (by simp)
          constructor
          · intro _ j hj hT href
            exact absurd (Prod.ext (hT.trans item.tenantId.symm)
              (href.trans item.messageRef.symm)) (hfit j hj).2
          · intro _
            exact ⟨i, Table.mem_put.2 (.inl rfl), item.tenantId, item.status, item.messageRef,
              item.recipient⟩

def Route.scan? : Route → Option (Uuid × RecordDecision)
  | .recordDecision T req => some (T, req)
  | _ => none

/-- The scan a request reports, and for which tenant. -/
def Request.scan? : Request → Option (Uuid × RecordDecision)
  | .http _ route => route.scan?
  | .reconcile _ => none
  | .operator _ => none

theorem Request.scan?_eq_some {c : Request} {T : Uuid} {req : RecordDecision}
    (h : c.scan? = some (T, req)) : ∃ caller, c = .http caller (.recordDecision T req) := by
  cases c with
  | http caller route =>
      cases route with
      | recordDecision T' req' =>
          cases h
          exact ⟨caller, rfl⟩
      | _ => simp [scan?, Route.scan?] at h
  | reconcile | operator => simp [scan?] at h

/-- Two recipients of one message: the second decision is about to commit. -/
def twoRecipients : List Event :=
  [.spawn 0 (scan "a@b.example")] ++ undisturbed 0 1 4 ++ [.reply 0] ++
  [.spawn 1 (scan "c@b.example")] ++ (undisturbed 1 10 4).dropLast

/-- In that run the second recipient's message is not listed. -/
theorem quarantine_not_listed :
    ∃ σ σ' P caller T req, Reached false (fun _ _ => False) σ ∧ σ.procs 1 = some P ∧
      P.request = .http caller (.recordDecision T req) ∧ req.action = "quarantine" ∧
      Steps false (fun _ _ => False) σ (.commit 1) σ' ∧
      ¬Listed σ'.store T req.messageRef req.recipient := by
  have hplay : ((play false (fun _ _ => False) twoRecipients).any fun σ =>
      (next (services false fun _ _ => False) (fun _ => True) (fun _ _ => True) σ
        (.commit 1)).any fun σ' => (σ.procs 1).any fun P => P.request.scan?.any fun scan =>
          decide (scan.2.action = "quarantine") &&
            σ'.store.quarantineItem.rows.all fun i => decide (i.recipient ≠ scan.2.recipient)) =
      true := by
    decide +kernel
  obtain ⟨σ, σ', hσ, hstep, h⟩ := step_of_play hplay
  simp only [Option.any_eq_true, Bool.and_eq_true, decide_eq_true_eq, List.all_eq_true] at h
  obtain ⟨P, hp, ⟨T, req⟩, hscan, haction, hothers⟩ := h
  obtain ⟨caller, hreq⟩ := Request.scan?_eq_some hscan
  refine ⟨σ, σ', P, caller, T, req, hσ, hp, hreq, haction, hstep, fun hlisted => ?_⟩
  obtain ⟨i, hi, -, -, -, hrcpt⟩ := listed_iff.1 hlisted
  exact hothers i hi hrcpt

/-- A scan is reported again: the second decision is about to commit. -/
def retried : List Event :=
  [.spawn 0 (scan "a@b.example")] ++ undisturbed 0 1 4 ++ [.reply 0] ++
  [.spawn 1 (scan "a@b.example")] ++ (undisturbed 1 10 4).dropLast

theorem quarantine_listed_iff_retried :
    ∃ σ σ' P caller T req, Reached false (fun _ _ => False) σ ∧ σ.procs 1 = some P ∧
      P.request = .http caller (.recordDecision T req) ∧ req.action = "quarantine" ∧
      Steps false (fun _ _ => False) σ (.commit 1) σ' ∧
      (∃ i ∈ σ.store.quarantineItem, i.tenantId = T ∧ i.messageRef = req.messageRef) ∧
      Listed σ'.store T req.messageRef req.recipient := by
  have hplay : ((play false (fun _ _ => False) retried).any fun σ =>
      (next (services false fun _ _ => False) (fun _ => True) (fun _ _ => True) σ
        (.commit 1)).any fun _ => (σ.procs 1).any fun P => P.request.scan?.any fun scan =>
          decide (scan.2.action = "quarantine") &&
            (σ.store.quarantineItem.rows.any fun i =>
              decide (i.tenantId = scan.1 ∧ i.messageRef = scan.2.messageRef)) &&
            σ.store.quarantineItem.rows.all fun i =>
              decide (i.status = .held ∧ i.recipient = scan.2.recipient)) = true := by
    decide +kernel
  obtain ⟨σ, σ', hσ, hstep, h⟩ := step_of_play hplay
  simp only [Option.any_eq_true, Bool.and_eq_true, decide_eq_true_eq, List.all_eq_true,
    List.any_eq_true] at h
  obtain ⟨P, hp, ⟨T, req⟩, hscan, ⟨haction, hearlier⟩, hheld⟩ := h
  obtain ⟨caller, hreq⟩ := Request.scan?_eq_some hscan
  refine ⟨σ, σ', P, caller, T, req, hσ, hp, hreq, haction, hstep, hearlier, ?_⟩
  exact (quarantine_listed_iff hσ hp hreq haction hstep).2 fun i hi _ _ => hheld i hi

end

end OpenGroupware
