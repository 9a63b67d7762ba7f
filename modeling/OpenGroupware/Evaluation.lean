import OpenGroupware.Outlines
import OpenGroupware.Transactional.Eval

/-!
Handlers run alone while the databases are available: one rule for each
interaction, in the order handlers make them.
-/

namespace OpenGroupware

open Relational Transactional

/-- What a handler meets when nothing fails. -/
abbrev Weather : Type := World Oracle ProvisionUser (Except ProviderError Uuid)

/-- The status of a response. -/
def Answer.status : Answer → Option Nat
  | .http r => some r.status
  | _ => none

theorem error_status (e : DbError) :
    (Answer.http (ApiError.db e).intoResponse).status = some 409 ∨
      (Answer.http (ApiError.db e).intoResponse).status = some 500 := by
  cases e <;> decide

/-- No error of a statement is a success. -/
theorem error_status_ne (e : DbError) :
    (Answer.http (ApiError.db e).intoResponse).status ≠ some 200 := by
  intro hstatus
  rcases error_status e with h | h <;> cases h.symm.trans hstatus

namespace Handler

variable {w : Weather} {z : Solo Session Database} {R : Type} {s s' : Session}
  {ws ws' : List Write}

theorem eval_check {f : Unit → Handler Response} {tx : Option (Session × List Write)}
    {x : Except ApiError Unit} (h : x = .ok ()) :
    eval postgres w ((liftM x : Handler Unit) >>= f).serve tx z =
      eval postgres w (f ()).serve tx z := by
  rw [serve_check, h]

theorem eval_tenantTx (T : Uuid) (f : Unit → Handler Response) :
    eval postgres w ((liftM (tenantTx T) : Handler Unit) >>= f).serve none z =
      eval postgres w (f ()).serve
        (some ((z.session.openTx (w.oracle z.clock)).setConfig .currentTenantId T.toText, []))
        { z with clock := z.clock + 2 } := by
  rw [serve_tenantTx]
  simp only [eval, resumeTx, postgres, Sql.exec, textOk_toText, Sql.require_true]
  rfl

theorem eval_platformTx (f : Unit → Handler Response) :
    eval postgres w ((liftM platformTx : Handler Unit) >>= f).serve none z =
      eval postgres w (f ()).serve
        (some ((z.session.openTx (w.oracle z.clock)).setConfig .isPlatformAdmin "true", []))
        { z with clock := z.clock + 2 } := by
  rw [serve_platformTx]
  rfl

theorem eval_query {q : Stmt R} {f : R → Handler Response} {r : R}
    (h : Sql.exec q s (w.oracle z.clock) (postgres.applyAll ws z.store) = .ok (r, s', ws')) :
    eval postgres w ((liftM (query q) : Handler R) >>= f).serve (some (s, ws)) z =
      eval postgres w (f r).serve (some (s', ws ++ ws')) { z with clock := z.clock + 1 } := by
  have h : postgres.exec q s (w.oracle z.clock) (postgres.applyAll ws z.store) =
      .ok (r, s', ws') := h
  rw [serve_query]
  simp only [eval, h, resume]

theorem eval_query_error {q : Stmt R} {f : R → Handler Response} {e : DbError}
    (h : Sql.exec q s (w.oracle z.clock) (postgres.applyAll ws z.store) = .error e) :
    (eval postgres w ((liftM (query q) : Handler R) >>= f).serve (some (s, ws)) z).1 =
      .http (ApiError.db e).intoResponse := by
  have h : postgres.exec q s (w.oracle z.clock) (postgres.applyAll ws z.store) = .error e := h
  rw [serve_query]
  simp only [eval, h, resume]

/-- An audit entry is written, or the handler fails. -/
theorem eval_record_cases (plane : Plane) (e : AuditEntry) (f : Unit → Handler Response) :
    (∃ err, (eval postgres w ((liftM (record plane e) : Handler Unit) >>= f).serve
        (some (s, ws)) z).1 = .http (ApiError.db err).intoResponse) ∨
      eval postgres w ((liftM (record plane e) : Handler Unit) >>= f).serve (some (s, ws)) z =
        eval postgres w (f ()).serve (some (s, ws ++ [plane.appendix e]))
          { z with clock := z.clock + 1 } := by
  rw [show record plane e = query (.insertAudit plane e) from rfl]
  cases hexec : Sql.exec (.insertAudit plane e) s (w.oracle z.clock)
      (postgres.applyAll ws z.store) with
  | error err => exact .inl ⟨err, eval_query_error hexec⟩
  | ok r =>
      obtain ⟨u, s', ws'⟩ := r
      obtain ⟨hok, rfl⟩ := Sql.keep_eq_ok.1 hexec
      obtain ⟨-, rfl⟩ := Sql.insertAudit_ok hok
      exact .inr (eval_query hexec)

theorem eval_commit (f : Unit → Handler Response) :
    eval postgres w ((liftM commit : Handler Unit) >>= f).serve (some (s, ws)) z =
      eval postgres w (f ()).serve none
        { z with store := postgres.applyAll ws z.store, session := s.closeTx } := by
  rw [serve_commit]
  rfl

theorem eval_pure (r : Response) (tx : Option (Session × List Write)) :
    (eval postgres w (pure r : Handler Response).serve tx z).1 = .http r := by
  rw [serve_pure]
  cases tx <;> rfl

end Handler

/-! ### Requests run alone -/

section

variable {sesame : Bool} {answers : ProvisionUser → Except ProviderError Uuid → Prop}
  {w : Weather} {σ : State} {p conn n : Nat} {c : Request}

/-- While no transaction is open, a request can be sent and run alone, and a
run of the services comes to what the evaluation says. -/
theorem reached_of_eval (h : Reached sesame answers σ) (hp : p ∉ σ.started)
    (hquiet : ∀ q P, σ.procs q = some P → P.tx = none)
    (hanswer : ∀ x, answers x (w.answer x))
    (hfresh : FreshEval postgres w (c.program sesame) none ⟨σ.store, σ.conns conn, n⟩) :
    ∃ σ', Reached sesame answers σ' ∧
      σ'.store = (eval postgres w (c.program sesame) none ⟨σ.store, σ.conns conn, n⟩).2.store ∧
      ∃ e, σ'.replies = σ.replies ++ [e] ∧ e.pid = p ∧
        e.answer = (eval postgres w (c.program sesame) none ⟨σ.store, σ.conns conn, n⟩).1 := by
  obtain ⟨ls, σ', hrun, hstore, hreply⟩ : ∃ ls σ', Run (services sesame answers) (fun _ => True)
      (fun _ _ => True) σ (.spawn p c :: ls) σ' ∧ _ :=
    run_of_eval hp trivial hquiet (fun _ _ => trivial) hanswer hfresh
  exact ⟨σ', h.run hrun, hstore, hreply⟩

end

end OpenGroupware
