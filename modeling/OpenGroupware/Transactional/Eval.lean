import OpenGroupware.Transactional.System

/-!
A program run alone, with no failure: what it answers and the store it leaves.
Such an evaluation is a run of the system in which the other programs stand
still.
-/

namespace Transactional

variable {Q : Type → Type} {S O D W E X Y C α : Type}

/-- What the environment supplies to a program that runs alone. -/
structure World (O X Y : Type) where
  oracle : Nat → O
  answer : X → Y

/-- The store, the settings of the pooled connection, and the number of
oracles used up. -/
structure Solo (S D : Type) where
  store : D
  session : S
  clock : Nat

section

variable (eng : Engine Q S O D W E) (w : World O X Y)

def eval : Prog Q E X Y α → Option (S × List W) → Solo S D → α × Solo S D
  | .ret a, none, z => (a, z)
  | .ret a, some (s, _), z => (a, { z with session := eng.closeTx s })
  | .start k, none, z =>
      eval (k (.ok ())) (some (eng.openTx (w.oracle z.clock) z.session, []))
        { z with clock := z.clock + 1 }
  | .start k, some (s, _), z =>
      eval (k (.error eng.failure)) none { z with session := eng.closeTx s }
  | .stmt q k, some (s, ws), z =>
      match eng.exec q s (w.oracle z.clock) (eng.applyAll ws z.store) with
      | .ok (r, s', ws') =>
          eval (k (.ok r)) (some (s', ws ++ ws')) { z with clock := z.clock + 1 }
      | .error e =>
          eval (k (.error e)) none
            { z with session := eng.closeTx s, clock := z.clock + 1 }
  | .stmt _ k, none, z => eval (k (.error eng.failure)) none z
  | .commit k, some (s, ws), z =>
      eval (k (.ok ())) none
        { z with store := eng.applyAll ws z.store, session := eng.closeTx s }
  | .commit k, none, z => eval (k (.error eng.failure)) none z
  | .call x k, tx, z => eval (k (w.answer x)) tx z

/-- A program whose answer is turned into another. -/
theorem eval_map {β : Type} (g : α → β) (prog : Prog Q E X Y α) (tx : Option (S × List W))
    (z : Solo S D) :
    eval eng w (prog >>= fun a => .ret (g a)) tx z =
      (g (eval eng w prog tx z).1, (eval eng w prog tx z).2) := by
  induction prog generalizing tx z with
  | ret a => cases tx <;> rfl
  | start k ih =>
      cases tx with
      | none => exact ih _ _ _
      | some t => exact ih _ _ _
  | stmt q k ih =>
      cases tx with
      | none => exact ih _ _ _
      | some t =>
          obtain ⟨s, ws⟩ := t
          rw [Prog.stmt_bind]
          unfold eval
          cases eng.exec q s (w.oracle z.clock) (eng.applyAll ws z.store) with
          | error e => exact ih _ _ _
          | ok r => exact ih _ _ _
  | commit k ih =>
      cases tx with
      | none => exact ih _ _ _
      | some t => exact ih _ _ _
  | call x k ih => exact ih _ _ _

/-- The oracles the program uses are fresh where it uses them. -/
def FreshEval : Prog Q E X Y α → Option (S × List W) → Solo S D → Prop
  | .ret _, _, _ => True
  | .start k, none, z =>
      FreshEval (k (.ok ())) (some (eng.openTx (w.oracle z.clock) z.session, []))
        { z with clock := z.clock + 1 }
  | .start k, some (s, _), z =>
      FreshEval (k (.error eng.failure)) none { z with session := eng.closeTx s }
  | .stmt q k, some (s, ws), z =>
      eng.fresh (w.oracle z.clock) z.store ∧
        eng.fresh (w.oracle z.clock) (eng.applyAll ws z.store) ∧
        match eng.exec q s (w.oracle z.clock) (eng.applyAll ws z.store) with
        | .ok (r, s', ws') =>
            FreshEval (k (.ok r)) (some (s', ws ++ ws')) { z with clock := z.clock + 1 }
        | .error e =>
            FreshEval (k (.error e)) none
              { z with session := eng.closeTx s, clock := z.clock + 1 }
  | .stmt _ k, none, z => FreshEval (k (.error eng.failure)) none z
  | .commit k, some (s, ws), z =>
      FreshEval (k (.ok ())) none
        { z with store := eng.applyAll ws z.store, session := eng.closeTx s }
  | .commit k, none, z => FreshEval (k (.error eng.failure)) none z
  | .call x k, tx, z => FreshEval (k (w.answer x)) tx z

end

/-! ### Evaluations are runs -/

section

variable {m : Machine Q S O D W E X Y C α} {allow : C → Prop}
  {guard : {R : Type} → Q R → D → Prop} {w : World O X Y}

/-- Program `p` is the only one with an open transaction, which is on
connection `conn`. -/
structure Alone (σ : Sys Q S D W E X Y C α) (p conn : Nat) (prog : Prog Q E X Y α)
    (tx : Option (S × List W)) (z : Solo S D) : Prop where
  running : ∃ P, σ.procs p = some P ∧ P.prog = prog ∧
    P.tx = tx.map fun t => ⟨conn, t.1, t.2⟩
  quiet : ∀ q P, q ≠ p → σ.procs q = some P → P.tx = none
  store : σ.store = z.store
  session : tx = none → σ.conns conn = z.session

variable {σ : Sys Q S D W E X Y C α} {p conn : Nat} {prog : Prog Q E X Y α}
  {tx : Option (S × List W)} {z : Solo S D}

theorem Alone.tx_eq (h : Alone σ p conn prog tx z) {q : Nat} {P : Proc Q S D W E X Y C α}
    {t : Tx S W} (hq : σ.procs q = some P) (ht : P.tx = some t) :
    q = p ∧ tx = some (t.session, t.writes) := by
  by_cases hqp : q = p
  · refine ⟨hqp, ?_⟩
    obtain ⟨P', hp, -, htx⟩ := h.running
    obtain rfl : P = P' := Option.some.inj (hq.symm.trans (hqp ▸ hp))
    rw [ht] at htx
    cases tx with
    | none => simp at htx
    | some t' =>
        obtain rfl : t = _ := by simpa using htx
        rfl
  · rw [h.quiet q P hqp hq] at ht
    cases ht

/-- From `σ`, program `p` can run to its answer while the others stand still. -/
def Finishes (m : Machine Q S O D W E X Y C α) (allow : C → Prop)
    (guard : {R : Type} → Q R → D → Prop) (σ : Sys Q S D W E X Y C α) (p : Nat)
    (out : α × Solo S D) : Prop :=
  ∃ ls σ', Run m allow guard σ ls σ' ∧ σ'.store = out.2.store ∧
    σ'.procs = Function.update σ.procs p none ∧
    ∃ c b cs, σ'.replies = σ.replies ++ [⟨p, c, b, cs, out.1⟩]

theorem Finishes.cons {σ₁ : Sys Q S D W E X Y C α} {l : Label O C Y}
    {P : Option (Proc Q S D W E X Y C α)} {out : α × Solo S D} (hstep : Step m allow guard σ l σ₁)
    (hprocs : σ₁.procs = Function.update σ.procs p P) (hreplies : σ₁.replies = σ.replies)
    (h : Finishes m allow guard σ₁ p out) : Finishes m allow guard σ p out := by
  obtain ⟨ls, σ', hrun, hstore, hprocs', c, b, cs, hreplies'⟩ := h
  refine ⟨l :: ls, σ', .cons hstep hrun, hstore, ?_, c, b, cs, by rw [hreplies', hreplies]⟩
  rw [hprocs', hprocs, Function.update_idem]

theorem Alone.next (h : Alone σ p conn prog tx z) {σ₁ : Sys Q S D W E X Y C α}
    (P : Proc Q S D W E X Y C α) {prog' : Prog Q E X Y α} {tx' : Option (S × List W)}
    {z' : Solo S D} (hprocs : σ₁.procs = Function.update σ.procs p (some P))
    (hprog : P.prog = prog') (htx : P.tx = tx'.map fun t => ⟨conn, t.1, t.2⟩)
    (hstore : σ₁.store = z'.store) (hsession : tx' = none → σ₁.conns conn = z'.session) :
    Alone σ₁ p conn prog' tx' z' where
  running := ⟨P, by simp [hprocs], hprog, htx⟩
  quiet q P' hqp hq := h.quiet q P' hqp (by simpa [hprocs, hqp] using hq)
  store := hstore
  session := hsession

/-- An interaction that fails closes the transaction, if there is one. -/
theorem Alone.fail (h : Alone σ p conn prog tx z) {prog' : Prog Q E X Y α}
    (hfail : prog.failed m.failure = some prog') :
    ∃ σ₁ P', Step m allow guard σ (.fail p) σ₁ ∧
      σ₁.procs = Function.update σ.procs p (some P') ∧ σ₁.replies = σ.replies ∧
      Alone σ₁ p conn prog' none
        (match tx with
          | none => z
          | some t => { z with session := m.closeTx t.1 }) := by
  obtain ⟨P, hp, rfl, htx⟩ := h.running
  refine ⟨_, { P with prog := prog', tx := none }, .fail hp hfail, by simp, by simp, ?_⟩
  refine h.next { P with prog := prog', tx := none } (by simp) rfl rfl ?_ fun _ => ?_
  · cases tx <;> simpa using h.store
  · cases tx with
    | none => simpa [htx, Sys.close] using h.session rfl
    | some t => simp [htx, Sys.close]

/-- Where the others stand still, an evaluation is a run of the system. The
induction is on the program; each interaction is one step. -/
theorem finishes_of_eval (prog : Prog Q E X Y α) (hguard : ∀ {R : Type} (q : Q R) d, guard q d)
    (hanswer : ∀ x, m.answers x (w.answer x)) (h : Alone σ p conn prog tx z)
    (hfresh : FreshEval m.toEngine w prog tx z) :
    Finishes m allow guard σ p (eval m.toEngine w prog tx z) := by
  induction prog generalizing σ tx z with
  | ret a =>
      obtain ⟨P, hp, hprog, -⟩ := h.running
      refine ⟨_, _, .cons (.reply hp hprog) .nil, ?_, by simp, P.request, P.since, P.commits, ?_⟩
      · cases tx <;> simpa [eval] using h.store
      · cases tx <;> rfl
  | start k ih =>
      obtain ⟨P, hp, hprog, htx⟩ := h.running
      cases tx with
      | some t =>
          obtain ⟨σ₁, P', hstep, hprocs, hreplies, hnext⟩ := h.fail (m := m) rfl
          exact .cons hstep hprocs hreplies (ih _ hnext hfresh)
      | none =>
          have hfree : σ.Free conn := fun q P' t hq ht => by simpa using (h.tx_eq hq ht).2
          refine .cons (.start (o := w.oracle z.clock) hp hprog htx hfree) rfl rfl
            (ih _ (h.next _ rfl rfl ?_ h.store (by simp)) hfresh)
          simp [h.session rfl]
  | stmt q k ih =>
      obtain ⟨P, hp, hprog, htx⟩ := h.running
      cases tx with
      | none =>
          obtain ⟨σ₁, P', hstep, hprocs, hreplies, hnext⟩ := h.fail (m := m) rfl
          exact .cons hstep hprocs hreplies (ih _ hnext hfresh)
      | some t =>
          obtain ⟨s, ws⟩ := t
          simp only [FreshEval] at hfresh
          obtain ⟨hstore, hview, hlast⟩ := hfresh
          have hview : σ.Fresh m.toEngine (w.oracle z.clock) := by
            refine ⟨h.store ▸ hstore, fun q P' t hq ht => ?_⟩
            obtain ⟨-, heq⟩ := h.tx_eq hq ht
            cases heq
            rw [h.store]
            exact hview
          simp only [eval]
          cases hexec : m.exec q s (w.oracle z.clock) (m.applyAll ws z.store) with
          | error e =>
              rw [hexec] at hlast
              rw [← h.store] at hexec
              refine .cons (P := some { P with prog := k (.error e), tx := none })
                (.stmtError hp hprog htx hview (hguard q _) hexec) (by simp) (by simp)
                (ih _ (h.next { P with prog := k (.error e), tx := none } (by simp) rfl rfl
                  (by simpa using h.store) ?_) hlast)
              simp [htx, Sys.close]
          | ok r =>
              obtain ⟨r, s', ws'⟩ := r
              rw [hexec] at hlast
              rw [← h.store] at hexec
              have hfree : σ.Unblocked m.toEngine p ws' := by
                intro q P' t hqp hq ht
                exact absurd (h.tx_eq hq ht).1 hqp
              exact .cons (.stmt hp hprog htx hview (hguard q _) hexec hfree) rfl rfl
                (ih _ (h.next _ rfl rfl rfl h.store (by simp)) hlast)
  | commit k ih =>
      obtain ⟨P, hp, hprog, htx⟩ := h.running
      cases tx with
      | none =>
          obtain ⟨σ₁, P', hstep, hprocs, hreplies, hnext⟩ := h.fail (m := m) rfl
          exact .cons hstep hprocs hreplies (ih _ hnext hfresh)
      | some t =>
          obtain ⟨s, ws⟩ := t
          refine .cons
            (P := some { P with prog := k (.ok ()), tx := none, commits := P.commits ++ [ws] })
            (.commit hp hprog htx) (by simp) (by simp)
            (ih _ (h.next
              { P with prog := k (.ok ()), tx := none, commits := P.commits ++ [ws] }
              (by simp) rfl rfl ?_ ?_) hfresh)
          · simp [h.store]
          · simp [htx, Sys.close]
  | call x k ih =>
      obtain ⟨P, hp, hprog, htx⟩ := h.running
      exact .cons (.call hp hprog (hanswer x)) rfl rfl
        (ih _ (h.next _ rfl rfl htx h.store h.session) hfresh)

/-- While no transaction is open, a request can be sent and run alone: the run
comes to what the evaluation of its program says. -/
theorem run_of_eval {c : C} {n : Nat} (hp : p ∉ σ.started) (hc : allow c)
    (hquiet : ∀ q P, σ.procs q = some P → P.tx = none)
    (hguard : ∀ {R : Type} (q : Q R) d, guard q d) (hanswer : ∀ x, m.answers x (w.answer x))
    (hfresh : FreshEval m.toEngine w (m.program c) none ⟨σ.store, σ.conns conn, n⟩) :
    ∃ ls σ', Run m allow guard σ (.spawn p c :: ls) σ' ∧
      σ'.store = (eval m.toEngine w (m.program c) none ⟨σ.store, σ.conns conn, n⟩).2.store ∧
      ∃ e, σ'.replies = σ.replies ++ [e] ∧ e.pid = p ∧
        e.answer = (eval m.toEngine w (m.program c) none ⟨σ.store, σ.conns conn, n⟩).1 := by
  have hstep : Step m allow guard σ (.spawn p c)
      { σ.set p (some ⟨c, σ.store, m.program c, none, []⟩) with started := p :: σ.started } :=
    .spawn hp hc
  have halone : Alone
      { σ.set p (some ⟨c, σ.store, m.program c, none, []⟩) with started := p :: σ.started }
      p conn (m.program c) none ⟨σ.store, σ.conns conn, n⟩ := by
    refine ⟨⟨_, Function.update_self .., rfl, rfl⟩, fun q P hqp hq => ?_, rfl, fun _ => rfl⟩
    have hq : Function.update σ.procs p _ q = some P := hq
    rw [Function.update_of_ne hqp] at hq
    exact hquiet q P hq
  obtain ⟨ls, σ', hrun, hstore, -, c', b, cs, hreplies⟩ :=
    finishes_of_eval (m.program c) hguard hanswer halone hfresh
  exact ⟨ls, σ', .cons hstep hrun, hstore, _, hreplies, rfl, rfl⟩

end

end Transactional
