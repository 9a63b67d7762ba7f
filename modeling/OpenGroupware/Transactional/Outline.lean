import OpenGroupware.Transactional.System

/-!
Proof outlines. An outline says what a program may commit and what it may
answer, whatever the other programs do between its steps. What it knows about
the store between two of its own steps is that the store has evolved from the
one it saw last. If every program has an outline then every run of the system
keeps the store invariant, and every commit and every answer is as the
outlines say.
-/

namespace Transactional

variable {Q : Type → Type} {S O D W E X Y C α : Type}

/-- What a family of outlines is about. -/
structure Spec (Q : Type → Type) (S D W C α : Type) where
  /-- Holds of every committed store. -/
  inv : D → Prop
  /-- How committed stores may follow one another. -/
  evolves : D → D → Prop
  /-- The settings of connections in the pool. -/
  idle : S → Prop
  fits : W → D → Prop
  guard : {R : Type} → Q R → D → Prop
  /-- What is the case when a request runs a statement. -/
  pre : C → {R : Type} → Q R → S → D → Prop
  /-- What a request that has committed `cs` may commit next. -/
  post : C → List (List W) → D → List W → Prop
  /-- What a request that came in on the first store and has committed `cs` may
  answer on the second. -/
  ret : C → D → List (List W) → D → α → Prop

namespace Spec

variable (sp : Spec Q S D W C α) (m : Machine Q S O D W E X Y C α)

/-- The conditions under which outlines compose. -/
structure Sound (sp : Spec Q S D W C α) (m : Machine Q S O D W E X Y C α) : Prop where
  law : m.toEngine.Lawful sp.fits
  refl : ∀ d, sp.evolves d d
  trans : ∀ {d d' d''}, sp.evolves d d' → sp.evolves d' d'' → sp.evolves d d''
  idle_close : ∀ s, sp.idle s → sp.idle (m.closeTx s)
  idle_exec : ∀ {R} {q : Q R} {s s' : S} {o d r ws},
    m.exec q s o d = .ok (r, s', ws) → sp.idle (m.closeTx s) → sp.idle (m.closeTx s')
  idle_open : ∀ s o, sp.idle s → sp.idle (m.closeTx (m.openTx o s))
  commit : ∀ {c cs d ws}, sp.inv d → m.Pending sp.fits ws d → sp.post c cs d ws →
    sp.inv (m.applyAll ws d) ∧ sp.evolves d (m.applyAll ws d)

/-- The outline of what is left of a program that serves `c` since the store
`b`, has committed `cs`, last saw the store `d₀`, and has the transaction `tx`
open. -/
def Outline (c : C) (b : D) : Prog Q E X Y α → List (List W) → D → Option (S × List W) → Prop
  | .ret a, cs, d₀, _ => ∀ d, sp.evolves d₀ d → sp.inv d → sp.ret c b cs d a
  | .start k, cs, d₀, _ =>
      Outline c b (k (.error m.failure)) cs d₀ none ∧
        ∀ s o, sp.idle s → Outline c b (k (.ok ())) cs d₀ (some (m.openTx o s, []))
  | .stmt q k, cs, d₀, tx =>
      Outline c b (k (.error m.failure)) cs d₀ none ∧
        ∀ s ws, tx = some (s, ws) → ∀ d o, sp.evolves d₀ d → sp.inv d →
          m.Pending sp.fits ws d → m.fresh o (m.applyAll ws d) →
          sp.guard q (m.applyAll ws d) → sp.pre c q s (m.applyAll ws d) ∧
          match m.exec q s o (m.applyAll ws d) with
          | .ok (r, s', ws') =>
              (∀ w' ∈ ws', ∀ w ∈ ws, ¬m.clash w' w) ∧
                Outline c b (k (.ok r)) cs d (some (s', ws ++ ws'))
          | .error e => Outline c b (k (.error e)) cs d none
  | .commit k, cs, d₀, tx =>
      Outline c b (k (.error m.failure)) cs d₀ none ∧
        ∀ s ws, tx = some (s, ws) → ∀ d, sp.evolves d₀ d → sp.inv d →
          m.Pending sp.fits ws d →
          sp.post c cs d ws ∧ Outline c b (k (.ok ())) (cs ++ [ws]) (m.applyAll ws d) none
  | .call x k, cs, d₀, tx => ∀ y, m.answers x y → Outline c b (k y) cs d₀ tx

section Rules

variable {sp m} {c : C} {b d₀ : D} {cs : List (List W)} {s : S} {ws : List W}

theorem Outline.start {k : Except E Unit → Prog Q E X Y α} {tx : Option (S × List W)}
    (hfail : sp.Outline m c b (k (.error m.failure)) cs d₀ none)
    (h : ∀ s o, sp.idle s → sp.Outline m c b (k (.ok ())) cs d₀ (some (m.openTx o s, []))) :
    sp.Outline m c b (.start k) cs d₀ tx :=
  ⟨hfail, h⟩

theorem Outline.stmt {R : Type} {q : Q R} {k : Except E R → Prog Q E X Y α}
    (hfail : sp.Outline m c b (k (.error m.failure)) cs d₀ none)
    (h : ∀ d o, sp.evolves d₀ d → sp.inv d → m.Pending sp.fits ws d →
      m.fresh o (m.applyAll ws d) → sp.guard q (m.applyAll ws d) →
      sp.pre c q s (m.applyAll ws d) ∧
        (∀ r s' ws', m.exec q s o (m.applyAll ws d) = .ok (r, s', ws') →
          (∀ w' ∈ ws', ∀ w ∈ ws, ¬m.clash w' w) ∧
            sp.Outline m c b (k (.ok r)) cs d (some (s', ws ++ ws'))) ∧
        ∀ e, m.exec q s o (m.applyAll ws d) = .error e →
          sp.Outline m c b (k (.error e)) cs d none) :
    sp.Outline m c b (.stmt q k) cs d₀ (some (s, ws)) := by
  refine ⟨hfail, ?_⟩
  rintro s ws ⟨⟩ d o hev hinv hpend hfresh hguard
  obtain ⟨hpre, hok, herr⟩ := h d o hev hinv hpend hfresh hguard
  refine ⟨hpre, ?_⟩
  split
  · rename_i r s' ws' hexec
    exact hok r s' ws' hexec
  · rename_i e hexec
    exact herr e hexec

theorem Outline.commit {k : Except E Unit → Prog Q E X Y α}
    (hfail : sp.Outline m c b (k (.error m.failure)) cs d₀ none)
    (h : ∀ d, sp.evolves d₀ d → sp.inv d → m.Pending sp.fits ws d → sp.post c cs d ws ∧
      sp.Outline m c b (k (.ok ())) (cs ++ [ws]) (m.applyAll ws d) none) :
    sp.Outline m c b (.commit k) cs d₀ (some (s, ws)) := by
  refine ⟨hfail, ?_⟩
  rintro s ws ⟨⟩ d hev hinv hpend
  exact h d hev hinv hpend

end Rules

/-- A running program is in order: its pending writes fit the store and what
is left of it has an outline from a store it has seen. -/
def Good (d : D) (P : Proc Q S D W E X Y C α) : Prop :=
  ∃ d₀, sp.evolves d₀ d ∧ (∀ t, P.tx = some t → m.Pending sp.fits t.writes d) ∧
    sp.Outline m P.request P.since P.prog P.commits d₀ (P.tx.map fun t => (t.session, t.writes))

section Steps

variable {sp m} {d : D} {P : Proc Q S D W E X Y C α}

theorem Good.pending (h : sp.Good m d P) {t : Tx S W} (ht : P.tx = some t) :
    m.Pending sp.fits t.writes d := by
  obtain ⟨-, -, hpend, -⟩ := h
  exact hpend t ht

/-- The store may have moved on since. -/
theorem Good.later (h : sp.Good m d P) {d' : D}
    (hev : ∀ {d₀}, sp.evolves d₀ d → sp.evolves d₀ d')
    (hpend : ∀ t, P.tx = some t → m.Pending sp.fits t.writes d') : sp.Good m d' P := by
  obtain ⟨d₀, hd₀, -, hout⟩ := h
  exact ⟨d₀, hev hd₀, hpend, hout⟩

theorem Good.start (h : sp.Good m d P) {k : Except E Unit → Prog Q E X Y α}
    (hprog : P.prog = .start k) (conn : Nat) (o : O) {s : S} (hs : sp.idle s) :
    sp.Good m d { P with prog := k (.ok ()), tx := some ⟨conn, m.openTx o s, []⟩ } := by
  obtain ⟨d₀, hd₀, -, hout⟩ := h
  rw [hprog] at hout
  refine ⟨d₀, hd₀, ?_, hout.2 _ o hs⟩
  rintro t ⟨⟩
  exact Engine.Pending.nil _

theorem Good.stmt (h : sp.Good m d P) (law : m.toEngine.Lawful sp.fits)
    (hrefl : sp.evolves d d) (hd : sp.inv d) {R : Type} {q : Q R}
    {k : Except E R → Prog Q E X Y α} {t : Tx S W} {o : O} (hprog : P.prog = .stmt q k)
    (ht : P.tx = some t) (hfresh : m.fresh o (m.applyAll t.writes d))
    (hguard : sp.guard q (m.applyAll t.writes d)) :
    sp.pre P.request q t.session (m.applyAll t.writes d) ∧
      (∀ r s ws, m.exec q t.session o (m.applyAll t.writes d) = .ok (r, s, ws) →
        sp.Good m d { P with
          prog := k (.ok r), tx := some ⟨t.conn, s, t.writes ++ ws⟩ }) ∧
      ∀ e, m.exec q t.session o (m.applyAll t.writes d) = .error e →
        sp.Good m d { P with prog := k (.error e), tx := none } := by
  obtain ⟨d₀, hd₀, hpend, hout⟩ := h
  rw [hprog, ht] at hout
  obtain ⟨hpre, hstmt⟩ := hout.2 t.session t.writes rfl d o hd₀ hd (hpend t ht) hfresh hguard
  refine ⟨hpre, fun r s ws hexec => ?_, fun e hexec => ?_⟩
  · rw [hexec] at hstmt
    obtain ⟨hno, hnext⟩ := hstmt
    refine ⟨d, hrefl, ?_, hnext⟩
    rintro t' ⟨⟩
    exact law.pending_append (hpend t ht) hexec hno
  · rw [hexec] at hstmt
    exact ⟨d, hrefl, nofun, hstmt⟩

theorem Good.fail (h : sp.Good m d P) {prog : Prog Q E X Y α}
    (hfail : P.prog.failed m.failure = some prog) :
    sp.Good m d { P with prog := prog, tx := none } := by
  obtain ⟨d₀, hd₀, -, hout⟩ := h
  refine ⟨d₀, hd₀, nofun, ?_⟩
  cases hprog : P.prog with
  | start k | stmt q k | commit k =>
      rw [hprog, Prog.failed, Option.some.injEq] at hfail
      rw [hprog] at hout
      exact hfail ▸ hout.1
  | ret a | call x k => simp [hprog, Prog.failed] at hfail

theorem Good.commit (h : sp.Good m d P) (hd : sp.inv d) {k : Except E Unit → Prog Q E X Y α}
    {t : Tx S W} (hprog : P.prog = .commit k) (ht : P.tx = some t)
    (hrefl : sp.evolves (m.applyAll t.writes d) (m.applyAll t.writes d)) :
    sp.post P.request P.commits d t.writes ∧
      sp.Good m (m.applyAll t.writes d) { P with
        prog := k (.ok ()), tx := none, commits := P.commits ++ [t.writes] } := by
  obtain ⟨d₀, hd₀, hpend, hout⟩ := h
  rw [hprog, ht] at hout
  obtain ⟨hpost, hnext⟩ := hout.2 t.session t.writes rfl d hd₀ hd (hpend t ht)
  exact ⟨hpost, _, hrefl, nofun, hnext⟩

theorem Good.call (h : sp.Good m d P) {x : X} {y : Y} {k : Y → Prog Q E X Y α}
    (hprog : P.prog = .call x k) (hy : m.answers x y) : sp.Good m d { P with prog := k y } := by
  obtain ⟨d₀, hd₀, hpend, hout⟩ := h
  rw [hprog] at hout
  exact ⟨d₀, hd₀, hpend, hout y hy⟩

theorem Good.ret (h : sp.Good m d P) (hd : sp.inv d) {a : α} (hprog : P.prog = .ret a) :
    sp.ret P.request P.since P.commits d a := by
  obtain ⟨d₀, hd₀, -, hout⟩ := h
  rw [hprog] at hout
  exact hout d hd₀ hd

end Steps

/-- What holds between the steps of a run. -/
structure Inv (σ : Sys Q S D W E X Y C α) : Prop where
  store : sp.inv σ.store
  idle : ∀ conn, sp.idle (σ.conns conn)
  close : ∀ p P t, σ.procs p = some P → P.tx = some t → sp.idle (m.closeTx t.session)
  good : ∀ p P, σ.procs p = some P → sp.Good m σ.store P
  apart : ∀ p p' P P' t t', p ≠ p' → σ.procs p = some P → σ.procs p' = some P' →
    P.tx = some t → P'.tx = some t' → ∀ w ∈ t.writes, ∀ w' ∈ t'.writes, ¬m.clash w w'

variable {sp m}

section Preservation

variable {σ : Sys Q S D W E X Y C α} {p : Nat} {P : Proc Q S D W E X Y C α}

theorem Inv.init {d : D} {s : S} (hd : sp.inv d) (hs : sp.idle s) :
    sp.Inv m (Sys.init d s : Sys Q S D W E X Y C α) where
  store := hd
  idle _ := hs
  close := by simp [Sys.init]
  good := by simp [Sys.init]
  apart := by simp [Sys.init]

theorem Inv.clear (h : sp.Inv m σ) (p : Nat) : sp.Inv m (σ.set p none) where
  store := h.store
  idle := h.idle
  close q P t hq := forall_remove (fun q P hq t => h.close q P t hq) p q P hq t
  good := forall_remove h.good p
  apart q q' P P' t t' hne hq hq' := by
    by_cases hqp : q = p
    · simp [hqp] at hq
    · by_cases hqp' : q' = p
      · simp [hqp'] at hq'
      · exact h.apart q q' P P' t t' hne (by simpa [hqp] using hq) (by simpa [hqp'] using hq')

theorem Inv.set (h : sp.Inv m σ) (hgood : sp.Good m σ.store P)
    (hclose : ∀ t, P.tx = some t → sp.idle (m.closeTx t.session))
    (hapart : ∀ t, P.tx = some t → σ.Unblocked m.toEngine p t.writes) (law : sp.Sound m) :
    sp.Inv m (σ.set p (some P)) where
  store := h.store
  idle := h.idle
  close q P' t hq := forall_update (fun q P hq t => h.close q P t hq) hclose q P' hq t
  good := forall_update h.good hgood
  apart q q' P₁ P₂ t t' hne hq hq' ht ht' w hw w' hw' := by
    by_cases hqp : q = p
    · obtain rfl : P = P₁ := by simpa [hqp] using hq
      have hq'p : q' ≠ p := fun h => hne (hqp.trans h.symm)
      exact hapart t ht q' P₂ t' hq'p (by simpa [hq'p] using hq') ht' w hw w' hw'
    · by_cases hq'p : q' = p
      · obtain rfl : P = P₂ := by simpa [hq'p] using hq'
        intro hc
        exact hapart t' ht' q P₁ t hqp (by simpa [hqp] using hq) ht w' hw' w hw
          (law.law.clash_symm hc)
      · exact h.apart q q' P₁ P₂ t t' hne (by simpa [hqp] using hq) (by simpa [hq'p] using hq')
          ht ht' w hw w' hw'

theorem Inv.closed (h : sp.Inv m σ) (t : Option (Tx S W))
    (ht : ∀ t', t = some t' → sp.idle (m.closeTx t'.session)) :
    sp.Inv m (σ.close m.toEngine t) where
  store := by simpa using h.store
  idle conn := by
    cases t with
    | none => exact h.idle conn
    | some t =>
        by_cases hc : conn = t.conn
        · simpa [Sys.close, hc] using ht t rfl
        · simpa [Sys.close, hc] using h.idle conn
  close := by simpa using h.close
  good := by simpa using h.good
  apart := by simpa using h.apart

/-- The store moves on by the writes of a transaction that clash with no
pending ones. -/
theorem Inv.advance (h : sp.Inv m σ) (law : sp.Sound m) (c : C) (cs : List (List W))
    (ws : List W) (hws : m.Pending sp.fits ws σ.store) (hpost : sp.post c cs σ.store ws)
    (hapart : ∀ q P t, σ.procs q = some P → P.tx = some t →
      ∀ w ∈ t.writes, ∀ w' ∈ ws, ¬m.clash w w') (hist : List (Commit C W)) :
    sp.Inv m { σ with store := m.applyAll ws σ.store, history := hist } where
  store := (law.commit h.store hws hpost).1
  idle := h.idle
  close := h.close
  good q P hq := by
    refine (h.good q P hq).later (fun hd₀ => law.trans hd₀ (law.commit h.store hws hpost).2)
      fun t ht => ?_
    exact law.law.pending_applyAll ((h.good q P hq).pending ht) hws (hapart q P t hq ht)
  apart := h.apart

/-- A program that goes on without a transaction. -/
theorem Inv.rollback (h : sp.Inv m σ) (law : sp.Sound m) (hp : σ.procs p = some P)
    {prog : Prog Q E X Y α} (hgood : sp.Good m σ.store { P with prog := prog, tx := none }) :
    sp.Inv m ((σ.close m.toEngine P.tx).set p (some { P with prog := prog, tx := none })) :=
  (h.closed P.tx fun t ht => h.close p P t hp ht).set (by simpa using hgood) (by simp) (by simp)
    law

end Preservation

/-- The step lemma: a step of programs with outlines keeps everything in
order. -/
theorem Inv.step (law : sp.Sound m) {allow : C → Prop}
    (programs : ∀ c, allow c → ∀ d, sp.inv d → sp.Outline m c d (m.program c) [] d none)
    {σ σ' : Sys Q S D W E X Y C α} {l : Label O C Y} (h : sp.Inv m σ)
    (hstep : Step m allow sp.guard σ l σ') : sp.Inv m σ' := by
  cases hstep with
  | @spawn p c hp hc =>
      have hset := h.set (p := p) (P := ⟨c, σ.store, m.program c, none, []⟩)
        ⟨σ.store, law.refl _, by simp, programs c hc _ h.store⟩ (by simp) (by simp) law
      exact ⟨hset.store, hset.idle, hset.close, hset.good, hset.apart⟩
  | @start p conn o P k hp hprog htx hfree =>
      have hidle := h.idle conn
      refine h.set ((h.good p P hp).start hprog conn o hidle) ?_ ?_ law
      · rintro t ⟨⟩
        exact law.idle_open _ _ hidle
      · rintro t ⟨⟩
        intro _ _ _ _ _ _ w hw
        exact absurd hw List.not_mem_nil
  | @stmt p o P t R q k r s ws hp hprog htx hfresh hguard hexec hfree =>
      obtain ⟨-, hok, -⟩ := (h.good p P hp).stmt law.law (law.refl _) h.store hprog htx
        (hfresh.2 p P t hp htx) hguard
      refine h.set (hok r s ws hexec) ?_ ?_ law
      · rintro t' ⟨⟩
        exact law.idle_exec hexec (h.close p P t hp htx)
      · rintro t' ⟨⟩
        intro q P' t' hq hP' ht' w hw w' hw'
        rcases List.mem_append.1 hw with hw | hw
        · exact h.apart p q P P' t t' (Ne.symm hq) hp hP' htx ht' w hw w' hw'
        · exact hfree q P' t' hq hP' ht' w hw w' hw'
  | @stmtError p o P t R q k e hp hprog htx hfresh hguard hexec =>
      obtain ⟨-, -, herror⟩ := (h.good p P hp).stmt law.law (law.refl _) h.store hprog htx
        (hfresh.2 p P t hp htx) hguard
      exact h.rollback law hp (herror e hexec)
  | @fail p P prog hp hfail => exact h.rollback law hp ((h.good p P hp).fail hfail)
  | @commit p P t k hp hprog htx =>
      have hpend := (h.good p P hp).pending htx
      obtain ⟨hpost, hnext⟩ := (h.good p P hp).commit h.store hprog htx (law.refl _)
      -- take the program out, let the store move on, and put the program back
      have hclosed := h.closed P.tx fun t' ht' => h.close p P t' hp ht'
      have hmoved := (hclosed.clear p).advance law P.request P.commits t.writes
        (by simpa using hpend) (by simpa using hpost)
        (fun q P' t' hq ht' w hw w' hw' hc => by
          by_cases hqp : q = p
          · simp [hqp] at hq
          · exact h.apart q p P' P t' t hqp (by simpa [hqp] using hq) hp ht' htx w hw w' hw' hc)
        (σ.history ++ [⟨p, P.request, t.writes⟩])
      have hback := hmoved.set (p := p)
        (P := { P with prog := k (.ok ()), tx := none, commits := P.commits ++ [t.writes] })
        (by simpa using hnext) (by simp) (by simp) law
      simpa [Sys.set] using hback
  | @call p P x y k hp hprog hy =>
      exact h.set ((h.good p P hp).call hprog hy) (fun t ht => h.close p P t hp ht)
        (fun t ht q P' t' hq hP' ht' => h.apart p q P P' t t' (Ne.symm hq) hp hP' ht ht') law
  | @reply p P a hp hprog =>
      have hdone := (h.closed P.tx fun t ht => h.close p P t hp ht).clear p
      exact ⟨hdone.store, hdone.idle, hdone.close, hdone.good, hdone.apart⟩
  | @cancel p P hp =>
      exact (h.closed P.tx fun t ht => h.close p P t hp ht).clear p

section Runs

variable {allow : C → Prop} {d₀ : D} {s₀ : S} {σ : Sys Q S D W E X Y C α}

/-- A system whose programs have outlines, started in order. -/
structure Started (sp : Spec Q S D W C α) (m : Machine Q S O D W E X Y C α) (allow : C → Prop)
    (d₀ : D) (s₀ : S) : Prop where
  sound : sp.Sound m
  programs : ∀ c, allow c → ∀ d, sp.inv d → sp.Outline m c d (m.program c) [] d none
  store : sp.inv d₀
  idle : sp.idle s₀

/-- The run lemma. -/
theorem Started.inv (hs : sp.Started m allow d₀ s₀)
    (h : Reachable m allow sp.guard d₀ s₀ σ) : sp.Inv m σ := by
  induction h with
  | init => exact Inv.init hs.store hs.idle
  | step _ hstep ih => exact ih.step hs.sound hs.programs hstep

/-- What a commit step of a run commits. -/
theorem Started.commit_post (hs : sp.Started m allow d₀ s₀)
    (h : Reachable m allow sp.guard d₀ s₀ σ) {p : Nat} {P : Proc Q S D W E X Y C α}
    {t : Tx S W} {k : Except E Unit → Prog Q E X Y α} (hp : σ.procs p = some P)
    (hprog : P.prog = .commit k) (ht : P.tx = some t) :
    sp.inv σ.store ∧ m.Pending sp.fits t.writes σ.store ∧
      sp.post P.request P.commits σ.store t.writes := by
  have hinv := hs.inv h
  have hgood := hinv.good p P hp
  exact ⟨hinv.store, hgood.pending ht,
    (hgood.commit hinv.store hprog ht (hs.sound.refl _)).1⟩

/-- What is the case when a statement of a run is about to be executed. -/
theorem Started.stmt_pre (hs : sp.Started m allow d₀ s₀)
    (h : Reachable m allow sp.guard d₀ s₀ σ) {p : Nat} {P : Proc Q S D W E X Y C α}
    {t : Tx S W} {R : Type} {q : Q R} {k : Except E R → Prog Q E X Y α} {o : O}
    (hp : σ.procs p = some P) (hprog : P.prog = .stmt q k) (ht : P.tx = some t)
    (hfresh : σ.Fresh m.toEngine o) (hguard : sp.guard q (m.applyAll t.writes σ.store)) :
    sp.inv σ.store ∧ m.Pending sp.fits t.writes σ.store ∧
      sp.pre P.request q t.session (m.applyAll t.writes σ.store) := by
  have hinv := hs.inv h
  have hgood := hinv.good p P hp
  exact ⟨hinv.store, hgood.pending ht, (hgood.stmt hs.sound.law (hs.sound.refl _) hinv.store hprog
    ht (hfresh.2 p P t hp ht) hguard).1⟩

/-- A property of store and history that every commit keeps holds in every
run. -/
theorem Started.record_induction (hs : sp.Started m allow d₀ s₀)
    {J : D → List (Commit C W) → Prop} (h0 : J d₀ [])
    (hstep : ∀ p c cs d hist ws, allow c → sp.inv d → m.Pending sp.fits ws d →
      sp.post c cs d ws → J d hist → J (m.applyAll ws d) (hist ++ [⟨p, c, ws⟩]))
    (h : Reachable m allow sp.guard d₀ s₀ σ) : J σ.store σ.history := by
  induction h with
  | init => exact h0
  | @step σ l σ' hr hl ih =>
      rcases hl.store_eq with ⟨-, hstore, hhist⟩ |
        ⟨p, P, t, k, rfl, hp, hprog, ht, hstore, hhist⟩
      · rwa [hstore, hhist]
      · obtain ⟨hinv, hpend, hpost⟩ := hs.commit_post hr hp hprog ht
        rw [hstore, hhist]
        exact hstep _ _ _ _ _ _ (hr.allowed _ _ hp) hinv hpend hpost ih

/-- A property of stores that every commit keeps holds in every run. -/
theorem Started.store_induction (hs : sp.Started m allow d₀ s₀) {J : D → Prop} (h0 : J d₀)
    (hstep : ∀ c cs d ws, allow c → sp.inv d → m.Pending sp.fits ws d → sp.post c cs d ws →
      J d → J (m.applyAll ws d))
    (h : Reachable m allow sp.guard d₀ s₀ σ) : J σ.store :=
  hs.record_induction (J := fun d _ => J d) h0
    (fun _ c cs d _ ws hc hinv hpend hpost hd => hstep c cs d ws hc hinv hpend hpost hd) h

/-- The store only evolves along a run. -/
theorem Started.evolves (hs : sp.Started m allow d₀ s₀) {d : D}
    (h : Reachable m allow sp.guard d₀ s₀ σ) {ls : List (Label O C Y)}
    {σ' : Sys Q S D W E X Y C α} (hrun : Run m allow sp.guard σ ls σ')
    (hd : sp.evolves d σ.store) : sp.evolves d σ'.store := by
  induction hrun with
  | nil => exact hd
  | @cons σ l σ₁ ls σ₂ hl _ ih =>
      refine ih (h.step hl) ?_
      rcases hl.store_eq with ⟨-, hstore, -⟩ | ⟨p, P, t, k, rfl, hp, hprog, ht, hstore, -⟩
      · rwa [hstore]
      · obtain ⟨hinv, hpend, hpost⟩ := hs.commit_post h hp hprog ht
        rw [hstore]
        exact hs.sound.trans hd (hs.sound.commit hinv hpend hpost).2

/-- Every transaction in the history was allowed by its program's outline on
the store it was committed to, and the store has evolved since. -/
theorem Started.history_post (hs : sp.Started m allow d₀ s₀)
    (h : Reachable m allow sp.guard d₀ s₀ σ) :
    ∀ e ∈ σ.history, ∃ cs d, sp.inv d ∧ m.Pending sp.fits e.writes d ∧
      sp.post e.request cs d e.writes ∧ sp.evolves (m.applyAll e.writes d) σ.store := by
  induction h with
  | init => simp [Sys.init]
  | @step σ l σ' hr hl ih =>
      have hone : Run m allow sp.guard σ [l] σ' := .cons hl .nil
      have old : ∀ e ∈ σ.history, ∃ cs d, sp.inv d ∧ m.Pending sp.fits e.writes d ∧
          sp.post e.request cs d e.writes ∧
          sp.evolves (m.applyAll e.writes d) σ'.store := by
        intro e he
        obtain ⟨cs, d, hinv, hpend, hpost, hev⟩ := ih e he
        exact ⟨cs, d, hinv, hpend, hpost, hs.evolves hr hone hev⟩
      rcases hl.store_eq with ⟨-, -, hhist⟩ | ⟨p, P, t, k, rfl, hp, hprog, ht, hstore, hhist⟩
      · rwa [hhist]
      · intro e he
        rw [hhist] at he
        rcases List.mem_append.1 he with he | he
        · exact old e he
        · obtain ⟨hinv, hpend, hpost⟩ := hs.commit_post hr hp hprog ht
          obtain rfl := List.mem_singleton.1 he
          rw [hstore]
          exact ⟨_, _, hinv, hpend, hpost, hs.sound.refl _⟩

/-- Every answer was allowed by its program's outline when it was given. -/
theorem Started.replies_ret (hs : sp.Started m allow d₀ s₀)
    (h : Reachable m allow sp.guard d₀ s₀ σ) :
    ∀ e ∈ σ.replies, ∃ d, sp.inv d ∧ sp.evolves d σ.store ∧
      sp.ret e.request e.since e.commits d e.answer := by
  induction h with
  | init => simp [Sys.init]
  | @step σ l σ' hr hl ih =>
      have hone : Run m allow sp.guard σ [l] σ' := .cons hl .nil
      have old : ∀ e ∈ σ.replies, ∃ d, sp.inv d ∧ sp.evolves d σ'.store ∧
          sp.ret e.request e.since e.commits d e.answer := by
        intro e he
        obtain ⟨d, hinv, hev, hret⟩ := ih e he
        exact ⟨d, hinv, hs.evolves hr hone hev, hret⟩
      cases hl with
      | @reply p P a hp hprog =>
          intro e he
          rcases List.mem_append.1 he with he | he
          · exact old e he
          · rw [List.mem_singleton] at he
            have hinv := hs.inv hr
            subst he
            exact ⟨σ.store, hinv.store, by simpa using hs.sound.refl _,
              (hinv.good p P hp).ret hinv.store hprog⟩
      | spawn | start | stmt | call => exact old
      | stmtError | fail | cancel => simpa using old
      | commit => simpa using old

end Runs

end Spec

end Transactional
