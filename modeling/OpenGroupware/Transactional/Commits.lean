import OpenGroupware.Transactional.System

/-!
What programs commit, whatever their statements return. A predicate on the
writes of a transaction that holds at every commit of every program, by its
text alone, holds of every transaction in the history of every run.
-/

namespace Transactional

variable {Q : Type → Type} {S O D W E X Y C α β : Type}

/-- Every commit of the program satisfies `φ`, and what it returns satisfies
`post`. The last argument is the open transaction: what it has written. -/
def Prog.Commits (eng : Engine Q S O D W E) (φ : List W → Prop)
    (post : Option (List W) → α → Prop) : Option (List W) → Prog Q E X Y α → Prop
  | tx, .ret a => post tx a
  | _, .start k =>
      (∀ e, (k (.error e)).Commits eng φ post none) ∧ (k (.ok ())).Commits eng φ post (some [])
  | tx, .stmt q k =>
      (∀ e, (k (.error e)).Commits eng φ post none) ∧
        ∀ ws, tx = some ws → ∀ s o d r s' ws', eng.exec q s o d = .ok (r, s', ws') →
          (k (.ok r)).Commits eng φ post (some (ws ++ ws'))
  | tx, .commit k => (∀ ws, tx = some ws → φ ws) ∧ ∀ r, (k r).Commits eng φ post none
  | tx, .call _ k => ∀ y, (k y).Commits eng φ post tx

section

variable {eng : Engine Q S O D W E} {φ : List W → Prop} {post post' : Option (List W) → α → Prop}
  {tx : Option (List W)}

theorem Prog.Commits.mono {prog : Prog Q E X Y α} (h : prog.Commits eng φ post tx)
    (himp : ∀ tx a, post tx a → post' tx a) : prog.Commits eng φ post' tx := by
  induction prog generalizing tx with
  | ret a => exact himp tx a h
  | start k ih => exact ⟨fun e => ih _ (h.1 e), ih _ h.2⟩
  | stmt q k ih =>
      exact ⟨fun e => ih _ (h.1 e), fun ws htx s o d r s' ws' hexec =>
        ih _ (h.2 ws htx s o d r s' ws' hexec)⟩
  | commit k ih => exact ⟨h.1, fun r => ih _ (h.2 r)⟩
  | call x k ih => exact fun y => ih _ (h y)

theorem Prog.Commits.bind {prog : Prog Q E X Y α} {f : α → Prog Q E X Y β}
    {post : Option (List W) → β → Prop}
    (h : prog.Commits eng φ (fun tx a => (f a).Commits eng φ post tx) tx) :
    (prog >>= f).Commits eng φ post tx := by
  induction prog generalizing tx with
  | ret a => exact h
  | start k ih => exact ⟨fun e => ih _ (h.1 e), ih _ h.2⟩
  | stmt q k ih =>
      exact ⟨fun e => ih _ (h.1 e), fun ws htx s o d r s' ws' hexec =>
        ih _ (h.2 ws htx s o d r s' ws' hexec)⟩
  | commit k ih => exact ⟨h.1, fun r => ih _ (h.2 r)⟩
  | call x k ih => exact fun y => ih _ (h y)

theorem Prog.Commits.failed {prog prog' : Prog Q E X Y α} {e : E}
    (h : prog.Commits eng φ post tx) (hfail : prog.failed e = some prog') :
    prog'.Commits eng φ post none := by
  cases prog with
  | start k =>
      obtain rfl := Option.some.inj hfail
      exact h.1 e
  | stmt q k =>
      obtain rfl := Option.some.inj hfail
      exact h.1 e
  | commit k =>
      obtain rfl := Option.some.inj hfail
      exact h.2 _
  | ret a | call x k => cases hfail

end

/-! ### Runs -/

section

variable {m : Machine Q S O D W E X Y C α} {allow : C → Prop}
  {guard : {R : Type} → Q R → D → Prop} {d₀ : D} {s₀ : S} {σ σ' : Sys Q S D W E X Y C α}
  {l : Label O C Y} {φ : List W → Prop}

/-- The programs of a state go on committing in order, and so have they done. -/
structure Sys.Committing (σ : Sys Q S D W E X Y C α) (eng : Engine Q S O D W E)
    (φ : List W → Prop) : Prop where
  procs : ∀ p P, σ.procs p = some P →
    P.prog.Commits eng φ (fun _ _ => True) (P.tx.map Tx.writes)
  history : ∀ e ∈ σ.history, φ e.writes

theorem Sys.Committing.step (hprograms : ∀ c, allow c →
      (m.program c).Commits m.toEngine φ (fun _ _ => True) none)
    (h : σ.Committing m.toEngine φ) (hstep : Step m allow guard σ l σ') :
    σ'.Committing m.toEngine φ := by
  -- a program goes on after its transaction has been closed
  have closed : ∀ {p : Nat} {P P' : Proc Q S D W E X Y C α}, σ.procs p = some P →
      P'.prog.Commits m.toEngine φ (fun _ _ => True) (P'.tx.map Tx.writes) →
        ((σ.close m.toEngine P.tx).set p (some P')).Committing m.toEngine φ := by
    intro p P P' _ hP'
    exact ⟨by simpa using forall_update h.procs hP', by simpa using h.history⟩
  cases hstep with
  | @spawn p c _ hc => exact ⟨forall_update h.procs (hprograms c hc), h.history⟩
  | @start p conn o P k hp hprog =>
      have hP := h.procs p P hp
      rw [hprog] at hP
      exact ⟨forall_update h.procs hP.2, h.history⟩
  | @stmt p o P t R q k r s ws hp hprog ht _ _ hexec =>
      have hP := h.procs p P hp
      rw [hprog, ht] at hP
      exact ⟨forall_update h.procs (hP.2 _ rfl _ _ _ _ _ _ hexec), h.history⟩
  | @stmtError p o P t R q k e hp hprog =>
      have hP := h.procs p P hp
      rw [hprog] at hP
      exact closed hp (hP.1 e)
  | @fail p P prog hp hfail => exact closed hp ((h.procs p P hp).failed hfail)
  | @commit p P t k hp hprog ht =>
      have hP := h.procs p P hp
      rw [hprog, ht] at hP
      have hnext := forall_update h.procs (p := p) (P := { P with
        prog := k (.ok ()), tx := none, commits := P.commits ++ [t.writes] }) (hP.2 (.ok ()))
      refine ⟨by simpa using hnext, fun e he => ?_⟩
      rcases List.mem_append.1 he with he | he
      · exact h.history e he
      · rw [List.mem_singleton.1 he]
        exact hP.1 _ rfl
  | @call p P x y k hp hprog =>
      have hP := h.procs p P hp
      rw [hprog] at hP
      exact ⟨forall_update h.procs (hP y), h.history⟩
  | @reply p P a hp =>
      exact ⟨by simpa using forall_remove h.procs p, by simpa using h.history⟩
  | @cancel p P hp =>
      exact ⟨by simpa using forall_remove h.procs p, by simpa using h.history⟩

/-- Everything a run has committed satisfies what its programs keep to. -/
theorem Reachable.committing (hprograms : ∀ c, allow c →
      (m.program c).Commits m.toEngine φ (fun _ _ => True) none)
    (h : Reachable m allow guard d₀ s₀ σ) : σ.Committing m.toEngine φ := by
  induction h with
  | init => exact ⟨nofun, nofun⟩
  | step _ hstep ih => exact ih.step hprograms hstep

end

end Transactional
