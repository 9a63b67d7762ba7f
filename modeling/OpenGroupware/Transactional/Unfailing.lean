import OpenGroupware.Transactional.Outline

/-!
What programs answer when none of their interactions fails. A failure is a step
of its own, so whether a program has met one can be read off the run. What its
statements find is anything the invariant of the stores allows, and they may
still be refused by the store itself.
-/

namespace Transactional

variable {Q : Type → Type} {S O D W E X Y C α : Type}

/-- What is left of a program ends as `post` says if nothing fails from here
on. -/
def Prog.Unfailing (m : Machine Q S O D W E X Y C α) (idle : S → Prop) (inv : D → Prop)
    (post : α → Prop) : Prog Q E X Y α → Option (S × List W) → Prop
  | .ret a, _ => post a
  | .start k, _ => ∀ s o, idle s → (k (.ok ())).Unfailing m idle inv post (some (m.openTx o s, []))
  | .stmt q k, tx => ∀ s ws, tx = some (s, ws) → ∀ d o, inv d →
      (∀ r s' ws', m.exec q s o (m.applyAll ws d) = .ok (r, s', ws') →
        (k (.ok r)).Unfailing m idle inv post (some (s', ws ++ ws'))) ∧
        ∀ e, m.exec q s o (m.applyAll ws d) = .error e →
          (k (.error e)).Unfailing m idle inv post none
  | .commit k, _ => (k (.ok ())).Unfailing m idle inv post none
  | .call x k, tx => ∀ y, m.answers x y → (k y).Unfailing m idle inv post tx

section

variable {m : Machine Q S O D W E X Y C α} {idle : S → Prop} {inv : D → Prop}
  {post : α → Prop} {tx : Option (S × List W)}

/-- Of what any answer satisfies there is nothing to show. -/
theorem Prog.Unfailing.of_forall (hpost : ∀ a, post a) (prog : Prog Q E X Y α) :
    prog.Unfailing m idle inv post tx := by
  induction prog generalizing tx with
  | ret a => exact hpost a
  | start k ih => exact fun _ _ _ => ih _
  | stmt q k ih => exact fun _ _ _ _ _ _ => ⟨fun _ _ _ _ => ih _, fun _ _ => ih _⟩
  | commit k ih => exact ih _
  | call x k ih => exact fun y _ => ih y

theorem Prog.Unfailing.stmt {R : Type} {q : Q R} {k : Except E R → Prog Q E X Y α} {s : S}
    {ws : List W} (h : ∀ d o, inv d →
      (∀ r s' ws', m.exec q s o (m.applyAll ws d) = .ok (r, s', ws') →
        (k (.ok r)).Unfailing m idle inv post (some (s', ws ++ ws'))) ∧
        ∀ e, m.exec q s o (m.applyAll ws d) = .error e →
          (k (.error e)).Unfailing m idle inv post none) :
    (Prog.stmt q k).Unfailing m idle inv post (some (s, ws)) := by
  rintro s ws ⟨⟩
  exact h

end

/-! ### Runs -/

/-- A program that has met no failure so far, and what it has answered. -/
structure Sys.Unfailed (σ : Sys Q S D W E X Y C α) (m : Machine Q S O D W E X Y C α)
    (idle : S → Prop) (inv : D → Prop) (post : C → α → Prop) (p : Nat) : Prop where
  proc : ∀ P, σ.procs p = some P → P.prog.Unfailing m idle inv (post P.request)
    (P.tx.map fun t => (t.session, t.writes))
  replies : ∀ e ∈ σ.replies, e.pid = p → post e.request e.answer

namespace Sys.Unfailed

variable {m : Machine Q S O D W E X Y C α} {allow : C → Prop} {sp : Spec Q S D W C α}
  {d₀ : D} {s₀ : S} {σ σ' : Sys Q S D W E X Y C α} {inv : D → Prop} {post : C → α → Prop}
  {p : Nat} {l : Label O C Y} {ls : List (Label O C Y)}

/-- A program goes on. -/
theorem set (h : σ.Unfailed m sp.idle inv post p) {q : Nat} {P : Proc Q S D W E X Y C α}
    (hP : q = p → P.prog.Unfailing m sp.idle inv (post P.request)
      (P.tx.map fun t => (t.session, t.writes))) :
    (σ.set q (some P)).Unfailed m sp.idle inv post p := by
  refine ⟨fun P' hP' => ?_, h.replies⟩
  by_cases hq : p = q
  · subst hq
    obtain rfl : P = P' := by simpa using hP'
    exact hP rfl
  · exact h.proc P' (by simpa [hq] using hP')

theorem clear (h : σ.Unfailed m sp.idle inv post p) (q : Nat) :
    (σ.set q none).Unfailed m sp.idle inv post p := by
  refine ⟨fun P' hP' => ?_, h.replies⟩
  by_cases hq : p = q
  · simp [hq] at hP'
  · exact h.proc P' (by simpa [hq] using hP')

theorem close (h : σ.Unfailed m sp.idle inv post p) (t : Option (Tx S W)) :
    (σ.close m.toEngine t).Unfailed m sp.idle inv post p :=
  ⟨by simpa using h.proc, by simpa using h.replies⟩

/-- The step lemma: any step but a failure of the program itself. -/
theorem step (hprogram : ∀ c, allow c → (m.program c).Unfailing m sp.idle inv (post c) none)
    (hs : sp.Inv m σ) (hinv : inv σ.store) (h : σ.Unfailed m sp.idle inv post p)
    (hl : l ≠ .fail p) (hstep : Step m allow sp.guard σ l σ') :
    σ'.Unfailed m sp.idle inv post p := by
  cases hstep with
  | @spawn q c _ hc =>
      have hset := h.set (q := q) (P := ⟨c, σ.store, m.program c, none, []⟩)
        fun _ => hprogram c hc
      exact ⟨hset.proc, hset.replies⟩
  | @start q conn o P k hp hprog _ _ =>
      refine h.set fun hq => ?_
      have hP := h.proc P (hq ▸ hp)
      rw [hprog] at hP
      exact hP _ o (hs.idle conn)
  | @stmt q o P t R st k r s ws hp hprog ht _ _ hexec _ =>
      refine h.set fun hq => ?_
      have hP := h.proc P (hq ▸ hp)
      rw [hprog, ht] at hP
      exact (hP _ _ rfl σ.store o hinv).1 r s ws hexec
  | @stmtError q o P t R st k e hp hprog ht _ _ hexec =>
      refine (h.close P.tx).set fun hq => ?_
      have hP := h.proc P (hq ▸ hp)
      rw [hprog, ht] at hP
      exact (hP _ _ rfl σ.store o hinv).2 e hexec
  | @fail q P prog hp _ =>
      have hq : q ≠ p := fun hq => hl (congrArg Label.fail hq)
      exact (h.close P.tx).set fun hqp => absurd hqp hq
  | @commit q P t k hp hprog _ =>
      have hset := (h.close P.tx).set (q := q) (P := { P with
        prog := k (.ok ()), tx := none, commits := P.commits ++ [t.writes] }) fun hq => by
          have hP := h.proc P (hq ▸ hp)
          rw [hprog] at hP
          exact hP
      exact ⟨hset.proc, hset.replies⟩
  | @call q P x y k hp hprog hy =>
      refine h.set fun hq => ?_
      have hP := h.proc P (hq ▸ hp)
      rw [hprog] at hP
      exact hP y hy
  | @reply q P a hp hprog =>
      refine ⟨((h.close P.tx).clear q).proc, fun e he hep => ?_⟩
      rcases List.mem_append.1 he with he | he
      · exact h.replies e he hep
      · obtain rfl := List.mem_singleton.1 he
        have hP := h.proc P (hep ▸ hp)
        rw [hprog] at hP
        exact hP
  | @cancel q P hp => exact (h.close P.tx).clear q

/-- The run lemma: a program that no interaction of fails answers as it should. -/
theorem run (hs : sp.Started m allow d₀ s₀)
    (hprogram : ∀ c, allow c → (m.program c).Unfailing m sp.idle inv (post c) none)
    (hinv : ∀ {σ}, Reachable m allow sp.guard d₀ s₀ σ → inv σ.store)
    (hσ : Reachable m allow sp.guard d₀ s₀ σ) (h : σ.Unfailed m sp.idle inv post p)
    (hrun : Run m allow sp.guard σ ls σ') (hls : .fail p ∉ ls) :
    σ'.Unfailed m sp.idle inv post p := by
  induction hrun with
  | nil => exact h
  | cons hstep _ ih =>
      rw [List.mem_cons, not_or] at hls
      exact ih (hσ.step hstep)
        (h.step hprogram (hs.inv hσ) (hinv hσ) (Ne.symm hls.1) hstep) hls.2

theorem init (d : D) (s : S) :
    (Sys.init d s : Sys Q S D W E X Y C α).Unfailed m sp.idle inv post p :=
  ⟨nofun, nofun⟩

end Sys.Unfailed

end Transactional
