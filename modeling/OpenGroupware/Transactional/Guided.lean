import OpenGroupware.Transactional.Replay

/-!
Runs whose steps all meet a condition on the states they are taken in, and the
invariants of pending writes in such runs.
-/

namespace Transactional

variable {Q : Type → Type} {S O D W E X Y C α : Type}

section

variable (m : Machine Q S O D W E X Y C α) (allow : C → Prop)
  (guard : {R : Type} → Q R → D → Prop) (cond : Sys Q S D W E X Y C α → Label O C Y → Prop)

/-- The states of all runs whose steps meet the condition. -/
inductive Guided (d : D) (s : S) : Sys Q S D W E X Y C α → Prop
  | init : Guided d s (Sys.init d s)
  | step {σ l σ'} : Guided d s σ → cond σ l → Step m allow guard σ l σ' → Guided d s σ'

/-- Run the steps with the given labels while they meet the condition. -/
def replayIf [∀ w w', Decidable (m.clash w w')] [∀ o d, Decidable (m.fresh o d)]
    [∀ x y, Decidable (m.answers x y)] [DecidablePred allow]
    [∀ {R : Type} (q : Q R) d, Decidable (guard q d)] [∀ σ l, Decidable (cond σ l)] :
    Sys Q S D W E X Y C α → List (Label O C Y) → Option (Sys Q S D W E X Y C α)
  | σ, [] => some σ
  | σ, l :: ls =>
      if cond σ l then (next m allow guard σ l).bind fun σ' => replayIf σ' ls else none

end

variable {m : Machine Q S O D W E X Y C α} {allow : C → Prop}
  {guard : {R : Type} → Q R → D → Prop} {cond : Sys Q S D W E X Y C α → Label O C Y → Prop}
  {d : D} {s : S} {σ σ' : Sys Q S D W E X Y C α}

theorem Guided.reachable (h : Guided m allow guard cond d s σ) :
    Reachable m allow guard d s σ := by
  induction h with
  | init => exact .init
  | step _ _ hstep ih => exact ih.step hstep

section

variable [∀ w w', Decidable (m.clash w w')] [∀ o d, Decidable (m.fresh o d)]
  [∀ x y, Decidable (m.answers x y)] [DecidablePred allow]
  [∀ {R : Type} (q : Q R) d, Decidable (guard q d)] [∀ σ l, Decidable (cond σ l)]

theorem Guided.replay {ls : List (Label O C Y)} (h : Guided m allow guard cond d s σ)
    (hreplay : replayIf m allow guard cond σ ls = some σ') :
    Guided m allow guard cond d s σ' := by
  induction ls generalizing σ with
  | nil =>
      obtain rfl := Option.some.inj hreplay
      exact h
  | cons l ls ih =>
      simp only [replayIf, Option.ite_none_right_eq_some, Option.bind_eq_some_iff] at hreplay
      obtain ⟨hcond, σ₁, hnext, hrest⟩ := hreplay
      exact ih (h.step hcond (step_of_next h.reachable.recorded hnext)) hrest

/-- A replayed run and one step more. -/
theorem guided_step_of_replay {ls : List (Label O C Y)} {l : Label O C Y}
    {p : Sys Q S D W E X Y C α → Sys Q S D W E X Y C α → Bool}
    (h : ((replayIf m allow guard cond (Sys.init d s) ls).any fun σ =>
      decide (cond σ l) && (next m allow guard σ l).any (p σ)) = true) :
    ∃ σ σ', Guided m allow guard cond d s σ ∧ cond σ l ∧ Step m allow guard σ l σ' ∧
      p σ σ' = true := by
  cases hσ : replayIf m allow guard cond (Sys.init d s : Sys Q S D W E X Y C α) ls with
  | none => simp [hσ] at h
  | some σ =>
      simp only [hσ, Option.any_some, Bool.and_eq_true, decide_eq_true_eq] at h
      obtain ⟨hcond, hnext⟩ := h
      have hguided : Guided m allow guard cond d s σ := Guided.init.replay hσ
      cases hσ' : next m allow guard σ l with
      | none => simp [hσ'] at hnext
      | some σ' =>
          exact ⟨σ, σ', hguided, hcond, step_of_next hguided.reachable.recorded hσ',
            by simpa [hσ'] using hnext⟩

end

/-- A relation between the store and pending writes that holds of writes when
they are made, and that no commit of another transaction ends. -/
theorem Guided.pending {φ : D → W → Prop}
    (made : ∀ {σ p o P t} {R : Type} {q : Q R} {k r s' ws},
      Guided m allow guard cond d s σ → cond σ (.stmt p o) → σ.procs p = some P →
      P.prog = .stmt q k → P.tx = some t →
      m.exec q t.session o (m.applyAll t.writes σ.store) = .ok (r, s', ws) →
      ∀ w ∈ ws, φ σ.store w)
    (kept : ∀ {σ p P t k p' P' t'}, Guided m allow guard cond d s σ → cond σ (.commit p) →
      σ.procs p = some P → P.prog = .commit k → P.tx = some t → p' ≠ p →
      σ.procs p' = some P' → P'.tx = some t' → ∀ w ∈ t'.writes, φ σ.store w →
      φ (m.applyAll t.writes σ.store) w)
    (h : Guided m allow guard cond d s σ) :
    ∀ p P t, σ.procs p = some P → P.tx = some t → ∀ w ∈ t.writes, φ σ.store w := by
  induction h with
  | init => simp [Sys.init]
  | @step σ l σ' hσ hcond hstep ih =>
      have keep : ∀ p (P : Proc Q S D W E X Y C α), (∀ t, P.tx = some t → ∀ w ∈ t.writes,
          φ σ.store w) → ∀ q P' t, Function.update σ.procs p (some P) q = some P' →
          P'.tx = some t → ∀ w ∈ t.writes, φ σ.store w :=
        fun p P hP q P' t hq => forall_update (fun q P hq t => ih q P t hq) hP q P' hq t
      have drop : ∀ p q (P' : Proc Q S D W E X Y C α) t,
          Function.update σ.procs p none q = some P' → P'.tx = some t →
          ∀ w ∈ t.writes, φ σ.store w :=
        fun p q P' t hq => forall_remove (fun q P hq t => ih q P t hq) p q P' hq t
      cases hstep with
      | spawn => exact keep _ _ (by simp)
      | start => exact keep _ _ (by simp)
      | @stmt p o P t R q k r s' ws hp hprog ht _ _ hexec _ =>
          refine keep _ _ ?_
          rintro t' ⟨⟩ w hw
          rcases List.mem_append.1 hw with hw | hw
          · exact ih p P t hp ht w hw
          · exact made hσ hcond hp hprog ht hexec w hw
      | @stmtError p _ P | @fail p P => simpa using keep p _ (by simp)
      | @commit p P t k hp hprog ht =>
          intro q P' t' hq ht' w hw
          by_cases hqp : q = p
          · subst hqp
            obtain rfl : _ = P' := by simpa using hq
            cases ht'
          · have hq' : σ.procs q = some P' := by simpa [hqp] using hq
            exact kept hσ hcond hp hprog ht hqp hq' ht' w hw (ih q P' t' hq' ht' w hw)
      | @call p P x y k hp => exact keep _ _ fun t ht => ih p P t hp ht
      | reply | cancel => simpa using drop _

end Transactional
