import OpenGroupware.Transactional.Record

/-!
Replaying runs. When the conditions of the steps can be decided, a list of
labels can be run from a state, and the state it ends in is reachable.
-/

namespace Transactional

variable {Q : Type → Type} {S O D W E X Y C α : Type}

/-- The open transactions, with their programs. -/
def Sys.txs (σ : Sys Q S D W E X Y C α) : List (Nat × Tx S W) :=
  σ.started.filterMap fun p => ((σ.procs p).bind Proc.tx).map fun t => (p, t)

section

variable (m : Machine Q S O D W E X Y C α) (allow : C → Prop)
  (guard : {R : Type} → Q R → D → Prop)
  [∀ w w', Decidable (m.clash w w')] [∀ o d, Decidable (m.fresh o d)]
  [∀ x y, Decidable (m.answers x y)] [DecidablePred allow]
  [∀ {R : Type} (q : Q R) d, Decidable (guard q d)]

/-- The step with a given label, where there is one. -/
def next (σ : Sys Q S D W E X Y C α) : Label O C Y → Option (Sys Q S D W E X Y C α)
  | .spawn p c =>
      if p ∉ σ.started ∧ allow c then
        some { σ.set p (some ⟨c, σ.store, m.program c, none, []⟩) with
          started := p :: σ.started }
      else none
  | .start p conn o =>
      match σ.procs p with
      | some ⟨c, b, .start k, none, cs⟩ =>
          if ∀ t ∈ σ.txs, t.2.conn ≠ conn then
            some (σ.set p (some ⟨c, b, k (.ok ()), some ⟨conn, m.openTx o (σ.conns conn), []⟩, cs⟩))
          else none
      | _ => none
  | .stmt p o =>
      match σ.procs p with
      | some ⟨c, b, .stmt q k, some t, cs⟩ =>
          let view := m.applyAll t.writes σ.store
          if (m.fresh o σ.store ∧ ∀ t' ∈ σ.txs, m.fresh o (m.applyAll t'.2.writes σ.store)) ∧
              guard q view then
            match m.exec q t.session o view with
            | .ok (r, s, ws) =>
                if ∀ t' ∈ σ.txs, t'.1 ≠ p → ∀ w ∈ ws, ∀ w' ∈ t'.2.writes, ¬m.clash w w' then
                  some (σ.set p (some ⟨c, b, k (.ok r), some ⟨t.conn, s, t.writes ++ ws⟩, cs⟩))
                else none
            | .error e =>
                some ((σ.close m.toEngine (some t)).set p (some ⟨c, b, k (.error e), none, cs⟩))
          else none
      | _ => none
  | .fail p =>
      match σ.procs p with
      | some ⟨c, b, prog, t, cs⟩ =>
          (prog.failed m.failure).map fun prog' =>
            (σ.close m.toEngine t).set p (some ⟨c, b, prog', none, cs⟩)
      | none => none
  | .commit p =>
      match σ.procs p with
      | some ⟨c, b, .commit k, some t, cs⟩ =>
          some { (σ.close m.toEngine (some t)).set p
              (some ⟨c, b, k (.ok ()), none, cs ++ [t.writes]⟩) with
            store := m.applyAll t.writes σ.store
            history := σ.history ++ [⟨p, c, t.writes⟩] }
      | _ => none
  | .call p y =>
      match σ.procs p with
      | some ⟨c, b, .call x k, t, cs⟩ =>
          if m.answers x y then some (σ.set p (some ⟨c, b, k y, t, cs⟩)) else none
      | _ => none
  | .reply p =>
      match σ.procs p with
      | some ⟨c, b, .ret a, t, cs⟩ =>
          some { (σ.close m.toEngine t).set p none with
            replies := σ.replies ++ [⟨p, c, b, cs, a⟩] }
      | _ => none
  | .cancel p =>
      match σ.procs p with
      | some ⟨_, _, _, t, _⟩ => some ((σ.close m.toEngine t).set p none)
      | none => none

/-- Run the steps with the given labels. -/
def replay : Sys Q S D W E X Y C α → List (Label O C Y) → Option (Sys Q S D W E X Y C α)
  | σ, [] => some σ
  | σ, l :: ls => (next m allow guard σ l).bind fun σ' => replay σ' ls

variable {m allow guard}

theorem Sys.mem_txs {σ : Sys Q S D W E X Y C α} (h : σ.Recorded) {p : Nat}
    {P : Proc Q S D W E X Y C α} {t : Tx S W} (hp : σ.procs p = some P) (ht : P.tx = some t) :
    (p, t) ∈ σ.txs := by
  refine List.mem_filterMap.2 ⟨p, h.started hp, ?_⟩
  simp [hp, ht]

theorem step_of_next {σ σ' : Sys Q S D W E X Y C α} (hσ : σ.Recorded) {l : Label O C Y}
    (h : next m allow guard σ l = some σ') : Step m allow guard σ l σ' := by
  have txs : ∀ p P t, σ.procs p = some P → P.tx = some t → (p, t) ∈ σ.txs :=
    fun _ _ _ hp ht => Sys.mem_txs hσ hp ht
  cases l with
  | spawn p c =>
      simp only [next, Option.ite_none_right_eq_some, Option.some.injEq] at h
      obtain ⟨⟨hp, hc⟩, rfl⟩ := h
      exact .spawn hp hc
  | start p conn o =>
      simp only [next] at h
      split at h
      · rename_i c b k cs hp
        simp only [Option.ite_none_right_eq_some, Option.some.injEq] at h
        obtain ⟨hfree, rfl⟩ := h
        exact .start hp rfl rfl fun q P t hq ht => hfree _ (txs q P t hq ht)
      · cases h
  | stmt p o =>
      simp only [next] at h
      split at h
      · rename_i c b R q k t cs hp
        simp only [Option.ite_none_right_eq_some] at h
        obtain ⟨⟨⟨hfresh, hfreshTx⟩, hguard⟩, h⟩ := h
        have hfresh : σ.Fresh m.toEngine o :=
          ⟨hfresh, fun q P t hq ht => hfreshTx _ (txs q P t hq ht)⟩
        split at h
        · rename_i r s ws hexec
          simp only [Option.ite_none_right_eq_some, Option.some.injEq] at h
          obtain ⟨hfree, rfl⟩ := h
          exact .stmt hp rfl rfl hfresh hguard hexec
            fun q P t' hqp hq ht => hfree _ (txs q P t' hq ht) hqp
        · rename_i e hexec
          cases h
          exact .stmtError hp rfl rfl hfresh hguard hexec
      · cases h
  | fail p =>
      simp only [next] at h
      split at h
      · rename_i c b prog t cs hp
        simp only [Option.map_eq_some_iff] at h
        obtain ⟨prog', hprog, rfl⟩ := h
        exact .fail hp hprog
      · cases h
  | commit p =>
      simp only [next] at h
      split at h
      · rename_i c b k t cs hp
        cases h
        exact .commit hp rfl rfl
      · cases h
  | call p y =>
      simp only [next] at h
      split at h
      · rename_i c b x k t cs hp
        simp only [Option.ite_none_right_eq_some, Option.some.injEq] at h
        obtain ⟨hy, rfl⟩ := h
        exact .call hp rfl hy
      · cases h
  | reply p =>
      simp only [next] at h
      split at h
      · rename_i c b a t cs hp
        cases h
        exact .reply hp rfl
      · cases h
  | cancel p =>
      simp only [next] at h
      split at h
      · rename_i hp
        cases h
        exact .cancel hp
      · cases h

/-- More requests may have arrived before. -/
theorem run_of_replay_mono {allow₀ : C → Prop} (himp : ∀ c, allow c → allow₀ c) {d : D} {s : S}
    {σ σ' : Sys Q S D W E X Y C α} {ls : List (Label O C Y)}
    (hσ : Reachable m allow₀ guard d s σ) (h : replay m allow guard σ ls = some σ') :
    Run m allow guard σ ls σ' := by
  induction ls generalizing σ with
  | nil =>
      cases h
      exact .nil
  | cons l ls ih =>
      obtain ⟨σ₁, hnext, h⟩ := Option.bind_eq_some_iff.1 h
      have hstep := step_of_next hσ.recorded hnext
      exact .cons hstep (ih (hσ.step (hstep.mono himp)) h)

theorem run_of_replay {d : D} {s : S} {σ σ' : Sys Q S D W E X Y C α} {ls : List (Label O C Y)}
    (hσ : Reachable m allow guard d s σ) (h : replay m allow guard σ ls = some σ') :
    Run m allow guard σ ls σ' :=
  run_of_replay_mono (fun _ => id) hσ h

theorem reachable_of_replay {d : D} {s : S} {σ : Sys Q S D W E X Y C α}
    {ls : List (Label O C Y)} (h : replay m allow guard (Sys.init d s) ls = some σ) :
    Reachable m allow guard d s σ :=
  Reachable.run .init (run_of_replay .init h)

/-- A replayed run that ends in a state with a given property. -/
theorem exists_of_replay {d : D} {s : S} {ls : List (Label O C Y)}
    {p : Sys Q S D W E X Y C α → Bool}
    (h : (replay m allow guard (Sys.init d s) ls).any p = true) :
    ∃ σ, Reachable m allow guard d s σ ∧ p σ = true := by
  cases hσ : replay m allow guard (Sys.init d s : Sys Q S D W E X Y C α) ls with
  | none => simp [hσ] at h
  | some σ => exact ⟨σ, reachable_of_replay hσ, by simpa [hσ] using h⟩

/-- The same for a replayed run and one step more. -/
theorem exists_step_of_replay {d : D} {s : S} {ls : List (Label O C Y)} {l : Label O C Y}
    {p : Sys Q S D W E X Y C α → Sys Q S D W E X Y C α → Bool}
    (h : ((replay m allow guard (Sys.init d s) ls).any fun σ =>
      (next m allow guard σ l).any (p σ)) = true) :
    ∃ σ σ', Reachable m allow guard d s σ ∧ Step m allow guard σ l σ' ∧ p σ σ' = true := by
  obtain ⟨σ, hσ, h⟩ := exists_of_replay h
  cases hnext : next m allow guard σ l with
  | none => simp [hnext] at h
  | some σ' => exact ⟨σ, σ', hσ, step_of_next hσ.recorded hnext, by simpa [hnext] using h⟩

end

end Transactional
