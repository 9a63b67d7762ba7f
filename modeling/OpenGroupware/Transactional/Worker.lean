import OpenGroupware.Transactional.System
import Mathlib.Data.Set.Insert
import Mathlib.Logic.Relation

/-!
A worker beside a store that others change. It runs one program again and
again, one run at a time, and has a world of its own outside the store, such as
its files. The store may become another one between any two of its steps, any
interaction may fail, and the worker may be stopped at any point and be started
again; what it has done to its world stays. What a worker leaves in its world is
proved from the stores its statements have seen.
-/

namespace Transactional

variable {Q : Type → Type} {S O D W E X Y F α β ε : Type}

/-- A worker: the rest of its program with the open transaction, the settings
its connection is left with, its world, the transactions it has committed, and
the results of its runs. -/
structure Worker (Q : Type → Type) (S W E X Y F α : Type) : Type 1 where
  job : Option (Prog Q E X Y α × Option (S × List W))
  session : S
  outside : F
  commits : List (List W)
  results : List α

/-- A worker that has not been started yet. -/
def Worker.init (s : S) (f : F) : Worker Q S W E X Y F α := ⟨none, s, f, [], []⟩

/-- The settings of a connection once its transaction has ended, if any. -/
def Engine.left (eng : Engine Q S O D W E) (s : S) : Option (S × List W) → S
  | none => s
  | some t => eng.closeTx t.1

section

variable (eng : Engine Q S O D W E) (acts : X → F → Y → F → Prop) (program : Prog Q E X Y α)

/-- One step of a worker while the store is `d`. The writes it has committed are
kept apart from the store. -/
inductive Worker.Step (d : D) : Worker Q S W E X Y F α → Worker Q S W E X Y F α → Prop
  | launch {w} : w.job = none → Step d w { w with job := some (program, none) }
  | start {w o k} : w.job = some (.start k, none) →
      Step d w { w with job := some (k (.ok ()), some (eng.openTx o w.session, [])) }
  | stmt {w s ws o} {R : Type} {q : Q R} {k r s' ws'} :
      w.job = some (.stmt q k, some (s, ws)) →
      eng.exec q s o (eng.applyAll ws d) = .ok (r, s', ws') →
      Step d w { w with job := some (k (.ok r), some (s', ws ++ ws')) }
  | stmtError {w s ws o} {R : Type} {q : Q R} {k e} : w.job = some (.stmt q k, some (s, ws)) →
      eng.exec q s o (eng.applyAll ws d) = .error e →
      Step d w { w with job := some (k (.error e), none), session := eng.closeTx s }
  | fail {w prog tx prog'} : w.job = some (prog, tx) → prog.failed eng.failure = some prog' →
      Step d w { w with job := some (prog', none), session := eng.left w.session tx }
  | commit {w s ws k} : w.job = some (.commit k, some (s, ws)) →
      Step d w { w with
        job := some (k (.ok ()), none), session := eng.closeTx s, commits := w.commits ++ [ws] }
  | call {w x y k tx f} : w.job = some (.call x k, tx) → acts x w.outside y f →
      Step d w { w with job := some (k y, tx), outside := f }
  | finish {w a tx} : w.job = some (.ret a, tx) →
      Step d w { w with
        job := none, session := eng.left w.session tx, results := w.results ++ [a] }
  | stop {w prog tx} : w.job = some (prog, tx) →
      Step d w { w with job := none, session := eng.left w.session tx }

/-! ### What a program leaves behind -/

variable (idle : S → Prop) (inv : Set D → F → Prop)
  (post : Option (S × List W) → Set D → α → F → Prop)

/-- What is left of a program, whose statements have seen the stores `seen`,
keeps the invariant of the world and ends as `post` says. -/
def Prog.Sustains : Prog Q E X Y α → Option (S × List W) → Set D → F → Prop
  | .ret a, tx, seen, f => post tx seen a f
  | .start k, _, seen, f => (∀ e, (k (.error e)).Sustains none seen f) ∧
      ∀ s o, idle s → (k (.ok ())).Sustains (some (eng.openTx o s, [])) seen f
  | .stmt q k, tx, seen, f => (∀ e, (k (.error e)).Sustains none seen f) ∧
      ∀ s ws, tx = some (s, ws) → ∀ d o r s' ws',
        eng.exec q s o (eng.applyAll ws d) = .ok (r, s', ws') →
          (k (.ok r)).Sustains (some (s', ws ++ ws')) (insert d seen) f
  | .commit k, _, seen, f => ∀ r, (k r).Sustains none seen f
  | .call x k, tx, seen, f => ∀ y f', acts x f y f' → inv seen f' ∧ (k y).Sustains tx seen f'

end

section

variable {eng : Engine Q S O D W E} {acts : X → F → Y → F → Prop} {idle : S → Prop}
  {inv : Set D → F → Prop} {tx : Option (S × List W)} {seen : Set D} {f : F}

theorem Prog.Sustains.failed {post : Option (S × List W) → Set D → α → F → Prop}
    {prog prog' : Prog Q E X Y α} {e : E} (h : prog.Sustains eng acts idle inv post tx seen f)
    (hfail : prog.failed e = some prog') :
    prog'.Sustains eng acts idle inv post none seen f := by
  cases prog with
  | start k | stmt q k =>
      obtain rfl := Option.some.inj hfail
      exact h.1 e
  | commit k =>
      obtain rfl := Option.some.inj hfail
      exact h _
  | ret a | call x k => cases hfail

theorem Prog.Sustains.mono {post post' : Option (S × List W) → Set D → α → F → Prop}
    (himp : ∀ tx seen a f, post tx seen a f → post' tx seen a f) {prog : Prog Q E X Y α}
    (h : prog.Sustains eng acts idle inv post tx seen f) :
    prog.Sustains eng acts idle inv post' tx seen f := by
  induction prog generalizing tx seen f with
  | ret a => exact himp tx seen a f h
  | start k ih => exact ⟨fun e => ih _ (h.1 e), fun s o hs => ih _ (h.2 s o hs)⟩
  | stmt q k ih =>
      exact ⟨fun e => ih _ (h.1 e),
        fun s ws htx d o r s' ws' hexec => ih _ (h.2 s ws htx d o r s' ws' hexec)⟩
  | commit k ih => exact fun r => ih _ (h r)
  | call x k ih => exact fun y f' hact => ⟨(h y f' hact).1, ih _ (h y f' hact).2⟩

theorem Prog.Sustains.bind {post : Option (S × List W) → Set D → β → F → Prop}
    {prog : Prog Q E X Y α} {g : α → Prog Q E X Y β}
    (h : prog.Sustains eng acts idle inv
      (fun tx seen a f => (g a).Sustains eng acts idle inv post tx seen f) tx seen f) :
    (prog >>= g).Sustains eng acts idle inv post tx seen f := by
  induction prog generalizing tx seen f with
  | ret a => exact h
  | start k ih => exact ⟨fun e => ih _ (h.1 e), fun s o hs => ih _ (h.2 s o hs)⟩
  | stmt q k ih =>
      exact ⟨fun e => ih _ (h.1 e),
        fun s ws htx d o r s' ws' hexec => ih _ (h.2 s ws htx d o r s' ws' hexec)⟩
  | commit k ih => exact fun r => ih _ (h r)
  | call x k ih => exact fun y f' hact => ⟨(h y f' hact).1, ih _ (h y f' hact).2⟩

/-- Programs that return errors go on when their first part has not returned one. -/
theorem Prog.Sustains.run_bind {post : Option (S × List W) → Set D → Except ε β → F → Prop}
    {x : ExceptT ε (Prog Q E X Y) α} {g : α → ExceptT ε (Prog Q E X Y) β}
    (h : x.run.Sustains eng acts idle inv (fun tx seen r f =>
      (∀ e, r = .error e → post tx seen (.error e) f) ∧
        ∀ a, r = .ok a → (g a).run.Sustains eng acts idle inv post tx seen f) tx seen f) :
    (x >>= g).run.Sustains eng acts idle inv post tx seen f := by
  rw [ExceptT.run_bind]
  refine Prog.Sustains.bind (h.mono fun tx seen r f hr => ?_)
  cases r with
  | ok a => exact hr.2 a rfl
  | error e => exact hr.1 e rfl

end

/-! ### A worker and its surroundings -/

/-- Surroundings that have the store, and a worker. -/
structure Beside (τ : Type*) (Q : Type → Type) (S W E X Y F α : Type) where
  env : τ
  worker : Worker Q S W E X Y F α

section

variable {τ : Type*} (eng : Engine Q S O D W E) (acts : X → F → Y → F → Prop)
  (program : Prog Q E X Y α) (store : τ → D) (moves : τ → τ → Prop)

/-- The surroundings and the worker take their steps in any order. -/
inductive Beside.Step : Beside τ Q S W E X Y F α → Beside τ Q S W E X Y F α → Prop
  | env {e e' w} : moves e e' → Step ⟨e, w⟩ ⟨e', w⟩
  | worker {e w w'} : w.Step eng acts program (store e) w' → Step ⟨e, w⟩ ⟨e, w'⟩

abbrev Beside.Run : Beside τ Q S W E X Y F α → Beside τ Q S W E X Y F α → Prop :=
  Relation.ReflTransGen (Beside.Step eng acts program store moves)

/-- The store was `d` on the way from `e` to `e'`. -/
def Visited (e e' : τ) (d : D) : Prop :=
  ∃ ρ, Relation.ReflTransGen moves e ρ ∧ Relation.ReflTransGen moves ρ e' ∧ store ρ = d

variable {eng acts program store moves} {σ σ' : Beside τ Q S W E X Y F α}

theorem Beside.Run.env_moves (h : Beside.Run eng acts program store moves σ σ') :
    Relation.ReflTransGen moves σ.env σ'.env := by
  induction h with
  | refl => exact .refl
  | tail _ hstep ih =>
      cases hstep with
      | env hmove => exact ih.tail hmove
      | worker _ => exact ih

variable (eng acts store moves) (idle : S → Prop) (inv : List α → Set D → F → Prop)

/-- The worker keeps the invariant of its world, which may depend on the results
since `σ` and on the stores that have been visited since then. -/
structure Sustained (σ σ' : Beside τ Q S W E X Y F α) (new : List α) (seen : Set D) : Prop where
  results : σ'.worker.results = σ.worker.results ++ new
  visited : ∀ d ∈ seen, Visited store moves σ.env σ'.env d
  kept : inv new seen σ'.worker.outside
  settled : idle σ'.worker.session
  rest : ∀ prog tx, σ'.worker.job = some (prog, tx) →
    prog.Sustains eng acts idle (inv new) (fun _ seen a f => inv (new ++ [a]) seen f) tx seen
      σ'.worker.outside

variable {eng acts store moves idle inv}

/-- The step lemma. -/
theorem Sustained.step (hmono : ∀ rs seen seen' f, seen ⊆ seen' → inv rs seen f → inv rs seen' f)
    (hidle : ∀ s, idle (eng.closeTx s))
    (hprog : ∀ rs seen f, inv rs seen f → program.Sustains eng acts idle (inv rs)
      (fun _ seen a f => inv (rs ++ [a]) seen f) none seen f)
    {σ₁ : Beside τ Q S W E X Y F α} {new : List α} {seen : Set D}
    (hrun : Relation.ReflTransGen moves σ.env σ₁.env)
    (h : Sustained eng acts store moves idle inv σ σ₁ new seen)
    (hstep : Beside.Step eng acts program store moves σ₁ σ') :
    ∃ new seen, Sustained eng acts store moves idle inv σ σ' new seen := by
  obtain ⟨hresults, hvisited, hinv, hsession, hjob⟩ := h
  have hleft : ∀ (s : S) (tx : Option (S × List W)), idle s → idle (eng.left s tx) := by
    intro s tx hs
    cases tx with
    | none => exact hs
    | some t => exact hidle t.1
  have some_job : ∀ {prog prog' : Prog Q E X Y α} {tx tx' : Option (S × List W)},
      (some (prog, tx) : Option (Prog Q E X Y α × Option (S × List W))) = some (prog', tx') →
        prog = prog' ∧ tx = tx' :=
    fun heq => Prod.mk.inj (Option.some.inj heq)
  cases hstep with
  | env hmove =>
      refine ⟨new, seen, hresults, fun d hd => ?_, hinv, hsession, hjob⟩
      obtain ⟨ρ, hρ, hρ', heq⟩ := hvisited d hd
      exact ⟨ρ, hρ, hρ'.tail hmove, heq⟩
  | @worker e w w' hstep =>
      cases hstep with
      | launch _ =>
          refine ⟨new, seen, hresults, hvisited, hinv, hsession, fun prog tx heq => ?_⟩
          obtain ⟨rfl, rfl⟩ := some_job heq
          exact hprog new seen _ hinv
      | start hw =>
          refine ⟨new, seen, hresults, hvisited, hinv, hsession, fun prog tx heq => ?_⟩
          obtain ⟨rfl, rfl⟩ := some_job heq
          exact (hjob _ _ hw).2 _ _ hsession
      | stmt hw hexec =>
          refine ⟨new, insert (store e) seen, hresults, ?_,
            hmono new _ _ _ (Set.subset_insert _ _) hinv, hsession, fun prog tx heq => ?_⟩
          · rintro d (rfl | hd)
            · exact ⟨e, hrun, .refl, rfl⟩
            · exact hvisited d hd
          · obtain ⟨rfl, rfl⟩ := some_job heq
            exact (hjob _ _ hw).2 _ _ rfl _ _ _ _ _ hexec
      | stmtError hw _ =>
          refine ⟨new, seen, hresults, hvisited, hinv, hidle _, fun prog tx heq => ?_⟩
          obtain ⟨rfl, rfl⟩ := some_job heq
          exact (hjob _ _ hw).1 _
      | fail hw hfail =>
          refine ⟨new, seen, hresults, hvisited, hinv, hleft _ _ hsession, fun prog tx heq => ?_⟩
          obtain ⟨rfl, rfl⟩ := some_job heq
          exact (hjob _ _ hw).failed hfail
      | commit hw =>
          refine ⟨new, seen, hresults, hvisited, hinv, hidle _, fun prog tx heq => ?_⟩
          obtain ⟨rfl, rfl⟩ := some_job heq
          exact hjob _ _ hw _
      | call hw hact =>
          obtain ⟨hinv', hrest⟩ := hjob _ _ hw _ _ hact
          refine ⟨new, seen, hresults, hvisited, hinv', hsession, fun prog tx heq => ?_⟩
          obtain ⟨rfl, rfl⟩ := some_job heq
          exact hrest
      | @finish a _ hw =>
          refine ⟨new ++ [a], seen, ?_, hvisited, hjob _ _ hw, hleft _ _ hsession,
            fun prog tx heq => nomatch heq⟩
          rw [← List.append_assoc, ← hresults]
      | stop hw =>
          exact ⟨new, seen, hresults, hvisited, hinv, hleft _ _ hsession,
            fun prog tx heq => nomatch heq⟩

/-- The run lemma. -/
theorem Beside.Run.sustained
    (hmono : ∀ rs seen seen' f, seen ⊆ seen' → inv rs seen f → inv rs seen' f)
    (hidle : ∀ s, idle (eng.closeTx s))
    (hprog : ∀ rs seen f, inv rs seen f → program.Sustains eng acts idle (inv rs)
      (fun _ seen a f => inv (rs ++ [a]) seen f) none seen f)
    (h : Beside.Run eng acts program store moves σ σ') (hjob : σ.worker.job = none)
    (hsession : idle σ.worker.session) (hinv : inv [] ∅ σ.worker.outside) :
    ∃ new seen, Sustained eng acts store moves idle inv σ σ' new seen := by
  induction h with
  | refl =>
      refine ⟨[], ∅, (List.append_nil _).symm, fun d hd => absurd hd (Set.notMem_empty d), hinv,
        hsession, ?_⟩
      intro prog tx heq
      cases hjob.symm.trans heq
  | tail hrun hstep ih =>
      obtain ⟨new, seen, hsustained⟩ := ih
      exact hsustained.step hmono hidle hprog (Beside.Run.env_moves hrun) hstep

end

/-! ### Undisturbed steps -/

section

variable {τ : Type*} (eng : Engine Q S O D W E) (act : X → F → Y × F) (program : Prog Q E X Y α)

/-- The next step of a worker when nothing fails and its calls do `act`. -/
def Worker.advance (o : O) (d : D) (w : Worker Q S W E X Y F α) :
    Option (Worker Q S W E X Y F α) :=
  match w.job with
  | none => some { w with job := some (program, none) }
  | some (.start k, none) =>
      some { w with job := some (k (.ok ()), some (eng.openTx o w.session, [])) }
  | some (.stmt q k, some (s, ws)) =>
      match eng.exec q s o (eng.applyAll ws d) with
      | .ok (r, s', ws') => some { w with job := some (k (.ok r), some (s', ws ++ ws')) }
      | .error e => some { w with job := some (k (.error e), none), session := eng.closeTx s }
  | some (.commit k, some (s, ws)) =>
      some { w with
        job := some (k (.ok ()), none), session := eng.closeTx s, commits := w.commits ++ [ws] }
  | some (.call x k, tx) =>
      some { w with job := some (k (act x w.outside).1, tx), outside := (act x w.outside).2 }
  | some (.ret a, tx) =>
      some { w with job := none, session := eng.left w.session tx, results := w.results ++ [a] }
  | _ => none

def Worker.advances (o : O) (d : D) :
    Nat → Worker Q S W E X Y F α → Option (Worker Q S W E X Y F α)
  | 0, w => some w
  | n + 1, w => (w.advance eng act program o d).bind (Worker.advances o d n)

variable {eng act program} {acts : X → F → Y → F → Prop}

theorem Worker.step_of_advance (hact : ∀ x f, acts x f (act x f).1 (act x f).2) {o : O} {d : D}
    {w w' : Worker Q S W E X Y F α} (h : w.advance eng act program o d = some w') :
    w.Step eng acts program d w' := by
  unfold Worker.advance at h
  split at h
  · rename_i hjob
    obtain rfl := Option.some.inj h
    exact .launch hjob
  · rename_i hjob
    obtain rfl := Option.some.inj h
    exact .start hjob
  · rename_i hjob
    split at h
    · rename_i hexec
      obtain rfl := Option.some.inj h
      exact .stmt hjob hexec
    · rename_i hexec
      obtain rfl := Option.some.inj h
      exact .stmtError hjob hexec
  · rename_i hjob
    obtain rfl := Option.some.inj h
    exact .commit hjob
  · rename_i hjob
    obtain rfl := Option.some.inj h
    exact .call hjob (hact _ _)
  · rename_i hjob
    obtain rfl := Option.some.inj h
    exact .finish hjob
  · cases h

theorem Beside.run_of_advances (hact : ∀ x f, acts x f (act x f).1 (act x f).2) {store : τ → D}
    {moves : τ → τ → Prop} {e : τ} {o : O} {n : Nat} {w w' : Worker Q S W E X Y F α}
    (h : w.advances eng act program o (store e) n = some w') :
    Beside.Run eng acts program store moves ⟨e, w⟩ ⟨e, w'⟩ := by
  induction n generalizing w with
  | zero =>
      obtain rfl := Option.some.inj h
      exact .refl
  | succ n ih =>
      obtain ⟨w₁, hadvance, hrest⟩ := Option.bind_eq_some_iff.1 h
      exact .head (.worker (Worker.step_of_advance hact hadvance)) (ih hrest)

end

end Transactional
