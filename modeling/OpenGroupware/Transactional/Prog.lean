import Mathlib.Logic.Function.Basic

/-!
Programs that talk to a shared store through transactions. A program is the
tree of its interactions: it opens a transaction, runs statements in it,
commits it, and between transactions calls the outside world. Every
interaction with the store can fail, and the program sees the failure.
-/

namespace Transactional

/-- Programs over statements `Q R` with result `R`, statement errors `E` and
outside calls `X` answered by `Y`. -/
inductive Prog (Q : Type → Type) (E X Y α : Type) : Type 1
  /-- Finish. A transaction that is still open is rolled back. -/
  | ret (a : α)
  /-- Take a connection and open a transaction on it. -/
  | start (k : Except E Unit → Prog Q E X Y α)
  /-- Run a statement in the open transaction. -/
  | stmt {R : Type} (q : Q R) (k : Except E R → Prog Q E X Y α)
  /-- Commit the open transaction. -/
  | commit (k : Except E Unit → Prog Q E X Y α)
  /-- Call the outside world. -/
  | call (x : X) (k : Y → Prog Q E X Y α)

namespace Prog

variable {Q : Type → Type} {E X Y α β : Type}

protected def bind : Prog Q E X Y α → (α → Prog Q E X Y β) → Prog Q E X Y β
  | .ret a, f => f a
  | .start k, f => .start fun r => (k r).bind f
  | .stmt q k, f => .stmt q fun r => (k r).bind f
  | .commit k, f => .commit fun r => (k r).bind f
  | .call x k, f => .call x fun y => (k y).bind f

instance : Monad (Prog Q E X Y) where
  pure := .ret
  bind := Prog.bind

instance : LawfulMonad (Prog Q E X Y) := LawfulMonad.mk' _
  (fun p => by
    induction p with
    | ret a => rfl
    | start k ih => exact congrArg Prog.start (funext ih)
    | stmt q k ih => exact congrArg (Prog.stmt q) (funext ih)
    | commit k ih => exact congrArg Prog.commit (funext ih)
    | call x k ih => exact congrArg (Prog.call x) (funext ih))
  (fun _ _ => rfl)
  (fun p f g => by
    induction p with
    | ret a => rfl
    | start k ih => exact congrArg Prog.start (funext ih)
    | stmt q k ih => exact congrArg (Prog.stmt q) (funext ih)
    | commit k ih => exact congrArg Prog.commit (funext ih)
    | call x k ih => exact congrArg (Prog.call x) (funext ih))

@[simp] theorem pure_eq (a : α) : (pure a : Prog Q E X Y α) = .ret a := rfl

@[simp] theorem ret_bind (a : α) (f : α → Prog Q E X Y β) : (Prog.ret a >>= f) = f a := rfl

@[simp] theorem start_bind (k : Except E Unit → Prog Q E X Y α) (f : α → Prog Q E X Y β) :
    (Prog.start k >>= f) = .start fun r => k r >>= f := rfl

@[simp] theorem stmt_bind {R : Type} (q : Q R) (k : Except E R → Prog Q E X Y α)
    (f : α → Prog Q E X Y β) : (Prog.stmt q k >>= f) = .stmt q fun r => k r >>= f := rfl

@[simp] theorem commit_bind (k : Except E Unit → Prog Q E X Y α) (f : α → Prog Q E X Y β) :
    (Prog.commit k >>= f) = .commit fun r => k r >>= f := rfl

@[simp] theorem call_bind (x : X) (k : Y → Prog Q E X Y α) (f : α → Prog Q E X Y β) :
    (Prog.call x k >>= f) = .call x fun y => k y >>= f := rfl

end Prog

/-- What a store does with statements and with the writes they produce. -/
structure Engine (Q : Type → Type) (S O D W E : Type) where
  /-- Run a statement under the session settings on a view of the store. The
  environment supplies an `O`: fresh identifiers, the clock, and the like. -/
  exec : {R : Type} → Q R → S → O → D → Except E (R × S × List W)
  /-- Session settings of a transaction opened on an idle connection. -/
  openTx : O → S → S
  /-- Settings a connection is left with when its transaction ends. -/
  closeTx : S → S
  apply : W → D → D
  /-- Two writes that locks keep apart until one of them ends. -/
  clash : W → W → Prop
  /-- The identifiers in `o` are used nowhere in the store. -/
  fresh : O → D → Prop
  /-- The error of a statement that did not reach the store. -/
  failure : E

namespace Engine

variable {Q : Type → Type} {S O D W E : Type} (eng : Engine Q S O D W E)

/-- The store after a list of writes, the oldest first. -/
def applyAll (ws : List W) (d : D) : D := ws.foldl (fun d w => eng.apply w d) d

@[simp] theorem applyAll_nil (d : D) : eng.applyAll [] d = d := rfl

@[simp] theorem applyAll_cons (w : W) (ws : List W) (d : D) :
    eng.applyAll (w :: ws) d = eng.applyAll ws (eng.apply w d) := rfl

theorem applyAll_append (ws ws' : List W) (d : D) :
    eng.applyAll (ws ++ ws') d = eng.applyAll ws' (eng.applyAll ws d) :=
  List.foldl_append

/-- What is the case after a list of writes was so before, or one of them has
brought it about. -/
theorem exists_of_applyAll (φ : D → Prop) {ψ : W → Prop}
    (hone : ∀ w d, φ (eng.apply w d) → φ d ∨ ψ w) {ws : List W} {d : D}
    (h : φ (eng.applyAll ws d)) : φ d ∨ ∃ w ∈ ws, ψ w := by
  induction ws generalizing d with
  | nil => exact .inl h
  | cons w ws ih =>
      rcases ih h with h | ⟨w', hw', hψ⟩
      · rcases hone w d h with h | hψ
        · exact .inl h
        · exact .inr ⟨w, List.mem_cons_self, hψ⟩
      · exact .inr ⟨w', List.mem_cons_of_mem _ hw', hψ⟩

/-- What makes writes compose: `fits w d` says that `w` still says the right
thing about `d`. -/
structure Lawful (fits : W → D → Prop) : Prop where
  clash_symm : ∀ {w w'}, eng.clash w w' → eng.clash w' w
  fits_apply_iff : ∀ {w w' d}, fits w' d → ¬eng.clash w w' →
    (fits w (eng.apply w' d) ↔ fits w d)
  exec_fits : ∀ {R} {q : Q R} {s s' : S} {o d r ws}, eng.exec q s o d = .ok (r, s', ws) →
    (∀ w ∈ ws, fits w d) ∧ ws.Pairwise fun w w' => ¬eng.clash w w'

/-- The writes of an open transaction: each fits the store, and they do not
get in each other's way. -/
structure Pending (fits : W → D → Prop) (ws : List W) (d : D) : Prop where
  fits : ∀ w ∈ ws, fits w d
  apart : ws.Pairwise fun w w' => ¬eng.clash w w'

variable {eng} {fits : W → D → Prop}

theorem Pending.nil (d : D) : eng.Pending fits [] d := ⟨by simp, List.Pairwise.nil⟩

/-- Pending writes stay good while they are applied one by one. -/
theorem Lawful.pending_cons (law : eng.Lawful fits) {w : W} {ws : List W} {d : D}
    (h : eng.Pending fits (w :: ws) d) : fits w d ∧ eng.Pending fits ws (eng.apply w d) := by
  obtain ⟨hfit, hapart⟩ := h
  rw [List.pairwise_cons] at hapart
  have hw : fits w d := hfit w List.mem_cons_self
  refine ⟨hw, fun x hx => ?_, hapart.2⟩
  exact (law.fits_apply_iff hw fun h => hapart.1 x hx (law.clash_symm h)).2
    (hfit x (List.mem_cons_of_mem _ hx))

theorem Lawful.fits_applyAll_iff (law : eng.Lawful fits) {ws : List W} {w : W} {d : D}
    (hws : eng.Pending fits ws d) (hno : ∀ w' ∈ ws, ¬eng.clash w w') :
    fits w (eng.applyAll ws d) ↔ fits w d := by
  induction ws generalizing d with
  | nil => rfl
  | cons w' ws ih =>
      obtain ⟨hw', hrest⟩ := law.pending_cons hws
      rw [applyAll_cons, ih hrest fun x hx => hno x (List.mem_cons_of_mem _ hx)]
      exact law.fits_apply_iff hw' (hno w' List.mem_cons_self)

/-- Another transaction's writes leave pending writes good when locks keep the
two apart. -/
theorem Lawful.pending_applyAll (law : eng.Lawful fits) {ws ws' : List W} {d : D}
    (hws : eng.Pending fits ws d) (hws' : eng.Pending fits ws' d)
    (hno : ∀ w ∈ ws, ∀ w' ∈ ws', ¬eng.clash w w') :
    eng.Pending fits ws (eng.applyAll ws' d) :=
  ⟨fun w hw => (law.fits_applyAll_iff hws' (hno w hw)).2 (hws.fits w hw), hws.apart⟩

/-- A statement run on the view of a transaction extends its pending writes. -/
theorem Lawful.pending_append (law : eng.Lawful fits) {R : Type} {q : Q R} {s s' : S} {o : O}
    {d : D} {r : R} {ws ws' : List W} (hws : eng.Pending fits ws d)
    (hexec : eng.exec q s o (eng.applyAll ws d) = .ok (r, s', ws'))
    (hno : ∀ w' ∈ ws', ∀ w ∈ ws, ¬eng.clash w' w) :
    eng.Pending fits (ws ++ ws') d := by
  obtain ⟨hfit, hapart⟩ := law.exec_fits hexec
  refine ⟨fun w hw => ?_, List.pairwise_append.2 ⟨hws.apart, hapart, ?_⟩⟩
  · rcases List.mem_append.1 hw with hw | hw
    · exact hws.fits w hw
    · exact (law.fits_applyAll_iff hws (hno w hw)).1 (hfit w hw)
  · exact fun w hw w' hw' h => hno w' hw' w hw (law.clash_symm h)

end Engine

end Transactional
