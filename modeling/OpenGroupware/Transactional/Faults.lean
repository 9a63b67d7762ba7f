import OpenGroupware.Transactional.Prog

/-!
A program run alone where any interaction may fail and the world outside the
store has a state of its own. Which interactions fail is given beforehand, by
their number, so that a result can say exactly under which failures it holds.
A stage is a part of a program with a known number of interactions: it goes
through when none of them fails, and aborts at the first that does.
-/

namespace Transactional

variable {Q : Type → Type} {S O D W E X Y F ε α β : Type}

/-- What a program meets: oracles, the interactions that fail, and the outside
world, which is told whether a call is to fail. -/
structure Hazards (O X Y F : Type) where
  oracle : Nat → O
  fails : Nat → Bool
  respond : Bool → X → F → Y × F

/-- The store, the world outside it, the settings of the pooled connection, and
the number of interactions so far. -/
structure Scene (S D F : Type) where
  store : D
  outside : F
  session : S
  clock : Nat

namespace Scene

variable (z : Scene S D F)

def tick : Scene S D F := { z with clock := z.clock + 1 }

/-- The transaction, if there is one, is rolled back. -/
def release (eng : Engine Q S O D W E) : Option (S × List W) → Scene S D F
  | none => z
  | some t => { z with session := eng.closeTx t.1 }

variable {z} {eng : Engine Q S O D W E} {tx : Option (S × List W)}

@[simp] theorem tick_store : z.tick.store = z.store := rfl
@[simp] theorem tick_outside : z.tick.outside = z.outside := rfl
@[simp] theorem tick_clock : z.tick.clock = z.clock + 1 := rfl

@[simp] theorem release_store : (z.release eng tx).store = z.store := by cases tx <;> rfl
@[simp] theorem release_outside : (z.release eng tx).outside = z.outside := by cases tx <;> rfl
@[simp] theorem release_clock : (z.release eng tx).clock = z.clock := by cases tx <;> rfl

end Scene

section

variable (eng : Engine Q S O D W E) (h : Hazards O X Y F)

/-- Run a program; a transaction that is open at its end is part of the result. -/
def attempt : Prog Q E X Y α → Option (S × List W) → Scene S D F →
    α × Option (S × List W) × Scene S D F
  | .ret a, tx, z => (a, tx, z)
  | .start k, none, z =>
      if h.fails z.clock then attempt (k (.error eng.failure)) none z.tick
      else attempt (k (.ok ())) (some (eng.openTx (h.oracle z.clock) z.session, [])) z.tick
  | .start k, some t, z => attempt (k (.error eng.failure)) none (z.release eng (some t)).tick
  | .stmt q k, some (s, ws), z =>
      if h.fails z.clock then
        attempt (k (.error eng.failure)) none (z.release eng (some (s, ws))).tick
      else
        match eng.exec q s (h.oracle z.clock) (eng.applyAll ws z.store) with
        | .ok (r, s', ws') => attempt (k (.ok r)) (some (s', ws ++ ws')) z.tick
        | .error e => attempt (k (.error e)) none (z.release eng (some (s, ws))).tick
  | .stmt _ k, none, z => attempt (k (.error eng.failure)) none z.tick
  | .commit k, some (s, ws), z =>
      if h.fails z.clock then
        attempt (k (.error eng.failure)) none (z.release eng (some (s, ws))).tick
      else
        attempt (k (.ok ())) none
          { (z.release eng (some (s, ws))).tick with store := eng.applyAll ws z.store }
  | .commit k, none, z => attempt (k (.error eng.failure)) none z.tick
  | .call x k, tx, z =>
      attempt (k (h.respond (h.fails z.clock) x z.outside).1) tx
        { z.tick with outside := (h.respond (h.fails z.clock) x z.outside).2 }

variable {eng h} {tx : Option (S × List W)} {z : Scene S D F}

theorem attempt_bind (prog : Prog Q E X Y α) (f : α → Prog Q E X Y β) :
    attempt eng h (prog >>= f) tx z =
      attempt eng h (f (attempt eng h prog tx z).1) (attempt eng h prog tx z).2.1
        (attempt eng h prog tx z).2.2 := by
  induction prog generalizing tx z with
  | ret a => rfl
  | start k ih =>
      rw [Prog.start_bind]
      cases tx with
      | some t => exact ih _
      | none =>
          simp only [attempt]
          split
          · exact ih _
          · exact ih _
  | stmt q k ih =>
      rw [Prog.stmt_bind]
      cases tx with
      | none => exact ih _
      | some t =>
          obtain ⟨s, ws⟩ := t
          simp only [attempt]
          split
          · exact ih _
          · split
            · exact ih _
            · exact ih _
  | commit k ih =>
      rw [Prog.commit_bind]
      cases tx with
      | none => exact ih _
      | some t =>
          obtain ⟨s, ws⟩ := t
          simp only [attempt]
          split
          · exact ih _
          · exact ih _
  | call x k ih => exact ih _

/-- The rest of a program that returns errors runs when its first part has not
returned one. -/
theorem attempt_run_bind (x : ExceptT ε (Prog Q E X Y) α) (f : α → ExceptT ε (Prog Q E X Y) β) :
    attempt eng h (x >>= f).run tx z =
      match attempt eng h x.run tx z with
      | (.ok a, tx', z') => attempt eng h (f a).run tx' z'
      | (.error e, tx', z') => (.error e, tx', z') := by
  rw [ExceptT.run_bind, attempt_bind]
  rcases attempt eng h x.run tx z with ⟨r, tx', z'⟩
  cases r with
  | ok a => rfl
  | error e => rfl

end

/-! ### Stages -/

/-- `x` takes `n` interactions. When none of them fails it returns `a`, with
transaction `tx'` open at `z'`; when one does it returns an error, and then
`Safe` holds of where it ends. -/
structure Stage (eng : Engine Q S O D W E) (h : Hazards O X Y F) (Safe : Scene S D F → Prop)
    (n : Nat) (x : ExceptT ε (Prog Q E X Y) α) (tx : Option (S × List W)) (z : Scene S D F)
    (a : α) (tx' : Option (S × List W)) (z' : Scene S D F) : Prop where
  clock : z'.clock = z.clock + n
  through : (∀ i < n, h.fails (z.clock + i) = false) → attempt eng h x.run tx z = (.ok a, tx', z')
  aborts : ∀ i < n, h.fails (z.clock + i) = true →
    ∃ e tx'' z'', attempt eng h x.run tx z = (.error e, tx'', z'') ∧ Safe z''

section

variable {eng : Engine Q S O D W E} {h : Hazards O X Y F} {Safe : Scene S D F → Prop}
  {n m : Nat} {x : ExceptT ε (Prog Q E X Y) α} {f : α → ExceptT ε (Prog Q E X Y) β}
  {tx tx' tx'' : Option (S × List W)} {z z' z'' : Scene S D F} {a : α} {b : β}

theorem Stage.bind (hx : Stage eng h Safe n x tx z a tx' z')
    (hf : Stage eng h Safe m (f a) tx' z' b tx'' z'') :
    Stage eng h Safe (m + n) (x >>= f) tx z b tx'' z'' := by
  have hclock : ∀ i, z'.clock + i = z.clock + (n + i) := fun i => by rw [hx.clock, Nat.add_assoc]
  refine ⟨by rw [hf.clock, hclock, Nat.add_comm n], fun hall => ?_, fun i hi hfail => ?_⟩
  · rw [attempt_run_bind, hx.through fun i hi => hall i (by omega)]
    refine hf.through fun i hi => ?_
    rw [hclock]
    exact hall (n + i) (by omega)
  · rw [attempt_run_bind]
    by_cases hfirst : ∃ j < n, h.fails (z.clock + j) = true
    · obtain ⟨j, hj, hfail⟩ := hfirst
      obtain ⟨e, t, y, hy, hsafe⟩ := hx.aborts j hj hfail
      rw [hy]
      exact ⟨e, t, y, rfl, hsafe⟩
    · have hclear : ∀ j < n, h.fails (z.clock + j) = false := fun j hj =>
        Bool.eq_false_iff.2 fun hfail => hfirst ⟨j, hj, hfail⟩
      have hin : n ≤ i := by
        by_contra hlt
        rw [hclear i (by omega)] at hfail
        cases hfail
      rw [hx.through hclear]
      refine hf.aborts (i - n) (by omega) ?_
      rw [hclock, Nat.add_sub_cancel' hin]
      exact hfail

theorem Stage.pure (a : α) : Stage eng h Safe 0 (pure a : ExceptT ε (Prog Q E X Y) α) tx z a tx z :=
  ⟨rfl, fun _ => rfl, fun i hi => absurd hi (Nat.not_lt_zero i)⟩

/-- A stage of one interaction. -/
theorem Stage.one (hclock : z'.clock = z.clock + 1)
    (hthrough : h.fails z.clock = false → attempt eng h x.run tx z = (.ok a, tx', z'))
    (haborts : h.fails z.clock = true →
      ∃ e tx'' z'', attempt eng h x.run tx z = (.error e, tx'', z'') ∧ Safe z'') :
    Stage eng h Safe 1 x tx z a tx' z' := by
  refine ⟨hclock, fun hall => hthrough (hall 0 (by omega)), fun i hi hfail => haborts ?_⟩
  obtain rfl : i = 0 := by omega
  exact hfail

/-! ### Interactions -/

variable {g : E → ε} {s s' : S} {ws ws' : List W}

theorem Stage.start {x : ExceptT ε (Prog Q E X Y) Unit}
    (hx : x.run = .start fun r => .ret (r.mapError g)) (hsafe : Safe z.tick) :
    Stage eng h Safe 1 x none z () (some (eng.openTx (h.oracle z.clock) z.session, [])) z.tick := by
  refine .one rfl (fun hpass => ?_) fun hfail => ⟨g eng.failure, none, z.tick, ?_, hsafe⟩
  · rw [hx, attempt, hpass]
    rfl
  · rw [hx, attempt, hfail]
    rfl

theorem Stage.stmt {R : Type} {x : ExceptT ε (Prog Q E X Y) R} {q : Q R} {r : R}
    (hx : x.run = .stmt q fun r => .ret (r.mapError g))
    (hexec : eng.exec q s (h.oracle z.clock) (eng.applyAll ws z.store) = .ok (r, s', ws'))
    (hsafe : Safe (z.release eng (some (s, ws))).tick) :
    Stage eng h Safe 1 x (some (s, ws)) z r (some (s', ws ++ ws')) z.tick := by
  refine .one rfl (fun hpass => ?_) fun hfail => ⟨g eng.failure, none, _, ?_, hsafe⟩
  · rw [hx, attempt, hpass, hexec]
    rfl
  · rw [hx, attempt, hfail]
    rfl

theorem Stage.commit {x : ExceptT ε (Prog Q E X Y) Unit}
    (hx : x.run = .commit fun r => .ret (r.mapError g))
    (hsafe : Safe (z.release eng (some (s, ws))).tick) :
    Stage eng h Safe 1 x (some (s, ws)) z () none
      ⟨eng.applyAll ws z.store, z.outside, eng.closeTx s, z.clock + 1⟩ := by
  refine .one rfl (fun hpass => ?_) fun hfail => ⟨g eng.failure, none, _, ?_, hsafe⟩
  · rw [hx, attempt, hpass]
    rfl
  · rw [hx, attempt, hfail]
    rfl

/-- A call whose failures are told by its answer. -/
theorem Stage.call {E' : Type} {e : E'} {g : E' → ε} {c : X} {f : F}
    {x : ExceptT ε (Prog Q E X (Except E' Unit)) Unit} {h : Hazards O X (Except E' Unit) F}
    (hx : x.run = .call c fun r => .ret (r.mapError g))
    (hpass : h.respond false c z.outside = (.ok (), f))
    (hfail : (h.respond true c z.outside).1 = .error e)
    (hsafe : Safe { z.tick with outside := (h.respond true c z.outside).2 }) :
    Stage eng h Safe 1 x tx z () tx { z.tick with outside := f } := by
  refine .one rfl (fun hclock => ?_) fun hclock => ⟨g e, tx, _, ?_, hsafe⟩
  · rw [hx, attempt, hclock, hpass]
    rfl
  · rw [hx, attempt, hclock, hfail]
    rfl

end

end Transactional
