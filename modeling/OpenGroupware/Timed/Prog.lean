/-!
Programs that share one cell and read clocks. A program may look at the cell,
replace what is in it, ask a remote party for a message, and read the monotonic
clock and the wall clock. What it finds is decided by its surroundings.
-/

namespace Timed

/-- Programs over a cell that may hold a `V`, remote messages `M`, and result `α`. -/
inductive Prog (V M α : Type) : Type
  | ret (a : α)
  /-- Look at the cell, and at the clock while looking. -/
  | read (k : Option V → Nat → Prog V M α)
  /-- Ask the remote party; there is a message or the reason why there is none. -/
  | fetch (k : Except String M → Prog V M α)
  /-- Read the monotonic clock. -/
  | instant (k : Nat → Prog V M α)
  /-- Replace what is in the cell. -/
  | write (v : V) (k : Prog V M α)
  /-- Read the wall clock, in whole seconds if it is past the epoch. -/
  | wall (k : Option Nat → Prog V M α)

namespace Prog

variable {V M α β : Type}

protected def bind : Prog V M α → (α → Prog V M β) → Prog V M β
  | .ret a, f => f a
  | .read k, f => .read fun v t => (k v t).bind f
  | .fetch k, f => .fetch fun r => (k r).bind f
  | .instant k, f => .instant fun t => (k t).bind f
  | .write v k, f => .write v (k.bind f)
  | .wall k, f => .wall fun n => (k n).bind f

instance : Monad (Prog V M) where
  pure := .ret
  bind := Prog.bind

end Prog

/-! ### Alone -/

/-- What a program meets at each interaction, by its number. Other programs may
have changed the cell since this one left it. -/
structure Surroundings (V M : Type) where
  time : Nat → Nat
  found : Nat → Option V → Option V
  answer : Nat → Except String M
  wall : Nat → Option Nat

variable {V M ε α β : Type}

/-- The same surroundings while the wall clock shows `secs`. -/
def Surroundings.atWall (w : Surroundings V M) (secs : Option Nat) : Surroundings V M :=
  { w with wall := fun _ => secs }

/-- Run a program from the `n`-th interaction with `v` in the cell: its result,
the cell as it leaves it, and the number of the next interaction. -/
def solo (w : Surroundings V M) : Prog V M α → Option V → Nat → α × Option V × Nat
  | .ret a, v, n => (a, v, n)
  | .read k, v, n => solo w (k (w.found n v) (w.time n)) (w.found n v) (n + 1)
  | .fetch k, v, n => solo w (k (w.answer n)) v (n + 1)
  | .instant k, v, n => solo w (k (w.time n)) v (n + 1)
  | .write e k, _, n => solo w k (some e) (n + 1)
  | .wall k, v, n => solo w (k (w.wall n)) v (n + 1)

variable {w : Surroundings V M} {v : Option V} {n : Nat}

theorem solo_bind (prog : Prog V M α) (f : α → Prog V M β) :
    solo w (prog >>= f) v n =
      solo w (f (solo w prog v n).1) (solo w prog v n).2.1 (solo w prog v n).2.2 := by
  induction prog generalizing v n with
  | ret a => rfl
  | read k ih => exact ih _ _
  | fetch k ih => exact ih _
  | instant k ih => exact ih _
  | write e k ih => exact ih
  | wall k ih => exact ih _

/-- The rest of a program that returns errors runs when its first part has not
returned one. -/
theorem solo_run_bind (x : ExceptT ε (Prog V M) α) (f : α → ExceptT ε (Prog V M) β) :
    solo w (x >>= f).run v n =
      match solo w x.run v n with
      | (.ok a, v', n') => solo w (f a).run v' n'
      | (.error e, v', n') => (.error e, v', n') := by
  rw [ExceptT.run_bind, solo_bind]
  rcases solo w x.run v n with ⟨r, v', n'⟩
  cases r with
  | ok a => rfl
  | error e => rfl

theorem solo_run_bind_ok {x : ExceptT ε (Prog V M) α} {f : α → ExceptT ε (Prog V M) β} {b : β} :
    (solo w (x >>= f).run v n).1 = .ok b ↔
      ∃ a v' n', solo w x.run v n = (.ok a, v', n') ∧ (solo w (f a).run v' n').1 = .ok b := by
  rw [solo_run_bind]
  rcases solo w x.run v n with ⟨r, v', n'⟩
  cases r with
  | ok a =>
      constructor
      · exact fun h => ⟨a, v', n', rfl, h⟩
      · rintro ⟨_, _, _, ⟨⟩, h⟩
        exact h
  | error e => exact iff_of_false nofun (by rintro ⟨_, _, _, ⟨⟩, -⟩)

end Timed
