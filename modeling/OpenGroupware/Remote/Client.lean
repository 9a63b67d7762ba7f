import Mathlib.Data.List.Basic
import Mathlib.Logic.Function.Basic

/-!
Clients of remote services. Programs share one cell and a clock, and post
requests over a network that may lose or delay them: a request may be served
although its sender has given up, and an answer is as old as the moment at
which it was given. A contract says what may be in the cell, what a program may
post, and what it may return; programs that meet it keep it in every run.
-/

namespace Remote

/-- Programs over a cell that may hold a `V`, requests `X` answered by `Y`, and
result `α`. -/
inductive Prog (V X Y α : Type) : Type
  | ret (a : α)
  /-- Look at the cell, and at the clock while looking. -/
  | read (k : Option V → Nat → Prog V X Y α)
  /-- Replace what is in the cell; the value depends on the clock. -/
  | write (f : Nat → V) (k : Prog V X Y α)
  /-- Post a request; there is an answer or the reason why there is none. -/
  | send (x : X) (k : Except String Y → Prog V X Y α)

namespace Prog

variable {V X Y α β : Type}

protected def bind : Prog V X Y α → (α → Prog V X Y β) → Prog V X Y β
  | .ret a, f => f a
  | .read k, f => .read fun v t => (k v t).bind f
  | .write e k, f => .write e (k.bind f)
  | .send x k, f => .send x fun r => (k r).bind f

instance : Monad (Prog V X Y) where
  pure := .ret
  bind := Prog.bind

end Prog

/-- A request that has been served, with the answer and the time. -/
structure Exchange (X Y : Type) where
  request : X
  response : Y
  time : Nat

/-- What has become of the request a program is about to post. -/
inductive Wire (Y : Type)
  | idle
  | posted
  | answered (y : Y) (time : Nat)

/-- A running program: the job it does, what is left of it, its request, the
last exchange that has come back to it, and the latest time it knows of. -/
structure Proc (V X Y C α : Type) where
  job : C
  prog : Prog V X Y α
  wire : Wire Y
  got : Option (Exchange X Y)
  seen : Nat

/-- A request that has been posted. -/
structure Sent (X C : Type) where
  pid : Nat
  job : C
  request : X
  time : Nat

/-- A finished job. -/
structure Reply (C α : Type) where
  job : C
  answer : α

/-- The clock, the cell, the programs, the requests no one waits for any more,
and the record of what has been posted, served and returned. -/
structure Sys (V X Y C α : Type) where
  now : Nat
  cell : Option V
  procs : Nat → Option (Proc V X Y C α)
  started : List Nat
  stray : List X
  sent : List (Sent X C)
  served : List (Exchange X Y)
  replies : List (Reply C α)

/-- The steps of one program and its network. -/
inductive Act (Y : Type)
  | look
  | put
  | post
  | serve (y : Y)
  | deliver
  | lose (reason : String)

inductive Label (Y C : Type)
  | tick (d : Nat)
  | spawn (p : Nat) (c : C)
  | act (p : Nat) (a : Act Y)
  | stray (i : Nat) (y : Y)
  | reply (p : Nat)
  | cancel (p : Nat)

variable {V X Y C α : Type}

namespace Sys

/-- Nothing has run yet and the cell is empty. -/
def init : Sys V X Y C α where
  now := 0
  cell := none
  procs _ := none
  started := []
  stray := []
  sent := []
  served := []
  replies := []

variable (σ : Sys V X Y C α)

def set (p : Nat) (P : Option (Proc V X Y C α)) : Sys V X Y C α :=
  { σ with procs := Function.update σ.procs p P }

/-- A program stops waiting for its request. -/
def abandon (P : Proc V X Y C α) : Sys V X Y C α :=
  match P.prog, P.wire with
  | .send x _, .posted => { σ with stray := x :: σ.stray }
  | _, _ => σ

@[simp] theorem abandon_now (P : Proc V X Y C α) : (σ.abandon P).now = σ.now := by
  unfold abandon; split <;> rfl
@[simp] theorem abandon_cell (P : Proc V X Y C α) : (σ.abandon P).cell = σ.cell := by
  unfold abandon; split <;> rfl
@[simp] theorem abandon_procs (P : Proc V X Y C α) : (σ.abandon P).procs = σ.procs := by
  unfold abandon; split <;> rfl
@[simp] theorem abandon_started (P : Proc V X Y C α) : (σ.abandon P).started = σ.started := by
  unfold abandon; split <;> rfl
@[simp] theorem abandon_sent (P : Proc V X Y C α) : (σ.abandon P).sent = σ.sent := by
  unfold abandon; split <;> rfl
@[simp] theorem abandon_served (P : Proc V X Y C α) : (σ.abandon P).served = σ.served := by
  unfold abandon; split <;> rfl
@[simp] theorem abandon_replies (P : Proc V X Y C α) : (σ.abandon P).replies = σ.replies := by
  unfold abandon; split <;> rfl

/-- The state a step of program `p` leads to, where it can be taken. -/
def act (p : Nat) (P : Proc V X Y C α) : Act Y → Option (Sys V X Y C α)
  | .look =>
      match P.prog with
      | .read k => some (σ.set p (some { P with prog := k σ.cell σ.now, seen := σ.now }))
      | _ => none
  | .put =>
      match P.prog with
      | .write f k =>
          some { σ.set p (some { P with prog := k, seen := σ.now }) with cell := some (f σ.now) }
      | _ => none
  | .post =>
      match P.prog, P.wire with
      | .send x _, .idle =>
          some { σ.set p (some { P with wire := .posted }) with
            sent := σ.sent ++ [⟨p, P.job, x, σ.now⟩] }
      | _, _ => none
  | .serve y =>
      match P.prog, P.wire with
      | .send x _, .posted =>
          some { σ.set p (some { P with wire := .answered y σ.now }) with
            served := σ.served ++ [⟨x, y, σ.now⟩] }
      | _, _ => none
  | .deliver =>
      match P.prog, P.wire with
      | .send x k, .answered y t =>
          some (σ.set p (some { P with
            prog := k (.ok y), wire := .idle, got := some ⟨x, y, t⟩, seen := t }))
      | _, _ => none
  | .lose reason =>
      match P.prog with
      | .send _ k =>
          some ((σ.abandon P).set p (some { P with prog := k (.error reason), wire := .idle }))
      | _ => none

end Sys

/-- The state a step leads to, where it can be taken. -/
def step (program : C → Prog V X Y α) (σ : Sys V X Y C α) : Label Y C → Option (Sys V X Y C α)
  | .tick d => some { σ with now := σ.now + d }
  | .spawn p c =>
      if p ∈ σ.started then none
      else some { σ.set p (some ⟨c, program c, .idle, none, σ.now⟩) with
        started := p :: σ.started }
  | .act p a => (σ.procs p).bind fun P => σ.act p P a
  | .stray i y =>
      (σ.stray[i]?).map fun x => { σ with
        stray := σ.stray.eraseIdx i, served := σ.served ++ [⟨x, y, σ.now⟩] }
  | .reply p =>
      match σ.procs p with
      | some ⟨c, .ret a, _, _, _⟩ =>
          some { σ.set p none with replies := σ.replies ++ [⟨c, a⟩] }
      | _ => none
  | .cancel p => (σ.procs p).map fun P => (σ.abandon P).set p none

/-- The states of all runs in which every step is allowed. -/
inductive Reached (program : C → Prog V X Y α) (allowed : Sys V X Y C α → Label Y C → Prop) :
    Sys V X Y C α → Prop
  | init : Reached program allowed .init
  | step {σ l σ'} : Reached program allowed σ → allowed σ l → step program σ l = some σ' →
      Reached program allowed σ'

section

variable {program : C → Prog V X Y α} {allowed allowed' : Sys V X Y C α → Label Y C → Prop}
  {σ σ' : Sys V X Y C α} {l : Label Y C}

theorem Reached.mono (h : Reached program allowed σ)
    (himp : ∀ σ l, allowed σ l → allowed' σ l) : Reached program allowed' σ := by
  induction h with
  | init => exact .init
  | step _ hl hstep ih => exact ih.step (himp _ _ hl) hstep

/-- Exchanges stay on record, and those that come back to a program are on it. -/
theorem served_step (h : step program σ l = some σ') : ∃ new, σ'.served = σ.served ++ new := by
  have same : σ'.served = σ.served → ∃ new, σ'.served = σ.served ++ new :=
    fun heq => ⟨[], heq.trans (List.append_nil _).symm⟩
  cases l with
  | tick d =>
      cases h
      exact same rfl
  | spawn p c =>
      simp only [step] at h
      split at h
      · cases h
      · cases h
        exact same rfl
  | act p a =>
      obtain ⟨⟨job, prog, wire, got, seen⟩, hP, h⟩ := Option.bind_eq_some_iff.1 h
      cases a <;> cases prog <;> cases wire <;> cases h
      all_goals first
        | exact same rfl
        | exact ⟨_, rfl⟩
  | stray i y =>
      obtain ⟨x, -, rfl⟩ := Option.map_eq_some_iff.1 h
      exact ⟨_, rfl⟩
  | reply p =>
      simp only [step] at h
      split at h
      · cases h
        exact same rfl
      · cases h
  | cancel p =>
      obtain ⟨P, -, rfl⟩ := Option.map_eq_some_iff.1 h
      exact same (by simp [Sys.set])

/-- The state a list of steps leads to if each of them passes. -/
def replay (program : C → Prog V X Y α) (passes : Sys V X Y C α → Label Y C → Bool) :
    List (Label Y C) → Sys V X Y C α → Option (Sys V X Y C α)
  | [], σ => some σ
  | l :: ls, σ => if passes σ l then (step program σ l).bind (replay program passes ls) else none

theorem Reached.replay {passes : Sys V X Y C α → Label Y C → Bool} {ls : List (Label Y C)}
    (h : Reached program allowed σ) (hpasses : ∀ σ l, passes σ l = true → allowed σ l)
    (hreplay : replay program passes ls σ = some σ') : Reached program allowed σ' := by
  induction ls generalizing σ with
  | nil =>
      cases hreplay
      exact h
  | cons l ls ih =>
      rw [Remote.replay] at hreplay
      split at hreplay
      · rename_i hl
        obtain ⟨σ₁, hstep, hrest⟩ := Option.bind_eq_some_iff.1 hreplay
        exact ih (h.step (hpasses σ l hl) hstep) hrest
      · cases hreplay

/-- In a run to `σ` the exchanges are the ones on record there. -/
theorem Reached.served (h : Reached program allowed σ) :
    Reached program (fun σ' l => allowed σ' l ∧ ∀ p y P x k, l = .act p (.serve y) →
      σ'.procs p = some P → P.prog = .send x k → (⟨x, y, σ'.now⟩ : Exchange X Y) ∈ σ.served) σ := by
  suffices hall : ∀ S : List (Exchange X Y), (∀ e ∈ σ.served, e ∈ S) →
      Reached program (fun σ' l => allowed σ' l ∧ ∀ p y P x k, l = .act p (.serve y) →
        σ'.procs p = some P → P.prog = .send x k → (⟨x, y, σ'.now⟩ : Exchange X Y) ∈ S) σ from
    hall _ fun _ => id
  induction h with
  | init => exact fun _ _ => .init
  | @step σ l σ' _ hl hstep ih =>
      intro S hS
      obtain ⟨new, hserved⟩ := served_step hstep
      refine (ih S fun e he => hS e ?_).step ⟨hl, ?_⟩ hstep
      · rw [hserved]
        exact List.mem_append_left _ he
      · rintro p y P x k rfl hP hprog
        obtain ⟨P', hP', hact⟩ := Option.bind_eq_some_iff.1 hstep
        obtain rfl := Option.some.inj (hP.symm.trans hP')
        obtain ⟨job, prog, wire, got, seen⟩ := P
        cases prog <;> cases wire <;> cases hact
        cases hprog
        exact hS _ (List.mem_append_right _ (List.mem_singleton_self _))

/-! ### Contracts -/

/-- What may be in the cell by when, which answers there may be and when they
are given, at which times a program that has got an answer writes to the cell,
at which times one posts that has last seen another, and what a job may post. -/
structure Contract (V X Y C : Type) where
  cell : Nat → V → Prop
  later : ∀ {t t' e}, t ≤ t' → cell t e → cell t' e
  serve : X → Y → Nat → Prop
  put : Option (Exchange X Y) → Nat → Prop
  post : Nat → Nat → Prop
  sends : C → Nat → X → Prop

/-- The steps of the surroundings that a contract allows. -/
def Contract.Allows (c : Contract V X Y C) (σ : Sys V X Y C α) : Label Y C → Prop
  | .act p (.serve y) => ∀ P x k, σ.procs p = some P → P.prog = .send x k → c.serve x y σ.now
  | .act p .put => ∀ P, σ.procs p = some P → c.put P.got σ.now
  | .act p .post => ∀ P, σ.procs p = some P → c.post P.seen σ.now
  | _ => True

/-- A program that does `job`, has got `got` and has last seen time `t` keeps
the contract, and returns only what satisfies `post`. -/
def Meets (c : Contract V X Y C) (job : C) (post : Option (Exchange X Y) → Nat → α → Prop) :
    Option (Exchange X Y) → Nat → Prog V X Y α → Prop
  | got, t, .ret a => post got t a
  | got, t, .read k =>
      ∀ v t', t ≤ t' → (∀ e, v = some e → c.cell t' e) → Meets c job post got t' (k v t')
  | got, t, .write f k =>
      ∀ t', t ≤ t' → c.put got t' → c.cell t' (f t') ∧ Meets c job post got t' k
  | got, t, .send x k => (∀ t', t ≤ t' → c.post t t' → c.sends job t' x) ∧
      (∀ reason, Meets c job post got t (k (.error reason))) ∧
      ∀ y t', t ≤ t' → c.serve x y t' → Meets c job post (some ⟨x, y, t'⟩) t' (k (.ok y))

variable {c : Contract V X Y C} {job : C} {got : Option (Exchange X Y)} {t : Nat}

theorem Meets.mono {post post' : Option (Exchange X Y) → Nat → α → Prop} {prog : Prog V X Y α}
    (h : Meets c job post got t prog) (himp : ∀ got t a, post got t a → post' got t a) :
    Meets c job post' got t prog := by
  induction prog generalizing got t with
  | ret a => exact himp _ _ a h
  | read k ih => exact fun v t' ht hv => ih v t' (h v t' ht hv)
  | write f k ih => exact fun t' ht hput => ⟨(h t' ht hput).1, ih (h t' ht hput).2⟩
  | send x k ih =>
      obtain ⟨hsends, hlost, hserved⟩ := h
      exact ⟨hsends, fun reason => ih _ (hlost reason),
        fun y t' ht hserve => ih _ (hserved y t' ht hserve)⟩

theorem Meets.bind {β : Type} {post : Option (Exchange X Y) → Nat → β → Prop}
    {prog : Prog V X Y α} {f : α → Prog V X Y β}
    (h : Meets c job (fun got t a => Meets c job post got t (f a)) got t prog) :
    Meets c job post got t (prog >>= f) := by
  induction prog generalizing got t with
  | ret a => exact h
  | read k ih => exact fun v t' ht hv => ih v t' (h v t' ht hv)
  | write f k ih => exact fun t' ht hput => ⟨(h t' ht hput).1, ih (h t' ht hput).2⟩
  | send x k ih =>
      obtain ⟨hsends, hlost, hserved⟩ := h
      exact ⟨hsends, fun reason => ih _ (hlost reason),
        fun y t' ht hserve => ih _ (hserved y t' ht hserve)⟩

/-- A program with errors: the rest runs when the first part returns no error. -/
theorem Meets.run_bind {ε β : Type} {post : Option (Exchange X Y) → Nat → Except ε β → Prop}
    {x : ExceptT ε (Prog V X Y) α} {f : α → ExceptT ε (Prog V X Y) β}
    (h : Meets c job (fun got t r => match r with
      | .ok a => Meets c job post got t (f a).run
      | .error e => post got t (.error e)) got t x.run) :
    Meets c job post got t (x >>= f).run := by
  rw [ExceptT.run_bind]
  refine Meets.bind (h.mono fun got t r hr => ?_)
  cases r with
  | ok a => exact hr
  | error e => exact hr

/-! ### Runs under a contract -/

/-- A running program keeps the contract: so does the answer that is on its way
to it, and what is left of it does from the time it has seen. -/
structure Proc.Keeps (c : Contract V X Y C) (post : C → Option (Exchange X Y) → Nat → α → Prop)
    (now : Nat) (P : Proc V X Y C α) : Prop where
  seen : P.seen ≤ now
  meets : Meets c P.job (post P.job) P.got P.seen P.prog
  wire : ∀ y t, P.wire = .answered y t → P.seen ≤ t ∧ t ≤ now ∧
    ∃ x k, P.prog = .send x k ∧ c.serve x y t

variable {post : C → Option (Exchange X Y) → Nat → α → Prop}

theorem Proc.Keeps.later {now now' : Nat} {P : Proc V X Y C α} (h : P.Keeps c post now)
    (hnow : now ≤ now') : P.Keeps c post now' := by
  refine ⟨Nat.le_trans h.seen hnow, h.meets, fun y t hw => ?_⟩
  obtain ⟨hle, hle', hserve⟩ := h.wire y t hw
  exact ⟨hle, Nat.le_trans hle' hnow, hserve⟩

/-- The state of a run under a contract. -/
structure Contract.Holds (c : Contract V X Y C)
    (post : C → Option (Exchange X Y) → Nat → α → Prop) (σ : Sys V X Y C α) : Prop where
  cell : ∀ e, σ.cell = some e → c.cell σ.now e
  procs : ∀ p P, σ.procs p = some P → P.Keeps c post σ.now
  sent : ∀ s ∈ σ.sent, c.sends s.job s.time s.request
  replies : ∀ r ∈ σ.replies, ∃ got t, post r.job got t r.answer

theorem keeps_update {procs : Nat → Option (Proc V X Y C α)} {now p : Nat}
    {P : Option (Proc V X Y C α)} (hprocs : ∀ q Q, procs q = some Q → Q.Keeps c post now)
    (hP : ∀ Q, P = some Q → Q.Keeps c post now) :
    ∀ q Q, Function.update procs p P q = some Q → Q.Keeps c post now := by
  intro q Q hq
  by_cases hqp : q = p
  · rw [hqp, Function.update_self] at hq
    exact hP Q hq
  · rw [Function.update_of_ne hqp] at hq
    exact hprocs q Q hq

/-- A step of a program keeps the contract. -/
theorem Contract.Holds.act (h : c.Holds post σ) {p : Nat} {P : Proc V X Y C α}
    (hp : σ.procs p = some P) {a : Act Y} (hl : c.Allows σ (.act p a))
    (hact : σ.act p P a = some σ') : c.Holds post σ' := by
  obtain ⟨hseen, hmeets, hwire⟩ := h.procs p P hp
  obtain ⟨job, prog, wire, got, seen⟩ := P
  cases a with
  | look =>
      cases prog <;> cases hact
      refine ⟨h.cell, keeps_update h.procs ?_, h.sent, h.replies⟩
      rintro Q ⟨⟩
      refine ⟨Nat.le_refl _, hmeets _ _ hseen h.cell, fun y t hw => ?_⟩
      obtain ⟨-, -, x, k, ⟨⟩, -⟩ := hwire y t hw
  | put =>
      cases prog <;> cases hact
      obtain ⟨hcell, hnext⟩ := hmeets σ.now hseen (hl _ hp)
      refine ⟨?_, keeps_update h.procs ?_, h.sent, h.replies⟩
      · rintro e ⟨⟩
        exact hcell
      · rintro Q ⟨⟩
        refine ⟨Nat.le_refl _, hnext, fun y t hw => ?_⟩
        obtain ⟨-, -, x, k, ⟨⟩, -⟩ := hwire y t hw
  | post =>
      cases prog <;> cases wire <;> cases hact
      refine ⟨h.cell, keeps_update h.procs ?_, ?_, h.replies⟩
      · rintro Q ⟨⟩
        exact ⟨hseen, hmeets, nofun⟩
      · intro s hs
        rcases List.mem_append.1 hs with hs | hs
        · exact h.sent s hs
        · obtain rfl := List.mem_singleton.1 hs
          exact hmeets.1 _ hseen (hl _ hp)
  | serve y =>
      cases prog <;> cases wire <;> cases hact
      refine ⟨h.cell, keeps_update h.procs ?_, h.sent, h.replies⟩
      rintro Q ⟨⟩
      refine ⟨hseen, hmeets, ?_⟩
      rintro _ _ ⟨⟩
      exact ⟨hseen, Nat.le_refl _, _, _, rfl, hl _ _ _ hp rfl⟩
  | deliver =>
      cases prog <;> cases wire <;> cases hact
      refine ⟨h.cell, keeps_update h.procs ?_, h.sent, h.replies⟩
      rintro Q ⟨⟩
      obtain ⟨hle, hle', x, k, ⟨⟩, hserve⟩ := hwire _ _ rfl
      exact ⟨hle', hmeets.2.2 _ _ hle hserve, nofun⟩
  | lose reason =>
      cases prog <;> cases hact
      refine ⟨by simpa [Sys.set] using h.cell, ?_, by simpa [Sys.set] using h.sent,
        by simpa [Sys.set] using h.replies⟩
      simp only [Sys.set, Sys.abandon_procs, Sys.abandon_now]
      refine keeps_update h.procs ?_
      rintro Q ⟨⟩
      exact ⟨hseen, hmeets.2.1 reason, nofun⟩

theorem Contract.Holds.step (hprogram : ∀ job t, Meets c job (post job) none t (program job))
    (h : c.Holds post σ) (hl : c.Allows σ l) (hstep : step program σ l = some σ') :
    c.Holds post σ' := by
  cases l with
  | tick d =>
      cases hstep
      exact ⟨fun e he => c.later (Nat.le_add_right _ _) (h.cell e he),
        fun p P hp => (h.procs p P hp).later (Nat.le_add_right _ _), h.sent, h.replies⟩
  | spawn p job =>
      simp only [Remote.step] at hstep
      split at hstep
      · cases hstep
      · cases hstep
        refine ⟨h.cell, keeps_update h.procs ?_, h.sent, h.replies⟩
        rintro Q ⟨⟩
        exact ⟨Nat.le_refl _, hprogram job σ.now, nofun⟩
  | act p a =>
      obtain ⟨P, hp, hact⟩ := Option.bind_eq_some_iff.1 hstep
      exact h.act hp hl hact
  | stray i y =>
      obtain ⟨x, -, rfl⟩ := Option.map_eq_some_iff.1 hstep
      exact ⟨h.cell, h.procs, h.sent, h.replies⟩
  | reply p =>
      simp only [Remote.step] at hstep
      split at hstep
      · rename_i job a wire got seen hp
        cases hstep
        refine ⟨h.cell, keeps_update h.procs nofun, h.sent, fun r hr => ?_⟩
        rcases List.mem_append.1 hr with hr | hr
        · exact h.replies r hr
        · obtain rfl := List.mem_singleton.1 hr
          exact ⟨got, seen, (h.procs p _ hp).meets⟩
      · cases hstep
  | cancel p =>
      obtain ⟨P, hp, rfl⟩ := Option.map_eq_some_iff.1 hstep
      refine ⟨by simpa [Sys.set] using h.cell, ?_, by simpa [Sys.set] using h.sent,
        by simpa [Sys.set] using h.replies⟩
      simp only [Sys.set, Sys.abandon_procs, Sys.abandon_now]
      exact keeps_update h.procs nofun

/-- Programs that keep a contract keep it in every run it allows. -/
theorem Reached.holds (hprogram : ∀ job t, Meets c job (post job) none t (program job))
    (h : Reached program c.Allows σ) : c.Holds post σ := by
  induction h with
  | init => exact ⟨nofun, nofun, nofun, nofun⟩
  | step _ hl hstep ih => exact ih.step hprogram hl hstep

/-! ### How often a program posts -/

/-- The program posts at most `n` requests of a kind if its requests are answered
in a certain way. -/
def Prog.AtMost (φ : X → Bool) (gives : X → Y → Prop) : Nat → Prog V X Y α → Prop
  | _, .ret _ => True
  | n, .read k => ∀ v t, (k v t).AtMost φ gives n
  | n, .write _ k => k.AtMost φ gives n
  | n, .send x k => ∃ m, (if φ x then m + 1 else m) ≤ n ∧
      (∀ reason, (k (.error reason)).AtMost φ gives m) ∧
      ∀ y, gives x y → (k (.ok y)).AtMost φ gives m

variable {φ : X → Bool} {gives : X → Y → Prop} {n : Nat}

theorem Prog.AtMost.mono {m : Nat} {prog : Prog V X Y α}
    (h : prog.AtMost φ gives m) (hmn : m ≤ n) : prog.AtMost φ gives n := by
  induction prog generalizing m n with
  | ret a => trivial
  | read k ih => exact fun v t => ih v t (h v t) hmn
  | write f k ih => exact ih h hmn
  | send x k ih =>
      obtain ⟨m', hm', hk⟩ := h
      exact ⟨m', Nat.le_trans hm' hmn, hk⟩

theorem Prog.AtMost.bind {β : Type} {m : Nat} {prog : Prog V X Y α}
    {f : α → Prog V X Y β} (h : prog.AtMost φ gives m) (hf : ∀ a, (f a).AtMost φ gives n) :
    (prog >>= f).AtMost φ gives (m + n) := by
  induction prog generalizing m with
  | ret a => exact (hf a).mono (Nat.le_add_left n m)
  | read k ih => exact fun v t => ih v t (h v t)
  | write f k ih => exact ih h
  | send x k ih =>
      obtain ⟨m', hm', hlost, hserved⟩ := h
      refine ⟨m' + n, ?_, fun reason => ih _ (hlost reason), fun y hy => ih _ (hserved y hy)⟩
      split at hm' <;> rename_i hφ
      · rw [if_pos hφ]
        omega
      · rw [if_neg hφ]
        omega

theorem Prog.AtMost.run_bind {ε β : Type} {m : Nat}
    {x : ExceptT ε (Prog V X Y) α} {f : α → ExceptT ε (Prog V X Y) β}
    (h : x.run.AtMost φ gives m) (hf : ∀ a, (f a).run.AtMost φ gives n) :
    (x >>= f).run.AtMost φ gives (m + n) := by
  rw [ExceptT.run_bind]
  refine h.bind fun r => ?_
  cases r with
  | ok a => exact hf a
  | error e => trivial

/-- What a program still posts: its request may be under way already. -/
def Proc.AtMost (φ : X → Bool) (gives : X → Y → Prop) (n : Nat) (P : Proc V X Y C α) : Prop :=
  match P.wire with
  | .idle => P.prog.AtMost φ gives n
  | .posted => ∃ x k, P.prog = .send x k ∧
      (∀ reason, (k (.error reason)).AtMost φ gives n) ∧
      ∀ y, gives x y → (k (.ok y)).AtMost φ gives n
  | .answered y _ => ∃ x k, P.prog = .send x k ∧
      (∀ reason, (k (.error reason)).AtMost φ gives n) ∧ (k (.ok y)).AtMost φ gives n

/-- The requests of a kind that `p` has posted. -/
def Sys.posted (σ : Sys V X Y C α) (φ : X → Bool) (p : Nat) : Nat :=
  σ.sent.countP fun s => decide (s.pid = p) && φ s.request

structure Sys.Sparing (σ : Sys V X Y C α) (φ : X → Bool) (gives : X → Y → Prop) (n : Nat) :
    Prop where
  posted : ∀ p, σ.posted φ p ≤ n
  fresh : ∀ p, p ∉ σ.started → σ.posted φ p = 0 ∧ σ.procs p = none
  procs : ∀ p P, σ.procs p = some P → ∃ m, P.AtMost φ gives m ∧ σ.posted φ p + m ≤ n

/-- A program goes on without posting. -/
theorem Sys.Sparing.set (h : σ.Sparing φ gives n) {p : Nat} {P : Proc V X Y C α}
    (hp : σ.procs p = some P) {P' : Option (Proc V X Y C α)} (hsent : σ'.sent = σ.sent)
    (hstarted : σ'.started = σ.started) (hprocs : σ'.procs = Function.update σ.procs p P')
    (hP' : ∀ Q, P' = some Q → ∀ m, P.AtMost φ gives m → Q.AtMost φ gives m) :
    σ'.Sparing φ gives n := by
  have hposted : σ'.posted φ = σ.posted φ := by
    unfold Sys.posted
    rw [hsent]
  have hne : ∀ q, q ∉ σ.started → q ≠ p := by
    rintro q hq rfl
    rw [(h.fresh q hq).2] at hp
    cases hp
  refine ⟨by rw [hposted]; exact h.posted, fun q hq => ?_, fun q Q hq => ?_⟩
  · rw [hstarted] at hq
    rw [hposted, hprocs, Function.update_of_ne (hne q hq)]
    exact h.fresh q hq
  · rw [hposted]
    rw [hprocs] at hq
    by_cases hqp : q = p
    · subst hqp
      rw [Function.update_self] at hq
      obtain ⟨m, hm, hle⟩ := h.procs q P hp
      exact ⟨m, hP' Q hq m hm, hle⟩
    · rw [Function.update_of_ne hqp] at hq
      exact h.procs q Q hq

/-- A program posts a request. -/
theorem Sys.Sparing.posts (h : σ.Sparing φ gives n) {s : Sent X C} {P P' : Proc V X Y C α}
    (hp : σ.procs s.pid = some P) (hsent : σ'.sent = σ.sent ++ [s])
    (hstarted : σ'.started = σ.started)
    (hprocs : σ'.procs = Function.update σ.procs s.pid (some P'))
    (hP' : ∀ m, P.AtMost φ gives m →
      ∃ m', (if φ s.request then m' + 1 else m') ≤ m ∧ P'.AtMost φ gives m') :
    σ'.Sparing φ gives n := by
  have hposted : ∀ q, σ'.posted φ q =
      σ.posted φ q + if decide (s.pid = q) && φ s.request then 1 else 0 := by
    intro q
    unfold Sys.posted
    rw [hsent, List.countP_append, List.countP_singleton]
  have hother : ∀ q, q ≠ s.pid → σ'.posted φ q = σ.posted φ q ∧ σ'.procs q = σ.procs q := by
    intro q hq
    rw [hposted q, decide_eq_false (Ne.symm hq), hprocs, Function.update_of_ne hq]
    exact ⟨rfl, rfl⟩
  obtain ⟨m, hm, hle⟩ := h.procs s.pid P hp
  obtain ⟨m', hm', hAtMost⟩ := hP' m hm
  have hself : σ'.posted φ s.pid + m' ≤ n := by
    rw [hposted s.pid, decide_eq_true rfl, Bool.true_and]
    split at hm' <;> rename_i hφ
    · rw [if_pos hφ]
      omega
    · rw [if_neg hφ]
      omega
  refine ⟨fun q => ?_, fun q hq => ?_, fun q Q hq => ?_⟩
  · by_cases hqp : q = s.pid
    · rw [hqp]
      omega
    · rw [(hother q hqp).1]
      exact h.posted q
  · rw [hstarted] at hq
    have hqp : q ≠ s.pid := by
      rintro rfl
      rw [(h.fresh _ hq).2] at hp
      cases hp
    rw [(hother q hqp).1, (hother q hqp).2]
    exact h.fresh q hq
  · by_cases hqp : q = s.pid
    · subst hqp
      rw [hprocs, Function.update_self, Option.some.injEq] at hq
      exact ⟨m', hq ▸ hAtMost, hself⟩
    · rw [(hother q hqp).2] at hq
      rw [(hother q hqp).1]
      exact h.procs q Q hq

theorem Sys.Sparing.act (h : σ.Sparing φ gives n) {p : Nat} {P : Proc V X Y C α}
    (hp : σ.procs p = some P) {a : Act Y}
    (hgives : ∀ y x k, a = .serve y → P.prog = .send x k → gives x y)
    (hact : σ.act p P a = some σ') : σ'.Sparing φ gives n := by
  obtain ⟨job, prog, wire, got, seen⟩ := P
  cases a with
  | look =>
      cases prog <;> cases hact
      refine h.set hp rfl rfl rfl ?_
      rintro Q ⟨⟩ m hm
      cases wire with
      | idle => exact hm _ _
      | posted | answered =>
          obtain ⟨x, k, ⟨⟩, -⟩ := hm
  | put =>
      cases prog <;> cases hact
      refine h.set hp rfl rfl rfl ?_
      rintro Q ⟨⟩ m hm
      cases wire with
      | idle => exact hm
      | posted | answered =>
          obtain ⟨x, k, ⟨⟩, -⟩ := hm
  | post =>
      cases prog <;> cases wire <;> cases hact
      refine h.posts (s := ⟨p, _, _, _⟩) hp rfl rfl rfl fun m hm => ?_
      obtain ⟨m', hm', hk⟩ := hm
      exact ⟨m', hm', _, _, rfl, hk⟩
  | serve y =>
      cases prog <;> cases wire <;> cases hact
      refine h.set hp rfl rfl rfl ?_
      rintro Q ⟨⟩ m ⟨x, k, ⟨⟩, hlost, hserved⟩
      exact ⟨_, _, rfl, hlost, hserved y (hgives y _ _ rfl rfl)⟩
  | deliver =>
      cases prog <;> cases wire <;> cases hact
      refine h.set hp rfl rfl rfl ?_
      rintro Q ⟨⟩ m ⟨x, k, ⟨⟩, -, hserved⟩
      exact hserved
  | lose reason =>
      cases prog <;> cases hact
      refine h.set hp (by simp [Sys.set]) (by simp [Sys.set]) (by simp [Sys.set]; rfl) ?_
      rintro Q ⟨⟩ m hm
      cases wire with
      | idle =>
          obtain ⟨m', hm', hlost, -⟩ := hm
          refine (hlost _).mono (Nat.le_trans ?_ hm')
          split <;> omega
      | posted | answered =>
          obtain ⟨x, k, ⟨⟩, hlost, -⟩ := hm
          exact hlost _

/-- No job posts more requests of a kind than its program does on any path on
which the answers are those of the run. -/
theorem Reached.sparing (hprogram : ∀ job, (program job).AtMost φ gives n)
    (h : Reached program allowed σ) (hgives : ∀ e ∈ σ.served, gives e.request e.response) :
    σ.Sparing φ gives n := by
  replace h := h.served
  generalize σ.served = S at h hgives
  induction h with
  | init => exact ⟨fun _ => Nat.zero_le n, fun _ _ => ⟨rfl, rfl⟩, nofun⟩
  | @step σ l σ' _ hl hstep ih =>
      cases l with
      | tick d =>
          cases hstep
          exact ⟨ih.posted, ih.fresh, ih.procs⟩
      | spawn p job =>
          simp only [Remote.step] at hstep
          split at hstep
          · cases hstep
          · rename_i hp
            cases hstep
            refine ⟨ih.posted, fun q hq => ?_, fun q Q hq => ?_⟩
            · obtain ⟨hqp, hq⟩ := not_or.1 (mt List.mem_cons.2 hq)
              exact ⟨(ih.fresh q hq).1, (Function.update_of_ne hqp _ _).trans (ih.fresh q hq).2⟩
            · by_cases hqp : q = p
              · subst hqp
                have hQ : Function.update σ.procs q
                    (some ⟨job, program job, .idle, none, σ.now⟩) q = some Q := hq
                rw [Function.update_self, Option.some.injEq] at hQ
                have hnone : σ.posted φ q = 0 := (ih.fresh q hp).1
                have hle : σ.posted φ q + n ≤ n := by omega
                exact ⟨n, hQ ▸ hprogram job, hle⟩
              · exact ih.procs q Q ((Function.update_of_ne hqp _ _).symm.trans hq)
      | act p a =>
          obtain ⟨P, hp, hact⟩ := Option.bind_eq_some_iff.1 hstep
          refine ih.act hp (fun y x k hserve hprog => ?_) hact
          exact hgives _ (hl.2 p y P x k (congrArg _ hserve) hp hprog)
      | stray i y =>
          obtain ⟨x, -, rfl⟩ := Option.map_eq_some_iff.1 hstep
          exact ⟨ih.posted, ih.fresh, ih.procs⟩
      | reply p =>
          simp only [Remote.step] at hstep
          split at hstep
          · rename_i job a wire got seen hp
            cases hstep
            exact ih.set hp rfl rfl rfl fun _ hQ => nomatch hQ
          · cases hstep
      | cancel p =>
          obtain ⟨P, hp, rfl⟩ := Option.map_eq_some_iff.1 hstep
          have hprocs : ((σ.abandon P).set p none).procs = Function.update σ.procs p none := by
            simp [Sys.set]
          exact ih.set hp (by simp [Sys.set]) (by simp [Sys.set]) hprocs fun _ hQ => nomatch hQ

end

end Remote
