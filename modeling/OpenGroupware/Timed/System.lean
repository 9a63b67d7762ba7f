import OpenGroupware.Timed.Prog
import Mathlib.Logic.Function.Basic

/-!
Many programs over one cell, in time. Time passes between any two steps, and a
message is on its way for as long as it takes: the remote party decides what a
message says when it answers, not when it arrives. What a program does under
every interleaving follows from a contract about the cell and the messages.
-/

namespace Timed

/-- A running program: the job it does, the time it began, what is left of it,
the message that is on its way to it, and the last one that has arrived, each
with the time at which it was answered. -/
structure Proc (V M C α : Type) where
  job : C
  since : Nat
  prog : Prog V M α
  mail : Option (M × Nat)
  got : Option (M × Nat)

/-- A finished job. -/
structure Reply (C α : Type) where
  job : C
  since : Nat
  answer : α

structure Sys (V M C α : Type) where
  now : Nat
  cell : Option V
  procs : Nat → Option (Proc V M C α)
  started : List Nat
  fetched : List (M × Nat)
  replies : List (Reply C α)

/-- The steps of one program. -/
inductive Act (M : Type)
  | look
  | serve (m : M)
  | lose (reason : String)
  | deliver
  | stamp
  | put
  | clock (seconds : Option Nat)

inductive Label (M C : Type)
  | tick (d : Nat)
  | spawn (p : Nat) (c : C)
  | act (p : Nat) (a : Act M)
  | reply (p : Nat)
  | cancel (p : Nat)

variable {V M C α : Type}

/-- What a step leaves in the cell, and of the program. -/
def Proc.act (now : Nat) (cell : Option V) :
    Act M → Proc V M C α → Option (Option V × Proc V M C α)
  | .look, ⟨c, b, .read k, mail, got⟩ => some (cell, ⟨c, b, k cell now, mail, got⟩)
  | .serve m, ⟨c, b, .fetch k, none, got⟩ => some (cell, ⟨c, b, .fetch k, some (m, now), got⟩)
  | .lose reason, ⟨c, b, .fetch k, _, got⟩ => some (cell, ⟨c, b, k (.error reason), none, got⟩)
  | .deliver, ⟨c, b, .fetch k, some x, _⟩ => some (cell, ⟨c, b, k (.ok x.1), none, some x⟩)
  | .stamp, ⟨c, b, .instant k, mail, got⟩ => some (cell, ⟨c, b, k now, mail, got⟩)
  | .put, ⟨c, b, .write v k, mail, got⟩ => some (some v, ⟨c, b, k, mail, got⟩)
  | .clock n, ⟨c, b, .wall k, mail, got⟩ => some (cell, ⟨c, b, k n, mail, got⟩)
  | _, _ => none

/-- The messages that arrive in a step. -/
def Proc.fetched (P : Proc V M C α) : Act M → List (M × Nat)
  | .deliver => P.mail.toList
  | _ => []

/-- The state a step leads to, where it can be taken. -/
def step (program : C → Prog V M α) (σ : Sys V M C α) : Label M C → Option (Sys V M C α)
  | .tick d => some { σ with now := σ.now + d }
  | .spawn p c =>
      if p ∈ σ.started then none
      else some { σ with
        procs := Function.update σ.procs p (some ⟨c, σ.now, program c, none, none⟩)
        started := p :: σ.started }
  | .act p a =>
      (σ.procs p).bind fun P => (P.act σ.now σ.cell a).map fun x =>
        { σ with
          cell := x.1
          procs := Function.update σ.procs p (some x.2)
          fetched := σ.fetched ++ P.fetched a }
  | .reply p =>
      match σ.procs p with
      | some ⟨c, b, .ret a, _, _⟩ =>
          some { σ with
            procs := Function.update σ.procs p none
            replies := σ.replies ++ [⟨c, b, a⟩] }
      | _ => none
  | .cancel p => some { σ with procs := Function.update σ.procs p none }

/-- Nothing has run yet and the cell is empty. -/
def Sys.init : Sys V M C α where
  now := 0
  cell := none
  procs _ := none
  started := []
  fetched := []
  replies := []

/-- The states of all runs in which every step is allowed. -/
inductive Reached (program : C → Prog V M α) (allowed : Sys V M C α → Label M C → Prop) :
    Sys V M C α → Prop
  | init : Reached program allowed .init
  | step {σ l σ'} : Reached program allowed σ → allowed σ l → step program σ l = some σ' →
      Reached program allowed σ'

section

variable {program : C → Prog V M α} {allowed allowed' : Sys V M C α → Label M C → Prop}
  {σ σ' : Sys V M C α} {l : Label M C}

theorem Reached.mono (h : Reached program allowed σ)
    (himp : ∀ σ l, allowed σ l → allowed' σ l) : Reached program allowed' σ := by
  induction h with
  | init => exact .init
  | step _ hl hstep ih => exact ih.step (himp _ _ hl) hstep

/-- Messages stay on record. -/
theorem fetched_step (h : step program σ l = some σ') :
    ∃ new, σ'.fetched = σ.fetched ++ new ∧ ∀ p P x, l = .act p .deliver → σ.procs p = some P →
      P.mail = some x → x ∈ new := by
  cases l with
  | tick d =>
      cases h
      exact ⟨[], (List.append_nil _).symm, nofun⟩
  | spawn p c =>
      simp only [step] at h
      split at h
      · cases h
      · cases h
        exact ⟨[], (List.append_nil _).symm, nofun⟩
  | act p a =>
      obtain ⟨P, hP, h⟩ := Option.bind_eq_some_iff.1 h
      obtain ⟨x, -, rfl⟩ := Option.map_eq_some_iff.1 h
      refine ⟨P.fetched a, rfl, ?_⟩
      rintro _ P' y ⟨⟩ hP' hy
      obtain rfl := Option.some.inj (hP.symm.trans hP')
      rw [Proc.fetched, hy]
      exact List.mem_singleton_self y
  | reply p =>
      simp only [step] at h
      split at h
      · cases h
        exact ⟨[], (List.append_nil _).symm, nofun⟩
      · cases h
  | cancel p =>
      cases h
      exact ⟨[], (List.append_nil _).symm, nofun⟩

/-- So do replies. -/
theorem replies_step (h : step program σ l = some σ') : σ.replies <+: σ'.replies := by
  cases l with
  | tick d | cancel p =>
      cases h
      exact List.prefix_rfl
  | spawn p c =>
      simp only [step] at h
      split at h
      · cases h
      · cases h
        exact List.prefix_rfl
  | act p a =>
      obtain ⟨P, -, h⟩ := Option.bind_eq_some_iff.1 h
      obtain ⟨x, -, rfl⟩ := Option.map_eq_some_iff.1 h
      exact List.prefix_rfl
  | reply p =>
      simp only [step] at h
      split at h
      · cases h
        exact List.prefix_append _ _
      · cases h

/-- In a run to `σ` the messages that arrive are the ones on record there. -/
theorem Reached.fetched (h : Reached program allowed σ) :
    Reached program (fun σ' l => allowed σ' l ∧ ∀ p P x, l = .act p .deliver →
      σ'.procs p = some P → P.mail = some x → x ∈ σ.fetched) σ := by
  suffices hall : ∀ S : List (M × Nat), (∀ x ∈ σ.fetched, x ∈ S) →
      Reached program (fun σ' l => allowed σ' l ∧ ∀ p P x, l = .act p .deliver →
        σ'.procs p = some P → P.mail = some x → x ∈ S) σ from hall _ fun _ => id
  induction h with
  | init => exact fun _ _ => .init
  | step _ hl hstep ih =>
      intro S hS
      obtain ⟨new, hfetched, hnew⟩ := fetched_step hstep
      rw [hfetched] at hS
      refine (ih S fun x hx => hS x (List.mem_append_left _ hx)).step
        ⟨hl, fun p P x heq hP hx => ?_⟩ hstep
      exact hS x (List.mem_append_right _ (hnew p P x heq hP hx))

/-! ### Replayed runs -/

/-- Take the given steps one by one, where the check lets them pass. -/
def replay (program : C → Prog V M α) (passes : Sys V M C α → Label M C → Bool) :
    List (Label M C) → Sys V M C α → Option (Sys V M C α)
  | [], σ => some σ
  | l :: ls, σ => if passes σ l then (step program σ l).bind (replay program passes ls) else none

theorem Reached.replay {passes : Sys V M C α → Label M C → Bool} {ls : List (Label M C)}
    (h : Reached program allowed σ) (hpasses : ∀ σ l, passes σ l = true → allowed σ l)
    (hreplay : replay program passes ls σ = some σ') : Reached program allowed σ' := by
  induction ls generalizing σ with
  | nil =>
      cases hreplay
      exact h
  | cons l ls ih =>
      rw [Timed.replay] at hreplay
      split at hreplay
      · rename_i hl
        obtain ⟨σ₁, hstep, hrest⟩ := Option.bind_eq_some_iff.1 hreplay
        exact ih (h.step (hpasses σ l hl) hstep) hrest
      · cases hreplay

end

/-! ### Contracts -/

/-- What may be in the cell, what messages may say and when, which ones may
arrive, at which times a program that has got a message reads its clock, and
what the wall clock may show. -/
structure Contract (V M : Type) where
  cell : V → Prop
  serve : M → Nat → Prop
  arrive : M → Nat → Prop
  stamp : Option (M × Nat) → Nat → Prop
  wall : Option Nat → Prop

/-- The steps of the surroundings that a contract allows. -/
def Contract.Allows (c : Contract V M) (σ : Sys V M C α) : Label M C → Prop
  | .act _ (.serve m) => c.serve m σ.now
  | .act p .deliver => ∀ P, σ.procs p = some P → ∀ x, P.mail = some x → c.arrive x.1 x.2
  | .act p .stamp => ∀ P, σ.procs p = some P → c.stamp P.got σ.now
  | .act _ (.clock n) => c.wall n
  | _ => True

/-- A program that has got `got` and has last seen time `t` keeps the contract,
and returns only what satisfies `post`. -/
def Meets (c : Contract V M) (post : Option (M × Nat) → Nat → α → Prop) :
    Option (M × Nat) → Nat → Prog V M α → Prop
  | got, t, .ret a => post got t a
  | got, t, .read k => ∀ v t', t ≤ t' → (∀ e, v = some e → c.cell e) → Meets c post got t' (k v t')
  | got, t, .fetch k => (∀ reason, Meets c post got t (k (.error reason))) ∧
      ∀ m t', c.serve m t' → c.arrive m t' → Meets c post (some (m, t')) t (k (.ok m))
  | got, t, .instant k => ∀ t', t ≤ t' → c.stamp got t' → Meets c post got t' (k t')
  | got, t, .write e k => c.cell e ∧ Meets c post got t k
  | got, t, .wall k => ∀ n, c.wall n → Meets c post got t (k n)

section

variable {c : Contract V M} {post : Option (M × Nat) → Nat → α → Prop} {got : Option (M × Nat)}
  {t : Nat}

theorem Meets.mono {post' : Option (M × Nat) → Nat → α → Prop} {prog : Prog V M α}
    (h : Meets c post got t prog) (himp : ∀ got t a, post got t a → post' got t a) :
    Meets c post' got t prog := by
  induction prog generalizing got t with
  | ret a => exact himp _ _ _ h
  | read k ih => exact fun v t' ht hv => ih v t' (h v t' ht hv)
  | fetch k ih =>
      exact ⟨fun reason => ih _ (h.1 reason), fun m t' hserve harrive =>
        ih _ (h.2 m t' hserve harrive)⟩
  | instant k ih => exact fun t' ht hstamp => ih t' (h t' ht hstamp)
  | write e k ih => exact ⟨h.1, ih h.2⟩
  | wall k ih => exact fun n hn => ih n (h n hn)

theorem Meets.and {post' : Option (M × Nat) → Nat → α → Prop} {prog : Prog V M α}
    (h : Meets c post got t prog) (h' : Meets c post' got t prog) :
    Meets c (fun got t a => post got t a ∧ post' got t a) got t prog := by
  induction prog generalizing got t with
  | ret a => exact ⟨h, h'⟩
  | read k ih => exact fun v t' ht hv => ih v t' (h v t' ht hv) (h' v t' ht hv)
  | fetch k ih =>
      exact ⟨fun reason => ih _ (h.1 reason) (h'.1 reason), fun m t' hserve harrive =>
        ih _ (h.2 m t' hserve harrive) (h'.2 m t' hserve harrive)⟩
  | instant k ih => exact fun t' ht hstamp => ih t' (h t' ht hstamp) (h' t' ht hstamp)
  | write e k ih => exact ⟨h.1, ih h.2 h'.2⟩
  | wall k ih => exact fun n hn => ih n (h n hn) (h' n hn)

theorem Meets.bind {β : Type} {post : Option (M × Nat) → Nat → β → Prop} {prog : Prog V M α}
    {f : α → Prog V M β} (h : Meets c (fun got t a => Meets c post got t (f a)) got t prog) :
    Meets c post got t (prog >>= f) := by
  induction prog generalizing got t with
  | ret a => exact h
  | read k ih => exact fun v t' ht hv => ih v t' (h v t' ht hv)
  | fetch k ih =>
      exact ⟨fun reason => ih _ (h.1 reason), fun m t' hserve harrive =>
        ih _ (h.2 m t' hserve harrive)⟩
  | instant k ih => exact fun t' ht hstamp => ih t' (h t' ht hstamp)
  | write e k ih => exact ⟨h.1, ih h.2⟩
  | wall k ih => exact fun n hn => ih n (h n hn)

/-- A program with errors: the rest runs when the first part returns no error. -/
theorem Meets.run_bind {ε β : Type} {post : Option (M × Nat) → Nat → Except ε β → Prop}
    {x : ExceptT ε (Prog V M) α} {f : α → ExceptT ε (Prog V M) β}
    (h : Meets c (fun got t r => match r with
      | .ok a => Meets c post got t (f a).run
      | .error e => post got t (.error e)) got t x.run) :
    Meets c post got t (x >>= f).run := by
  rw [ExceptT.run_bind]
  refine Meets.bind ?_
  refine h.mono fun got t r hr => ?_
  cases r with
  | ok a => exact hr
  | error e => exact hr

end

/-! ### Runs under a contract -/

/-- A running program keeps the contract: so does the message on its way, and
what is left of it does from a time that has passed. -/
structure Proc.Keeps (c : Contract V M) (post : C → Nat → Option (M × Nat) → Nat → α → Prop)
    (now : Nat) (P : Proc V M C α) : Prop where
  mail : ∀ x, P.mail = some x → c.serve x.1 x.2
  meets : ∃ t ≤ now, Meets c (post P.job P.since) P.got t P.prog

theorem Proc.Keeps.later {c : Contract V M} {post : C → Nat → Option (M × Nat) → Nat → α → Prop}
    {now now' : Nat} {P : Proc V M C α} (h : P.Keeps c post now) (hnow : now ≤ now') :
    P.Keeps c post now' :=
  ⟨h.mail, h.meets.imp fun _ ht => ⟨Nat.le_trans ht.1 hnow, ht.2⟩⟩

/-- A step of a program keeps the contract. -/
theorem Proc.Keeps.act {c : Contract V M} {post : C → Nat → Option (M × Nat) → Nat → α → Prop}
    {now : Nat} {cell cell' : Option V} {P P' : Proc V M C α} {a : Act M} (h : P.Keeps c post now)
    (hcell : ∀ e, cell = some e → c.cell e) (hserve : ∀ m, a = .serve m → c.serve m now)
    (harrive : a = .deliver → ∀ x, P.mail = some x → c.arrive x.1 x.2)
    (hstamp : a = .stamp → c.stamp P.got now) (hwall : ∀ n, a = .clock n → c.wall n)
    (hact : P.act now cell a = some (cell', P')) :
    P'.Keeps c post now ∧ ∀ e, cell' = some e → c.cell e := by
  obtain ⟨job, since, prog, mail, got⟩ := P
  obtain ⟨hmail, t, ht, hmeets⟩ := h
  cases a with
  | look =>
      cases prog <;> cases hact
      exact ⟨⟨hmail, now, Nat.le_refl _, hmeets _ _ ht hcell⟩, hcell⟩
  | serve m =>
      cases prog <;> cases mail <;> cases hact
      refine ⟨⟨?_, t, ht, hmeets⟩, hcell⟩
      rintro x ⟨⟩
      exact hserve m rfl
  | lose reason =>
      cases prog <;> cases hact
      exact ⟨⟨nofun, t, ht, hmeets.1 reason⟩, hcell⟩
  | deliver =>
      cases prog <;> cases mail <;> cases hact
      exact ⟨⟨nofun, t, ht, hmeets.2 _ _ (hmail _ rfl) (harrive rfl _ rfl)⟩, hcell⟩
  | stamp =>
      cases prog <;> cases hact
      exact ⟨⟨hmail, now, Nat.le_refl _, hmeets _ ht (hstamp rfl)⟩, hcell⟩
  | put =>
      cases prog <;> cases hact
      refine ⟨⟨hmail, t, ht, hmeets.2⟩, ?_⟩
      rintro e ⟨⟩
      exact hmeets.1
  | clock n =>
      cases prog <;> cases hact
      exact ⟨⟨hmail, t, ht, hmeets n (hwall n rfl)⟩, hcell⟩

/-- The state of a run under a contract. -/
structure Contract.Holds (c : Contract V M) (post : C → Nat → Option (M × Nat) → Nat → α → Prop)
    (σ : Sys V M C α) : Prop where
  cell : ∀ e, σ.cell = some e → c.cell e
  procs : ∀ p P, σ.procs p = some P → P.Keeps c post σ.now
  replies : ∀ r ∈ σ.replies, ∃ got t, post r.job r.since got t r.answer

section

variable {c : Contract V M} {post : C → Nat → Option (M × Nat) → Nat → α → Prop}
  {program : C → Prog V M α} {σ σ' : Sys V M C α} {l : Label M C}

theorem keeps_update {procs : Nat → Option (Proc V M C α)} {now p : Nat}
    {P : Option (Proc V M C α)} (hprocs : ∀ q Q, procs q = some Q → Q.Keeps c post now)
    (hP : ∀ Q, P = some Q → Q.Keeps c post now) :
    ∀ q Q, Function.update procs p P q = some Q → Q.Keeps c post now := by
  intro q Q hq
  by_cases hqp : q = p
  · rw [hqp, Function.update_self] at hq
    exact hP Q hq
  · rw [Function.update_of_ne hqp] at hq
    exact hprocs q Q hq

theorem Contract.Holds.step (hprogram : ∀ job since, Meets c (post job since) none since
      (program job)) (h : c.Holds post σ) (hl : c.Allows σ l) (hstep : step program σ l = some σ') :
    c.Holds post σ' := by
  cases l with
  | tick d =>
      cases hstep
      exact ⟨h.cell, fun p P hp => (h.procs p P hp).later (Nat.le_add_right _ _), h.replies⟩
  | spawn p job =>
      simp only [Timed.step] at hstep
      split at hstep
      · cases hstep
      · cases hstep
        refine ⟨h.cell, keeps_update h.procs ?_, h.replies⟩
        rintro Q ⟨⟩
        exact ⟨nofun, σ.now, Nat.le_refl _, hprogram _ _⟩
  | act p a =>
      obtain ⟨P, hp, hstep⟩ := Option.bind_eq_some_iff.1 hstep
      obtain ⟨⟨cell', P'⟩, hact, rfl⟩ := Option.map_eq_some_iff.1 hstep
      obtain ⟨hP', hcell'⟩ := (h.procs p P hp).act h.cell
        (by rintro m rfl; exact hl) (by rintro rfl; exact hl P hp) (by rintro rfl; exact hl P hp)
        (by rintro n rfl; exact hl) hact
      refine ⟨hcell', keeps_update h.procs ?_, h.replies⟩
      rintro Q ⟨⟩
      exact hP'
  | reply p =>
      simp only [Timed.step] at hstep
      split at hstep
      · rename_i job since a mail got hp
        cases hstep
        refine ⟨h.cell, keeps_update h.procs nofun, fun r hr => ?_⟩
        rcases List.mem_append.1 hr with hr | hr
        · exact h.replies r hr
        · obtain rfl := List.mem_singleton.1 hr
          obtain ⟨t, -, hpost⟩ := (h.procs p _ hp).meets
          exact ⟨got, t, hpost⟩
      · cases hstep
  | cancel p =>
      cases hstep
      exact ⟨h.cell, keeps_update h.procs nofun, h.replies⟩

/-- Programs that keep a contract keep it in every run it allows. -/
theorem Reached.holds (hprogram : ∀ job since, Meets c (post job since) none since (program job))
    (h : Reached program c.Allows σ) : c.Holds post σ := by
  induction h with
  | init => exact ⟨nofun, nofun, nofun⟩
  | step _ hl hstep ih => exact ih.step hprogram hl hstep

end

end Timed
