import OpenGroupware.Transactional.Prog

/-!
Many programs against one store. Each open transaction sits on a pooled
connection, sees the committed store with its own writes on top (READ
COMMITTED), and holds its writes back until it commits. A statement whose
writes clash with those of another open transaction waits: it takes no step
until the other one has ended, and then sees what that one left behind. Any
interaction may fail, and any program may be dropped at any point.
-/

namespace Transactional

/-- An open transaction. -/
structure Tx (S W : Type) where
  conn : Nat
  session : S
  writes : List W

/-- A running program: the request it serves, the store when that arrived, what
is left of the program, its open transaction, and the transactions it has
committed so far. -/
structure Proc (Q : Type → Type) (S D W E X Y C α : Type) : Type 1 where
  request : C
  since : D
  prog : Prog Q E X Y α
  tx : Option (Tx S W)
  commits : List (List W)

/-- A committed transaction. -/
structure Commit (C W : Type) where
  pid : Nat
  request : C
  writes : List W

/-- A finished request. -/
structure Reply (C D W α : Type) where
  pid : Nat
  request : C
  since : D
  commits : List (List W)
  answer : α

/-- A store engine with the programs that serve requests, and what the outside
world may answer to their calls. -/
structure Machine (Q : Type → Type) (S O D W E X Y C α : Type) extends
    Engine Q S O D W E where
  program : C → Prog Q E X Y α
  answers : X → Y → Prop

/-- The store, the settings idle connections are left with, the running
programs, and the record of what has happened. -/
structure Sys (Q : Type → Type) (S D W E X Y C α : Type) : Type 1 where
  store : D
  conns : Nat → S
  procs : Nat → Option (Proc Q S D W E X Y C α)
  started : List Nat
  history : List (Commit C W)
  replies : List (Reply C D W α)

inductive Label (O C Y : Type)
  | spawn (p : Nat) (c : C)
  | start (p conn : Nat) (o : O)
  | stmt (p : Nat) (o : O)
  | fail (p : Nat)
  | commit (p : Nat)
  | call (p : Nat) (y : Y)
  | reply (p : Nat)
  | cancel (p : Nat)

variable {Q : Type → Type} {S O D W E X Y C α : Type}

/-- What is left of a program whose next interaction with the store fails. -/
def Prog.failed (e : E) : Prog Q E X Y α → Option (Prog Q E X Y α)
  | .start k => some (k (.error e))
  | .stmt _ k => some (k (.error e))
  | .commit k => some (k (.error e))
  | .ret _ => none
  | .call _ _ => none

namespace Sys

variable (σ : Sys Q S D W E X Y C α)

def set (p : Nat) (P : Option (Proc Q S D W E X Y C α)) : Sys Q S D W E X Y C α :=
  { σ with procs := Function.update σ.procs p P }

/-- Give the connection of a finished transaction back to the pool. -/
def close (eng : Engine Q S O D W E) : Option (Tx S W) → Sys Q S D W E X Y C α
  | none => σ
  | some t => { σ with conns := Function.update σ.conns t.conn (eng.closeTx t.session) }

/-- No open transaction sits on the connection. -/
def Free (conn : Nat) : Prop :=
  ∀ p P t, σ.procs p = some P → P.tx = some t → t.conn ≠ conn

/-- `o` is fresh for the committed store and for every transaction's view. -/
def Fresh (eng : Engine Q S O D W E) (o : O) : Prop :=
  eng.fresh o σ.store ∧
    ∀ p P t, σ.procs p = some P → P.tx = some t → eng.fresh o (eng.applyAll t.writes σ.store)

/-- No other open transaction holds a lock that the writes `ws` of `p` need. -/
def Unblocked (eng : Engine Q S O D W E) (p : Nat) (ws : List W) : Prop :=
  ∀ p' P t, p' ≠ p → σ.procs p' = some P → P.tx = some t →
    ∀ w ∈ ws, ∀ w' ∈ t.writes, ¬eng.clash w w'

@[simp] theorem set_store (p : Nat) (P : Option (Proc Q S D W E X Y C α)) :
    (σ.set p P).store = σ.store := rfl
@[simp] theorem set_conns (p : Nat) (P : Option (Proc Q S D W E X Y C α)) :
    (σ.set p P).conns = σ.conns := rfl
@[simp] theorem set_procs (p : Nat) (P : Option (Proc Q S D W E X Y C α)) :
    (σ.set p P).procs = Function.update σ.procs p P := rfl
@[simp] theorem set_started (p : Nat) (P : Option (Proc Q S D W E X Y C α)) :
    (σ.set p P).started = σ.started := rfl
@[simp] theorem set_history (p : Nat) (P : Option (Proc Q S D W E X Y C α)) :
    (σ.set p P).history = σ.history := rfl
@[simp] theorem set_replies (p : Nat) (P : Option (Proc Q S D W E X Y C α)) :
    (σ.set p P).replies = σ.replies := rfl

@[simp] theorem close_store (eng : Engine Q S O D W E) (t : Option (Tx S W)) :
    (σ.close eng t).store = σ.store := by cases t <;> rfl
@[simp] theorem close_procs (eng : Engine Q S O D W E) (t : Option (Tx S W)) :
    (σ.close eng t).procs = σ.procs := by cases t <;> rfl
@[simp] theorem close_started (eng : Engine Q S O D W E) (t : Option (Tx S W)) :
    (σ.close eng t).started = σ.started := by cases t <;> rfl
@[simp] theorem close_history (eng : Engine Q S O D W E) (t : Option (Tx S W)) :
    (σ.close eng t).history = σ.history := by cases t <;> rfl
@[simp] theorem close_replies (eng : Engine Q S O D W E) (t : Option (Tx S W)) :
    (σ.close eng t).replies = σ.replies := by cases t <;> rfl

/-- Nothing has run yet; every connection is new. -/
def init (d : D) (s : S) : Sys Q S D W E X Y C α where
  store := d
  conns _ := s
  procs _ := none
  started := []
  history := []
  replies := []

end Sys

section Steps

variable (m : Machine Q S O D W E X Y C α) (allow : C → Prop)
  (guard : {R : Type} → Q R → D → Prop)

/-- One step of the system. `allow` says which requests arrive, and `guard` on
which views statements are run; both are true of everything unless a result is
about a part of the runs only. -/
inductive Step : Sys Q S D W E X Y C α → Label O C Y → Sys Q S D W E X Y C α → Prop
  | spawn {σ p c} : p ∉ σ.started → allow c →
      Step σ (.spawn p c)
        { σ.set p (some ⟨c, σ.store, m.program c, none, []⟩) with started := p :: σ.started }
  | start {σ p conn o P k} : σ.procs p = some P → P.prog = .start k → P.tx = none →
      σ.Free conn →
      Step σ (.start p conn o)
        (σ.set p (some { P with
          prog := k (.ok ()), tx := some ⟨conn, m.openTx o (σ.conns conn), []⟩ }))
  | stmt {σ p o P t} {R : Type} {q : Q R} {k r s ws} : σ.procs p = some P →
      P.prog = .stmt q k → P.tx = some t → σ.Fresh m.toEngine o →
      guard q (m.applyAll t.writes σ.store) →
      m.exec q t.session o (m.applyAll t.writes σ.store) = .ok (r, s, ws) →
      σ.Unblocked m.toEngine p ws →
      Step σ (.stmt p o)
        (σ.set p (some { P with
          prog := k (.ok r), tx := some ⟨t.conn, s, t.writes ++ ws⟩ }))
  -- every caller returns on the first error, which rolls the transaction back
  | stmtError {σ p o P t} {R : Type} {q : Q R} {k e} : σ.procs p = some P →
      P.prog = .stmt q k → P.tx = some t → σ.Fresh m.toEngine o →
      guard q (m.applyAll t.writes σ.store) →
      m.exec q t.session o (m.applyAll t.writes σ.store) = .error e →
      Step σ (.stmt p o)
        ((σ.close m.toEngine P.tx).set p (some { P with prog := k (.error e), tx := none }))
  | fail {σ p P prog} : σ.procs p = some P → P.prog.failed m.failure = some prog →
      Step σ (.fail p)
        ((σ.close m.toEngine P.tx).set p (some { P with prog := prog, tx := none }))
  | commit {σ p P t k} : σ.procs p = some P → P.prog = .commit k → P.tx = some t →
      Step σ (.commit p)
        { (σ.close m.toEngine P.tx).set p (some { P with
            prog := k (.ok ()), tx := none, commits := P.commits ++ [t.writes] }) with
          store := m.applyAll t.writes σ.store
          history := σ.history ++ [⟨p, P.request, t.writes⟩] }
  | call {σ p P x y k} : σ.procs p = some P → P.prog = .call x k → m.answers x y →
      Step σ (.call p y) (σ.set p (some { P with prog := k y }))
  | reply {σ p P a} : σ.procs p = some P → P.prog = .ret a →
      Step σ (.reply p)
        { (σ.close m.toEngine P.tx).set p none with
          replies := σ.replies ++ [⟨p, P.request, P.since, P.commits, a⟩] }
  | cancel {σ p P} : σ.procs p = some P →
      Step σ (.cancel p) ((σ.close m.toEngine P.tx).set p none)

/-- The states of all runs from a store with an idle pool. -/
inductive Reachable (d : D) (s : S) : Sys Q S D W E X Y C α → Prop
  | init : Reachable d s (Sys.init d s)
  | step {σ l σ'} : Reachable d s σ → Step m allow guard σ l σ' → Reachable d s σ'

/-- Runs, with the labels of their steps. -/
inductive Run : Sys Q S D W E X Y C α → List (Label O C Y) → Sys Q S D W E X Y C α → Prop
  | nil {σ} : Run σ [] σ
  | cons {σ l σ' ls σ''} : Step m allow guard σ l σ' → Run σ' ls σ'' → Run σ (l :: ls) σ''

variable {m allow guard}

/-- The more requests may arrive, the more runs there are. -/
theorem Step.mono {allow' : C → Prop} {σ σ' : Sys Q S D W E X Y C α} {l : Label O C Y}
    (h : Step m allow guard σ l σ') (himp : ∀ c, allow c → allow' c) :
    Step m allow' guard σ l σ' := by
  cases h with
  | spawn hp hc => exact .spawn hp (himp _ hc)
  | start hp hprog ht hconn => exact .start hp hprog ht hconn
  | stmt hp hprog ht hfresh hguard hexec hfree =>
      exact .stmt hp hprog ht hfresh hguard hexec hfree
  | stmtError hp hprog ht hfresh hguard hexec => exact .stmtError hp hprog ht hfresh hguard hexec
  | fail hp hfail => exact .fail hp hfail
  | commit hp hprog ht => exact .commit hp hprog ht
  | call hp hprog hy => exact .call hp hprog hy
  | reply hp hprog => exact .reply hp hprog
  | cancel hp => exact .cancel hp

theorem Reachable.mono {allow' : C → Prop} {d : D} {s : S} {σ : Sys Q S D W E X Y C α}
    (h : Reachable m allow guard d s σ) (himp : ∀ c, allow c → allow' c) :
    Reachable m allow' guard d s σ := by
  induction h with
  | init => exact .init
  | step _ hstep ih => exact ih.step (hstep.mono himp)

theorem Run.mono {allow' : C → Prop} {σ σ' : Sys Q S D W E X Y C α} {ls : List (Label O C Y)}
    (h : Run m allow guard σ ls σ') (himp : ∀ c, allow c → allow' c) :
    Run m allow' guard σ ls σ' := by
  induction h with
  | nil => exact .nil
  | cons hstep _ ih => exact .cons (hstep.mono himp) ih

theorem Reachable.run {d : D} {s : S} {σ σ' : Sys Q S D W E X Y C α} {ls : List (Label O C Y)}
    (h : Reachable m allow guard d s σ) (hrun : Run m allow guard σ ls σ') :
    Reachable m allow guard d s σ' := by
  induction hrun with
  | nil => exact h
  | cons hstep _ ih => exact ih (h.step hstep)

/-- Only commits touch the store, and a commit adds the writes of its
transaction to it. -/
theorem Step.store_eq {σ σ' : Sys Q S D W E X Y C α} {l : Label O C Y}
    (h : Step m allow guard σ l σ') :
    (∀ p, l ≠ .commit p) ∧ σ'.store = σ.store ∧ σ'.history = σ.history ∨
      ∃ p P t k, l = .commit p ∧ σ.procs p = some P ∧ P.prog = .commit k ∧ P.tx = some t ∧
        σ'.store = m.applyAll t.writes σ.store ∧
        σ'.history = σ.history ++ [⟨p, P.request, t.writes⟩] := by
  cases h with
  | @commit p P t k hp hprog ht => exact .inr ⟨p, P, t, k, rfl, hp, hprog, ht, rfl, rfl⟩
  | _ => exact .inl (by simp)

/-- What a statement in transaction `t` of program `P` leads to. -/
def Sys.executed (σ : Sys Q S D W E X Y C α) (eng : Engine Q S O D W E) (p : Nat)
    (P : Proc Q S D W E X Y C α) (t : Tx S W) {R : Type} (k : Except E R → Prog Q E X Y α) :
    Except E (R × S × List W) → Sys Q S D W E X Y C α
  | .ok (r, s, ws) =>
      σ.set p (some { P with prog := k (.ok r), tx := some ⟨t.conn, s, t.writes ++ ws⟩ })
  | .error e => (σ.close eng P.tx).set p (some { P with prog := k (.error e), tx := none })

theorem Step.stmt_cases {σ σ' : Sys Q S D W E X Y C α} {p : Nat} {o : O}
    (h : Step m allow guard σ (.stmt p o) σ') :
    ∃ P t, ∃ (R : Type) (q : Q R) (k : Except E R → Prog Q E X Y α),
      σ.procs p = some P ∧ P.prog = .stmt q k ∧ P.tx = some t ∧ σ.Fresh m.toEngine o ∧
        guard q (m.applyAll t.writes σ.store) ∧
        σ' = σ.executed m.toEngine p P t k
          (m.exec q t.session o (m.applyAll t.writes σ.store)) := by
  cases h with
  | @stmt _ _ P t R q k r s ws hp hprog ht hfresh hguard hexec =>
      refine ⟨P, t, R, q, k, hp, hprog, ht, hfresh, hguard, ?_⟩
      rw [hexec]
      rfl
  | @stmtError _ _ P t R q k e hp hprog ht hfresh hguard hexec =>
      refine ⟨P, t, R, q, k, hp, hprog, ht, hfresh, hguard, ?_⟩
      rw [hexec]
      rfl

/-- What is true of all programs stays so when one of them goes on. -/
theorem forall_update {β : Type*} {Φ : Nat → β → Prop} {procs : Nat → Option β}
    (hall : ∀ q P, procs q = some P → Φ q P) {p : Nat} {P : β} (hP : Φ p P) :
    ∀ q P', Function.update procs p (some P) q = some P' → Φ q P' := by
  intro q P' hq
  by_cases hqp : q = p
  · subst hqp
    rw [Function.update_self, Option.some.injEq] at hq
    exact hq ▸ hP
  · rw [Function.update_of_ne hqp] at hq
    exact hall q P' hq

/-- What is true of all programs stays so when one of them ends. -/
theorem forall_remove {β : Type*} {Φ : Nat → β → Prop} {procs : Nat → Option β}
    (hall : ∀ q P, procs q = some P → Φ q P) (p : Nat) :
    ∀ q P', Function.update procs p none q = some P' → Φ q P' := by
  intro q P' hq
  by_cases hqp : q = p
  · rw [hqp, Function.update_self] at hq
    cases hq
  · rw [Function.update_of_ne hqp] at hq
    exact hall q P' hq

/-- What comes next in a program. -/
inductive Prog.Next : Prog Q E X Y α → Prog Q E X Y α → Prop
  | start {k} (r) : Next (.start k) (k r)
  | stmt {R : Type} {q : Q R} {k} (r) : Next (.stmt q k) (k r)
  | commit {k} (r) : Next (.commit k) (k r)
  | call {x k} (y) : Next (.call x k) (k y)

theorem Prog.next_of_failed {e : E} {prog prog' : Prog Q E X Y α}
    (h : prog.failed e = some prog') : prog.Next prog' := by
  cases prog with
  | start k =>
      obtain rfl := Option.some.inj h
      exact .start _
  | stmt q k =>
      obtain rfl := Option.some.inj h
      exact .stmt _
  | commit k =>
      obtain rfl := Option.some.inj h
      exact .commit _
  | ret a | call x k => cases h

/-- A step starts programs of allowed requests and runs programs on. It never
changes the request a program serves. -/
theorem Step.programs (Φ : C → Prog Q E X Y α → Prop)
    (hstart : ∀ c, allow c → Φ c (m.program c))
    (hnext : ∀ c prog prog', prog.Next prog' → Φ c prog → Φ c prog')
    {σ σ' : Sys Q S D W E X Y C α} {l : Label O C Y} (h : Step m allow guard σ l σ')
    (hall : ∀ p P, σ.procs p = some P → Φ P.request P.prog) :
    ∀ p P, σ'.procs p = some P → Φ P.request P.prog := by
  have keep : ∀ p (P : Proc Q S D W E X Y C α), Φ P.request P.prog →
      ∀ q P', Function.update σ.procs p (some P) q = some P' → Φ P'.request P'.prog :=
    fun p P hP => forall_update hall hP
  cases h with
  | @spawn p c _ hc => exact keep _ _ (hstart c hc)
  | @start p conn o P k hp hprog =>
      have hP := hall p P hp
      rw [hprog] at hP
      exact keep p _ (hnext _ _ _ (.start _) hP)
  | @stmt p o P t R q k r s ws hp hprog =>
      have hP := hall p P hp
      rw [hprog] at hP
      exact keep p _ (hnext _ _ _ (.stmt _) hP)
  | @stmtError p o P t R q k e hp hprog =>
      have hP := hall p P hp
      rw [hprog] at hP
      simpa using keep p { P with prog := k (.error e), tx := none } (hnext _ _ _ (.stmt _) hP)
  | @fail p P prog hp hfail =>
      have hP := hnext _ _ _ (Prog.next_of_failed hfail) (hall p P hp)
      simpa using keep p { P with prog := prog, tx := none } hP
  | @commit p P t k hp hprog =>
      have hP := hall p P hp
      rw [hprog] at hP
      simpa using keep p { P with
        prog := k (.ok ()), tx := none, commits := P.commits ++ [t.writes] }
        (hnext _ _ _ (.commit _) hP)
  | @call p P x y k hp hprog =>
      have hP := hall p P hp
      rw [hprog] at hP
      exact keep p _ (hnext _ _ _ (.call _) hP)
  | reply | cancel => simpa using forall_remove hall _

/-- What is true of the programs of allowed requests, and stays true as they
go on, is true of what is left of every program. -/
theorem Reachable.programs (Φ : C → Prog Q E X Y α → Prop)
    (hstart : ∀ c, allow c → Φ c (m.program c))
    (hnext : ∀ c prog prog', prog.Next prog' → Φ c prog → Φ c prog') {d : D} {s : S}
    {σ : Sys Q S D W E X Y C α} (h : Reachable m allow guard d s σ) :
    ∀ p P, σ.procs p = some P → Φ P.request P.prog := by
  induction h with
  | init => simp [Sys.init]
  | step _ hstep ih => exact hstep.programs Φ hstart hnext ih

theorem Reachable.allowed {d : D} {s : S} {σ : Sys Q S D W E X Y C α}
    (h : Reachable m allow guard d s σ) : ∀ p P, σ.procs p = some P → allow P.request :=
  h.programs (fun c _ => allow c) (fun _ hc => hc) fun _ _ _ _ hc => hc

/-- A program that answers at once does nothing else. -/
theorem Reachable.prog_of_ret {c : C} {a : α} (hret : m.program c = .ret a) {d : D} {s : S}
    {σ : Sys Q S D W E X Y C α} (h : Reachable m allow guard d s σ) {p : Nat}
    {P : Proc Q S D W E X Y C α} (hp : σ.procs p = some P) (hc : P.request = c) :
    P.prog = .ret a := by
  refine h.programs (fun c' prog => c' = c → prog = .ret a) ?_ ?_ p P hp hc
  · rintro c' - rfl
    exact hret
  · intro c' prog prog' hnext hprog hc'
    rw [hprog hc'] at hnext
    cases hnext

/-- Every statement a program may come to has the property. -/
def Prog.Everywhere (φ : {R : Type} → Q R → (Except E R → Prog Q E X Y α) → Prop) :
    Prog Q E X Y α → Prop
  | .ret _ => True
  | .start k => ∀ r, (k r).Everywhere φ
  | .stmt q k => φ q k ∧ ∀ r, (k r).Everywhere φ
  | .commit k => ∀ r, (k r).Everywhere φ
  | .call _ k => ∀ y, (k y).Everywhere φ

theorem Prog.everywhere_of_forall
    {φ : {R : Type} → Q R → (Except E R → Prog Q E X Y α) → Prop}
    (h : ∀ {R : Type} (q : Q R) k, φ q k) (prog : Prog Q E X Y α) : prog.Everywhere φ := by
  induction prog with
  | ret a => trivial
  | start k ih | commit k ih => exact fun r => ih r
  | stmt q k ih => exact ⟨h q k, fun r => ih r⟩
  | call x k ih => exact fun y => ih y

theorem Prog.Everywhere.mono {φ ψ : {R : Type} → Q R → (Except E R → Prog Q E X Y α) → Prop}
    (hφψ : ∀ {R : Type} (q : Q R) k, φ q k → ψ q k) {prog : Prog Q E X Y α}
    (h : prog.Everywhere φ) : prog.Everywhere ψ := by
  induction prog with
  | ret a => trivial
  | start k ih | commit k ih => exact fun r => ih r (h r)
  | stmt q k ih => exact ⟨hφψ q k h.1, fun r => ih r (h.2 r)⟩
  | call x k ih => exact fun y => ih y (h y)

theorem Prog.Everywhere.next {φ : {R : Type} → Q R → (Except E R → Prog Q E X Y α) → Prop}
    {prog prog' : Prog Q E X Y α} (h : prog.Everywhere φ) (hnext : prog.Next prog') :
    prog'.Everywhere φ := by
  cases hnext with
  | start r | commit r => exact h r
  | stmt r => exact h.2 r
  | call y => exact h y

/-- What is left of a program is a part of it. -/
theorem Reachable.everywhere {φ : C → {R : Type} → Q R → (Except E R → Prog Q E X Y α) → Prop}
    (programs : ∀ c, (m.program c).Everywhere (φ c)) {d : D} {s : S}
    {σ : Sys Q S D W E X Y C α} (h : Reachable m allow guard d s σ) :
    ∀ p P, σ.procs p = some P → P.prog.Everywhere (φ P.request) :=
  h.programs (fun c prog => prog.Everywhere (φ c)) (fun c _ => programs c)
    fun _ _ _ hnext hprog => hprog.next hnext

end Steps

end Transactional
