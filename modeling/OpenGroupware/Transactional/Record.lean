import OpenGroupware.Transactional.System
import Mathlib.Algebra.BigOperators.Group.List.Basic
import Mathlib.Algebra.GroupWithZero.Nat
import Mathlib.Data.List.Nodup

/-!
The record of a run: the store is what the history has made of the first one,
a request's part of the history is what it has committed, and it has answered
at most once.
-/

namespace Transactional

variable {Q : Type → Type} {S O D W E X Y C α : Type}
  {m : Machine Q S O D W E X Y C α} {allow : C → Prop}
  {guard : {R : Type} → Q R → D → Prop} {d₀ : D} {s₀ : S} {σ σ' : Sys Q S D W E X Y C α}

namespace Sys

/-- The part of the history that one program has written. -/
def historyOf (σ : Sys Q S D W E X Y C α) (p : Nat) : List (Commit C W) :=
  σ.history.filter fun e => decide (e.pid = p)

@[simp] theorem historyOf_set (σ : Sys Q S D W E X Y C α) (p : Nat)
    (P : Option (Proc Q S D W E X Y C α)) (q : Nat) :
    (σ.set p P).historyOf q = σ.historyOf q := rfl

@[simp] theorem historyOf_close (σ : Sys Q S D W E X Y C α) (eng : Engine Q S O D W E)
    (t : Option (Tx S W)) (q : Nat) : (σ.close eng t).historyOf q = σ.historyOf q := by
  cases t <;> rfl

/-- What the commits of a request look like in the history. -/
def entries (p : Nat) (c : C) (commits : List (List W)) : List (Commit C W) :=
  commits.map fun ws => ⟨p, c, ws⟩

/-- The bookkeeping of programs, history and replies agrees. -/
structure Recorded (σ : Sys Q S D W E X Y C α) : Prop where
  fresh : ∀ p, p ∉ σ.started →
    σ.procs p = none ∧ σ.historyOf p = [] ∧ ∀ e ∈ σ.replies, e.pid ≠ p
  running : ∀ p P, σ.procs p = some P →
    σ.historyOf p = entries p P.request P.commits ∧ ∀ e ∈ σ.replies, e.pid ≠ p
  replied : ∀ e ∈ σ.replies, σ.procs e.pid = none ∧
    σ.historyOf e.pid = entries e.pid e.request e.commits
  once : (σ.replies.map Reply.pid).Nodup

theorem Recorded.started (h : σ.Recorded) {p : Nat} {P : Proc Q S D W E X Y C α}
    (hp : σ.procs p = some P) : p ∈ σ.started := by
  by_contra hns
  rw [(h.fresh p hns).1] at hp
  cases hp

theorem Recorded.ne_of_not_started (h : σ.Recorded) {p q : Nat} {P : Proc Q S D W E X Y C α}
    (hp : σ.procs p = some P) (hq : q ∉ σ.started) : q ≠ p := by
  rintro rfl
  exact hq (h.started hp)

theorem Recorded.init (d : D) (s : S) : (Sys.init d s : Sys Q S D W E X Y C α).Recorded where
  fresh := by simp [Sys.init, historyOf]
  running := by simp [Sys.init]
  replied := by simp [Sys.init]
  once := by simp [Sys.init]

/-- A program that goes on with the same request and commits. -/
theorem Recorded.set (h : σ.Recorded) {p : Nat} {P P' : Proc Q S D W E X Y C α}
    (hp : σ.procs p = some P) (hreq : P'.request = P.request)
    (hcommits : P'.commits = P.commits) : (σ.set p (some P')).Recorded where
  fresh q hq := by
    obtain ⟨hnone, hhist, hreply⟩ := h.fresh q hq
    have hqp := h.ne_of_not_started hp hq
    exact ⟨by simpa [hqp] using hnone, hhist, hreply⟩
  running := by
    refine forall_update h.running ?_
    rw [hreq, hcommits]
    exact h.running p P hp
  replied e he := by
    have hep := (h.running p P hp).2 e he
    simpa [hep] using h.replied e he
  once := h.once

theorem Recorded.close (h : σ.Recorded) (eng : Engine Q S O D W E) (t : Option (Tx S W)) :
    (σ.close eng t).Recorded where
  fresh := by simpa using h.fresh
  running := by simpa using h.running
  replied := by simpa using h.replied
  once := by simpa using h.once

theorem Recorded.clear (h : σ.Recorded) {p : Nat} {P : Proc Q S D W E X Y C α}
    (hp : σ.procs p = some P) : (σ.set p none).Recorded where
  fresh q hq := by
    obtain ⟨hnone, hhist, hreply⟩ := h.fresh q hq
    have hqp := h.ne_of_not_started hp hq
    exact ⟨by simpa [hqp] using hnone, hhist, hreply⟩
  running := forall_remove h.running p
  replied e he := by
    have hep := (h.running p P hp).2 e he
    simpa [hep] using h.replied e he
  once := h.once

theorem historyOf_append_self (p : Nat) (c : C) (ws : List W) :
    ({ σ with history := σ.history ++ [⟨p, c, ws⟩] } : Sys Q S D W E X Y C α).historyOf p =
      σ.historyOf p ++ [⟨p, c, ws⟩] := by
  simp [historyOf]

theorem historyOf_append_ne {p q : Nat} (hq : q ≠ p) (c : C) (ws : List W) :
    ({ σ with history := σ.history ++ [⟨p, c, ws⟩] } : Sys Q S D W E X Y C α).historyOf q =
      σ.historyOf q := by
  simp [historyOf, Ne.symm hq]

end Sys

open Sys

theorem Step.recorded {l : Label O C Y} (hstep : Step m allow guard σ l σ')
    (h : σ.Recorded) : σ'.Recorded := by
  cases hstep with
  | @spawn p c hp hc =>
      obtain ⟨-, hhist, hreply⟩ := h.fresh p hp
      refine ⟨fun q hq => ?_, forall_update h.running ⟨hhist, hreply⟩, fun e he => ?_, h.once⟩
      · simp only [List.mem_cons, not_or] at hq
        obtain ⟨hnone, hrest⟩ := h.fresh q hq.2
        exact ⟨by simpa [hq.1] using hnone, hrest⟩
      · obtain ⟨hnone, hrun⟩ := h.replied e he
        exact ⟨by simpa [hreply e he] using hnone, hrun⟩
  | start hp _ _ _ => exact h.set hp rfl rfl
  | stmt hp _ _ _ _ _ _ => exact h.set hp rfl rfl
  | @stmtError p _ P _ _ _ _ _ hp => exact (h.close _ P.tx).set (P := P) (by simpa using hp) rfl rfl
  | @fail p P _ hp => exact (h.close _ P.tx).set (P := P) (by simpa using hp) rfl rfl
  | call hp _ _ => exact h.set hp rfl rfl
  | @cancel p P hp => exact (h.close _ P.tx).clear (by simpa using hp)
  | @commit p P t k hp _ _ =>
      have hhist := historyOf_append_self (σ := σ) p P.request t.writes
      refine ⟨fun q hq => ?_, fun q P' hq => ?_, fun e he => ?_, by simpa using h.once⟩
      · have hq : q ∉ σ.started := by simpa using hq
        have hqp := h.ne_of_not_started hp hq
        obtain ⟨hnone, hempty, hreply⟩ := h.fresh q hq
        refine ⟨by simpa [hqp] using hnone, ?_, by simpa using hreply⟩
        exact (historyOf_append_ne hqp _ _).trans hempty
      · by_cases hqp : q = p
        · subst hqp
          obtain rfl : _ = P' := by simpa using hq
          refine ⟨hhist.trans ?_, by simpa using (h.running q P hp).2⟩
          rw [(h.running q P hp).1]
          simp [entries]
        · obtain ⟨hrun, hreply⟩ := h.running q P' (by simpa [hqp] using hq)
          exact ⟨(historyOf_append_ne hqp _ _).trans hrun, by simpa using hreply⟩
      · have he : e ∈ σ.replies := by simpa using he
        have hep := (h.running p P hp).2 e he
        obtain ⟨hnone, hrun⟩ := h.replied e he
        exact ⟨by simpa [hep] using hnone, (historyOf_append_ne hep _ _).trans hrun⟩
  | @reply p P a hp _ =>
      obtain ⟨hrun, hreply⟩ := h.running p P hp
      have hdone := (h.close m.toEngine P.tx).clear (p := p) (by simpa using hp)
      refine ⟨fun q hq => ?_, fun q P' hq => ?_, fun e he => ?_, ?_⟩
      · have hqp := h.ne_of_not_started hp (by simpa using hq)
        obtain ⟨hnone, hempty, hrest⟩ := hdone.fresh q hq
        refine ⟨hnone, hempty, fun e he => ?_⟩
        rcases List.mem_append.1 he with he | he
        · exact hrest e (by simpa using he)
        · rw [List.mem_singleton] at he
          rw [he]
          exact fun h => hqp h.symm
      · obtain ⟨hrun', hrest⟩ := hdone.running q P' hq
        have hqp : q ≠ p := by
          rintro rfl
          simp at hq
        refine ⟨hrun', fun e he => ?_⟩
        rcases List.mem_append.1 he with he | he
        · exact hrest e (by simpa using he)
        · rw [List.mem_singleton] at he
          rw [he]
          exact fun h => hqp h.symm
      · rcases List.mem_append.1 he with he | he
        · exact hdone.replied e (by simpa using he)
        · rw [List.mem_singleton] at he
          subst he
          exact ⟨by simp, by simpa [historyOf] using hrun⟩
      · rw [List.map_append, List.nodup_append]
        refine ⟨h.once, by simp, ?_⟩
        intro a ha b hb hab
        obtain ⟨e, he, rfl⟩ := List.mem_map.1 ha
        simp only [List.map_cons, List.map_nil, List.mem_singleton] at hb
        exact hreply e he (hab.trans hb)

theorem Reachable.recorded (h : Reachable m allow guard d₀ s₀ σ) : σ.Recorded := by
  induction h with
  | init => exact Recorded.init d₀ s₀
  | step _ hstep ih => exact hstep.recorded ih

/-- The store is what the committed transactions, in order, made of the first
one. -/
theorem Reachable.store_eq (h : Reachable m allow guard d₀ s₀ σ) :
    σ.store = m.applyAll (σ.history.flatMap Commit.writes) d₀ := by
  induction h with
  | init => rfl
  | step _ hstep ih =>
      rcases hstep.store_eq with ⟨-, hstore, hhist⟩ | ⟨p, P, t, k, rfl, -, -, -, hstore, hhist⟩
      · rw [hstore, hhist, ih]
      · rw [hstore, hhist, ih, List.flatMap_append, Engine.applyAll_append]
        simp

/-- The record goes on with what is committed, and the store is what that makes
of it. -/
theorem Run.goes_on {ls : List (Label O C Y)} (h : Run m allow guard σ ls σ') :
    ∃ es, σ'.history = σ.history ++ es ∧ (∀ e ∈ es, .commit e.pid ∈ ls) ∧
      σ'.store = m.applyAll (es.flatMap Commit.writes) σ.store := by
  induction h with
  | nil => exact ⟨[], (List.append_nil _).symm, nofun, rfl⟩
  | @cons σ l σ₁ ls σ₂ hstep _ ih =>
      obtain ⟨es, hhist, hcommits, hstore⟩ := ih
      have hlater : ∀ e ∈ es, .commit e.pid ∈ l :: ls := fun e he =>
        List.mem_cons_of_mem _ (hcommits e he)
      rcases hstep.store_eq with ⟨-, hstore', hhist'⟩ |
        ⟨q, P, t, k, rfl, -, -, -, hstore', hhist'⟩
      · exact ⟨es, by rw [hhist, hhist'], hlater, by rw [hstore, hstore']⟩
      · refine ⟨⟨q, P.request, t.writes⟩ :: es, ?_, ?_, ?_⟩
        · rw [hhist, hhist', List.append_assoc]
          rfl
        · rintro e (_ | ⟨_, he⟩)
          · exact List.mem_cons_self
          · exact hlater e he
        · rw [hstore, hstore', ← Engine.applyAll_append]
          rfl

/-- As long as a program does not commit, it goes on with what others commit. -/
theorem Run.others {p : Nat} {ls : List (Label O C Y)} (h : Run m allow guard σ ls σ')
    (hp : .commit p ∉ ls) : ∃ es, σ'.history = σ.history ++ es ∧ (∀ e ∈ es, e.pid ≠ p) ∧
      σ'.store = m.applyAll (es.flatMap Commit.writes) σ.store := by
  obtain ⟨es, hhist, hcommits, hstore⟩ := h.goes_on
  exact ⟨es, hhist, fun e he hpid => hp (hpid ▸ hcommits e he), hstore⟩

/-- A run that comes back to its record has the same store in between. -/
theorem Run.store_between {ls ls' : List (Label O C Y)} {ρ : Sys Q S D W E X Y C α}
    (h : Run m allow guard σ ls ρ) (h' : Run m allow guard ρ ls' σ) : ρ.store = σ.store := by
  obtain ⟨es, hhist, -, hstore⟩ := h.goes_on
  obtain ⟨es', hhist', -, -⟩ := h'.goes_on
  rw [hhist, List.append_assoc, List.self_eq_append_right, List.append_eq_nil_iff] at hhist'
  rw [hstore, hhist'.1]
  rfl

/-- The store a request came in on was the store of a state of the run. -/
theorem Reachable.since (h : Reachable m allow guard d₀ s₀ σ) :
    (∀ p P, σ.procs p = some P →
      ∃ σ₀, Reachable m allow guard d₀ s₀ σ₀ ∧ P.since = σ₀.store) ∧
    ∀ e ∈ σ.replies, ∃ σ₀, Reachable m allow guard d₀ s₀ σ₀ ∧ e.since = σ₀.store := by
  induction h with
  | init => simp [Sys.init]
  | @step σ l σ' hr hstep ih =>
      obtain ⟨hprocs, hreplies⟩ := ih
      have keep : ∀ p (P P' : Proc Q S D W E X Y C α), σ.procs p = some P →
          P'.since = P.since → ∀ q P₁, Function.update σ.procs p (some P') q = some P₁ →
          ∃ σ₀, Reachable m allow guard d₀ s₀ σ₀ ∧ P₁.since = σ₀.store := by
        intro p P P' hp hsince
        refine forall_update hprocs ?_
        rw [hsince]
        exact hprocs p P hp
      cases hstep with
      | @spawn p c hp hc =>
          exact ⟨forall_update hprocs ⟨σ, hr, rfl⟩, hreplies⟩
      | start hp _ _ _ | stmt hp _ _ _ _ _ _ | call hp _ _ =>
          exact ⟨keep _ _ _ hp rfl, hreplies⟩
      | @stmtError p _ P _ _ _ _ _ hp | @fail p P _ hp | @commit p P _ _ hp =>
          refine ⟨fun q P₁ hq => ?_, by simpa using hreplies⟩
          simp only [Sys.set_procs, Sys.close_procs] at hq
          exact keep p P _ hp (by rfl) q P₁ hq
      | cancel hp => exact ⟨by simpa using forall_remove hprocs _, by simpa using hreplies⟩
      | @reply p P a hp hprog =>
          refine ⟨by simpa using forall_remove hprocs _, fun e he => ?_⟩
          rcases List.mem_append.1 he with he | he
          · exact hreplies e (by simpa using he)
          · rw [List.mem_singleton] at he
            subst he
            exact hprocs p P hp

/-! ### Counting commits -/

theorem sum_map_single {κ : Type} [DecidableEq κ] (a : κ) (n : Nat) (ks : List κ) :
    (ks.map fun k => if k = a then n else 0).sum = ks.count a * n := by
  induction ks with
  | nil => simp
  | cons k ks ih =>
      rw [List.map_cons, List.sum_cons, ih, List.count_cons]
      by_cases hk : k = a
      · simp [hk, Nat.add_mul, Nat.add_comm]
      · simp [hk]

/-- Counting by keys. -/
theorem sum_countP_filter {β κ : Type} [DecidableEq κ] (f : β → κ) (q : β → Bool) {ks : List κ}
    (hks : ks.Nodup) {l : List β} (hl : ∀ x ∈ l, f x ∈ ks) :
    (ks.map fun k => (l.filter fun x => decide (f x = k)).countP q).sum = l.countP q := by
  induction l with
  | nil => simp
  | cons x l ih =>
      have hstep : ∀ k, ((x :: l).filter fun y => decide (f y = k)).countP q =
          (if k = f x then [x].countP q else 0) +
            (l.filter fun y => decide (f y = k)).countP q := by
        intro k
        by_cases hk : f x = k
        · rw [List.filter_cons_of_pos (by simpa using hk), if_pos hk.symm, List.countP_cons,
            List.countP_cons]
          simp [Nat.add_comm]
        · rw [List.filter_cons_of_neg (by simpa using hk), if_neg (Ne.symm hk), Nat.zero_add]
      have hone : (ks.map fun k => if k = f x then [x].countP q else 0).sum = [x].countP q := by
        rw [sum_map_single, List.count_eq_one_of_mem hks (hl x List.mem_cons_self), Nat.one_mul]
      rw [List.map_congr_left fun k _ => hstep k, List.sum_map_add, hone,
        ih fun y hy => hl y (List.mem_cons_of_mem _ hy)]
      simp [List.countP_cons, Nat.add_comm]

/-- When every program has answered, the commits of the answered requests are
all there are. -/
theorem Sys.Recorded.sum_commits (h : σ.Recorded)
    (hall : ∀ p ∈ σ.started, ∃ e ∈ σ.replies, e.pid = p) (q : List W → Bool) :
    (σ.replies.map fun e => e.commits.countP q).sum = σ.history.countP fun e => q e.writes := by
  have hpids : ∀ e ∈ σ.history, e.pid ∈ σ.replies.map Reply.pid := by
    intro e he
    have hstarted : e.pid ∈ σ.started := by
      by_contra hnot
      have hnone := (h.fresh e.pid hnot).2.1
      rw [Sys.historyOf, List.filter_eq_nil_iff] at hnone
      exact hnone e he (by simp)
    obtain ⟨r, hr, hpid⟩ := hall e.pid hstarted
    exact List.mem_map.2 ⟨r, hr, hpid⟩
  have hone : ∀ r ∈ σ.replies, r.commits.countP q =
      (σ.history.filter fun e => decide (e.pid = r.pid)).countP fun e => q e.writes := by
    intro r hr
    have hhist : (σ.history.filter fun e => decide (e.pid = r.pid)) =
        Sys.entries r.pid r.request r.commits := (h.replied r hr).2
    rw [hhist, Sys.entries, List.countP_map]
    rfl
  rw [List.map_congr_left hone, ← sum_countP_filter Commit.pid (fun e => q e.writes) h.once hpids,
    List.map_map]
  rfl

end Transactional
