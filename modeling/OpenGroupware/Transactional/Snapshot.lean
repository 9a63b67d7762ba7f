import OpenGroupware.Transactional.Outline
import OpenGroupware.Transactional.Record
import Mathlib.Data.Set.Insert

/-!
What clients are told. A statement sees the committed store of the moment it
is run, with its own transaction's writes on top; a program may so put together
an answer from several stores. What it answers is proved from the stores its
statements have seen, and each of these was the store of a state that the run
passed while the program was running. The transactions of a request, in turn,
are one by one what its outline allows after the ones before.
-/

namespace Transactional

variable {Q : Type → Type} {S O D W E X Y C α : Type}

section Runs

variable {m : Machine Q S O D W E X Y C α} {allow : C → Prop}
  {guard : {R : Type} → Q R → D → Prop} {σ σ₀ σ₁ σ₂ : Sys Q S D W E X Y C α}
  {ls ls' : List (Label O C Y)} {l : Label O C Y}

theorem Run.append (h : Run m allow guard σ₀ ls σ₁) (h' : Run m allow guard σ₁ ls' σ₂) :
    Run m allow guard σ₀ (ls ++ ls') σ₂ := by
  induction h with
  | nil => exact h'
  | cons hstep _ ih => exact .cons hstep (ih h')

theorem Run.snoc (h : Run m allow guard σ₀ ls σ₁) (hstep : Step m allow guard σ₁ l σ₂) :
    Run m allow guard σ₀ (ls ++ [l]) σ₂ := h.append (.cons hstep .nil)

/-- Induction on the last step of a run. -/
theorem Run.snoc_induction {φ : List (Label O C Y) → Sys Q S D W E X Y C α → Prop}
    (hnil : φ [] σ₀)
    (hsnoc : ∀ ls τ l τ', Run m allow guard σ₀ ls τ → Step m allow guard τ l τ' → φ ls τ →
      φ (ls ++ [l]) τ') (h : Run m allow guard σ₀ ls σ) : φ ls σ := by
  have later : ∀ {τ τ' ls ls'}, Run m allow guard τ ls' τ' → Run m allow guard σ₀ ls τ →
      φ ls τ → φ (ls ++ ls') τ' := by
    intro τ τ' ls ls' hrest
    induction hrest generalizing ls with
    | nil => simp
    | @cons τ l τ₁ ls' τ₂ hstep _ ih =>
        intro hrun hφ
        have h := ih (hrun.snoc hstep) (hsnoc ls τ l τ₁ hrun hstep hφ)
        rwa [List.append_assoc] at h
  exact later h .nil hnil

variable (m allow guard σ₀)

/-- On the way from `σ₀` to `σ` the store was `d` while `p` was running. -/
def Passed (ls : List (Label O C Y)) (σ : Sys Q S D W E X Y C α) (p : Nat) (d : D) : Prop :=
  ∃ ls₁ ls₂ ρ P, ls = ls₁ ++ ls₂ ∧ Run m allow guard σ₀ ls₁ ρ ∧ Run m allow guard ρ ls₂ σ ∧
    ρ.procs p = some P ∧ ρ.store = d

variable {m allow guard σ₀}

theorem Passed.snoc {p : Nat} {d : D} (h : Passed m allow guard σ₀ ls σ p d)
    (hstep : Step m allow guard σ l σ₁) : Passed m allow guard σ₀ (ls ++ [l]) σ₁ p d := by
  obtain ⟨ls₁, ls₂, ρ, P, rfl, hrun₁, hrun₂, hp, hd⟩ := h
  exact ⟨ls₁, ls₂ ++ [l], ρ, P, List.append_assoc .., hrun₁, hrun₂.snoc hstep, hp, hd⟩

theorem Passed.now {p : Nat} {P : Proc Q S D W E X Y C α} (hrun : Run m allow guard σ₀ ls σ)
    (hstep : Step m allow guard σ l σ₁) (hp : σ.procs p = some P) :
    Passed m allow guard σ₀ (ls ++ [l]) σ₁ p σ.store :=
  ⟨ls, [l], σ, P, rfl, hrun, .cons hstep .nil, hp, rfl⟩

end Runs

variable (m : Machine Q S O D W E X Y C α) (idle : S → Prop)

/-- What is left of a program, whose statements have seen the stores `seen` and
which has the transaction `tx` open, answers what `post` allows. -/
def Prog.Tells (post : Set D → α → Prop) :
    Prog Q E X Y α → Option (S × List W) → Set D → Prop
  | .ret a, _, seen => post seen a
  | .start k, _, seen => (∀ e, (k (.error e)).Tells post none seen) ∧
      ∀ s o, idle s → (k (.ok ())).Tells post (some (m.openTx o s, [])) seen
  | .stmt q k, tx, seen => (∀ e, (k (.error e)).Tells post none seen) ∧
      ∀ s ws, tx = some (s, ws) → ∀ d o r s' ws',
        m.exec q s o (m.applyAll ws d) = .ok (r, s', ws') →
          (k (.ok r)).Tells post (some (s', ws ++ ws')) (insert d seen)
  | .commit k, _, seen => ∀ r, (k r).Tells post none seen
  | .call _ k, tx, seen => ∀ y, (k y).Tells post tx seen

variable {m idle}

theorem Prog.tells_of_forall {post : Set D → α → Prop} (h : ∀ seen a, post seen a)
    (prog : Prog Q E X Y α) (tx : Option (S × List W)) (seen : Set D) :
    prog.Tells m idle post tx seen := by
  induction prog generalizing tx seen with
  | ret a => exact h seen a
  | start k ih => exact ⟨fun e => ih _ none seen, fun s o _ => ih _ _ seen⟩
  | stmt q k ih => exact ⟨fun e => ih _ none seen, fun s ws _ d o r s' ws' _ => ih _ _ _⟩
  | commit k ih => exact fun r => ih _ none seen
  | call x k ih => exact fun y => ih _ tx seen

theorem Prog.Tells.failed {post : Set D → α → Prop} {prog prog' : Prog Q E X Y α}
    {tx : Option (S × List W)} {seen : Set D} {e : E} (h : prog.Tells m idle post tx seen)
    (hfail : prog.failed e = some prog') : prog'.Tells m idle post none seen := by
  cases prog with
  | start k | stmt q k =>
      obtain rfl := Option.some.inj hfail
      exact h.1 e
  | commit k =>
      obtain rfl := Option.some.inj hfail
      exact h _
  | ret a | call x k => cases hfail

section Told

variable {allow : C → Prop} {guard : {R : Type} → Q R → D → Prop}
  {post : C → Set D → α → Prop} {σ σ₀ σ' : Sys Q S D W E X Y C α}
  {ls : List (Label O C Y)} {l : Label O C Y}

variable (m idle allow guard post σ₀)

/-- The program of `p`, and any answer it has given, only tell what was the
case while it was running. -/
structure Telling (ls : List (Label O C Y)) (σ : Sys Q S D W E X Y C α) : Prop where
  procs : ∀ p P, σ.procs p = some P → p ∉ σ₀.started →
    ∃ seen, (∀ d ∈ seen, Passed m allow guard σ₀ ls σ p d) ∧
      P.prog.Tells m idle (post P.request) (P.tx.map fun t => (t.session, t.writes)) seen
  replies : ∀ e ∈ σ.replies, e.pid ∉ σ₀.started →
    ∃ seen, (∀ d ∈ seen, Passed m allow guard σ₀ ls σ e.pid d) ∧ post e.request seen e.answer

variable {m idle allow guard post σ₀}

/-- The step lemma. -/
theorem Telling.step (programs : ∀ c, (m.program c).Tells m idle (post c) none ∅)
    (hidle : ∀ conn, idle (σ.conns conn)) (hrun : Run m allow guard σ₀ ls σ)
    (h : Telling m idle allow guard post σ₀ ls σ) (hstep : Step m allow guard σ l σ') :
    Telling m idle allow guard post σ₀ (ls ++ [l]) σ' := by
  have later : ∀ p (seen : Set D), (∀ d ∈ seen, Passed m allow guard σ₀ ls σ p d) →
      ∀ d ∈ seen, Passed m allow guard σ₀ (ls ++ [l]) σ' p d :=
    fun p seen hseen d hd => (hseen d hd).snoc hstep
  have old : ∀ p P, σ.procs p = some P → p ∉ σ₀.started →
      ∃ seen, (∀ d ∈ seen, Passed m allow guard σ₀ (ls ++ [l]) σ' p d) ∧
        P.prog.Tells m idle (post P.request) (P.tx.map fun t => (t.session, t.writes)) seen := by
    intro p P hp hnew
    obtain ⟨seen, hseen, htells⟩ := h.procs p P hp hnew
    exact ⟨seen, later p seen hseen, htells⟩
  have replies : ∀ e ∈ σ.replies, e.pid ∉ σ₀.started →
      ∃ seen, (∀ d ∈ seen, Passed m allow guard σ₀ (ls ++ [l]) σ' e.pid d) ∧
        post e.request seen e.answer := by
    intro e he hnew
    obtain ⟨seen, hseen, hpost⟩ := h.replies e he hnew
    exact ⟨seen, later e.pid seen hseen, hpost⟩
  -- a program that goes on without having seen more
  have goes : ∀ {p P} (P' : Proc Q S D W E X Y C α), σ.procs p = some P →
      P'.request = P.request →
      (∀ seen, P.prog.Tells m idle (post P.request)
          (P.tx.map fun t => (t.session, t.writes)) seen →
        P'.prog.Tells m idle (post P.request) (P'.tx.map fun t => (t.session, t.writes)) seen) →
      ∀ q P₁, Function.update σ.procs p (some P') q = some P₁ → q ∉ σ₀.started →
        ∃ seen, (∀ d ∈ seen, Passed m allow guard σ₀ (ls ++ [l]) σ' q d) ∧
          P₁.prog.Tells m idle (post P₁.request)
            (P₁.tx.map fun t => (t.session, t.writes)) seen := by
    intro p P P' hp hreq hgoes
    refine forall_update old fun hnew => ?_
    obtain ⟨seen, hseen, htells⟩ := old p P hp hnew
    rw [hreq]
    exact ⟨seen, hseen, hgoes seen htells⟩
  cases hstep with
  | @spawn p c _ hc => exact ⟨forall_update old fun _ => ⟨∅, nofun, programs c⟩, replies⟩
  | @start p conn o P k hp hprog ht hfree =>
      refine ⟨goes _ hp rfl fun seen htells => ?_, replies⟩
      rw [hprog] at htells
      exact htells.2 _ o (hidle conn)
  | @stmt p o P t R q k r s ws hp hprog ht hfresh hguard hexec hfree =>
      refine ⟨forall_update old fun hnew => ?_, replies⟩
      obtain ⟨seen, hseen, htells⟩ := old p P hp hnew
      rw [hprog, ht] at htells
      refine ⟨insert σ.store seen, ?_, htells.2 _ _ rfl σ.store o r s ws hexec⟩
      rintro d (rfl | hd)
      · exact .now hrun (.stmt hp hprog ht hfresh hguard hexec hfree) hp
      · exact hseen d hd
  | @stmtError p o P t R q k e hp hprog =>
      have hgoes := goes { P with prog := k (.error e), tx := none } hp rfl fun seen htells => by
        rw [hprog] at htells
        exact htells.1 e
      exact ⟨by simpa using hgoes, by simpa using replies⟩
  | @fail p P prog hp hfail =>
      have hgoes := goes { P with prog := prog, tx := none } hp rfl
        fun seen htells => htells.failed hfail
      exact ⟨by simpa using hgoes, by simpa using replies⟩
  | @commit p P t k hp hprog =>
      have hgoes := goes { P with
          prog := k (.ok ()), tx := none, commits := P.commits ++ [t.writes] } hp rfl
        fun seen htells => by
          rw [hprog] at htells
          exact htells _
      exact ⟨by simpa using hgoes, by simpa using replies⟩
  | @call p P x y k hp hprog =>
      refine ⟨goes _ hp rfl fun seen htells => ?_, replies⟩
      rw [hprog] at htells
      exact htells y
  | @reply p P a hp hprog =>
      refine ⟨by simpa using forall_remove old p, fun e he hnew => ?_⟩
      rcases List.mem_append.1 he with he | he
      · exact replies e (by simpa using he) hnew
      · obtain rfl := List.mem_singleton.1 he
        obtain ⟨seen, hseen, htells⟩ := old p P hp hnew
        rw [hprog] at htells
        exact ⟨seen, hseen, htells⟩
  | cancel => exact ⟨by simpa using forall_remove old _, by simpa using replies⟩

/-- The run lemma. -/
theorem Run.telling (programs : ∀ c, (m.program c).Tells m idle (post c) none ∅)
    {d : D} {s : S} (h : Reachable m allow guard d s σ₀)
    (hidle : ∀ τ, Reachable m allow guard d s τ → ∀ conn, idle (τ.conns conn))
    (hrun : Run m allow guard σ₀ ls σ) : Telling m idle allow guard post σ₀ ls σ := by
  refine hrun.snoc_induction ⟨fun p P hp hnew => ?_, fun e he hnew => ?_⟩ ?_
  · exact absurd (h.recorded.started hp) hnew
  · exact absurd rfl ((h.recorded.fresh _ hnew).2.2 e he)
  · intro ls τ l τ' hrun hstep ih
    exact ih.step programs (hidle τ (h.run hrun)) hrun hstep

end Told

/-! ### The transactions of a request -/

/-- The transactions of a request, each allowed after the ones before it. -/
inductive Spec.Chain (sp : Spec Q S D W C α) (m : Machine Q S O D W E X Y C α) (c : C) :
    List (List W) → Prop
  | nil : Chain sp m c []
  | snoc {cs ws d} : Chain sp m c cs → sp.inv d → m.Pending sp.fits ws d →
      sp.post c cs d ws → Chain sp m c (cs ++ [ws])

section Chain

variable {sp : Spec Q S D W C α} {c : C} {cs : List (List W)} {ws : List W}

theorem Spec.Chain.last (h : sp.Chain m c (cs ++ [ws])) :
    sp.Chain m c cs ∧ ∃ d, sp.inv d ∧ m.Pending sp.fits ws d ∧ sp.post c cs d ws := by
  generalize hcs : cs ++ [ws] = css at h
  cases h with
  | nil => simp at hcs
  | @snoc cs' ws' d hchain hinv hpend hpost =>
      obtain ⟨rfl, hws⟩ := List.append_inj' hcs rfl
      obtain rfl := (List.cons.inj hws).1
      exact ⟨hchain, d, hinv, hpend, hpost⟩

theorem Spec.Chain.first (h : sp.Chain m c [ws]) :
    ∃ d, sp.inv d ∧ m.Pending sp.fits ws d ∧ sp.post c [] d ws := by
  have hlast : sp.Chain m c ([] ++ [ws]) := h
  exact hlast.last.2

theorem Spec.Chain.second {ws' : List W} (h : sp.Chain m c [ws, ws']) :
    ∃ d, sp.inv d ∧ m.Pending sp.fits ws' d ∧ sp.post c [ws] d ws' := by
  have hlast : sp.Chain m c ([ws] ++ [ws']) := h
  exact hlast.last.2

variable {allow : C → Prop} {d₀ : D} {s₀ : S} {σ : Sys Q S D W E X Y C α}

theorem Spec.Started.chain (hs : sp.Started m allow d₀ s₀)
    (h : Reachable m allow sp.guard d₀ s₀ σ) :
    (∀ p P, σ.procs p = some P → sp.Chain m P.request P.commits) ∧
      ∀ e ∈ σ.replies, sp.Chain m e.request e.commits := by
  induction h with
  | init => simp [Sys.init]
  | @step σ l σ' hr hstep ih =>
      obtain ⟨hprocs, hreplies⟩ := ih
      have keep : ∀ {p P} (P' : Proc Q S D W E X Y C α), σ.procs p = some P →
          P'.request = P.request → P'.commits = P.commits →
          ∀ q P₁, Function.update σ.procs p (some P') q = some P₁ →
            sp.Chain m P₁.request P₁.commits := by
        intro p P P' hp hreq hcommits
        refine forall_update hprocs ?_
        rw [hreq, hcommits]
        exact hprocs p P hp
      cases hstep with
      | spawn => exact ⟨forall_update hprocs .nil, hreplies⟩
      | start hp | stmt hp | call hp => exact ⟨keep _ hp rfl rfl, hreplies⟩
      | @stmtError p o P t R q k e hp =>
          have hkeep := keep { P with prog := k (.error e), tx := none } hp rfl rfl
          exact ⟨by simpa using hkeep, by simpa using hreplies⟩
      | @fail p P prog hp =>
          have hkeep := keep { P with prog := prog, tx := none } hp rfl rfl
          exact ⟨by simpa using hkeep, by simpa using hreplies⟩
      | @commit p P t k hp hprog ht =>
          obtain ⟨hinv, hpend, hpost⟩ := hs.commit_post hr hp hprog ht
          have hkeep := forall_update hprocs (p := p)
            (P := { P with
              prog := k (.ok ()), tx := none, commits := P.commits ++ [t.writes] })
            (.snoc (hprocs p P hp) hinv hpend hpost)
          exact ⟨by simpa using hkeep, by simpa using hreplies⟩
      | cancel => exact ⟨by simpa using forall_remove hprocs _, by simpa using hreplies⟩
      | @reply p P a hp =>
          refine ⟨by simpa using forall_remove hprocs p, fun e he => ?_⟩
          rcases List.mem_append.1 he with he | he
          · exact hreplies e (by simpa using he)
          · obtain rfl := List.mem_singleton.1 he
            exact hprocs p P hp

/-- The transactions of an answered request are in the history. -/
theorem Sys.Recorded.mem_history (h : σ.Recorded) {e : Reply C D W α} (he : e ∈ σ.replies)
    {ws : List W} (hws : ws ∈ e.commits) : ⟨e.pid, e.request, ws⟩ ∈ σ.history := by
  have hmem : (⟨e.pid, e.request, ws⟩ : Commit C W) ∈ σ.historyOf e.pid := by
    rw [(h.replied e he).2]
    exact List.mem_map.2 ⟨ws, hws, rfl⟩
  exact (List.mem_filter.1 hmem).1

end Chain

end Transactional
