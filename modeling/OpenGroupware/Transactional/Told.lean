import OpenGroupware.Transactional.Outline

/-!
What each program has been told. Runs are recorded together with the outside
calls their programs make. An outline that holds for the answers one program
was given says more than one that holds for all answers: it can name the call
behind a commit.
-/

namespace Transactional

variable {Q : Type → Type} {S O D W E X Y C α : Type}

/-- An answered call to the outside world. -/
structure Call (X Y : Type) where
  pid : Nat
  request : X
  answer : Y

/-- The call a step makes. -/
def Sys.asked (σ : Sys Q S D W E X Y C α) : Label O C Y → List (Call X Y)
  | .call p y =>
      match (σ.procs p).map Proc.prog with
      | some (.call x _) => [⟨p, x, y⟩]
      | _ => []
  | _ => []

/-- The states of all runs, with the calls made so far. -/
inductive Called (m : Machine Q S O D W E X Y C α) (allow : C → Prop)
    (guard : {R : Type} → Q R → D → Prop) (d : D) (s : S) :
    Sys Q S D W E X Y C α → List (Call X Y) → Prop
  | init : Called m allow guard d s (Sys.init d s) []
  | step {σ calls l σ'} : Called m allow guard d s σ calls → Step m allow guard σ l σ' →
      Called m allow guard d s σ' (calls ++ σ.asked l)

section

variable {m : Machine Q S O D W E X Y C α} {allow : C → Prop}
  {guard : {R : Type} → Q R → D → Prop} {d₀ : D} {s₀ : S} {σ σ' : Sys Q S D W E X Y C α}
  {calls : List (Call X Y)}

theorem Called.reachable (h : Called m allow guard d₀ s₀ σ calls) :
    Reachable m allow guard d₀ s₀ σ := by
  induction h with
  | init => exact .init
  | step _ hstep ih => exact ih.step hstep

theorem Reachable.called (h : Reachable m allow guard d₀ s₀ σ) :
    ∃ calls, Called m allow guard d₀ s₀ σ calls := by
  induction h with
  | init => exact ⟨[], .init⟩
  | step _ hstep ih =>
      obtain ⟨calls, hcalls⟩ := ih
      exact ⟨_, hcalls.step hstep⟩

end

/-- The machine whose outside world answers as `r` says. -/
abbrev Machine.told (m : Machine Q S O D W E X Y C α) (r : X → Y → Prop) :
    Machine Q S O D W E X Y C α :=
  { m with answers := r }

namespace Spec

/-- The specification with other commits. -/
abbrev committing (sp : Spec Q S D W C α) (post : C → List (List W) → D → List W → Prop) :
    Spec Q S D W C α :=
  { sp with post := post }

variable {sp : Spec Q S D W C α} {m : Machine Q S O D W E X Y C α}
  {post : Nat → C → List (List W) → D → List W → Prop} {tells : Nat → X → Y → Prop}

/-- Every program is in order with respect to what it has been told. -/
def InOrder (sp : Spec Q S D W C α) (m : Machine Q S O D W E X Y C α)
    (post : Nat → C → List (List W) → D → List W → Prop) (tells : Nat → X → Y → Prop)
    (σ : Sys Q S D W E X Y C α) : Prop :=
  ∀ p P, σ.procs p = some P →
    (sp.committing (post p)).Good (m.told (tells p)) σ.store P

variable {σ σ' : Sys Q S D W E X Y C α}

theorem InOrder.keep (h : sp.InOrder m post tells σ) {p : Nat} {P : Proc Q S D W E X Y C α}
    (hP : (sp.committing (post p)).Good (m.told (tells p)) σ.store P) :
    ∀ q P', Function.update σ.procs p (some P) q = some P' →
      (sp.committing (post q)).Good (m.told (tells q)) σ.store P' :=
  forall_update h hP

theorem InOrder.drop (h : sp.InOrder m post tells σ) {p : Nat} :
    ∀ q P', Function.update σ.procs p none q = some P' →
      (sp.committing (post q)).Good (m.told (tells q)) σ.store P' :=
  forall_remove h p

/-- The step lemma: what a program is told is what its outline expects. -/
theorem InOrder.step (law : sp.Sound m) {allow : C → Prop}
    (programs : ∀ p c, allow c → ∀ d, sp.inv d →
      (sp.committing (post p)).Outline (m.told (tells p)) c d (m.program c) [] d none)
    {l : Label O C Y} (hinv : sp.Inv m σ) (h : sp.InOrder m post tells σ)
    (hstep : Step m allow sp.guard σ l σ')
    (htold : ∀ c ∈ σ.asked l, tells c.pid c.request c.answer) :
    sp.InOrder m post tells σ' := by
  have rollback : ∀ {p : Nat} {P : Proc Q S D W E X Y C α} {prog : Prog Q E X Y α},
      (sp.committing (post p)).Good (m.told (tells p)) σ.store
        { P with prog := prog, tx := none } →
      sp.InOrder m post tells
        ((σ.close m.toEngine P.tx).set p (some { P with prog := prog, tx := none })) := by
    intro p P prog hgood q P' hq
    simp only [Sys.set_procs, Sys.close_procs] at hq
    simpa using h.keep hgood q P' hq
  cases hstep with
  | @spawn p c hp hc =>
      exact h.keep ⟨σ.store, law.refl _, by simp, programs p c hc _ hinv.store⟩
  | @start p conn o P k hp hprog htx hfree =>
      exact h.keep ((h p P hp).start hprog conn o (hinv.idle conn))
  | @stmt p o P t R q k r s ws hp hprog htx hfresh hguard hexec hfree =>
      obtain ⟨-, hok, -⟩ := (h p P hp).stmt law.law (law.refl _) hinv.store hprog htx
        (hfresh.2 p P t hp htx) hguard
      exact h.keep (hok r s ws hexec)
  | @stmtError p o P t R q k e hp hprog htx hfresh hguard hexec =>
      obtain ⟨-, -, herror⟩ := (h p P hp).stmt law.law (law.refl _) hinv.store hprog htx
        (hfresh.2 p P t hp htx) hguard
      exact rollback (herror e hexec)
  | @fail p P prog hp hfail => exact rollback ((h p P hp).fail hfail)
  | @commit p P t k hp hprog htx =>
      have hpend := (hinv.good p P hp).pending htx
      have hnext := ((h p P hp).commit hinv.store hprog htx (law.refl _)).2
      -- the other programs know the global specification of this commit
      have hpost := ((hinv.good p P hp).commit hinv.store hprog htx (law.refl _)).1
      have hev := (law.commit hinv.store hpend hpost).2
      intro q P' hq
      by_cases hqp : q = p
      · subst hqp
        obtain rfl : _ = P' := by simpa using hq
        exact hnext
      · have hq' : σ.procs q = some P' := by simpa [hqp] using hq
        refine (h q P' hq').later (fun hd₀ => law.trans hd₀ hev) fun t' ht' => ?_
        exact law.law.pending_applyAll ((h q P' hq').pending ht') hpend
          (hinv.apart q p P' P t' t hqp hq' hp ht' htx)
  | @call p P x y k hp hprog hy =>
      have hasked : tells p x y := htold ⟨p, x, y⟩ (by simp [Sys.asked, hp, hprog])
      exact h.keep ((h p P hp).call hprog hasked)
  | @reply p P a hp hprog =>
      intro q P' hq
      simpa using h.drop q P' (by simpa using hq)
  | @cancel p P hp =>
      intro q P' hq
      simpa using h.drop q P' (by simpa using hq)

/-- A property of store and history that every commit keeps, with respect to
what its program was told, holds in every run in which no more was said. -/
theorem Started.told_induction {allow : C → Prop} {d₀ : D} {s₀ : S}
    (hs : sp.Started m allow d₀ s₀)
    (programs : ∀ p c, allow c → ∀ d, sp.inv d →
      (sp.committing (post p)).Outline (m.told (tells p)) c d (m.program c) [] d none)
    {J : D → List (Commit C W) → Prop} (h0 : J d₀ [])
    (hstep : ∀ p c cs d hist ws, allow c → sp.inv d → m.Pending sp.fits ws d →
      post p c cs d ws → J d hist → J (m.applyAll ws d) (hist ++ [⟨p, c, ws⟩]))
    {calls : List (Call X Y)} (h : Called m allow sp.guard d₀ s₀ σ calls)
    (htold : ∀ c ∈ calls, tells c.pid c.request c.answer) :
    sp.InOrder m post tells σ ∧ J σ.store σ.history := by
  induction h with
  | init => exact ⟨by simp [InOrder, Sys.init], h0⟩
  | @step σ calls l σ' hcalled hl ih =>
      obtain ⟨hgood, hJ⟩ := ih fun c hc => htold c (List.mem_append_left _ hc)
      have hinv := hs.inv hcalled.reachable
      refine ⟨hgood.step hs.sound programs hinv hl
        fun c hc => htold c (List.mem_append_right _ hc), ?_⟩
      rcases hl.store_eq with ⟨-, hstore, hhist⟩ |
        ⟨p, P, t, k, rfl, hp, hprog, ht, hstore, hhist⟩
      · rwa [hstore, hhist]
      · have hpost := ((hgood p P hp).commit hinv.store hprog ht (hs.sound.refl _)).1
        rw [hstore, hhist]
        exact hstep p P.request P.commits σ.store σ.history t.writes
          (hcalled.reachable.allowed p P hp) hinv.store ((hgood p P hp).pending ht) hpost hJ

end Spec

end Transactional
