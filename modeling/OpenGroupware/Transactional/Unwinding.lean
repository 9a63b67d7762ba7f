import OpenGroupware.Transactional.Outline
import OpenGroupware.Transactional.Replay
import Mathlib.Data.Option.Basic

/-!
Non-interference between the owners of a store. A program works for one owner
if it reads and writes that owner's part only. Two runs in which such a
program takes the same steps, and in which the others commit the same writes
to that part, cannot be told apart by the owner, whatever else differs.
-/

namespace Transactional

variable {Q : Type → Type} {S O D W E X Y C α : Type}

/-! ### What an owner sees of a run -/

namespace Label

/-- The program that takes the step. -/
def pid : Label O C Y → Nat
  | .spawn p _ => p
  | .start p _ _ => p
  | .stmt p _ => p
  | .fail p => p
  | .commit p => p
  | .call p _ => p
  | .reply p => p
  | .cancel p => p

/-- The step without the name of the connection: they are interchangeable. -/
def hide : Label O C Y → Label O C Y
  | .start p _ o => .start p 0 o
  | l => l

end Label

/-- A step of the owner's program, with the bit about the rest of the store
that its statement gives away, or a commit to the owner's part. -/
inductive Seen (O C Y W : Type)
  | own (l : Label O C Y) (bit : Bool)
  | other (ws : List W)

/-- What a program that answers `a` at once answers in a step. -/
def Seen.answers (a : α) : Seen O C Y W → List α
  | .own (.reply _) _ => [a]
  | _ => []

/-- Whether the program is running after a step. -/
def Seen.runs (b : Bool) : Seen O C Y W → Bool
  | .own (.spawn _ _) _ => true
  | .own _ _ => false
  | .other _ => b

/-- The two results of a statement of the owner are the same, and all that is
written is the owner's. -/
def Matched {R : Type} (alike : S → S → Prop) (owned : W → Bool) :
    Except E (R × S × List W) → Except E (R × S × List W) → Prop
  | .ok (r, s, ws), .ok (r', s', ws') =>
      r = r' ∧ alike s s' ∧ ws = ws' ∧ ∀ w ∈ ws, owned w = true
  | .error e, .error e' => e = e'
  | _, _ => False

theorem Matched.mono {R : Type} {alike : S → S → Prop} {owned owned' : W → Bool}
    (hle : ∀ w, owned w = true → owned' w = true) {x x' : Except E (R × S × List W)}
    (h : Matched alike owned x x') : Matched alike owned' x x' := by
  match x, x', h with
  | .ok _, .ok _, ⟨hr, hs, hws, howned⟩ => exact ⟨hr, hs, hws, fun w hw => hle w (howned w hw)⟩
  | .error _, .error _, h => exact h

/-- The part of the store that is one owner's, and the requests that work for
that owner. `bit` is what a statement may give away about the rest. -/
structure Part (sp : Spec Q S D W C α) (m : Machine Q S O D W E X Y C α) where
  same : D → D → Prop
  alike : S → S → Prop
  owned : W → Bool
  bit : {R : Type} → Q R → D → Bool
  low : C → Prop
  equiv : Equivalence same
  alike_open : ∀ o s s', alike (m.openTx o s) (m.openTx o s')
  apply_owned : ∀ {w d d'}, sp.fits w d → sp.fits w d' → same d d' →
    same (m.apply w d) (m.apply w d')
  apply_other : ∀ {w d}, sp.fits w d → owned w = false → same d (m.apply w d)
  exec : ∀ {c R} {q : Q R} {s s' o d d'}, low c → sp.pre c q s d → sp.pre c q s' d' →
    m.fresh o d → m.fresh o d' → alike s s' → same d d' → bit q d = bit q d' →
    Matched alike owned (m.exec q s o d) (m.exec q s' o d')

namespace Part

variable {sp : Spec Q S D W C α} {m : Machine Q S O D W E X Y C α} (part : Part sp m)

/-- What the statement that is about to run gives away. -/
def bitOf (σ : Sys Q S D W E X Y C α) : Label O C Y → Bool
  | .stmt p _ =>
      match σ.procs p with
      | some ⟨_, _, .stmt q _, some t, _⟩ => part.bit q (m.applyAll t.writes σ.store)
      | _ => false
  | _ => false

/-- What a step commits to the part. -/
def committed (σ : Sys Q S D W E X Y C α) : Label O C Y → List W
  | .commit p => (((σ.procs p).bind Proc.tx).elim [] Tx.writes).filter part.owned
  | _ => []

/-- What the owner for whom `p` works sees of a step. -/
def seen (p : Nat) (σ : Sys Q S D W E X Y C α) (l : Label O C Y) : Option (Seen O C Y W) :=
  if l.pid = p then some (.own l.hide (part.bitOf σ l))
  else if (part.committed σ l).isEmpty then none
  else some (.other (part.committed σ l))

/-- Runs, with what the owner sees of them. -/
inductive Observed (allow : C → Prop) (p : Nat) :
    Sys Q S D W E X Y C α → List (Seen O C Y W) → Sys Q S D W E X Y C α → Prop
  | nil {σ} : Observed allow p σ [] σ
  | silent {σ l σ' es σ''} : Step m allow sp.guard σ l σ' → part.seen p σ l = none →
      Observed allow p σ' es σ'' → Observed allow p σ es σ''
  | event {σ l σ' e es σ''} : Step m allow sp.guard σ l σ' → part.seen p σ l = some e →
      Observed allow p σ' es σ'' → Observed allow p σ (e :: es) σ''

/-! ### States an owner cannot tell apart -/

structure TxAlike (t t' : Tx S W) : Prop where
  session : part.alike t.session t'.session
  writes : t.writes = t'.writes
  owned : ∀ w ∈ t.writes, part.owned w = true

structure ProcAlike (P P' : Proc Q S D W E X Y C α) : Prop where
  request : P.request = P'.request
  low : part.low P.request
  prog : P.prog = P'.prog
  tx : Option.Rel part.TxAlike P.tx P'.tx
  commits : P.commits = P'.commits

end Part

/-- What program `p` has answered. -/
def Sys.answersOf (σ : Sys Q S D W E X Y C α) (p : Nat) : List α :=
  (σ.replies.filter fun e => decide (e.pid = p)).map Reply.answer

/-- What program `p` is still going to do. -/
def Sys.ahead (σ : Sys Q S D W E X Y C α) (p : Nat) : Option (Prog Q E X Y α) :=
  (σ.procs p).map Proc.prog

/-- Program `p` has nothing to do but to answer `a`. -/
def Sys.Answering (σ : Sys Q S D W E X Y C α) (p : Nat) (a : α) : Prop :=
  ∀ P, σ.procs p = some P → P.prog = .ret a

theorem Sys.Answering.ahead {σ₁ σ₂ : Sys Q S D W E X Y C α} {p : Nat} {a : α}
    (h₁ : σ₁.Answering p a) (h₂ : σ₂.Answering p a)
    (hruns : (σ₁.procs p).isSome = (σ₂.procs p).isSome) : σ₁.ahead p = σ₂.ahead p := by
  unfold Sys.ahead
  cases hp₁ : σ₁.procs p with
  | none =>
      rw [hp₁] at hruns
      have hp₂ : σ₂.procs p = none :=
        Option.isNone_iff_eq_none.1 (Option.isSome_eq_false_iff.1 hruns.symm)
      rw [hp₂]
  | some P₁ =>
      rw [hp₁] at hruns
      obtain ⟨P₂, hp₂⟩ := Option.isSome_iff_exists.1 hruns.symm
      rw [hp₂, Option.map_some, Option.map_some, h₁ P₁ hp₁, h₂ P₂ hp₂]

@[simp] theorem Sys.answersOf_set (σ : Sys Q S D W E X Y C α) (q : Nat)
    (P : Option (Proc Q S D W E X Y C α)) (p : Nat) :
    (σ.set q P).answersOf p = σ.answersOf p := rfl

@[simp] theorem Sys.answersOf_close (σ : Sys Q S D W E X Y C α) (eng : Engine Q S O D W E)
    (t : Option (Tx S W)) (p : Nat) : (σ.close eng t).answersOf p = σ.answersOf p := by
  cases t <;> rfl

namespace Part

variable {sp : Spec Q S D W C α} {m : Machine Q S O D W E X Y C α} (part : Part sp m)
  {allow : C → Prop} {d₀ : D} {s₀ : S}

structure Indistinct (p : Nat) (σ σ' : Sys Q S D W E X Y C α) : Prop where
  store : part.same σ.store σ'.store
  proc : Option.Rel part.ProcAlike (σ.procs p) (σ'.procs p)
  answers : σ.answersOf p = σ'.answersOf p

variable {part}

/-- Writes that the owner sees the same of have the same effect on the part. -/
theorem same_applyAll (law : m.toEngine.Lawful sp.fits) {ws ws' : List W} {d d' : D}
    (hws : m.Pending sp.fits ws d) (hws' : m.Pending sp.fits ws' d')
    (heq : ws.filter part.owned = ws'.filter part.owned) (hd : part.same d d') :
    part.same (m.applyAll ws d) (m.applyAll ws' d') := by
  induction ws generalizing d ws' d' with
  | nil =>
      induction ws' generalizing d' with
      | nil => exact hd
      | cons w' ws' ih =>
          obtain ⟨hfit, hrest⟩ := law.pending_cons hws'
          by_cases hw : part.owned w' = true
          · simp [hw] at heq
          · rw [Bool.not_eq_true] at hw
            rw [List.filter_cons_of_neg (by simp [hw])] at heq
            exact ih hrest heq (part.equiv.trans hd (part.apply_other hfit hw))
  | cons w ws ih =>
      obtain ⟨hfit, hrest⟩ := law.pending_cons hws
      by_cases hw : part.owned w = true
      · rw [List.filter_cons_of_pos hw] at heq
        -- pass over what the other list has in front of `w`
        induction ws' generalizing d' with
        | nil => simp at heq
        | cons w' ws' ih' =>
            obtain ⟨hfit', hrest'⟩ := law.pending_cons hws'
            by_cases hw' : part.owned w' = true
            · rw [List.filter_cons_of_pos hw', List.cons.injEq] at heq
              obtain ⟨rfl, heq⟩ := heq
              rw [Engine.applyAll_cons, Engine.applyAll_cons]
              exact ih hrest hrest' heq (part.apply_owned hfit hfit' hd)
            · rw [Bool.not_eq_true] at hw'
              rw [List.filter_cons_of_neg (by simp [hw'])] at heq
              exact ih' hrest' heq (part.equiv.trans hd (part.apply_other hfit' hw'))
      · rw [Bool.not_eq_true] at hw
        rw [List.filter_cons_of_neg (by simp [hw])] at heq
        exact ih hrest hws' heq
          (part.equiv.trans (part.equiv.symm (part.apply_other hfit hw)) hd)

variable (part) in
/-- A step of another program touches the store only, and that by a commit. -/
theorem step_other (hs : sp.Started m allow d₀ s₀) {p : Nat} {σ σ' : Sys Q S D W E X Y C α}
    {l : Label O C Y} (hr : Reachable m allow sp.guard d₀ s₀ σ)
    (hstep : Step m allow sp.guard σ l σ') (hl : l.pid ≠ p) :
    σ'.procs p = σ.procs p ∧ σ'.answersOf p = σ.answersOf p ∧
      ∃ ws, m.Pending sp.fits ws σ.store ∧ σ'.store = m.applyAll ws σ.store ∧
        ws.filter part.owned = part.committed σ l := by
  have idle : m.Pending sp.fits [] σ.store ∧ σ.store = m.applyAll [] σ.store ∧
      [].filter part.owned = ([] : List W) := ⟨.nil _, rfl, rfl⟩
  cases hstep with
  | spawn | start | stmt | stmtError | fail | call | cancel =>
      have hne := Ne.symm hl
      simp only [Label.pid] at hne
      exact ⟨by simp [hne], by simp [Sys.answersOf], [], by simpa [committed] using idle⟩
  | reply =>
      have hne := Ne.symm hl
      simp only [Label.pid] at hne
      exact ⟨by simp [hne], by simp [Sys.answersOf, Ne.symm hne], [],
        by simpa [committed] using idle⟩
  | commit hp hprog ht =>
      have hne := Ne.symm hl
      simp only [Label.pid] at hne
      obtain ⟨-, hpend, -⟩ := hs.commit_post hr hp hprog ht
      exact ⟨by simp [hne], by simp [Sys.answersOf], _, hpend, rfl, by simp [committed, hp, ht]⟩

theorem Indistinct.ahead {p : Nat} {σ₁ σ₂ : Sys Q S D W E X Y C α}
    (h : part.Indistinct p σ₁ σ₂) : σ₁.ahead p = σ₂.ahead p := by
  have hproc := h.proc
  unfold Sys.ahead
  generalize σ₁.procs p = x₁, σ₂.procs p = x₂ at hproc
  cases hproc with
  | none => rfl
  | some halike => exact congrArg some halike.prog

theorem Indistinct.alike {p : Nat} {σ₁ σ₂ : Sys Q S D W E X Y C α}
    (h : part.Indistinct p σ₁ σ₂) {P₁ P₂ : Proc Q S D W E X Y C α} (hp₁ : σ₁.procs p = some P₁)
    (hp₂ : σ₂.procs p = some P₂) : part.ProcAlike P₁ P₂ := by
  have hproc := h.proc
  rw [hp₁, hp₂] at hproc
  cases hproc with
  | some halike => exact halike

theorem ProcAlike.tx_alike {P₁ P₂ : Proc Q S D W E X Y C α} (h : part.ProcAlike P₁ P₂)
    {t₁ t₂ : Tx S W} (ht₁ : P₁.tx = some t₁) (ht₂ : P₂.tx = some t₂) : part.TxAlike t₁ t₂ := by
  have htx := h.tx
  rw [ht₁, ht₂] at htx
  cases htx with
  | some halike => exact halike

/-- The owner cannot tell apart two states with the same part of the store in
which the program has not started. -/
theorem Indistinct.of_not_started {p : Nat} {σ₁ σ₂ : Sys Q S D W E X Y C α}
    (hr₁ : Reachable m allow sp.guard d₀ s₀ σ₁) (hr₂ : Reachable m allow sp.guard d₀ s₀ σ₂)
    (hp₁ : p ∉ σ₁.started) (hp₂ : p ∉ σ₂.started) (hstore : part.same σ₁.store σ₂.store) :
    part.Indistinct p σ₁ σ₂ := by
  have hanswers : ∀ σ : Sys Q S D W E X Y C α, (∀ e ∈ σ.replies, e.pid ≠ p) →
      σ.answersOf p = [] := by
    intro σ hσ
    rw [Sys.answersOf, List.filter_eq_nil_iff.2 (by simpa using hσ), List.map_nil]
  obtain ⟨hnone₁, -, hreply₁⟩ := hr₁.recorded.fresh p hp₁
  obtain ⟨hnone₂, -, hreply₂⟩ := hr₂.recorded.fresh p hp₂
  refine ⟨hstore, by rw [hnone₁, hnone₂]; exact .none, ?_⟩
  rw [hanswers σ₁ hreply₁, hanswers σ₂ hreply₂]

/-- The owner's program goes on in the same way in both runs. -/
theorem Indistinct.next {p : Nat} {σ₁ σ₂ σ₁' σ₂' : Sys Q S D W E X Y C α}
    (h : part.Indistinct p σ₁ σ₂) {P₁ P₂ : Proc Q S D W E X Y C α}
    (hp₁ : σ₁'.procs p = some P₁) (hp₂ : σ₂'.procs p = some P₂) (halike : part.ProcAlike P₁ P₂)
    (hstore : part.same σ₁'.store σ₂'.store) (ha₁ : σ₁'.answersOf p = σ₁.answersOf p)
    (ha₂ : σ₂'.answersOf p = σ₂.answersOf p) : part.Indistinct p σ₁' σ₂' where
  store := hstore
  proc := by
    rw [hp₁, hp₂]
    exact .some halike
  answers := by rw [ha₁, ha₂, h.answers]

theorem bitOf_stmt {p : Nat} {σ : Sys Q S D W E X Y C α} {P : Proc Q S D W E X Y C α}
    {R : Type} {q : Q R} {k : Except E R → Prog Q E X Y α} {t : Tx S W} (hp : σ.procs p = some P)
    (hprog : P.prog = .stmt q k) (ht : P.tx = some t) (o : O) :
    part.bitOf σ (.stmt p o) = part.bit q (m.applyAll t.writes σ.store) := by
  obtain ⟨c, b, prog, tx, cs⟩ := P
  simp only at hprog ht
  subst hprog ht
  simp [bitOf, hp]

/-- The statement the owner's program is about to run has the same result in
both runs. -/
theorem own_exec (hs : sp.Started m allow d₀ s₀) {p : Nat} {σ₁ σ₂ : Sys Q S D W E X Y C α}
    (hr₁ : Reachable m allow sp.guard d₀ s₀ σ₁) (hr₂ : Reachable m allow sp.guard d₀ s₀ σ₂)
    (h : part.Indistinct p σ₁ σ₂) {P₁ P₂ : Proc Q S D W E X Y C α} {R : Type} {q : Q R}
    {k : Except E R → Prog Q E X Y α} {t₁ t₂ : Tx S W} {o : O} (hp₁ : σ₁.procs p = some P₁)
    (hp₂ : σ₂.procs p = some P₂) (hprog₁ : P₁.prog = .stmt q k) (hprog₂ : P₂.prog = .stmt q k)
    (ht₁ : P₁.tx = some t₁) (ht₂ : P₂.tx = some t₂) (hfresh₁ : σ₁.Fresh m.toEngine o)
    (hfresh₂ : σ₂.Fresh m.toEngine o) (hguard₁ : sp.guard q (m.applyAll t₁.writes σ₁.store))
    (hguard₂ : sp.guard q (m.applyAll t₂.writes σ₂.store))
    (hbit : part.bitOf σ₁ (.stmt p o) = part.bitOf σ₂ (.stmt p o)) :
    Matched part.alike part.owned (m.exec q t₁.session o (m.applyAll t₁.writes σ₁.store))
      (m.exec q t₂.session o (m.applyAll t₂.writes σ₂.store)) := by
  obtain ⟨-, hpend₁, hpre₁⟩ := hs.stmt_pre hr₁ hp₁ hprog₁ ht₁ hfresh₁ hguard₁
  obtain ⟨-, hpend₂, hpre₂⟩ := hs.stmt_pre hr₂ hp₂ hprog₂ ht₂ hfresh₂ hguard₂
  have halike := h.alike hp₁ hp₂
  have htx := halike.tx_alike ht₁ ht₂
  rw [bitOf_stmt hp₁ hprog₁ ht₁, bitOf_stmt hp₂ hprog₂ ht₂] at hbit
  rw [← halike.request] at hpre₂
  refine part.exec halike.low hpre₁ hpre₂ (hfresh₁.2 p P₁ t₁ hp₁ ht₁)
    (hfresh₂.2 p P₂ t₂ hp₂ ht₂) htx.session ?_ hbit
  exact same_applyAll hs.sound.law hpend₁ hpend₂ (by rw [htx.writes]) h.store

theorem own_stmt (hs : sp.Started m allow d₀ s₀) {p : Nat}
    {σ₁ σ₂ σ₁' σ₂' : Sys Q S D W E X Y C α} {o : O}
    (hr₁ : Reachable m allow sp.guard d₀ s₀ σ₁) (hr₂ : Reachable m allow sp.guard d₀ s₀ σ₂)
    (hstep₁ : Step m allow sp.guard σ₁ (.stmt p o) σ₁')
    (hstep₂ : Step m allow sp.guard σ₂ (.stmt p o) σ₂')
    (hbit : part.bitOf σ₁ (.stmt p o) = part.bitOf σ₂ (.stmt p o)) (h : part.Indistinct p σ₁ σ₂) :
    part.Indistinct p σ₁' σ₂' := by
  obtain ⟨P₁, t₁, R₁, q₁, k₁, hp₁, hprog₁, htx₁, hfresh₁, hguard₁, rfl⟩ := hstep₁.stmt_cases
  obtain ⟨P₂, t₂, R₂, q₂, k₂, hp₂, hprog₂, htx₂, hfresh₂, hguard₂, rfl⟩ := hstep₂.stmt_cases
  have halike := h.alike hp₁ hp₂
  have hprog := halike.prog
  rw [hprog₁, hprog₂] at hprog
  cases hprog
  have htx := halike.tx_alike htx₁ htx₂
  have hmatch := own_exec hs hr₁ hr₂ h hp₁ hp₂ hprog₁ hprog₂ htx₁ htx₂ hfresh₁ hfresh₂ hguard₁
    hguard₂ hbit
  generalize m.exec q₁ t₁.session o (m.applyAll t₁.writes σ₁.store) = x₁ at hmatch ⊢
  generalize m.exec q₁ t₂.session o (m.applyAll t₂.writes σ₂.store) = x₂ at hmatch ⊢
  match x₁, x₂, hmatch with
  | .ok (r, s, ws), .ok (_, s', _), ⟨rfl, hsess, rfl, howned⟩ =>
      refine h.next (Function.update_self ..) (Function.update_self ..)
        ⟨halike.request, halike.low, rfl, .some ⟨hsess, ?_, ?_⟩, halike.commits⟩ h.store rfl rfl
      · rw [htx.writes]
      · intro w hw
        rcases List.mem_append.1 hw with hw | hw
        · exact htx.owned w hw
        · exact howned w hw
  | .error e, .error _, rfl =>
      exact h.next (Function.update_self ..) (Function.update_self ..)
        ⟨halike.request, halike.low, rfl, .none, halike.commits⟩
        (by simpa [Sys.executed] using h.store) (by simp [Sys.executed]) (by simp [Sys.executed])

/-- What the owner's program makes of a step, it makes of it in both runs. -/
theorem own_step (hs : sp.Started m allow d₀ s₀) {p : Nat}
    {σ₁ σ₂ σ₁' σ₂' : Sys Q S D W E X Y C α} {l₁ l₂ : Label O C Y}
    (hr₁ : Reachable m allow sp.guard d₀ s₀ σ₁) (hr₂ : Reachable m allow sp.guard d₀ s₀ σ₂)
    (hstep₁ : Step m allow sp.guard σ₁ l₁ σ₁') (hstep₂ : Step m allow sp.guard σ₂ l₂ σ₂')
    (hl : l₁.pid = p) (hlabel : l₁.hide = l₂.hide) (hbit : part.bitOf σ₁ l₁ = part.bitOf σ₂ l₂)
    (hlow : ∀ c, l₁ = .spawn p c → part.low c) (h : part.Indistinct p σ₁ σ₂) :
    part.Indistinct p σ₁' σ₂' := by
  have hfirst := hstep₁
  cases hstep₁ with
  | @spawn p' c hp hc =>
      obtain rfl : p' = p := hl
      cases hstep₂ <;> simp only [Label.hide, reduceCtorEq, Label.spawn.injEq] at hlabel
      obtain ⟨rfl, rfl⟩ := hlabel
      exact h.next (Function.update_self ..) (Function.update_self ..)
        ⟨rfl, hlow c rfl, rfl, .none, rfl⟩ h.store rfl rfl
  | @start p' conn o P₁ k₁ hp₁ hprog₁ htx₁ hfree₁ =>
      obtain rfl : p' = p := hl
      cases hstep₂ <;> simp only [Label.hide, reduceCtorEq, Label.start.injEq] at hlabel
      rename_i conn' P₂ k₂ hp₂ hprog₂ htx₂ hfree₂
      obtain ⟨rfl, -, rfl⟩ := hlabel
      have halike := h.alike hp₁ hp₂
      have hprog := halike.prog
      rw [hprog₁, hprog₂, Prog.start.injEq] at hprog
      subst hprog
      exact h.next (Function.update_self ..) (Function.update_self ..)
        ⟨halike.request, halike.low, rfl, .some ⟨part.alike_open _ _ _, rfl, by simp⟩,
          halike.commits⟩ h.store rfl rfl
  | @stmt p' o | @stmtError p' o =>
      obtain rfl : p' = p := hl
      cases l₂ <;> simp only [Label.hide, reduceCtorEq, Label.stmt.injEq] at hlabel
      obtain ⟨rfl, rfl⟩ := hlabel
      exact own_stmt hs hr₁ hr₂ hfirst hstep₂ hbit h
  | @fail p' P₁ prog₁ hp₁ hfail₁ =>
      obtain rfl : p' = p := hl
      cases hstep₂ <;> simp only [Label.hide, reduceCtorEq, Label.fail.injEq] at hlabel
      rename_i P₂ prog₂ hp₂ hfail₂
      subst hlabel
      have halike := h.alike hp₁ hp₂
      rw [halike.prog, hfail₂, Option.some.injEq] at hfail₁
      exact h.next (Function.update_self ..) (Function.update_self ..)
        ⟨halike.request, halike.low, hfail₁.symm, .none, halike.commits⟩ (by simpa using h.store)
        (by simp) (by simp)
  | @commit p' P₁ t₁ k₁ hp₁ hprog₁ htx₁ =>
      obtain rfl : p' = p := hl
      cases hstep₂ <;> simp only [Label.hide, reduceCtorEq, Label.commit.injEq] at hlabel
      rename_i P₂ t₂ k₂ hp₂ hprog₂ htx₂
      subst hlabel
      have halike := h.alike hp₁ hp₂
      have hprog := halike.prog
      rw [hprog₁, hprog₂, Prog.commit.injEq] at hprog
      subst hprog
      have htx := halike.tx_alike htx₁ htx₂
      obtain ⟨-, hpend₁, -⟩ := hs.commit_post hr₁ hp₁ hprog₁ htx₁
      obtain ⟨-, hpend₂, -⟩ := hs.commit_post hr₂ hp₂ hprog₂ htx₂
      exact h.next (Function.update_self ..) (Function.update_self ..)
        ⟨halike.request, halike.low, rfl, .none, by rw [halike.commits, htx.writes]⟩
        (same_applyAll hs.sound.law hpend₁ hpend₂ (by rw [htx.writes]) h.store)
        (by simp [Sys.answersOf]) (by simp [Sys.answersOf])
  | @call p' P₁ x₁ y k₁ hp₁ hprog₁ hy₁ =>
      obtain rfl : p' = p := hl
      cases hstep₂ <;> simp only [Label.hide, reduceCtorEq, Label.call.injEq] at hlabel
      rename_i P₂ x₂ k₂ hp₂ hprog₂ hy₂
      obtain ⟨rfl, rfl⟩ := hlabel
      have halike := h.alike hp₁ hp₂
      have hprog := halike.prog
      rw [hprog₁, hprog₂, Prog.call.injEq] at hprog
      obtain ⟨-, rfl⟩ := hprog
      exact h.next (Function.update_self ..) (Function.update_self ..)
        ⟨halike.request, halike.low, rfl, halike.tx, halike.commits⟩ h.store rfl rfl
  | @reply p' P₁ a₁ hp₁ hprog₁ =>
      obtain rfl : p' = p := hl
      cases hstep₂ <;> simp only [Label.hide, reduceCtorEq, Label.reply.injEq] at hlabel
      rename_i P₂ a₂ hp₂ hprog₂
      subst hlabel
      have hprog := (h.alike hp₁ hp₂).prog
      rw [hprog₁, hprog₂, Prog.ret.injEq] at hprog
      subst hprog
      have hanswers := h.answers
      unfold Sys.answersOf at hanswers
      exact ⟨by simpa using h.store, by simp, by simp [Sys.answersOf, hanswers]⟩
  | @cancel p' P₁ hp₁ =>
      obtain rfl : p' = p := hl
      cases hstep₂ <;> simp only [Label.hide, reduceCtorEq, Label.cancel.injEq] at hlabel
      subst hlabel
      exact ⟨by simpa using h.store, by simp, by simpa using h.answers⟩

/-! ### Runs -/

/-- A step the owner sees nothing of leads to a state the owner cannot tell
from the one before. -/
theorem silent_step (hs : sp.Started m allow d₀ s₀) {p : Nat} {σ σ' τ : Sys Q S D W E X Y C α}
    {l : Label O C Y} (hr : Reachable m allow sp.guard d₀ s₀ σ)
    (hstep : Step m allow sp.guard σ l σ') (hseen : part.seen p σ l = none) :
    (part.Indistinct p σ τ → part.Indistinct p σ' τ) ∧
      (part.Indistinct p τ σ → part.Indistinct p τ σ') := by
  unfold seen at hseen
  split at hseen
  · cases hseen
  · rename_i hl
    split at hseen
    · rename_i hempty
      obtain ⟨hproc, hans, ws, hpend, hstore, howned⟩ := step_other part hs hr hstep hl
      have hsame : part.same σ.store σ'.store := by
        rw [hstore, ← m.applyAll_nil σ.store]
        refine same_applyAll hs.sound.law (.nil _) hpend ?_ (part.equiv.refl _)
        rw [howned, List.isEmpty_iff.1 hempty, List.filter_nil]
      constructor
      · rintro ⟨hst, hpr, ha⟩
        exact ⟨part.equiv.trans (part.equiv.symm hsame) hst, hproc ▸ hpr, hans.trans ha⟩
      · rintro ⟨hst, hpr, ha⟩
        exact ⟨part.equiv.trans hst hsame, hproc ▸ hpr, ha.trans hans.symm⟩
    · cases hseen

/-- Steps the owner sees the same of lead to states the owner cannot tell
apart. -/
theorem seen_step (hs : sp.Started m allow d₀ s₀) {p : Nat}
    {σ₁ σ₂ σ₁' σ₂' : Sys Q S D W E X Y C α} {l₁ l₂ : Label O C Y} {e : Seen O C Y W}
    (hr₁ : Reachable m allow sp.guard d₀ s₀ σ₁) (hr₂ : Reachable m allow sp.guard d₀ s₀ σ₂)
    (hstep₁ : Step m allow sp.guard σ₁ l₁ σ₁') (hstep₂ : Step m allow sp.guard σ₂ l₂ σ₂')
    (hseen₁ : part.seen p σ₁ l₁ = some e) (hseen₂ : part.seen p σ₂ l₂ = some e)
    (hlow : ∀ c b, e = .own (.spawn p c) b → part.low c) (h : part.Indistinct p σ₁ σ₂) :
    part.Indistinct p σ₁' σ₂' := by
  unfold seen at hseen₁ hseen₂
  by_cases hl₁ : l₁.pid = p
  · rw [if_pos hl₁, Option.some.injEq] at hseen₁
    by_cases hl₂ : l₂.pid = p
    · rw [if_pos hl₂, ← hseen₁, Option.some.injEq, Seen.own.injEq] at hseen₂
      refine own_step hs hr₁ hr₂ hstep₁ hstep₂ hl₁ hseen₂.1.symm hseen₂.2.symm (fun c hc => ?_) h
      subst hc
      exact hlow c _ hseen₁.symm
    · rw [if_neg hl₂, ← hseen₁] at hseen₂
      split at hseen₂ <;> simp at hseen₂
  · rw [if_neg hl₁] at hseen₁
    split at hseen₁
    · cases hseen₁
    · rw [Option.some.injEq] at hseen₁
      by_cases hl₂ : l₂.pid = p
      · rw [if_pos hl₂, ← hseen₁] at hseen₂
        simp at hseen₂
      · rw [if_neg hl₂, ← hseen₁] at hseen₂
        split at hseen₂
        · cases hseen₂
        · rw [Option.some.injEq, Seen.other.injEq] at hseen₂
          obtain ⟨hproc₁, hans₁, ws₁, hpend₁, hstore₁, howned₁⟩ :=
            step_other part hs hr₁ hstep₁ hl₁
          obtain ⟨hproc₂, hans₂, ws₂, hpend₂, hstore₂, howned₂⟩ :=
            step_other part hs hr₂ hstep₂ hl₂
          refine ⟨?_, by rw [hproc₁, hproc₂]; exact h.proc, by rw [hans₁, hans₂, h.answers]⟩
          rw [hstore₁, hstore₂]
          exact same_applyAll hs.sound.law hpend₁ hpend₂
            (howned₁.trans (hseen₂.symm.trans howned₂.symm)) h.store

/-- The next thing the owner sees, and the run from there. -/
theorem Observed.next (hs : sp.Started m allow d₀ s₀) {p : Nat}
    {σ σ' τ : Sys Q S D W E X Y C α} {e : Seen O C Y W} {es : List (Seen O C Y W)}
    (hr : Reachable m allow sp.guard d₀ s₀ σ) (h : part.Observed allow p σ (e :: es) σ') :
    ∃ σa l σb, Reachable m allow sp.guard d₀ s₀ σa ∧
      (part.Indistinct p σ τ → part.Indistinct p σa τ) ∧
      (part.Indistinct p τ σ → part.Indistinct p τ σa) ∧
      Step m allow sp.guard σa l σb ∧ part.seen p σa l = some e ∧
      part.Observed allow p σb es σ' := by
  generalize hes : e :: es = es' at h
  induction h with
  | nil => cases hes
  | @silent σ l σ₁ es' σ' hstep hseen hrest ih =>
      obtain ⟨σa, l', σb, hra, hfst, hsnd, hrest⟩ := ih (hr.step hstep) hes
      obtain ⟨hfst', hsnd'⟩ := silent_step (τ := τ) hs hr hstep hseen
      exact ⟨σa, l', σb, hra, fun h => hfst (hfst' h), fun h => hsnd (hsnd' h), hrest⟩
  | @event σ l σ₁ e' es' σ' hstep hseen hrest =>
      obtain ⟨rfl, rfl⟩ := List.cons.inj hes
      exact ⟨σ, l, σ₁, hr, id, id, hstep, hseen, hrest⟩

theorem Observed.quiet (hs : sp.Started m allow d₀ s₀) {p : Nat}
    {σ σ' τ : Sys Q S D W E X Y C α} (hr : Reachable m allow sp.guard d₀ s₀ σ)
    (h : part.Observed allow p σ [] σ') :
    (part.Indistinct p σ τ → part.Indistinct p σ' τ) ∧
      (part.Indistinct p τ σ → part.Indistinct p τ σ') := by
  generalize hes : ([] : List (Seen O C Y W)) = es at h
  induction h with
  | nil => exact ⟨id, id⟩
  | @silent σ l σ₁ es' σ' hstep hseen hrest ih =>
      obtain ⟨hfst, hsnd⟩ := ih (hr.step hstep) hes
      obtain ⟨hfst', hsnd'⟩ := silent_step (τ := τ) hs hr hstep hseen
      exact ⟨fun h => hfst (hfst' h), fun h => hsnd (hsnd' h)⟩
  | event => cases hes

/-- Non-interference: two runs that look the same to the owner, from states
the owner cannot tell apart, lead to such states. -/
theorem noninterference (hs : sp.Started m allow d₀ s₀) {p : Nat} {es : List (Seen O C Y W)}
    {σ₁ σ₂ σ₁' σ₂' : Sys Q S D W E X Y C α} (hr₁ : Reachable m allow sp.guard d₀ s₀ σ₁)
    (hr₂ : Reachable m allow sp.guard d₀ s₀ σ₂)
    (hlow : ∀ c b, .own (.spawn p c) b ∈ es → part.low c) (h : part.Indistinct p σ₁ σ₂)
    (h₁ : part.Observed allow p σ₁ es σ₁') (h₂ : part.Observed allow p σ₂ es σ₂') :
    part.Indistinct p σ₁' σ₂' := by
  induction es generalizing σ₁ σ₂ with
  | nil => exact (h₂.quiet hs hr₂).2 ((h₁.quiet hs hr₁).1 h)
  | cons e es ih =>
      obtain ⟨σa₁, l₁, σb₁, hra₁, hfst, -, hstep₁, hseen₁, hrest₁⟩ := h₁.next (τ := σ₂) hs hr₁
      obtain ⟨σa₂, l₂, σb₂, hra₂, -, hsnd, hstep₂, hseen₂, hrest₂⟩ := h₂.next (τ := σa₁) hs hr₂
      refine ih (hra₁.step hstep₁) (hra₂.step hstep₂)
        (fun c b hc => hlow c b (List.mem_cons_of_mem _ hc)) ?_ hrest₁ hrest₂
      refine seen_step hs hra₁ hra₂ hstep₁ hstep₂ hseen₁ hseen₂ (fun c b hc => ?_)
        (hsnd (hfst h))
      exact hlow c b (hc ▸ List.mem_cons_self)

/-! ### Programs that answer at once -/

/-- A step of a program that answers `a` at once. -/
theorem own_step_of_ret {a : α} {p : Nat} {σ σ' : Sys Q S D W E X Y C α} {l : Label O C Y}
    (hstep : Step m allow sp.guard σ l σ') (hl : l.pid = p)
    (hspawn : ∀ c, l.hide = .spawn p c → m.program c = .ret a)
    (hret : σ.Answering p a) (b b' : Bool) :
    σ'.Answering p a ∧
      (σ'.procs p).isSome = (Seen.own l.hide b : Seen O C Y W).runs b' ∧
      σ'.answersOf p = σ.answersOf p ++ (Seen.own l.hide b : Seen O C Y W).answers a := by
  cases hstep with
  | @spawn p' c hp hc =>
      obtain rfl : p' = p := hl
      refine ⟨fun P hP => ?_, by simp [Label.hide, Seen.runs], (List.append_nil _).symm⟩
      simp only [Sys.set_procs, Function.update_self, Option.some.injEq] at hP
      subst hP
      exact hspawn c rfl
  | @start p' conn o P k hp hprog | @stmt p' o P t R q k r s ws hp hprog
  | @stmtError p' o P t R q k e hp hprog | @commit p' P t k hp hprog
  | @call p' P x y k hp hprog =>
      obtain rfl : p' = p := hl
      have hprog' := hret P hp
      rw [hprog] at hprog'
      cases hprog'
  | @fail p' P prog hp hfail =>
      obtain rfl : p' = p := hl
      rw [hret P hp] at hfail
      cases hfail
  | @reply p' P a' hp hprog =>
      obtain rfl : p' = p := hl
      have ha := hret P hp
      rw [hprog, Prog.ret.injEq] at ha
      subst ha
      refine ⟨by simp [Sys.Answering], by simp [Label.hide, Seen.runs], ?_⟩
      simp [Sys.answersOf, Label.hide, Seen.answers]
  | @cancel p' P hp =>
      obtain rfl : p' = p := hl
      refine ⟨by simp [Sys.Answering], by simp [Label.hide, Seen.runs], ?_⟩
      simp [Label.hide, Seen.answers]

/-- What a program that answers at once does in a run is told by what its owner
sees of the run. -/
theorem Observed.of_ret (hs : sp.Started m allow d₀ s₀) {a : α} {p : Nat}
    {σ σ' : Sys Q S D W E X Y C α} {es : List (Seen O C Y W)}
    (hr : Reachable m allow sp.guard d₀ s₀ σ) (h : part.Observed allow p σ es σ')
    (hspawn : ∀ c b, .own (.spawn p c) b ∈ es → m.program c = .ret a)
    (hret : σ.Answering p a) :
    σ'.Answering p a ∧ (σ'.procs p).isSome = es.foldl Seen.runs (σ.procs p).isSome ∧
      σ'.answersOf p = σ.answersOf p ++ es.flatMap (Seen.answers a) := by
  induction h with
  | nil => exact ⟨hret, rfl, (List.append_nil _).symm⟩
  | @silent σ l σ₁ es σ' hstep hseen hrest ih =>
      have hl : l.pid ≠ p := by
        intro hl
        rw [seen, if_pos hl] at hseen
        cases hseen
      obtain ⟨hproc, hanswers, -⟩ := step_other part hs hr hstep hl
      have hret' : σ₁.Answering p a := fun P hP => hret P (hproc ▸ hP)
      rw [← hanswers, ← hproc]
      exact ih (hr.step hstep) hspawn hret'
  | @event σ l σ₁ e es σ' hstep hseen hrest ih =>
      have hspawn' : ∀ c b, .own (.spawn p c) b ∈ es → m.program c = .ret a :=
        fun c b hc => hspawn c b (List.mem_cons_of_mem _ hc)
      rw [List.flatMap_cons, ← List.append_assoc, List.foldl_cons]
      by_cases hl : l.pid = p
      · rw [seen, if_pos hl, Option.some.injEq] at hseen
        subst hseen
        obtain ⟨hret', hruns, hanswers⟩ := own_step_of_ret hstep hl
          (fun c hc => hspawn c (part.bitOf σ l) (by rw [← hc]; exact List.mem_cons_self)) hret
          (part.bitOf σ l) (σ.procs p).isSome
        rw [← hanswers, ← hruns]
        exact ih (hr.step hstep) hspawn' hret'
      · obtain ⟨hproc, hanswers, -⟩ := step_other part hs hr hstep hl
        have hret' : σ₁.Answering p a := fun P hP => hret P (hproc ▸ hP)
        have he : e.answers a = [] ∧ e.runs (σ.procs p).isSome = (σ.procs p).isSome := by
          rw [seen, if_neg hl] at hseen
          split at hseen
          · cases hseen
          · obtain rfl := Option.some.inj hseen
            exact ⟨rfl, rfl⟩
        rw [he.1, he.2, List.append_nil, ← hanswers, ← hproc]
        exact ih (hr.step hstep) hspawn' hret'

/-! ### Runs of one program -/

section

variable [∀ w w', Decidable (m.clash w w')] [∀ o d, Decidable (m.fresh o d)]
  [∀ x y, Decidable (m.answers x y)] [DecidablePred allow]
  [∀ {R : Type} (q : Q R) d, Decidable (sp.guard q d)]

variable (part allow) in
/-- What the statements of a run give away, in order. -/
def bits : Sys Q S D W E X Y C α → List (Label O C Y) → List Bool
  | _, [] => []
  | σ, l :: ls => part.bitOf σ l ::
      ((next m allow sp.guard σ l).elim [] fun σ' => bits σ' ls)

theorem spawn_of_mem_zipWith {p : Nat} {c : C} {b : Bool} {ls : List (Label O C Y)}
    {bs : List Bool} (h : (.own (.spawn p c) b : Seen O C Y W) ∈
      List.zipWith (fun l b => .own l.hide b) ls bs) : .spawn p c ∈ ls := by
  induction ls generalizing bs with
  | nil => cases h
  | cons l ls ih =>
      cases bs with
      | nil => cases h
      | cons b' bs =>
          rcases List.mem_cons.1 h with h | h
          · cases l <;> cases h
            exact List.mem_cons_self
          · exact List.mem_cons_of_mem _ (ih h)

/-- A run of `p` alone, seen by its owner. -/
theorem observed_of_replay (part : Part sp m) {p : Nat} {σ σ' : Sys Q S D W E X Y C α}
    {ls : List (Label O C Y)}
    (hr : Reachable m allow sp.guard d₀ s₀ σ) (hls : ∀ l ∈ ls, l.pid = p)
    (h : replay m allow sp.guard σ ls = some σ') :
    part.Observed allow p σ
      (List.zipWith (fun l b => .own l.hide b) ls (part.bits allow σ ls)) σ' := by
  induction ls generalizing σ with
  | nil =>
      obtain rfl := Option.some.inj h
      exact .nil
  | cons l ls ih =>
      obtain ⟨σ₁, hnext, hrest⟩ := Option.bind_eq_some_iff.1 h
      have hstep := step_of_next hr.recorded hnext
      have hseen : part.seen p σ l = some (.own l.hide (part.bitOf σ l)) :=
        if_pos (hls l List.mem_cons_self)
      rw [bits, hnext]
      exact .event hstep hseen
        (ih (hr.step hstep) (fun l' hl' => hls l' (List.mem_cons_of_mem _ hl')) hrest)

end

end Part

end Transactional
