import OpenGroupware.Transactional.System
import Mathlib.Data.Multiset.MapFold
import Mathlib.Logic.Hydra

/-!
Progress. A statement may have to wait for a lock that another transaction
holds, a program for a free connection of a bounded pool. If every program
opens one transaction at a time, calls the outside world between transactions
only, and runs at most one statement per transaction that others may have to
wait for, then what is waited for can always go on: nothing is ever stuck, and
since programs are finite, every request that is not dropped is answered.
-/

namespace Transactional

variable {Q : Type → Type} {S O D W E X Y C α β : Type}

/-! ### Orderly programs -/

section Orderly

variable (lone : {R : Type} → Q R → Bool)

/-- The program takes one connection at a time, has none while it calls the
outside world, and runs at most one lone statement in a transaction. The
second argument is the open transaction: whether its lone statement has run. -/
def Prog.Orderly (φ : Option Bool → α → Prop) : Option Bool → Prog Q E X Y α → Prop
  | tx, .ret a => φ tx a
  | tx, .start k =>
      tx = none ∧ (∀ e, (k (.error e)).Orderly φ none) ∧ (k (.ok ())).Orderly φ (some false)
  | tx, .stmt q k =>
      (∀ e, (k (.error e)).Orderly φ none) ∧
        ∃ ran, tx = some ran ∧ (ran = true → lone q = false) ∧
          ∀ r, (k (.ok r)).Orderly φ (some (ran || lone q))
  | tx, .commit k => tx ≠ none ∧ ∀ r, (k r).Orderly φ none
  | tx, .call _ k => tx = none ∧ ∀ y, (k y).Orderly φ none

variable {lone}

theorem Prog.Orderly.bind {φ : Option Bool → α → Prop} {ψ : Option Bool → β → Prop}
    {prog : Prog Q E X Y α} {f : α → Prog Q E X Y β} {tx : Option Bool}
    (h : prog.Orderly lone φ tx) (hf : ∀ tx a, φ tx a → (f a).Orderly lone ψ tx) :
    (prog >>= f).Orderly lone ψ tx := by
  induction prog generalizing tx with
  | ret a => exact hf tx a h
  | start k ih =>
      obtain ⟨htx, herr, hok⟩ := h
      exact ⟨htx, fun e => ih _ (herr e), ih _ hok⟩
  | stmt q k ih =>
      obtain ⟨herr, ran, htx, hlone, hok⟩ := h
      exact ⟨fun e => ih _ (herr e), ran, htx, hlone, fun r => ih _ (hok r)⟩
  | commit k ih =>
      obtain ⟨htx, hk⟩ := h
      exact ⟨htx, fun r => ih _ (hk r)⟩
  | call x k ih =>
      obtain ⟨htx, hk⟩ := h
      exact ⟨htx, fun y => ih _ (hk y)⟩

theorem Prog.Orderly.mono {φ ψ : Option Bool → α → Prop} {prog : Prog Q E X Y α}
    {tx : Option Bool} (h : prog.Orderly lone φ tx) (hφψ : ∀ tx a, φ tx a → ψ tx a) :
    prog.Orderly lone ψ tx := by
  induction prog generalizing tx with
  | ret a => exact hφψ tx a h
  | start k ih =>
      obtain ⟨htx, herr, hok⟩ := h
      exact ⟨htx, fun e => ih _ (herr e), ih _ hok⟩
  | stmt q k ih =>
      obtain ⟨herr, ran, htx, hlone, hok⟩ := h
      exact ⟨fun e => ih _ (herr e), ran, htx, hlone, fun r => ih _ (hok r)⟩
  | commit k ih =>
      obtain ⟨htx, hk⟩ := h
      exact ⟨htx, fun r => ih _ (hk r)⟩
  | call x k ih =>
      obtain ⟨htx, hk⟩ := h
      exact ⟨htx, fun y => ih _ (hk y)⟩

theorem Prog.Orderly.failed {φ : Option Bool → α → Prop} {prog prog' : Prog Q E X Y α}
    {tx : Option Bool} {e : E} (h : prog.Orderly lone φ tx) (hfail : prog.failed e = some prog') :
    prog'.Orderly lone φ none := by
  cases prog with
  | start k =>
      obtain rfl := Option.some.inj hfail
      exact h.2.1 e
  | stmt q k =>
      obtain rfl := Option.some.inj hfail
      exact h.1 e
  | commit k =>
      obtain rfl := Option.some.inj hfail
      exact h.2 _
  | ret a | call x k => cases hfail

end Orderly

/-- What keeps waiting short: statements that are not lone never wait, and a
lone one waits only for writes of another lone one. -/
structure Engine.Courteous (eng : Engine Q S O D W E) (lone : {R : Type} → Q R → Bool)
    (held : W → Prop) : Prop where
  light_held : ∀ {R} {q : Q R} {s s' : S} {o d r ws}, lone q = false →
    eng.exec q s o d = .ok (r, s', ws) → ∀ w ∈ ws, ¬held w
  light_free : ∀ {R} {q : Q R} {s s' : S} {o d r ws ws' d'}, lone q = false →
    eng.exec q s o d = .ok (r, s', ws) → eng.fresh o (eng.applyAll ws' d') →
    ∀ w ∈ ws, ∀ w' ∈ ws', ¬eng.clash w w'
  lone_waits : ∀ {R} {q : Q R} {s s' : S} {o d r ws}, lone q = true →
    eng.exec q s o d = .ok (r, s', ws) → ∀ w ∈ ws, ∀ w', eng.clash w w' → held w'

section Runs

variable (m : Machine Q S O D W E X Y C α) (allow : C → Prop)
  (guard : {R : Type} → Q R → D → Prop)

/-- A running program is in order: no lone statement has run in its open
transaction, or none is left to run. -/
def Proc.Orderly (lone : {R : Type} → Q R → Bool) (held : W → Prop)
    (P : Proc Q S D W E X Y C α) : Prop :=
  ∃ ran : Bool, P.prog.Orderly lone (fun _ _ => True) (P.tx.map fun _ => ran) ∧
    ∀ t, P.tx = some t → ran = false → ∀ w ∈ t.writes, ¬held w

/-- A step that takes a request forward over a pool of `n` connections. -/
def Label.Forward (n : Nat) : Label O C Y → Prop
  | .spawn _ _ => False
  | .start _ conn _ => conn < n
  | .stmt _ _ => True
  | .fail _ => False
  | .commit _ => True
  | .call _ _ => True
  | .reply _ => True
  | .cancel _ => False

variable {m allow guard} {lone : {R : Type} → Q R → Bool} {held : W → Prop}
  {σ σ' : Sys Q S D W E X Y C α} {l : Label O C Y}

/-! ### Order is kept -/

theorem Proc.Orderly.of_none {P : Proc Q S D W E X Y C α} (htx : P.tx = none)
    (h : P.prog.Orderly lone (fun _ _ => True) none) : P.Orderly lone held := by
  refine ⟨false, ?_, fun t ht => ?_⟩
  · rwa [htx]
  · rw [htx] at ht
    cases ht

/-- The step lemma. -/
theorem Step.orderly (hcourt : m.toEngine.Courteous lone held)
    (programs : ∀ c, (m.program c).Orderly lone (fun _ _ => True) none)
    (h : Step m allow guard σ l σ')
    (hall : ∀ p P, σ.procs p = some P → P.Orderly lone held) :
    ∀ p P, σ'.procs p = some P → P.Orderly lone held := by
  have keep : ∀ p (P : Proc Q S D W E X Y C α), P.Orderly lone held →
      ∀ q P', Function.update σ.procs p (some P) q = some P' → P'.Orderly lone held :=
    fun p P hP => forall_update hall hP
  cases h with
  | @spawn p c => exact keep p _ ⟨false, programs c, nofun⟩
  | @start p conn o P k hp hprog =>
      obtain ⟨ran, hord, -⟩ := hall p P hp
      rw [hprog] at hord
      refine keep p _ ⟨false, hord.2.2, ?_⟩
      rintro t ⟨⟩ - w hw
      exact absurd hw List.not_mem_nil
  | @stmt p o P t R q k r s ws hp hprog ht hfresh hguard hexec =>
      obtain ⟨ran, hord, hheld⟩ := hall p P hp
      rw [hprog, ht] at hord
      obtain ⟨-, ran', hran, -, hok⟩ := hord
      obtain rfl : ran = ran' := Option.some.inj hran
      refine keep p _ ⟨ran || lone q, hok r, ?_⟩
      rintro t' ⟨⟩ hnone w hw
      rw [Bool.or_eq_false_iff] at hnone
      rcases List.mem_append.1 hw with hw | hw
      · exact hheld t ht hnone.1 w hw
      · exact hcourt.light_held hnone.2 hexec w hw
  | @stmtError p o P t R q k e hp hprog =>
      obtain ⟨ran, hord, -⟩ := hall p P hp
      rw [hprog] at hord
      simpa using keep p { P with prog := k (.error e), tx := none } (.of_none rfl (hord.1 e))
  | @fail p P prog hp hfail =>
      obtain ⟨ran, hord, -⟩ := hall p P hp
      simpa using keep p { P with prog := prog, tx := none } (.of_none rfl (hord.failed hfail))
  | @commit p P t k hp hprog =>
      obtain ⟨ran, hord, -⟩ := hall p P hp
      rw [hprog] at hord
      simpa using keep p { P with
        prog := k (.ok ()), tx := none, commits := P.commits ++ [t.writes] }
        (.of_none rfl (hord.2 _))
  | @call p P x y k hp hprog =>
      obtain ⟨ran, hord, hheld⟩ := hall p P hp
      rw [hprog] at hord
      refine keep p _ ⟨ran, ?_, hheld⟩
      rw [hord.1]
      exact hord.2 y
  | reply | cancel => simpa using forall_remove hall _

theorem Reachable.orderly (hcourt : m.toEngine.Courteous lone held)
    (programs : ∀ c, (m.program c).Orderly lone (fun _ _ => True) none) {d : D} {s : S}
    (h : Reachable m allow guard d s σ) : ∀ p P, σ.procs p = some P → P.Orderly lone held := by
  induction h with
  | init => simp [Sys.init]
  | step _ hstep ih => exact hstep.orderly hcourt programs ih

/-- No program has a connection while it calls the outside world. -/
theorem Proc.Orderly.tx_of_call {P : Proc Q S D W E X Y C α} (h : P.Orderly lone held) {x : X}
    {k : Y → Prog Q E X Y α} (hprog : P.prog = .call x k) : P.tx = none := by
  obtain ⟨ran, hord, -⟩ := h
  rw [hprog] at hord
  simpa using hord.1

/-- No program commits a transaction that has failed: it goes on without it. -/
theorem Proc.Orderly.tx_of_commit {P : Proc Q S D W E X Y C α} (h : P.Orderly lone held)
    {k : Except E Unit → Prog Q E X Y α} (hprog : P.prog = .commit k) : ∃ t, P.tx = some t := by
  obtain ⟨ran, hord, -⟩ := h
  rw [hprog] at hord
  refine Option.ne_none_iff_exists'.1 fun htx => hord.1 ?_
  rw [htx]
  rfl

/-! ### Nothing is stuck -/

section Stuck

variable {n p : Nat} {P : Proc Q S D W E X Y C α} {t : Tx S W} {o : O}

/-- A transaction whose next statement has to wait for no one goes on. -/
theorem Sys.forward_of_tx (hguard : ∀ {R} (q : Q R) d, guard q d)
    (horder : P.Orderly lone held) (hfresh : σ.Fresh m.toEngine o) (hp : σ.procs p = some P)
    (ht : P.tx = some t)
    (hfree : ∀ {R} {q : Q R} {k r s ws}, P.prog = .stmt q k →
      m.exec q t.session o (m.applyAll t.writes σ.store) = .ok (r, s, ws) →
      σ.Unblocked m.toEngine p ws) :
    ∃ l σ', Step m allow guard σ l σ' ∧ l.Forward n := by
  obtain ⟨ran, hord, -⟩ := horder
  cases hprog : P.prog with
  | ret a => exact ⟨_, _, .reply hp hprog, trivial⟩
  | start k =>
      rw [hprog, ht] at hord
      exact absurd hord.1 (Option.some_ne_none ran)
  | stmt q k =>
      cases hexec : m.exec q t.session o (m.applyAll t.writes σ.store) with
      | error e => exact ⟨_, _, .stmtError hp hprog ht hfresh (hguard q _) hexec, trivial⟩
      | ok x =>
          obtain ⟨r, s, ws⟩ := x
          exact ⟨_, _, .stmt hp hprog ht hfresh (hguard q _) hexec (hfree hprog hexec), trivial⟩
  | commit k => exact ⟨_, _, .commit hp hprog ht, trivial⟩
  | call x k =>
      rw [hprog, ht] at hord
      exact absurd hord.1 (Option.some_ne_none ran)

/-- Whoever holds a lock others may wait for does not wait itself. -/
theorem Sys.forward_of_held (hcourt : m.toEngine.Courteous lone held)
    (hguard : ∀ {R} (q : Q R) d, guard q d) (horder : P.Orderly lone held)
    (hfresh : σ.Fresh m.toEngine o) (hp : σ.procs p = some P) (ht : P.tx = some t) {w : W}
    (hw : w ∈ t.writes) (hheld : held w) : ∃ l σ', Step m allow guard σ l σ' ∧ l.Forward n := by
  refine Sys.forward_of_tx hguard horder hfresh hp ht ?_
  intro R q k r s ws hprog hexec p' P' t' hne hp' ht' w' hw'
  obtain ⟨ran, hord, hfree⟩ := horder
  have hran : ran = true := by
    cases ran with
    | true => rfl
    | false => exact absurd hheld (hfree t ht rfl w hw)
  rw [hprog, ht] at hord
  obtain ⟨-, ran', hran', hlone, -⟩ := hord
  obtain rfl : ran = ran' := Option.some.inj hran'
  exact hcourt.light_free (hlone hran) hexec (hfresh.2 p' P' t' hp' ht') w' hw'

/-- Nothing is ever stuck: while a request is being served, some step takes
one forward. -/
theorem Reachable.forward (hcourt : m.toEngine.Courteous lone held)
    (programs : ∀ c, (m.program c).Orderly lone (fun _ _ => True) none)
    (hguard : ∀ {R} (q : Q R) d, guard q d) (hanswers : ∀ x, ∃ y, m.answers x y) {d : D} {s : S}
    (h : Reachable m allow guard d s σ) (hn : 0 < n) (hfresh : ∃ o, σ.Fresh m.toEngine o)
    (hp : σ.procs p = some P) : ∃ l σ', Step m allow guard σ l σ' ∧ l.Forward n := by
  have horder := h.orderly hcourt programs
  obtain ⟨o, hfresh⟩ := hfresh
  by_cases hopen : ∃ p P t, σ.procs p = some P ∧ P.tx = some t
  · obtain ⟨p, P, t, hp, ht⟩ := hopen
    by_cases hfree : ∀ {R} {q : Q R} {k r s ws}, P.prog = .stmt q k →
        m.exec q t.session o (m.applyAll t.writes σ.store) = .ok (r, s, ws) →
        σ.Unblocked m.toEngine p ws
    · exact Sys.forward_of_tx hguard (horder p P hp) hfresh hp ht hfree
    · -- the next statement waits for another transaction, which goes on instead
      simp only [Sys.Unblocked, not_forall, not_not] at hfree
      obtain ⟨R, q, k, r, s, ws, hprog, hexec, p', P', t', hne, hp', ht', w, hw, w', hw',
        hclash⟩ := hfree
      have hlone : lone q = true := by
        cases hq : lone q with
        | true => rfl
        | false =>
            exact absurd hclash
              (hcourt.light_free hq hexec (hfresh.2 p' P' t' hp' ht') w hw w' hw')
      exact Sys.forward_of_held hcourt hguard (horder p' P' hp') hfresh hp' ht' hw'
        (hcourt.lone_waits hlone hexec w hw w' hclash)
  · have hnone : P.tx = none := by
      cases ht : P.tx with
      | none => rfl
      | some t => exact absurd ⟨p, P, t, hp, ht⟩ hopen
    obtain ⟨ran, hord, -⟩ := horder p P hp
    rw [hnone] at hord
    cases hprog : P.prog with
    | ret a => exact ⟨_, _, .reply hp hprog, trivial⟩
    | start k =>
        have hconn : σ.Free 0 := fun p P t hp ht => absurd ⟨p, P, t, hp, ht⟩ hopen
        exact ⟨.start p 0 o, _, .start hp hprog hnone hconn, hn⟩
    | stmt q k =>
        rw [hprog] at hord
        obtain ⟨-, ran', hran, -⟩ := hord
        cases hran
    | commit k =>
        rw [hprog] at hord
        exact absurd rfl hord.1
    | call x k =>
        obtain ⟨y, hy⟩ := hanswers x
        exact ⟨_, _, .call hp hprog hy, trivial⟩

end Stuck

/-! ### Everything ends -/

/-- What a step does to the running programs. -/
theorem Step.moves (h : Step m allow guard σ l σ') :
    (∃ p c P, l = .spawn p c ∧ p ∉ σ.started ∧ σ'.started = p :: σ.started ∧
      σ'.procs = Function.update σ.procs p (some P) ∧ σ'.replies = σ.replies) ∨
    (∃ p P P', σ.procs p = some P ∧ P.prog.Next P'.prog ∧ P'.request = P.request ∧
      σ'.started = σ.started ∧ σ'.procs = Function.update σ.procs p (some P') ∧
      σ'.replies = σ.replies) ∨
    ∃ p P, σ.procs p = some P ∧ σ'.started = σ.started ∧
      σ'.procs = Function.update σ.procs p none ∧
      (l = .cancel p ∧ σ'.replies = σ.replies ∨
        ∃ e, e.pid = p ∧ e.request = P.request ∧ σ'.replies = σ.replies ++ [e]) := by
  cases h with
  | spawn hp => exact .inl ⟨_, _, _, rfl, hp, rfl, rfl, rfl⟩
  | @start p conn o P k hp hprog =>
      refine .inr (.inl ⟨_, _, { P with
        prog := k (.ok ()), tx := some ⟨conn, m.openTx o (σ.conns conn), []⟩ }, hp, ?_, rfl, rfl,
        rfl, rfl⟩)
      rw [hprog]
      exact .start _
  | @stmt p o P t R q k r s ws hp hprog =>
      refine .inr (.inl ⟨_, _, { P with
        prog := k (.ok r), tx := some ⟨t.conn, s, t.writes ++ ws⟩ }, hp, ?_, rfl, rfl, rfl, rfl⟩)
      rw [hprog]
      exact .stmt _
  | @stmtError p o P t R q k e hp hprog =>
      refine .inr (.inl ⟨_, _, { P with prog := k (.error e), tx := none }, hp, ?_, rfl, by simp,
        by simp, by simp⟩)
      rw [hprog]
      exact .stmt _
  | @fail p P prog hp hfail =>
      exact .inr (.inl ⟨_, _, { P with prog := prog, tx := none }, hp, Prog.next_of_failed hfail,
        rfl, by simp, by simp, by simp⟩)
  | @commit p P t k hp hprog =>
      refine .inr (.inl ⟨_, _, { P with
        prog := k (.ok ()), tx := none, commits := P.commits ++ [t.writes] }, hp, ?_, rfl,
        by simp, by simp, by simp⟩)
      rw [hprog]
      exact .commit _
  | @call p P x y k hp hprog =>
      refine .inr (.inl ⟨_, _, { P with prog := k y }, hp, ?_, rfl, rfl, rfl, rfl⟩)
      rw [hprog]
      exact .call _
  | @reply p P a hp =>
      exact .inr (.inr ⟨_, _, hp, by simp, by simp,
        .inr ⟨⟨p, P.request, P.since, P.commits, a⟩, rfl, rfl, by simp⟩⟩)
  | cancel hp => exact .inr (.inr ⟨_, _, hp, by simp, by simp, .inl ⟨rfl, by simp⟩⟩)

/-- Programs are finite. -/
theorem Prog.next_wellFounded :
    WellFounded fun prog' prog : Prog Q E X Y α => prog.Next prog' := by
  refine ⟨fun prog => ?_⟩
  induction prog with
  | ret a => exact ⟨_, fun _ h => nomatch h⟩
  | start k ih | stmt q k ih | commit k ih | call x k ih =>
      refine ⟨_, fun prog' h => ?_⟩
      cases h
      exact ih _

/-- What the programs `ps` still have to do. -/
def load (procs : Nat → Option (Proc Q S D W E X Y C α)) (ps : List Nat) :
    Multiset (Prog Q E X Y α) :=
  (ps.filterMap fun p => (procs p).map Proc.prog : List (Prog Q E X Y α))

theorem load_update {procs : Nat → Option (Proc Q S D W E X Y C α)} {ps : List Nat} {p : Nat}
    {P : Proc Q S D W E X Y C α} (hnodup : ps.Nodup) (hmem : p ∈ ps) (hp : procs p = some P)
    (P' : Option (Proc Q S D W E X Y C α)) :
    ∃ rest, load procs ps = {P.prog} + rest ∧
      load (Function.update procs p P') ps = (P'.map Proc.prog).toList + rest := by
  have hperm := List.perm_cons_erase hmem
  refine ⟨load procs (ps.erase p), ?_, ?_⟩
  · have h := Multiset.coe_eq_coe.2 (hperm.filterMap fun p => (procs p).map Proc.prog)
    rw [load, h]
    simp [load, hp]
  · have h := Multiset.coe_eq_coe.2
      (hperm.filterMap fun q => (Function.update procs p P' q).map Proc.prog)
    have hrest : (ps.erase p).filterMap (fun q => (Function.update procs p P' q).map Proc.prog) =
        (ps.erase p).filterMap fun q => (procs q).map Proc.prog := by
      refine List.filterMap_congr fun q hq => ?_
      have hqp : q ≠ p := fun h => hnodup.not_mem_erase (h ▸ hq)
      rw [Function.update_of_ne hqp]
    rw [load, h]
    cases P' with
    | none => simp [load, hrest]
    | some P' => simp [load, hrest]

/-- What has been started, and once only. -/
theorem Reachable.started_nodup {d : D} {s : S} (h : Reachable m allow guard d s σ) :
    σ.started.Nodup ∧ ∀ p P, σ.procs p = some P → p ∈ σ.started := by
  induction h with
  | init => simp [Sys.init]
  | @step σ l σ' _ hstep ih =>
      obtain ⟨hnodup, hall⟩ := ih
      rcases hstep.moves with ⟨p, c, P, -, hp, hstarted, hprocs, -⟩ |
        ⟨p, P, P', hp, -, -, hstarted, hprocs, -⟩ | ⟨p, P, hp, hstarted, hprocs, -⟩
      · rw [hstarted, hprocs]
        exact ⟨List.nodup_cons.2 ⟨hp, hnodup⟩, forall_update
          (fun q P hq => List.mem_cons_of_mem _ (hall q P hq)) List.mem_cons_self⟩
      · rw [hstarted, hprocs]
        exact ⟨hnodup, forall_update hall (hall p P hp)⟩
      · rw [hstarted, hprocs]
        exact ⟨hnodup, forall_remove hall p⟩

/-- A step that starts nothing leaves less to do. -/
theorem Step.load_lt {d : D} {s : S} (h : Reachable m allow guard d s σ)
    (hstep : Step m allow guard σ l σ') (hl : ∀ p c, l ≠ .spawn p c) :
    σ'.started = σ.started ∧
      Relation.CutExpand (fun prog' prog : Prog Q E X Y α => prog.Next prog')
        (load σ'.procs σ'.started) (load σ.procs σ.started) := by
  obtain ⟨hnodup, hall⟩ := h.started_nodup
  rcases hstep.moves with ⟨p, c, P, rfl, -⟩ | ⟨p, P, P', hp, hnext, -, hstarted, hprocs, -⟩ |
    ⟨p, P, hp, hstarted, hprocs, -⟩
  · exact absurd rfl (hl p c)
  · obtain ⟨rest, hload, hload'⟩ := load_update hnodup (hall p P hp) hp (some P')
    refine ⟨hstarted, {P'.prog}, P.prog, ?_, ?_⟩
    · intro prog hprog
      rwa [Multiset.mem_singleton.1 hprog]
    · rw [hprocs, hstarted, hload, hload']
      simp only [Option.map_some, Option.toList_some, Multiset.coe_singleton]
      ac_rfl
  · obtain ⟨rest, hload, hload'⟩ := load_update hnodup (hall p P hp) hp none
    refine ⟨hstarted, 0, P.prog, by simp, ?_⟩
    rw [hprocs, hstarted, hload, hload']
    simp only [Option.map_none, Option.toList_none, Multiset.coe_nil, zero_add, add_zero]
    exact add_comm _ _

/-- Without new requests, every run ends. -/
theorem Reachable.ends {d : D} {s : S} (run : Nat → Sys Q S D W E X Y C α)
    (h : Reachable m allow guard d s (run 0)) :
    ¬∀ i, ∃ l, Step m allow guard (run i) l (run (i + 1)) ∧ ∀ p c, l ≠ .spawn p c := by
  intro hrun
  have hreach : ∀ i, Reachable m allow guard d s (run i) := by
    intro i
    induction i with
    | zero => exact h
    | succ i ih =>
        obtain ⟨l, hstep, -⟩ := hrun i
        exact ih.step hstep
  have hwf := (Prog.next_wellFounded (Q := Q) (E := E) (X := X) (Y := Y) (α := α)).cutExpand
  have : IsWellFounded _ _ := ⟨hwf⟩
  obtain ⟨i, hi⟩ := WellFounded.not_rel_apply_succ
    (r := Relation.CutExpand fun prog' prog : Prog Q E X Y α => prog.Next prog')
    fun i => load (run i).procs (run i).started
  obtain ⟨l, hstep, hl⟩ := hrun i
  exact hi ((hstep.load_lt (hreach i) hl).2)

/-- A request is served on, answered, or dropped. -/
theorem Step.serves {d : D} {s : S} (h : Reachable m allow guard d s σ)
    (hstep : Step m allow guard σ l σ') {p : Nat} {P : Proc Q S D W E X Y C α}
    (hp : σ.procs p = some P) (hl : l ≠ .cancel p) :
    (∃ P', σ'.procs p = some P' ∧ P'.request = P.request) ∨
      ∃ e ∈ σ'.replies, e.pid = p ∧ e.request = P.request := by
  have other : ∀ q (P' : Option (Proc Q S D W E X Y C α)), p ≠ q →
      ∃ P'', Function.update σ.procs q P' p = some P'' ∧ P''.request = P.request :=
    fun q P' hq => ⟨P, by rw [Function.update_of_ne hq, hp], rfl⟩
  rcases hstep.moves with ⟨q, c, P', -, hq, -, hprocs, -⟩ |
    ⟨q, P', P'', hq, -, hreq, -, hprocs, -⟩ | ⟨q, P', hq, -, hprocs, hend⟩
  · rw [hprocs]
    refine .inl (other q _ ?_)
    rintro rfl
    exact hq (h.started_nodup.2 p P hp)
  · rw [hprocs]
    by_cases hpq : p = q
    · subst hpq
      obtain rfl : P = P' := Option.some.inj (hp.symm.trans hq)
      exact .inl ⟨P'', Function.update_self .., hreq⟩
    · exact .inl (other q _ hpq)
  · by_cases hpq : p = q
    · subst hpq
      obtain rfl : P = P' := Option.some.inj (hp.symm.trans hq)
      rcases hend with ⟨hcancel, -⟩ | ⟨e, hpid, hreq, hreplies⟩
      · exact absurd hcancel hl
      · exact .inr ⟨e, by simp [hreplies], hpid, hreq⟩
    · rw [hprocs]
      exact .inl (other q _ hpq)

theorem Step.replies_subset (hstep : Step m allow guard σ l σ') : σ.replies ⊆ σ'.replies := by
  rcases hstep.moves with ⟨_, _, _, _, _, _, _, h⟩ | ⟨_, _, _, _, _, _, _, _, h⟩ |
    ⟨_, _, _, _, _, ⟨_, h⟩ | ⟨e, _, _, h⟩⟩
  all_goals
    rw [h]
  all_goals
    simp

theorem Run.replies_subset {ls : List (Label O C Y)} (hrun : Run m allow guard σ ls σ') :
    σ.replies ⊆ σ'.replies := by
  induction hrun with
  | nil => exact List.Subset.refl _
  | cons hstep _ ih => exact List.Subset.trans hstep.replies_subset ih

/-- A request that is not dropped is served until it is answered. -/
theorem Run.serves {d : D} {s : S} (h : Reachable m allow guard d s σ)
    {ls : List (Label O C Y)} (hrun : Run m allow guard σ ls σ') {p : Nat}
    {P : Proc Q S D W E X Y C α} (hp : σ.procs p = some P) (hls : .cancel p ∉ ls) :
    (∃ P', σ'.procs p = some P' ∧ P'.request = P.request) ∨
      ∃ e ∈ σ'.replies, e.pid = p ∧ e.request = P.request := by
  induction hrun generalizing P with
  | nil => exact .inl ⟨P, hp, rfl⟩
  | @cons σ l σ₁ ls σ₂ hstep hrest ih =>
      obtain ⟨hl, hls⟩ := not_or.1 (mt List.mem_cons.2 hls)
      rcases hstep.serves h hp (Ne.symm hl) with ⟨P', hp', hreq⟩ | ⟨e, he, hpid, hreq⟩
      · rw [← hreq]
        exact ih (h.step hstep) hp' hls
      · exact .inr ⟨e, hrest.replies_subset he, hpid, hreq⟩

/-- A run that nothing can take forward any more has answered every request
that was not dropped. -/
theorem Run.answered (hcourt : m.toEngine.Courteous lone held)
    (programs : ∀ c, (m.program c).Orderly lone (fun _ _ => True) none)
    (hguard : ∀ {R} (q : Q R) d, guard q d) (hanswers : ∀ x, ∃ y, m.answers x y) {d : D} {s : S}
    (h : Reachable m allow guard d s σ) {ls : List (Label O C Y)}
    (hrun : Run m allow guard σ ls σ') {n : Nat} (hn : 0 < n)
    (hfresh : ∃ o, σ'.Fresh m.toEngine o)
    (hend : ∀ l τ, Step m allow guard σ' l τ → ¬l.Forward n) {p : Nat}
    {P : Proc Q S D W E X Y C α} (hp : σ.procs p = some P) (hls : .cancel p ∉ ls) :
    ∃ e ∈ σ'.replies, e.pid = p ∧ e.request = P.request := by
  rcases hrun.serves h hp hls with ⟨P', hp', -⟩ | hanswered
  · obtain ⟨l, τ, hstep, hforward⟩ :=
      (h.run hrun).forward hcourt programs hguard hanswers hn hfresh hp'
    exact absurd hforward (hend l τ hstep)
  · exact hanswered

end Runs

end Transactional
