import OpenGroupware.Transactional.Eval
import OpenGroupware.Transactional.Unwinding

/-!
Outlines and owners for programs that run alone: what an evaluation commits is
what the outline allows, and two evaluations of a program that works for one
owner cannot be told apart by the owner.
-/

namespace Transactional

variable {Q : Type → Type} {S O D W E X Y C α : Type} {sp : Spec Q S D W C α}
  {m : Machine Q S O D W E X Y C α} {w : World O X Y} {c : C} {b : D}

/-- The program has come to `z`, where its outline from an earlier store still
applies. -/
structure Spec.Ready (sp : Spec Q S D W C α) (m : Machine Q S O D W E X Y C α) (c : C) (b : D)
    (prog : Prog Q E X Y α) (cs : List (List W)) (tx : Option (S × List W)) (z : Solo S D) :
    Prop where
  outline : ∃ d₀, sp.evolves d₀ z.store ∧ sp.Outline m c b prog cs d₀ tx
  inv : sp.inv z.store
  pending : ∀ s ws, tx = some (s, ws) → m.Pending sp.fits ws z.store
  close : ∀ s ws, tx = some (s, ws) → sp.idle (m.closeTx s)
  session : tx = none → sp.idle z.session

namespace Spec.Ready

variable {cs : List (List W)} {tx : Option (S × List W)} {z : Solo S D} {s s' : S}
  {ws ws' : List W}

/-- The program goes on without a transaction on an unchanged store. -/
theorem out {prog : Prog Q E X Y α} {d₀ : D} (hd₀ : sp.evolves d₀ z.store)
    (hout : sp.Outline m c b prog cs d₀ none) (hinv : sp.inv z.store)
    (hidle : sp.idle s) (n : Nat) : sp.Ready m c b prog cs none ⟨z.store, s, n⟩ where
  outline := ⟨d₀, hd₀, hout⟩
  inv := hinv
  pending := by simp
  close := by simp
  session _ := hidle

theorem start (hs : sp.Sound m) {k : Except E Unit → Prog Q E X Y α}
    (h : sp.Ready m c b (.start k) cs none z) :
    sp.Ready m c b (k (.ok ())) cs (some (m.openTx (w.oracle z.clock) z.session, []))
      { z with clock := z.clock + 1 } := by
  obtain ⟨d₀, hd₀, -, hopen⟩ := h.outline
  have hidle := h.session rfl
  refine ⟨⟨d₀, hd₀, hopen _ _ hidle⟩, h.inv, ?_, ?_, by simp⟩
  · rintro _ _ ⟨⟩
    exact .nil _
  · rintro _ _ ⟨⟩
    exact hs.idle_open _ _ hidle

/-- A failed interaction. -/
theorem failed {prog prog' : Prog Q E X Y α} (hfail : prog.failed m.failure = some prog')
    (h : sp.Ready m c b prog cs tx z) :
    sp.Ready m c b prog' cs none (tx.elim z fun t => { z with session := m.closeTx t.1 }) := by
  obtain ⟨d₀, hd₀, hout⟩ := h.outline
  have hrest : sp.Outline m c b prog' cs d₀ none := by
    cases prog with
    | start k | stmt q k | commit k =>
        obtain rfl := Option.some.inj hfail
        exact hout.1
    | ret a | call x k => cases hfail
  cases tx with
  | none => exact out hd₀ hrest h.inv (h.session rfl) _
  | some t => exact out hd₀ hrest h.inv (h.close t.1 t.2 rfl) _

/-- A statement: what was the case when it ran, and how the program goes on. -/
theorem stmt (hs : sp.Sound m) {R : Type} {q : Q R} {k : Except E R → Prog Q E X Y α} {o : O}
    (h : sp.Ready m c b (.stmt q k) cs (some (s, ws)) z)
    (hfresh : m.fresh o (m.applyAll ws z.store)) (hguard : sp.guard q (m.applyAll ws z.store)) :
    sp.pre c q s (m.applyAll ws z.store) ∧
      (∀ r s' ws', m.exec q s o (m.applyAll ws z.store) = .ok (r, s', ws') →
        sp.Ready m c b (k (.ok r)) cs (some (s', ws ++ ws')) { z with clock := z.clock + 1 }) ∧
      ∀ e, m.exec q s o (m.applyAll ws z.store) = .error e →
        sp.Ready m c b (k (.error e)) cs none
          { z with session := m.closeTx s, clock := z.clock + 1 } := by
  obtain ⟨d₀, hd₀, hout⟩ := h.outline
  have hpend := h.pending s ws rfl
  obtain ⟨hpre, hnext⟩ := hout.2 s ws rfl z.store o hd₀ h.inv hpend hfresh hguard
  refine ⟨hpre, fun r s' ws' hexec => ?_, fun e hexec => ?_⟩
  · rw [hexec] at hnext
    refine ⟨⟨z.store, hs.refl _, hnext.2⟩, h.inv, ?_, ?_, by simp⟩
    · rintro _ _ ⟨⟩
      exact hs.law.pending_append hpend hexec hnext.1
    · rintro _ _ ⟨⟩
      exact hs.idle_exec hexec (h.close s ws rfl)
  · rw [hexec] at hnext
    exact out (hs.refl _) hnext h.inv (h.close s ws rfl) _

theorem commit (hs : sp.Sound m) {k : Except E Unit → Prog Q E X Y α}
    (h : sp.Ready m c b (.commit k) cs (some (s, ws)) z) :
    sp.post c cs z.store ws ∧
      sp.Ready m c b (k (.ok ())) (cs ++ [ws]) none
        { z with store := m.applyAll ws z.store, session := m.closeTx s } := by
  obtain ⟨d₀, hd₀, hout⟩ := h.outline
  have hpend := h.pending s ws rfl
  obtain ⟨hpost, hnext⟩ := hout.2 s ws rfl z.store hd₀ h.inv hpend
  exact ⟨hpost, ⟨_, hs.refl _, hnext⟩, (hs.commit h.inv hpend hpost).1, by simp, by simp,
    fun _ => h.close s ws rfl⟩

theorem call {x : X} {k : Y → Prog Q E X Y α} (h : sp.Ready m c b (.call x k) cs tx z)
    {y : Y} (hy : m.answers x y) : sp.Ready m c b (k y) cs tx z := by
  obtain ⟨d₀, hd₀, hout⟩ := h.outline
  exact ⟨⟨d₀, hd₀, hout y hy⟩, h.inv, h.pending, h.close, h.session⟩

/-- What every commit of the request does to the store is what the evaluation
does to it. -/
theorem evolve (hs : sp.Sound m) (hguard : ∀ {R : Type} (q : Q R) d, sp.guard q d)
    (hanswer : ∀ x, m.answers x (w.answer x)) {r : D → D → Prop} (hrefl : ∀ d, r d d)
    (htrans : ∀ {d d' d''}, r d d' → r d' d'' → r d d'')
    (hpost : ∀ {cs d ws}, sp.inv d → m.Pending sp.fits ws d → sp.post c cs d ws →
      r d (m.applyAll ws d)) {prog : Prog Q E X Y α} (h : sp.Ready m c b prog cs tx z)
    (hfresh : FreshEval m.toEngine w prog tx z) :
    r z.store (eval m.toEngine w prog tx z).2.store := by
  induction prog generalizing cs tx z with
  | ret a => cases tx <;> exact hrefl _
  | start k ih =>
      cases tx with
      | none => exact ih _ (h.start hs) hfresh
      | some t => exact ih _ (h.failed rfl) hfresh
  | stmt q k ih =>
      cases tx with
      | none => exact ih _ (h.failed rfl) hfresh
      | some t =>
          obtain ⟨s, ws⟩ := t
          simp only [FreshEval] at hfresh
          obtain ⟨-, hview, hlast⟩ := hfresh
          obtain ⟨-, hok, herr⟩ := h.stmt hs hview (hguard q _)
          simp only [eval]
          cases hexec : m.exec q s (w.oracle z.clock) (m.applyAll ws z.store) with
          | error e =>
              rw [hexec] at hlast
              exact ih _ (herr e hexec) hlast
          | ok x =>
              obtain ⟨x, s', ws'⟩ := x
              rw [hexec] at hlast
              exact ih _ (hok x s' ws' hexec) hlast
  | commit k ih =>
      cases tx with
      | none => exact ih _ (h.failed rfl) hfresh
      | some t =>
          obtain ⟨s, ws⟩ := t
          obtain ⟨hp, hnext⟩ := h.commit hs
          exact htrans (hpost h.inv (h.pending s ws rfl) hp) (ih _ hnext hfresh)
  | call x k ih => exact ih _ (h.call (hanswer x)) hfresh

end Spec.Ready

namespace Part

variable {part : Part sp m}

/-- Writes of the owner keep a relation of two stores that each of them keeps. -/
theorem related_applyAll (law : m.toEngine.Lawful sp.fits) {r : D → D → Prop}
    (howned : ∀ {w d d'}, sp.fits w d → sp.fits w d' → part.owned w = true → r d d' →
      r (m.apply w d) (m.apply w d'))
    {ws : List W} {d d' : D} (hws : m.Pending sp.fits ws d) (hws' : m.Pending sp.fits ws d')
    (hall : ∀ w ∈ ws, part.owned w = true) (h : r d d') :
    r (m.applyAll ws d) (m.applyAll ws d') := by
  induction ws generalizing d d' with
  | nil => exact h
  | cons w ws ih =>
      obtain ⟨hfit, hrest⟩ := law.pending_cons hws
      obtain ⟨hfit', hrest'⟩ := law.pending_cons hws'
      exact ih hrest hrest' (fun x hx => hall x (List.mem_cons_of_mem _ hx))
        (howned hfit hfit' (hall w List.mem_cons_self) h)

/-- Non-interference of a program that runs alone, on stores in a relation that
what the program does keeps and on which its statements give the same away. -/
theorem eval_same (hs : sp.Sound m) (hguard : ∀ {R : Type} (q : Q R) d, sp.guard q d)
    (hanswer : ∀ x, m.answers x (w.answer x)) (hlow : part.low c) {r : D → D → Prop}
    (hbit : ∀ {R : Type} {q : Q R} {s d d'}, sp.pre c q s d → r d d' →
      part.bit q d = part.bit q d')
    (howned : ∀ {w d d'}, sp.fits w d → sp.fits w d' → part.owned w = true → r d d' →
      r (m.apply w d) (m.apply w d'))
    {prog : Prog Q E X Y α} {b₁ b₂ : D} {cs : List (List W)} {tx₁ tx₂ : Option (S × List W)}
    {z₁ z₂ : Solo S D} (h₁ : sp.Ready m c b₁ prog cs tx₁ z₁) (h₂ : sp.Ready m c b₂ prog cs tx₂ z₂)
    (hfresh₁ : FreshEval m.toEngine w prog tx₁ z₁) (hfresh₂ : FreshEval m.toEngine w prog tx₂ z₂)
    (hclock : z₁.clock = z₂.clock) (hsame : part.same z₁.store z₂.store)
    (hr : r z₁.store z₂.store)
    (htx : Option.Rel (fun t t' => part.alike t.1 t'.1 ∧ t.2 = t'.2 ∧
      ∀ w ∈ t.2, part.owned w = true) tx₁ tx₂) :
    (eval m.toEngine w prog tx₁ z₁).1 = (eval m.toEngine w prog tx₂ z₂).1 ∧
      part.same (eval m.toEngine w prog tx₁ z₁).2.store
        (eval m.toEngine w prog tx₂ z₂).2.store := by
  induction prog generalizing cs tx₁ tx₂ z₁ z₂ with
  | ret a => cases htx <;> exact ⟨rfl, hsame⟩
  | start k ih =>
      cases htx with
      | none =>
          refine ih _ (h₁.start hs) (h₂.start hs) hfresh₁ hfresh₂ (congrArg (· + 1) hclock) hsame
            hr (.some ⟨?_, rfl, fun w hw => absurd hw List.not_mem_nil⟩)
          rw [hclock]
          exact part.alike_open _ _ _
      | some halike =>
          exact ih _ (h₁.failed rfl) (h₂.failed rfl) hfresh₁ hfresh₂ hclock hsame hr .none
  | stmt q k ih =>
      cases htx with
      | none => exact ih _ (h₁.failed rfl) (h₂.failed rfl) hfresh₁ hfresh₂ hclock hsame hr .none
      | @some t₁ t₂ halike =>
          obtain ⟨s₁, ws⟩ := t₁
          obtain ⟨s₂, ws'⟩ := t₂
          obtain ⟨hsession, rfl, hall⟩ :
            part.alike s₁ s₂ ∧ ws = ws' ∧ ∀ w ∈ ws, part.owned w = true := halike
          simp only [FreshEval, ← hclock] at hfresh₁ hfresh₂
          obtain ⟨-, hview₁, hlast₁⟩ := hfresh₁
          obtain ⟨-, hview₂, hlast₂⟩ := hfresh₂
          obtain ⟨hpre₁, hok₁, herr₁⟩ := h₁.stmt hs hview₁ (hguard q _)
          obtain ⟨hpre₂, hok₂, herr₂⟩ := h₂.stmt hs hview₂ (hguard q _)
          have hviews : part.same (m.applyAll ws z₁.store) (m.applyAll ws z₂.store) :=
            same_applyAll hs.law (h₁.pending _ _ rfl) (h₂.pending _ _ rfl) rfl hsame
          have hrel : r (m.applyAll ws z₁.store) (m.applyAll ws z₂.store) :=
            related_applyAll hs.law howned (h₁.pending _ _ rfl) (h₂.pending _ _ rfl) hall hr
          have hmatch := part.exec hlow hpre₁ hpre₂ hview₁ hview₂ hsession hviews
            (hbit hpre₁ hrel)
          simp only [eval, ← hclock]
          cases hexec₁ : m.exec q s₁ (w.oracle z₁.clock) (m.applyAll ws z₁.store) with
          | error e₁ =>
              cases hexec₂ : m.exec q s₂ (w.oracle z₁.clock) (m.applyAll ws z₂.store) with
              | ok x => simp [hexec₁, hexec₂, Matched] at hmatch
              | error e₂ =>
                  rw [hexec₁, hexec₂] at hmatch
                  rw [hexec₁] at hlast₁
                  rw [hexec₂] at hlast₂
                  obtain rfl : e₁ = e₂ := hmatch
                  refine ih _ (herr₁ _ hexec₁) ?_ hlast₁ hlast₂ rfl hsame hr .none
                  exact hclock ▸ herr₂ _ hexec₂
          | ok x₁ =>
              cases hexec₂ : m.exec q s₂ (w.oracle z₁.clock) (m.applyAll ws z₂.store) with
              | error e₂ => simp [hexec₁, hexec₂, Matched] at hmatch
              | ok x₂ =>
                  obtain ⟨r₁, s₁', ws₁⟩ := x₁
                  obtain ⟨r₂, s₂', ws₂⟩ := x₂
                  rw [hexec₁, hexec₂] at hmatch
                  rw [hexec₁] at hlast₁
                  rw [hexec₂] at hlast₂
                  obtain ⟨rfl, halike, rfl, hall'⟩ := hmatch
                  refine ih _ (hok₁ _ _ _ hexec₁) ?_ hlast₁ hlast₂ rfl hsame hr
                    (.some ⟨halike, rfl, fun w hw => ?_⟩)
                  · exact hclock ▸ hok₂ _ _ _ hexec₂
                  · exact (List.mem_append.1 hw).elim (hall w) (hall' w)
  | commit k ih =>
      cases htx with
      | none => exact ih _ (h₁.failed rfl) (h₂.failed rfl) hfresh₁ hfresh₂ hclock hsame hr .none
      | @some t₁ t₂ halike =>
          obtain ⟨s₁, ws⟩ := t₁
          obtain ⟨s₂, ws'⟩ := t₂
          obtain ⟨-, rfl, hall⟩ :
            part.alike s₁ s₂ ∧ ws = ws' ∧ ∀ w ∈ ws, part.owned w = true := halike
          exact ih _ (h₁.commit hs).2 (h₂.commit hs).2 hfresh₁ hfresh₂ hclock
            (same_applyAll hs.law (h₁.pending _ _ rfl) (h₂.pending _ _ rfl) rfl hsame)
            (related_applyAll hs.law howned (h₁.pending _ _ rfl) (h₂.pending _ _ rfl) hall hr)
            .none
  | call x k ih =>
      exact ih _ (h₁.call (hanswer x)) (h₂.call (hanswer x)) hfresh₁ hfresh₂ hclock hsame hr htx

end Part

end Transactional
