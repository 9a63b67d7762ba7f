import OpenGroupware.Outlines
import OpenGroupware.Relational.Limit
import OpenGroupware.Transactional.Eval

/-!
Reconciliation over many cycles. A cycle takes the oldest pending accounts up
to the batch size, and an account it cannot provision stays where it is in the
order: whether the others are reached is a matter of how many such accounts
are ahead of them.
-/

namespace OpenGroupware

open Relational Transactional

/-- What job-runner meets when nothing fails: identifiers and clocks, and the
answers of sesame-idam. -/
abbrev JobWorld : Type := World Oracle ProvisionUser (Except ProviderError Uuid)

/-- A reconciliation cycle that nothing disturbs. -/
def cycle (w : JobWorld) (batch : Int) (z : Solo Session Database) : Solo Session Database :=
  (eval postgres w (reconcileOnce batch).run none z).2

/-! ### Evaluation of database programs -/

section

variable {w : JobWorld} {z : Solo Session Database} {α R : Type} {s s' : Session}
  {ws ws' : List Write}

theorem eval_platformTx (f : Unit → DbM α) :
    eval postgres w (platformTx >>= f).run none z =
      eval postgres w (f ()).run
        (some ((z.session.openTx (w.oracle z.clock)).setConfig .isPlatformAdmin "true", []))
        { z with clock := z.clock + 2 } := by
  unfold platformTx
  rw [bind_assoc, DbM.run_begin]
  simp only [eval, DbM.resume, DbM.run_query]
  rfl

theorem eval_query {q : Stmt R} {f : R → DbM α} {r : R}
    (h : Sql.exec q s (w.oracle z.clock) (postgres.applyAll ws z.store) = .ok (r, s', ws')) :
    eval postgres w (query q >>= f).run (some (s, ws)) z =
      eval postgres w (f r).run (some (s', ws ++ ws')) { z with clock := z.clock + 1 } := by
  rw [DbM.run_query]
  have h : postgres.exec q s (w.oracle z.clock) (postgres.applyAll ws z.store) =
      .ok (r, s', ws') := h
  simp only [eval, h, DbM.resume]

theorem eval_commit (f : Unit → DbM α) :
    eval postgres w (commit >>= f).run (some (s, ws)) z =
      eval postgres w (f ()).run none
        { z with store := postgres.applyAll ws z.store, session := s.closeTx } := by
  rw [DbM.run_commit]
  rfl

end

/-! ### One cycle -/

def AccountRow.isPending (a : AccountRow) : Bool := decide (a.status = .pendingProvisioning)

/-- sesame-idam accepts the user. -/
def accepted (answer : ProvisionUser → Except ProviderError Uuid) (x : ProvisionUser) : Bool :=
  (answer x).isOk

/-- A connection in the pool, and a tenant for every account. -/
structure Ready (z : Solo Session Database) : Prop where
  idle : z.session.Idle
  tenants : ∀ a ∈ z.store.accounts, ∃ t ∈ z.store.tenants, t.id = a.tenantId

/-- The accounts of `z'` are those of `z`, the chosen ones activated. -/
def Activates (chosen : AccountRow → Prop) (z z' : Solo Session Database) : Prop :=
  ∃ f : AccountRow → AccountRow, z'.store.accounts.rows = z.store.accounts.rows.map f ∧
    ∀ a ∈ z.store.accounts, (chosen a ∧ (f a).fixed = a.fixed ∧ (f a).status = .active) ∨
      (¬chosen a ∧ f a = a)

theorem Activates.mono {chosen chosen' : AccountRow → Prop} {z z' : Solo Session Database}
    (h : Activates chosen z z') (hiff : ∀ a ∈ z.store.accounts, chosen a ↔ chosen' a) :
    Activates chosen' z z' := by
  obtain ⟨f, hrows, hf⟩ := h
  refine ⟨f, hrows, fun a ha => ?_⟩
  rw [← hiff a ha]
  exact hf a ha

/-- One activation, and then the others. -/
theorem Activates.cons {chosen chosen' : AccountRow → Prop} {z z₁ z' : Solo Session Database}
    {a b : AccountRow} (hput : z₁.store.accounts = z.store.accounts.put b)
    (ha : a ∈ z.store.accounts) (hid : b.id = a.id) (hfixed : b.fixed = a.fixed)
    (hactive : b.status = .active) (hchosen : chosen a) (hdone : ¬chosen' b)
    (hothers : ∀ x, x.id ≠ b.id → (chosen' x ↔ chosen x)) (h : Activates chosen' z₁ z') :
    Activates chosen z z' := by
  obtain ⟨f, hrows, hf⟩ := h
  have hsame : ∀ x ∈ z.store.accounts, x.id = b.id → x = a := fun x hx hxid =>
    Table.eq_of_key hx ha (hxid.trans hid)
  refine ⟨fun x => f (if x.id = b.id then b else x), hrows.trans ?_, fun x hx => ?_⟩
  · rw [hput, Table.rows_put_of_mem (r := b) ⟨a, ha, hid.symm⟩, List.map_map]
    rfl
  beta_reduce
  by_cases hxid : x.id = b.id
  · rw [if_pos hxid, hsame x hx hxid]
    have hkept : f b = b := by
      have hmem : b ∈ z₁.store.accounts := hput ▸ Table.mem_put.2 (.inl rfl)
      exact ((hf b hmem).resolve_left fun hno => hdone hno.1).2
    rw [hkept]
    exact .inl ⟨hchosen, hfixed, hactive⟩
  · rw [if_neg hxid, ← hothers x hxid]
    exact hf x (hput ▸ Table.mem_put.2 (.inr ⟨hx, hxid⟩))

section

variable {w : JobWorld} {z : Solo Session Database}

/-- The rows of a batch that the loop activates. -/
def Chosen (w : JobWorld) (rows : List PendingRow) (a : AccountRow) : Prop :=
  a.isPending = true ∧ ∃ row ∈ rows, row.id = a.id ∧
    accepted w.answer ⟨row.email, row.displayName⟩ = true

/-- A row that activates nothing leaves the choice to the rest. -/
theorem chosen_cons_iff {row : PendingRow} {rest : List PendingRow} {a : AccountRow}
    (hno : a.isPending = true → row.id = a.id →
      accepted w.answer ⟨row.email, row.displayName⟩ = false) :
    Chosen w rest a ↔ Chosen w (row :: rest) a := by
  constructor
  · rintro ⟨hp, r, hr, hrid⟩
    exact ⟨hp, r, List.mem_cons_of_mem _ hr, hrid⟩
  · rintro ⟨hp, r, hr, hrid, hok⟩
    rcases List.mem_cons.1 hr with rfl | hr
    · rw [hno hp hrid] at hok
      cases hok
    · exact ⟨hp, r, hr, hrid, hok⟩

/-- The audit entry of the persist step. -/
abbrev reconciledEntry (row : PendingRow) (u : Uuid) : AuditEntry where
  tenantId := some row.tenantId
  actor := "job-runner"
  action := "account.reconciled"
  entityType := "account"
  entityId := row.id.toText
  payload := .obj [("sesame_user_id", .str u.toText)]

/-- The audit entry goes through: the tenant exists. -/
theorem eval_reconciledEntry {α : Type} {row : PendingRow} {u : Uuid} {s : Session}
    {ws : List Write} (hs : s.ForPlatform)
    (htenant : ∃ t ∈ (postgres.applyAll ws z.store).tenants, t.id = row.tenantId)
    (f : Unit → DbM α) :
    eval postgres w (record .control (reconciledEntry row u) >>= f).run (some (s, ws)) z =
      eval postgres w (f ()).run (some (s, ws ++ [.audit (reconciledEntry row u)]))
        { z with clock := z.clock + 1 } := by
  have htext : (reconciledEntry row u).payload.storable = true := by
    simp [Json.storable, Json.storableMembers]
    decide
  have haudit : Sql.insertAudit s (postgres.applyAll ws z.store) .control
      (reconciledEntry row u) = .ok ((), [.audit (reconciledEntry row u)]) :=
    Sql.insertAudit_eq_ok (by simp [htext]; decide) (hs.sees _)
      fun _ => Table.has_eq_true.2 htenant
  have hexec : Sql.exec (.insertAudit .control (reconciledEntry row u)) s (w.oracle z.clock)
      (postgres.applyAll ws z.store) = .ok ((), s, [.audit (reconciledEntry row u)]) :=
    congrArg (Sql.keep s) haudit
  exact eval_query hexec

/-- The loop of a cycle, by induction on the rows that are left of the batch. -/
theorem eval_reconcileEach (rows : List PendingRow) (n : Nat) (hz : Ready z)
    (hrows : ∀ row ∈ rows, ∃ t ∈ z.store.tenants, t.id = row.tenantId) :
    Ready (eval postgres w (reconcileEach rows n).run none z).2 ∧
      Activates (Chosen w rows) z (eval postgres w (reconcileEach rows n).run none z).2 := by
  induction rows generalizing z n with
  | nil =>
      refine ⟨hz, id, by simp [reconcileEach, eval], fun a _ => .inr ⟨?_, rfl⟩⟩
      rintro ⟨-, row, hrow, -⟩
      exact List.not_mem_nil hrow
  | cons row rest ih =>
      have hrest : ∀ r ∈ rest, ∃ t ∈ z.store.tenants, t.id = r.tenantId :=
        fun r hr => hrows r (List.mem_cons_of_mem _ hr)
      unfold reconcileEach
      rw [DbM.run_lift]
      unfold provision
      simp only [Prog.call_bind, Prog.ret_bind, eval]
      cases hanswer : w.answer ⟨row.email, row.displayName⟩ with
      | error e =>
          obtain ⟨hready, hact⟩ := ih n hz hrest
          refine ⟨hready, hact.mono fun a _ => chosen_cons_iff fun _ _ => ?_⟩
          simp [accepted, hanswer, Except.isOk, Except.toBool]
      | ok u =>
          have hok : accepted w.answer ⟨row.email, row.displayName⟩ = true := by
            simp [accepted, hanswer, Except.isOk, Except.toBool]
          have hs := hz.idle.forPlatform (w.oracle z.clock)
          simp only
          rw [eval_platformTx]
          generalize (z.session.openTx (w.oracle z.clock)).setConfig .isPlatformAdmin "true" = s
            at hs ⊢
          have hexec : Sql.exec (.activatePending row.id u) s (w.oracle (z.clock + 2))
              (postgres.applyAll [] z.store) =
              .ok ((Sql.activatePending s z.store row.id u).1, s,
                (Sql.activatePending s z.store row.id u).2) := rfl
          rcases Sql.activatePending_cases s z.store row.id u with
            ⟨a, ha, hid, -, hpending, heq⟩ | ⟨hnone, heq⟩
          · rw [heq] at hexec
            rw [eval_query (z := { z with clock := z.clock + 2 }) hexec]
            simp only [if_true, List.nil_append]
            have htenant : ∃ t ∈ (postgres.applyAll [.account ⟨some a, Sql.activated s a u⟩]
                z.store).tenants, t.id = row.tenantId := hrows row List.mem_cons_self
            rw [eval_reconciledEntry (z := { z with clock := z.clock + 2 + 1 }) (u := u) hs htenant,
              eval_commit]
            have hready : Ready ⟨postgres.applyAll ([Write.account ⟨some a, Sql.activated s a u⟩] ++
                [Plane.control.appendix (reconciledEntry row u)]) z.store, s.closeTx,
                z.clock + 2 + 1 + 1⟩ :=
              ⟨Session.idle_closeTx s, Write.forall_put (r := Sql.activated s a u)
                (p := fun a => ∃ t ∈ z.store.tenants, t.id = a.tenantId) hz.tenants
                (hz.tenants a ha)⟩
            obtain ⟨hready, hact⟩ := ih (n + 1) hready hrest
            refine ⟨hready, hact.cons (b := Sql.activated s a u) rfl ha rfl rfl rfl
              ⟨decide_eq_true hpending, row, List.mem_cons_self, hid.symm, hok⟩ ?_ ?_⟩
            · rintro ⟨hp, -⟩
              cases hp
            · exact fun x hxid => chosen_cons_iff fun _ hrow =>
                absurd (hrow.symm.trans hid.symm) hxid
          · rw [heq] at hexec
            rw [eval_query (z := { z with clock := z.clock + 2 }) hexec]
            simp only [Nat.zero_ne_one, if_false]
            rw [eval_commit]
            simp only [List.append_nil, Engine.applyAll_nil]
            obtain ⟨hready, hact⟩ := ih n (z := ⟨z.store, s.closeTx, z.clock + 2 + 1⟩)
              ⟨Session.idle_closeTx s, hz.tenants⟩ hrest
            refine ⟨hready, hact.mono fun a ha => chosen_cons_iff fun hp hid => ?_⟩
            exact absurd (of_decide_eq_true hp) (hnone a ha hid.symm (hs.sees _))

/-- Pending accounts in the order in which cycles take them. -/
def queue (o : Oracle) (d : Database) : List AccountRow :=
  Sql.orderBy o (fun a : AccountRow => a.createdAt) (fun a => a.id)
    (d.accounts.rows.filter AccountRow.isPending)

theorem mem_queue {o : Oracle} {d : Database} {a : AccountRow} :
    a ∈ queue o d ↔ a ∈ d.accounts ∧ a.isPending = true := by
  simp [queue, Sql.orderBy]

theorem countP_queue (o : Oracle) (d : Database) (p : AccountRow → Bool) :
    (queue o d).countP p = d.accounts.rows.countP fun a => a.isPending && p a := by
  rw [queue, (Sql.orderBy_perm ..).countP_eq, List.countP_filter]
  exact List.countP_congr fun a _ => by simp [and_comm]

theorem selectPending_queue {s : Session} {o : Oracle} {d : Database} {batch : Int}
    (hs : s.ForPlatform) (hbatch : 0 ≤ batch) :
    Sql.selectPending s o d batch =
      .ok (((queue o d).take batch.toNat).map Sql.pendingRow) := by
  have hfilter : d.accounts.rows.filter (fun a => s.sees (some a.tenantId) &&
      decide (a.status = .pendingProvisioning)) = d.accounts.rows.filter AccountRow.isPending :=
    List.filter_congr fun a _ => by simp [hs.sees, AccountRow.isPending]
  unfold Sql.selectPending
  rw [hfilter, decide_eq_true hbatch]
  rfl

/-- A cycle activates the accounts among the first `batch` of the queue that
sesame-idam accepts. -/
theorem cycle_activates {batch : Int} (hz : Ready z) (hbatch : 0 ≤ batch) :
    Ready (cycle w batch z) ∧ ∃ o, (∃ k, o = w.oracle k) ∧
      Activates (fun a => a ∈ (queue o z.store).take batch.toNat ∧
        accepted w.answer ⟨a.email, a.displayName⟩ = true) z (cycle w batch z) := by
  have hs := hz.idle.forPlatform (w.oracle z.clock)
  unfold cycle reconcileOnce
  rw [eval_platformTx]
  generalize (z.session.openTx (w.oracle z.clock)).setConfig .isPlatformAdmin "true" = s at hs ⊢
  have hexec : Sql.exec (.selectPending batch) s (w.oracle (z.clock + 2))
      (postgres.applyAll [] z.store) =
      .ok (((queue (w.oracle (z.clock + 2)) z.store).take batch.toNat).map Sql.pendingRow, s,
        []) :=
    congrArg (Except.map fun rows => (rows, s, [])) (selectPending_queue hs hbatch)
  rw [eval_query (z := { z with clock := z.clock + 2 }) hexec, eval_commit]
  simp only [List.append_nil, Engine.applyAll_nil]
  have hready : Ready ⟨z.store, s.closeTx, z.clock + 2 + 1⟩ :=
    ⟨Session.idle_closeTx s, hz.tenants⟩
  have hbatched : ∀ a ∈ (queue (w.oracle (z.clock + 2)) z.store).take batch.toNat,
      a ∈ z.store.accounts ∧ a.isPending = true :=
    fun a ha => mem_queue.1 (List.mem_of_mem_take ha)
  obtain ⟨hready', hact⟩ := eval_reconcileEach (w := w)
    (((queue (w.oracle (z.clock + 2)) z.store).take batch.toNat).map Sql.pendingRow) 0 hready
    fun row hrow => by
      obtain ⟨a, ha, rfl⟩ := List.mem_map.1 hrow
      exact hz.tenants a (hbatched a ha).1
  refine ⟨hready', w.oracle (z.clock + 2), ⟨_, rfl⟩, hact.mono fun a ha => ?_⟩
  constructor
  · rintro ⟨-, row, hrow, hid, hok⟩
    obtain ⟨a', ha', rfl⟩ := List.mem_map.1 hrow
    obtain rfl := Table.eq_of_key (hbatched a' ha').1 ha hid
    exact ⟨ha', hok⟩
  · rintro ⟨hmem, hok⟩
    exact ⟨(hbatched a hmem).2, _, List.mem_map_of_mem hmem, rfl, hok⟩

end

/-! ### Many cycles -/

/-- What cycles may make of an account: they leave it alone, or it was pending
and has been accepted. -/
def AccountRow.Advances (accepts : ProvisionUser → Bool) (a a' : AccountRow) : Prop :=
  a' = a ∨ (a.isPending = true ∧ accepts ⟨a.email, a.displayName⟩ = true ∧ a'.fixed = a.fixed ∧
    a'.status = .active)

/-- The accounts of `z` are those of `d`, some of the acceptable ones activated. -/
def Advanced (accepts : ProvisionUser → Bool) (d : Database) (z : Solo Session Database) : Prop :=
  ∃ f : AccountRow → AccountRow, z.store.accounts.rows = d.accounts.rows.map f ∧
    ∀ a ∈ d.accounts, a.Advances accepts (f a)

/-- The account waits, and sesame-idam would accept it. -/
def AccountRow.isWaiting (accepts : ProvisionUser → Bool) (a : AccountRow) : Bool :=
  a.isPending && accepts ⟨a.email, a.displayName⟩

/-- The account waits, and sesame-idam will not have it. -/
def AccountRow.isStuck (accepts : ProvisionUser → Bool) (a : AccountRow) : Bool :=
  a.isPending && !accepts ⟨a.email, a.displayName⟩

theorem isPending_of_active {a : AccountRow} (h : a.status = .active) : a.isPending = false := by
  simp [AccountRow.isPending, h]

section

variable {accepts : ProvisionUser → Bool} {d : Database} {z z' : Solo Session Database}

theorem Advanced.refl (d : Database) (s : Session) (n : Nat) : Advanced accepts d ⟨d, s, n⟩ :=
  ⟨id, by simp, fun _ _ => .inl rfl⟩

theorem AccountRow.Advances.stuck {a a' : AccountRow} (h : a.Advances accepts a') :
    a'.isStuck accepts = a.isStuck accepts := by
  rcases h with rfl | ⟨hp, hok, -, hactive⟩
  · rfl
  · simp [isStuck, hp, hok, isPending_of_active hactive]

theorem Advanced.activates {chosen : AccountRow → Prop} (h : Advanced accepts d z)
    (hact : Activates chosen z z')
    (hchosen : ∀ a ∈ z.store.accounts, chosen a → a.isWaiting accepts = true) :
    Advanced accepts d z' := by
  obtain ⟨f, hf, hadv⟩ := h
  obtain ⟨g, hg, hspec⟩ := hact
  refine ⟨g ∘ f, by rw [hg, hf, List.map_map], fun a ha => ?_⟩
  have hmem : f a ∈ z.store.accounts := Table.mem_def.2 (hf ▸ List.mem_map_of_mem ha)
  rcases hspec (f a) hmem with ⟨hc, hfixed, hactive⟩ | ⟨-, heq⟩
  · have hwait := hchosen _ hmem hc
    rw [AccountRow.isWaiting, Bool.and_eq_true] at hwait
    rcases hadv a ha with heq | ⟨-, -, -, hdone⟩
    · rw [heq] at hwait hfixed
      rw [heq] at hactive
      exact .inr ⟨hwait.1, hwait.2, by simpa [heq] using hfixed, by simpa [heq] using hactive⟩
    · rw [isPending_of_active hdone] at hwait
      exact absurd hwait.1 (by simp)
  · rw [Function.comp_apply, heq]
    exact hadv a ha

/-- Accounts that sesame-idam refuses never leave the queue. -/
theorem Advanced.countP_stuck (h : Advanced accepts d z) (p : Timestamp → Bool) :
    z.store.accounts.rows.countP (fun a => a.isStuck accepts && p a.createdAt) =
      d.accounts.rows.countP fun a => a.isStuck accepts && p a.createdAt := by
  obtain ⟨f, hf, hadv⟩ := h
  rw [hf, List.countP_map]
  refine List.countP_congr fun a ha => ?_
  have hstuck := (hadv a ha).stuck
  have hcreated : (f a).createdAt = a.createdAt := by
    rcases hadv a ha with heq | ⟨-, -, hfixed, -⟩
    · rw [heq]
    · have h := congrArg (fun a => a.createdAt) (congrArg AccountRow.toAccount hfixed)
      exact h
  rw [Function.comp_apply, hstuck, hcreated]

/-- An account that still waits is as it was. -/
theorem Advanced.waiting (h : Advanced accepts d z) {a : AccountRow}
    (ha : a ∈ z.store.accounts) (hwait : a.isWaiting accepts = true) : a ∈ d.accounts := by
  obtain ⟨f, hf, hadv⟩ := h
  obtain ⟨b, hb, rfl⟩ := List.mem_map.1 (hf ▸ Table.mem_def.1 ha)
  rcases hadv b hb with heq | ⟨-, -, -, hactive⟩
  · rw [heq]
    exact hb
  · simp [AccountRow.isWaiting, isPending_of_active hactive] at hwait

end

section

variable {w : JobWorld} {d : Database} {z : Solo Session Database} {batch : Int}

theorem Advanced.cycle (h : Advanced (accepted w.answer) d z) (hz : Ready z)
    (hbatch : 0 ≤ batch) : Advanced (accepted w.answer) d (cycle w batch z) := by
  obtain ⟨-, o, -, hact⟩ := cycle_activates (w := w) hz hbatch
  refine h.activates hact fun a _ hchosen => ?_
  rw [AccountRow.isWaiting, Bool.and_eq_true]
  exact ⟨(mem_queue.1 (List.mem_of_mem_take hchosen.1)).2, hchosen.2⟩

/-- Fewer refused accounts than the batch size are as old as any account that
waits. -/
def Clear (accepts : ProvisionUser → Bool) (batch : Int) (d : Database) : Prop :=
  ∀ a ∈ d.accounts, a.isWaiting accepts = true →
    d.accounts.rows.countP (fun b => b.isStuck accepts && decide (b.createdAt ≤ a.createdAt)) <
      batch.toNat

/-- A cycle reaches one of the accounts that wait. -/
theorem countP_waiting_cycle (h : Advanced (accepted w.answer) d z) (hz : Ready z)
    (hbatch : 0 ≤ batch) (hclear : Clear (accepted w.answer) batch d)
    (hwait : ∃ a ∈ z.store.accounts, a.isWaiting (accepted w.answer) = true) :
    (cycle w batch z).store.accounts.rows.countP (AccountRow.isWaiting (accepted w.answer)) <
      z.store.accounts.rows.countP (AccountRow.isWaiting (accepted w.answer)) := by
  obtain ⟨-, o, -, f, hf, hspec⟩ := cycle_activates (w := w) hz hbatch
  obtain ⟨x, hx, hok⟩ : ∃ x ∈ (queue o z.store).take batch.toNat,
      accepted w.answer ⟨x.email, x.displayName⟩ = true := by
    refine exists_mem_take (p := fun x : AccountRow => accepted w.answer ⟨x.email, x.displayName⟩)
      (Sql.orderBy_sorted ..) (fun x hx hok => ?_) ?_
    · obtain ⟨hmem, hp⟩ := mem_queue.1 hx
      have hxwait : x.isWaiting (accepted w.answer) = true := by
        rw [AccountRow.isWaiting, hp, hok, Bool.and_self]
      refine Nat.lt_of_le_of_lt ?_ (hclear x (h.waiting hmem hxwait) hxwait)
      rw [← h.countP_stuck fun t => decide (t ≤ x.createdAt), countP_queue]
      refine List.countP_mono_left fun y _ hy => ?_
      simp only [Sql.notAfter, AccountRow.isStuck, Bool.and_eq_true, Bool.or_eq_true,
        decide_eq_true_eq] at hy ⊢
      obtain ⟨hyp, hno, hle⟩ := hy
      exact ⟨⟨hyp, hno⟩, hle.elim Nat.le_of_lt fun h => Nat.le_of_eq h.1⟩
    · obtain ⟨a, ha, hwait⟩ := hwait
      rw [AccountRow.isWaiting, Bool.and_eq_true] at hwait
      exact ⟨a, mem_queue.2 ⟨ha, hwait.1⟩, hwait.2⟩
  obtain ⟨hmem, hp⟩ := mem_queue.1 (List.mem_of_mem_take hx)
  rw [hf]
  refine countP_map_lt (fun a ha hwait => ?_) ⟨x, hmem, ?_, ?_⟩
  · rcases hspec a ha with ⟨-, -, hactive⟩ | ⟨-, heq⟩
    · simp [AccountRow.isWaiting, isPending_of_active hactive] at hwait
    · rwa [heq] at hwait
  · rw [AccountRow.isWaiting, hp, hok, Bool.and_self]
  · rcases hspec x hmem with ⟨-, -, hactive⟩ | ⟨hno, -⟩
    · simp [AccountRow.isWaiting, isPending_of_active hactive]
    · exact absurd ⟨hx, hok⟩ hno

/-- With a clear queue every cycle makes progress, by induction on the number
of cycles. -/
theorem countP_waiting_cycles (hz : Ready z) (hbatch : 0 ≤ batch)
    (hclear : Clear (accepted w.answer) batch z.store) (n : Nat) :
    Ready ((cycle w batch)^[n] z) ∧
      Advanced (accepted w.answer) z.store ((cycle w batch)^[n] z) ∧
      ((cycle w batch)^[n] z).store.accounts.rows.countP
          (AccountRow.isWaiting (accepted w.answer)) ≤
        z.store.accounts.rows.countP (AccountRow.isWaiting (accepted w.answer)) - n := by
  induction n with
  | zero => exact ⟨hz, .refl _ _ _, Nat.le_refl _⟩
  | succ n ih =>
      obtain ⟨hready, hadv, hcount⟩ := ih
      rw [Function.iterate_succ_apply']
      refine ⟨(cycle_activates hready hbatch).1, hadv.cycle hready hbatch, ?_⟩
      by_cases hwait : ∃ a ∈ ((cycle w batch)^[n] z).store.accounts,
          a.isWaiting (accepted w.answer) = true
      · have hlt := countP_waiting_cycle hadv hready hbatch hclear hwait
        omega
      · have hadv' := (Advanced.refl _ _ _ : Advanced (accepted w.answer)
          ((cycle w batch)^[n] z).store ((cycle w batch)^[n] z)).cycle (w := w) hready hbatch
        have hzero : (cycle w batch ((cycle w batch)^[n] z)).store.accounts.rows.countP
            (AccountRow.isWaiting (accepted w.answer)) = 0 := by
          rw [List.countP_eq_zero]
          exact fun a ha hw => hwait ⟨a, hadv'.waiting ha hw, hw⟩
        rw [hzero]
        exact Nat.zero_le _

/-- An account with a full batch of refused ones ahead of it is not chosen. -/
theorem cycle_starves {a : AccountRow} (h : Advanced (accepted w.answer) d z) (hz : Ready z)
    (hbatch : 0 ≤ batch) (ha : a ∈ z.store.accounts)
    (hahead : ∀ k, ∀ b ∈ d.accounts, b.isStuck (accepted w.answer) = true →
      b.createdAt ≤ a.createdAt →
        Sql.notAfter (w.oracle k) (fun a : AccountRow => a.createdAt) (fun a => a.id) a b = false)
    (hcount : batch.toNat ≤ d.accounts.rows.countP fun b =>
      b.isStuck (accepted w.answer) && decide (b.createdAt ≤ a.createdAt)) :
    a ∈ (cycle w batch z).store.accounts := by
  obtain ⟨-, o, ⟨k, rfl⟩, f, hf, hspec⟩ := cycle_activates (w := w) hz hbatch
  have hno : a ∉ (queue (w.oracle k) z.store).take batch.toNat := by
    refine not_mem_take (q := fun b => b.isStuck (accepted w.answer) &&
      decide (b.createdAt ≤ a.createdAt)) (Sql.orderBy_sorted ..) (by simp [Sql.notAfter])
      (fun b hb hq => ?_) ?_
    · rw [Bool.and_eq_true, decide_eq_true_eq] at hq
      obtain ⟨g, hg, hadv⟩ := h
      obtain ⟨c, hc, rfl⟩ := List.mem_map.1 (hg ▸ Table.mem_def.1 (mem_queue.1 hb).1)
      have hstuck := (hadv c hc).stuck
      rcases hadv c hc with heq | ⟨-, -, -, hactive⟩
      · rw [heq] at hq ⊢
        exact hahead k c hc hq.1 hq.2
      · simp [AccountRow.isStuck, isPending_of_active hactive] at hq
    · rw [countP_queue]
      rw [← h.countP_stuck fun t => decide (t ≤ a.createdAt)] at hcount
      refine Nat.le_trans hcount (List.countP_mono_left fun b _ hb => ?_)
      rw [Bool.and_eq_true] at hb ⊢
      have hp := hb.1
      rw [AccountRow.isStuck, Bool.and_eq_true] at hp
      exact ⟨hp.1, by rw [Bool.and_eq_true]; exact hb⟩
  rcases hspec a ha with ⟨⟨hmem, -⟩, -⟩ | ⟨-, heq⟩
  · exact absurd hmem hno
  · exact Table.mem_def.2 (hf ▸ List.mem_map.2 ⟨a, ha, heq⟩)

end

/-! ### Who is reached -/

/-- A scan that meets the rows with certain identifiers first. -/
def Oracle.meeting (first : Uuid → Prop) [DecidablePred first] : Oracle where
  uuid := .number 0
  now := 0
  rank id := id.bits.toNat + if first id then 0 else 2 ^ 128
  rank_injective := by
    intro u v h
    refine Uuid.toNat_injective ?_
    have hu : u.bits.toNat < 2 ^ 128 := u.bits.isLt
    have hv : v.bits.toNat < 2 ^ 128 := v.bits.isLt
    by_cases hfu : first u <;> by_cases hfv : first v <;>
      simp only [hfu, hfv, if_true, if_false] at h ⊢ <;> omega
  indexable _ := true
  indexable_short _ _ := rfl

theorem Oracle.meeting_lt {first : Uuid → Prop} [DecidablePred first] {u v : Uuid}
    (hu : first u) (hv : ¬first v) :
    (Oracle.meeting first).rank u < (Oracle.meeting first).rank v := by
  have hlt : u.bits.toNat < 2 ^ 128 := u.bits.isLt
  simp only [Oracle.meeting, if_pos hu, if_neg hv]
  omega

/-- `N` accounts wait in the store of `z`. After `N` cycles that nothing
disturbs, exactly those that sesame-idam accepts are active, in whatever order
the database returns accounts of one age, if and only if no account that
could be provisioned has a whole batch of refused ones that are as old. -/
theorem reconcile_reaches_iff {z : Solo Session Database} {batch : Int}
    {answer : ProvisionUser → Except ProviderError Uuid} {S : String → Bool}
    (hz : z.session.Idle) (hd : Constraints z.store) (hbatch : 1 ≤ batch)
    (hS : ∀ x, accepted answer x = S x.email) :
    (∀ oracle, ∀ a ∈ z.store.accounts, a.isPending = true →
      ∃ a' ∈ ((cycle ⟨oracle, answer⟩ batch)^[z.store.accounts.rows.countP
          AccountRow.isPending] z).store.accounts,
        a'.id = a.id ∧
          a'.status = if S a.email = true then .active else .pendingProvisioning) ↔
      ∀ a ∈ z.store.accounts, a.isPending = true → S a.email = true →
        z.store.accounts.rows.countP (fun b =>
          (b.isPending && !S b.email) && decide (b.createdAt ≤ a.createdAt)) < batch.toNat := by
  have hbatch' : 0 ≤ batch := by omega
  have hready : Ready z := ⟨hz, hd.account_tenant⟩
  have hstuck : ∀ b : AccountRow, b.isStuck (accepted answer) = (b.isPending && !S b.email) :=
    fun b => by rw [AccountRow.isStuck, hS]
  have hwaiting : ∀ b : AccountRow, b.isWaiting (accepted answer) = (b.isPending && S b.email) :=
    fun b => by rw [AccountRow.isWaiting, hS]
  simp only [← hstuck]
  constructor
  · intro h a ha hp hok
    by_contra hcount
    rw [Nat.not_lt] at hcount
    let refused (id : Uuid) : Prop :=
      ∃ b ∈ z.store.accounts.rows, b.id = id ∧ b.isStuck (accepted answer) = true
    let oracle : Nat → Oracle := fun _ => .meeting refused
    have hself : ¬refused a.id := by
      rintro ⟨b, hb, hid, hbs⟩
      obtain rfl := Table.eq_of_key hb ha hid
      simp [hstuck, hok] at hbs
    have hahead : ∀ k, ∀ b ∈ z.store.accounts, b.isStuck (accepted answer) = true →
        b.createdAt ≤ a.createdAt → Sql.notAfter (oracle k) (fun a : AccountRow => a.createdAt)
          (fun a => a.id) a b = false := by
      intro k b hb hbs hle
      have hrank : (Oracle.meeting refused).rank b.id < (Oracle.meeting refused).rank a.id :=
        Oracle.meeting_lt ⟨b, hb, rfl, hbs⟩ hself
      simp only [Sql.notAfter, oracle, Bool.or_eq_false_iff, Bool.and_eq_false_iff,
        decide_eq_false_iff_not]
      exact ⟨Nat.not_lt.2 hle, .inr (Nat.not_le.2 hrank)⟩
    have hstay : ∀ n, Ready ((cycle ⟨oracle, answer⟩ batch)^[n] z) ∧
        Advanced (accepted answer) z.store ((cycle ⟨oracle, answer⟩ batch)^[n] z) ∧
        a ∈ ((cycle ⟨oracle, answer⟩ batch)^[n] z).store.accounts := by
      intro n
      induction n with
      | zero => exact ⟨hready, .refl _ _ _, ha⟩
      | succ n ih =>
          obtain ⟨hr, hadv, hmem⟩ := ih
          rw [Function.iterate_succ_apply']
          exact ⟨(cycle_activates hr hbatch').1, hadv.cycle hr hbatch',
            cycle_starves hadv hr hbatch' hmem hahead hcount⟩
    obtain ⟨a', ha', hid, hstatus⟩ := h oracle a ha hp
    obtain rfl := Table.eq_of_key ha' (hstay _).2.2 hid
    rw [if_pos hok] at hstatus
    simp [AccountRow.isPending, hstatus] at hp
  · intro hclear oracle a ha hp
    have hcl : Clear (accepted answer) batch z.store := by
      intro b hb hwait
      rw [hwaiting, Bool.and_eq_true] at hwait
      exact hclear b hb hwait.1 hwait.2
    obtain ⟨-, ⟨f, hf, hadv⟩, hcount⟩ := countP_waiting_cycles (w := ⟨oracle, answer⟩) hready
      hbatch' hcl (z.store.accounts.rows.countP AccountRow.isPending)
    have hmem : f a ∈ ((cycle ⟨oracle, answer⟩ batch)^[z.store.accounts.rows.countP
        AccountRow.isPending] z).store.accounts :=
      Table.mem_def.2 (hf ▸ List.mem_map_of_mem ha)
    have hle : z.store.accounts.rows.countP (AccountRow.isWaiting (accepted answer)) ≤
        z.store.accounts.rows.countP AccountRow.isPending :=
      List.countP_mono_left fun b _ hb => (Bool.and_eq_true _ _ ▸ hb).1
    -- there have been enough cycles for all that wait
    have hdone : (f a).isWaiting (accepted answer) = false := by
      rw [Nat.sub_eq_zero_of_le hle, Nat.le_zero, List.countP_eq_zero] at hcount
      exact Bool.eq_false_iff.2 (hcount (f a) hmem)
    refine ⟨f a, hmem, ?_⟩
    rcases hadv a ha with heq | ⟨-, hok, hfixed, hactive⟩
    · rw [heq, hwaiting, hp, Bool.true_and] at hdone
      rw [heq, if_neg (by simp [hdone])]
      exact ⟨rfl, of_decide_eq_true hp⟩
    · rw [hS] at hok
      rw [if_pos hok]
      exact ⟨(AccountRow.columns_of_fixed hfixed).1, hactive⟩

/-! ### Two accounts, one of them refused -/

/-- An account with no more than the insertion gave it. -/
def leftAccount (n : Nat) (localPart : String) : AccountRow where
  id := .number n
  tenantId := .number 1
  domainId := .number 2
  email := localPart ++ "@a.example"
  displayName := ""
  quotaMb := 1024
  status := .pendingProvisioning
  createdAt := n
  sesameUserId := none
  updatedAt := n

/-- Two accounts of one tenant left pending, one a moment after the other. -/
def leftPending : Database :=
  { Database.empty with
    tenants := ⟨[⟨.number 1, "acme", "Acme", "standard", .active, 1⟩], by decide⟩
    domains := ⟨[⟨.number 2, .number 1, "a.example", .active, 2⟩], by decide⟩
    accounts := ⟨[leftAccount 3 "first", leftAccount 4 "second"], by decide⟩ }

/-- sesame-idam refuses the older one for good. -/
def refusesFirst (x : ProvisionUser) : Except ProviderError Uuid :=
  if x.email = "first@a.example" then .error (.internal "already exists") else .ok (.number 5)

theorem accepted_refusesFirst (x : ProvisionUser) :
    accepted refusesFirst x = !decide (x.email = "first@a.example") := by
  by_cases h : x.email = "first@a.example" <;>
    simp [accepted, refusesFirst, h, Except.isOk, Except.toBool]

theorem leftPending_constraints : Constraints leftPending where
  slug_check := by
    simp only [leftPending, Table.mem_def, List.mem_singleton, forall_eq]
    decide +kernel
  slug_unique := by simp [leftPending, Table.mem_def]
  fqdn_check := by
    simp only [leftPending, Table.mem_def, List.mem_singleton, forall_eq]
    decide +kernel
  fqdn_unique := by simp [leftPending, Table.mem_def]
  domain_tenant := by simp [leftPending, Table.mem_def]
  email_unique := by simp [leftPending, Table.mem_def, leftAccount]
  quota_check := by
    simp only [leftPending, Table.mem_def, List.mem_cons, List.not_mem_nil, or_false,
      forall_eq_or_imp, forall_eq]
    decide
  account_tenant := by simp [leftPending, Table.mem_def, leftAccount]
  account_domain := by simp [leftPending, Table.mem_def, leftAccount]
  policy_check := by simp [leftPending, Database.empty]
  policy_tenant := by simp [leftPending, Database.empty]
  decision_check := by simp [leftPending, Database.empty]
  item_unique := by simp [leftPending, Database.empty]
  item_reported := by simp [leftPending, Database.empty]
  item_decision := by simp [leftPending, Database.empty]

/-- With batches of two the refused account is not in the way. -/
theorem reconcile_reaches_iff_leftPending :
    ∃ a' ∈ ((cycle ⟨Oracle.number, refusesFirst⟩ 2)^[leftPending.accounts.rows.countP
        AccountRow.isPending] ⟨leftPending, Session.new, 0⟩).store.accounts,
      a'.id = (leftAccount 4 "second").id ∧ a'.status = .active :=
  (reconcile_reaches_iff (z := ⟨leftPending, Session.new, 0⟩)
    (S := fun e => !decide (e = "first@a.example")) Session.idle_new leftPending_constraints
    (by decide : (1 : Int) ≤ 2) accepted_refusesFirst).2
    (by change ∀ a ∈ leftPending.accounts.rows, _; decide +kernel) Oracle.number
    (leftAccount 4 "second") (List.mem_cons_of_mem _ List.mem_cons_self) (by decide)

/-- With batches of one it is: every cycle takes it and nothing else. -/
theorem reconcile_starves :
    ¬∀ (z : Solo Session Database) (batch : Int) (oracle : Nat → Oracle)
        (answer : ProvisionUser → Except ProviderError Uuid) (S : String → Bool),
      z.session.Idle → Constraints z.store → 1 ≤ batch →
      (∀ x, accepted answer x = S x.email) → ∀ a ∈ z.store.accounts, a.isPending = true →
        ∃ a' ∈ ((cycle ⟨oracle, answer⟩ batch)^[z.store.accounts.rows.countP
            AccountRow.isPending] z).store.accounts,
          a'.id = a.id ∧
            a'.status = if S a.email = true then .active else .pendingProvisioning := by
  intro h
  have hreached := h ⟨leftPending, Session.new, 0⟩ 1 Oracle.number refusesFirst
    (fun e => !decide (e = "first@a.example")) Session.idle_new leftPending_constraints (by decide)
    accepted_refusesFirst
  revert hreached
  change ¬∀ a ∈ leftPending.accounts.rows, _
  simp only [Table.mem_def]
  decide +kernel

end OpenGroupware
