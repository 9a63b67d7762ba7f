import OpenGroupware.Audit
import OpenGroupware.Reconcile
import OpenGroupware.Transactional.Record
import OpenGroupware.Transactional.Told

/-!
Any number of job-runners at work on the same accounts. Their batches overlap
and their provision calls take time; the guard of the persist step lets one of
them through for each account.
-/

namespace OpenGroupware

open Relational Transactional

def Request.isReconcile : Request → Bool
  | .reconcile _ => true
  | .http _ _ => false
  | .operator _ => false

/-- The number of accounts a finished cycle reports. -/
def Answer.activated : Answer → Nat
  | .cycle (.ok n) => n
  | .cycle (.error _) => 0
  | .http _ => 0
  | .operator _ => 0

/-- The provision calls of a run. -/
abbrev ProvisionCall : Type := Call ProvisionUser (Except ProviderError Uuid)

/-- The entries about the reconciliation of an account. -/
def reconciliations (d : Database) (id : Uuid) : List AuditEntry :=
  about ["account.reconciled"] d.auditLog id

/-- The rows the transactions have changed, in order. -/
def touched (hist : List (Commit Request Write)) : List Uuid :=
  (hist.flatMap fun e => changes e.writes).map RowName.entityId

/-- The account was pending and is active now. -/
def Database.moved (d₀ d : Database) : Nat :=
  d₀.accounts.rows.countP fun a => decide (a.status = .pendingProvisioning) &&
    (d.accounts.find? a.id).any fun a' => decide (a'.status = .active)

/-- The account is as it was, and so is what the log says about it. -/
def Untouched (d₀ d : Database) (a : AccountRow) : Prop :=
  a ∈ d.accounts ∧ reconciliations d a.id = reconciliations d₀ a.id

/-- One cycle has activated the account, with the user it was told, and has
logged that in the same transaction. -/
def Reconciled (calls : List ProvisionCall) (d₀ d : Database)
    (hist : List (Commit Request Write)) (a : AccountRow) : Prop :=
  a.status = .pendingProvisioning ∧ ∃ e ∈ hist, ∃ u now entry,
    (⟨e.pid, ⟨a.email, a.displayName⟩, .ok u⟩ : ProvisionCall) ∈ calls ∧
    e.writes = [.account ⟨some a, a.provisioned u now⟩, .audit entry] ∧
    entry.Names a.tenantId "job-runner" "account.reconciled" "account" a.id ∧
    a.provisioned u now ∈ d.accounts ∧
    reconciliations d a.id = reconciliations d₀ a.id ++ [entry]

/-- What any number of cycles make of the accounts of `d₀`. -/
structure ReconcilersExact (d₀ : Database) (calls : List ProvisionCall) (σ : State) : Prop where
  outcome : ∀ a ∈ d₀.accounts,
    Untouched d₀ σ.store a ∨ Reconciled calls d₀ σ.store σ.history a
  known : ∀ a' ∈ σ.store.accounts, ∃ a ∈ d₀.accounts, a.id = a'.id
  /-- No account is changed twice. -/
  once : (touched σ.history).Nodup
  refused : ∀ a ∈ d₀.accounts, (∀ c ∈ calls, c.request = ⟨a.email, a.displayName⟩ →
    ∃ e, c.answer = .error e) → Untouched d₀ σ.store a
  /-- An update changes the row of an account that is still pending. -/
  guarded : ∀ e ∈ σ.history, ∀ c, .account c ∈ e.writes →
    ∃ a ∈ d₀.accounts, c.old = some a ∧ a.status = .pendingProvisioning
  counted : (∀ p ∈ σ.started, ∃ e ∈ σ.replies, e.pid = p ∧ ∃ n, e.answer = .cycle (.ok n)) →
    (σ.replies.map fun e => e.answer.activated).sum = d₀.moved σ.store

/-! ### The invariant -/

theorem touched_append (hist hist' : List (Commit Request Write)) :
    touched (hist ++ hist') = touched hist ++ touched hist' := by
  simp [touched]

theorem Reconciled.append {calls : List ProvisionCall} {d₀ d : Database}
    {hist : List (Commit Request Write)} {a : AccountRow} (h : Reconciled calls d₀ d hist a)
    (hist' : List (Commit Request Write)) : Reconciled calls d₀ d (hist ++ hist') a := by
  obtain ⟨hpending, e, he, h⟩ := h
  exact ⟨hpending, e, List.mem_append_left _ he, h⟩

/-- What every commit keeps. -/
structure Progress (d₀ : Database) (calls : List ProvisionCall) (d : Database)
    (hist : List (Commit Request Write)) : Prop where
  outcome : ∀ a ∈ d₀.accounts, (a.id ∉ touched hist ∧ Untouched d₀ d a) ∨
    (a.id ∈ touched hist ∧ Reconciled calls d₀ d hist a)
  known : ∀ a' ∈ d.accounts, ∃ a ∈ d₀.accounts, a.id = a'.id
  source : ∀ id ∈ touched hist, ∃ a ∈ d₀.accounts, a.id = id
  once : (touched hist).Nodup
  guarded : ∀ e ∈ hist, ∀ c, .account c ∈ e.writes →
    ∃ a ∈ d₀.accounts, c.old = some a ∧ a.status = .pendingProvisioning
  size : hist.countP (fun e => !e.writes.isEmpty) = (touched hist).length

namespace Progress

variable {d₀ d : Database} {calls : List ProvisionCall} {hist : List (Commit Request Write)}

theorem start (d₀ : Database) (calls : List ProvisionCall) : Progress d₀ calls d₀ [] where
  outcome a ha := .inl ⟨by simp [touched], ha, rfl⟩
  known a ha := ⟨a, ha, rfl⟩
  source := by simp [touched]
  once := by simp [touched]
  guarded := by simp
  size := rfl

/-- A transaction that writes nothing. -/
theorem nothing (h : Progress d₀ calls d hist) (p : Nat) (c : Request) :
    Progress d₀ calls d (hist ++ [⟨p, c, []⟩]) := by
  have htouched : touched (hist ++ [⟨p, c, []⟩]) = touched hist := by
    rw [touched_append]
    exact List.append_nil _
  refine ⟨fun a ha => ?_, h.known, ?_, ?_, fun e he c' hc' => ?_, ?_⟩
  · rw [htouched]
    rcases h.outcome a ha with hun | ⟨hmem, hrec⟩
    · exact .inl hun
    · exact .inr ⟨hmem, hrec.append _⟩
  · rw [htouched]
    exact h.source
  · rw [htouched]
    exact h.once
  · rcases List.mem_append.1 he with he | he
    · exact h.guarded e he c' hc'
    · rw [List.mem_singleton.1 he] at hc'
      cases hc'
  · rw [htouched, List.countP_append, h.size]
    rfl

/-- The persist step of a cycle that was told `u` for the account. -/
theorem reconcile (h : Progress d₀ calls d hist) {a : AccountRow} (ha : a ∈ d.accounts)
    (hpending : a.status = .pendingProvisioning) {p : Nat} {c : Request} {u : Uuid}
    {now : Timestamp} {entry : AuditEntry}
    (hcall : (⟨p, ⟨a.email, a.displayName⟩, .ok u⟩ : ProvisionCall) ∈ calls)
    (hentry : entry.Names a.tenantId "job-runner" "account.reconciled" "account" a.id) :
    Progress d₀ calls
      (Write.apply (.audit entry) (Write.apply (.account ⟨some a, a.provisioned u now⟩) d))
      (hist ++ [⟨p, c, [.account ⟨some a, a.provisioned u now⟩, .audit entry]⟩]) := by
  have htouched :
      touched (hist ++ [⟨p, c, [.account ⟨some a, a.provisioned u now⟩, .audit entry]⟩]) =
        touched hist ++ [a.id] := touched_append _ _
  have hkey : ∀ b ∈ d.accounts, b.id = a.id → b = a := fun b hb hid => Table.eq_of_key hb ha hid
  -- the row is still the first one, or it would not be pending
  have hfirst : a ∈ d₀.accounts ∧ a.id ∉ touched hist ∧ Untouched d₀ d a := by
    obtain ⟨a₀, ha₀, hid⟩ := h.known a ha
    rcases h.outcome a₀ ha₀ with ⟨hnot, hun⟩ | ⟨-, -, e, -, u', now', -, -, -, -, hrow, -⟩
    · have heq : a₀ = a := hkey a₀ hun.1 hid
      subst heq
      exact ⟨ha₀, hnot, hun⟩
    · have hactive := congrArg (fun b : AccountRow => b.status) (hkey _ hrow hid)
      rw [hpending] at hactive
      cases hactive
  obtain ⟨ha₀, hnot, hun⟩ := hfirst
  have hlog : ∀ id, reconciliations
      (Write.apply (.audit entry) (Write.apply (.account ⟨some a, a.provisioned u now⟩) d)) id =
        reconciliations d id ++ if a.id = id then [entry] else [] := by
    intro id
    have hsplit : reconciliations (Write.apply (.audit entry) d) id =
        reconciliations d id ++ about ["account.reconciled"] [entry] id := about_append _ _ id
    rw [about_names hentry (by simp)] at hsplit
    exact hsplit
  have hput : ∀ b : AccountRow, b.id ≠ a.id → b ∈ d.accounts →
      b ∈ d.accounts.put (a.provisioned u now) := fun b hne hb =>
    Table.mem_put.2 (.inr ⟨hb, hne⟩)
  refine ⟨fun b hb => ?_, fun b hb => ?_, fun id hid => ?_, ?_, fun e he c' hc' => ?_, ?_⟩
  · rw [htouched]
    by_cases hba : b.id = a.id
    · have heq : b = a := Table.eq_of_key hb ha₀ hba
      subst heq
      refine .inr ⟨by simp, hpending, _, List.mem_append_right _ List.mem_cons_self, u, now, entry,
        hcall, rfl, hentry, Table.mem_put.2 (.inl rfl), ?_⟩
      rw [hlog, if_pos rfl, hun.2]
    · have hsame : reconciliations (Write.apply (.audit entry)
          (Write.apply (.account ⟨some a, a.provisioned u now⟩) d)) b.id =
            reconciliations d b.id := by
        rw [hlog, if_neg (Ne.symm hba), List.append_nil]
      rcases h.outcome b hb with ⟨hbnot, hrow, hsaid⟩ | ⟨hmem, hp, e, he, u', now', entry', h₁, h₂,
        h₃, hrow, hsaid⟩
      · refine .inl ⟨by simp [hbnot, hba], hput b hba hrow, hsame.trans hsaid⟩
      · exact .inr ⟨List.mem_append_left _ hmem, hp, e, List.mem_append_left _ he, u', now',
          entry', h₁, h₂, h₃, hput _ hba hrow, hsame.trans hsaid⟩
  · rcases Table.mem_put.1 hb with rfl | ⟨hb, -⟩
    · exact ⟨a, ha₀, rfl⟩
    · exact h.known b hb
  · rw [htouched] at hid
    rcases List.mem_append.1 hid with hid | hid
    · exact h.source id hid
    · exact ⟨a, ha₀, (List.mem_singleton.1 hid).symm⟩
  · rw [htouched, List.nodup_append]
    refine ⟨h.once, by simp, fun x hx y hy hxy => ?_⟩
    rw [List.mem_singleton] at hy
    exact hnot ((hxy.trans hy) ▸ hx)
  · rcases List.mem_append.1 he with he | he
    · exact h.guarded e he c' hc'
    · rw [List.mem_singleton.1 he] at hc'
      simp only [List.mem_cons, Write.account.injEq, reduceCtorEq, List.not_mem_nil,
        or_false] at hc'
      exact ⟨a, ha₀, by rw [hc'], hpending⟩
  · rw [htouched, List.countP_append, h.size, List.length_append]
    rfl

end Progress

/-- The accounts that moved are those the transactions have changed. -/
theorem Progress.moved_eq {d₀ d : Database} {calls : List ProvisionCall}
    {hist : List (Commit Request Write)} (h : Progress d₀ calls d hist) :
    d₀.moved d = (touched hist).length := by
  have hperm : (touched hist).Perm
      ((d₀.accounts.rows.filter fun a => decide (a.status = .pendingProvisioning) &&
        (d.accounts.find? a.id).any fun a' => decide (a'.status = .active)).map
          fun a => a.id) := by
    refine (List.perm_ext_iff_of_nodup h.once ?_).2 fun id => ⟨fun hid => ?_, fun hid => ?_⟩
    · exact d₀.accounts.nodup.sublist (List.filter_sublist.map _)
    · obtain ⟨a, ha, rfl⟩ := h.source id hid
      rcases h.outcome a ha with ⟨hnot, -⟩ | ⟨-, hpending, e, -, u, now, -, -, -, -, hrow, -⟩
      · exact absurd hid hnot
      · have hfind : d.accounts.find? a.id = some (a.provisioned u now) :=
          Table.find?_eq_some.2 ⟨hrow, rfl⟩
        refine List.mem_map.2 ⟨a, List.mem_filter.2 ⟨ha, ?_⟩, rfl⟩
        simp [hpending, hfind, AccountRow.provisioned]
    · obtain ⟨a, ha, rfl⟩ := List.mem_map.1 hid
      obtain ⟨ha, hmoved⟩ := List.mem_filter.1 ha
      rcases h.outcome a ha with ⟨-, hrow, -⟩ | ⟨hmem, -⟩
      · have hfind : d.accounts.find? a.id = some a := Table.find?_eq_some.2 ⟨hrow, rfl⟩
        rw [hfind] at hmoved
        cases hstatus : a.status <;> simp [hstatus] at hmoved
      · exact hmem
  rw [hperm.length_eq, List.length_map, Database.moved, List.countP_eq_length_filter]

section

variable {sesame : Bool} {answers : ProvisionUser → Except ProviderError Uuid → Prop}
  {d₀ : Database} {calls : List ProvisionCall} {σ : State}

/-- The states of runs in which only job-runners are at work, with the calls
they have made. -/
abbrev Reconciling (sesame : Bool) (answers : ProvisionUser → Except ProviderError Uuid → Prop)
    (d₀ : Database) (σ : State) (calls : List ProvisionCall) : Prop :=
  Called (services sesame answers) (fun c => c.isReconcile = true) (fun _ _ => True) d₀
    Session.new σ calls

theorem Progress.commit {p : Nat} {c : Request} {cs : List (List Write)} {d : Database}
    {hist : List (Commit Request Write)} {ws : List Write} (h : Progress d₀ calls d hist)
    (hc : c.isReconcile = true) (hpend : postgres.Pending Write.fits ws d)
    (hpost : Committed (fun x y => (⟨p, x, y⟩ : ProvisionCall) ∈ calls) (fun _ _ => True)
      c cs d ws) :
    Progress d₀ calls (postgres.applyAll ws d) (hist ++ [⟨p, c, ws⟩]) := by
  cases hpost with
  | nothing => exact h.nothing p c
  | reconcile answer pending entry =>
      exact h.reconcile (hpend.fits _ List.mem_cons_self).1 pending answer entry
  | _ => cases hc

/-- Concurrent reconcilers neither lose nor double-count an account. -/
theorem reconcilers_exact (hd₀ : Consistent d₀) (h : Reconciling sesame answers d₀ σ calls) :
    ReconcilersExact d₀ calls σ := by
  have hs : (contract answers fun _ _ => True).Started (services sesame answers)
      (fun c => c.isReconcile = true) d₀ Session.new := services_started hd₀
  -- a program is told no more than the calls of the run say
  have programs : ∀ (p : Nat) (c : Request), c.isReconcile = true → ∀ d, Consistent d →
      ((contract answers fun _ _ => True).committing
        (Committed (fun x y => (⟨p, x, y⟩ : ProvisionCall) ∈ calls) fun _ _ => True)).Outline
          ((services sesame answers).told fun x y => (⟨p, x, y⟩ : ProvisionCall) ∈ calls)
          c d (c.program sesame) [] d none := fun _ c _ d _ => program_kept c d
  have hprogress : Progress d₀ calls σ.store σ.history :=
    (hs.told_induction programs (Progress.start d₀ calls)
      (fun _ _ _ _ _ _ hc _ hpend hpost hJ => hJ.commit hc hpend hpost) h fun _ hc => hc).2
  have houtcome : ∀ a ∈ d₀.accounts,
      Untouched d₀ σ.store a ∨ Reconciled calls d₀ σ.store σ.history a := by
    intro a ha
    rcases hprogress.outcome a ha with ⟨-, hun⟩ | ⟨-, hrec⟩
    · exact .inl hun
    · exact .inr hrec
  refine ⟨houtcome, hprogress.known, hprogress.once, fun a ha hfailed => ?_, hprogress.guarded,
    fun hall => ?_⟩
  · rcases houtcome a ha with hun | ⟨-, e, -, u, -, -, hcall, -⟩
    · exact hun
    · obtain ⟨err, herr⟩ := hfailed _ hcall rfl
      cases herr
  · have hrecorded := h.reachable.recorded
    have hcount : ∀ r ∈ σ.replies, r.answer.activated =
        r.commits.countP fun ws => !ws.isEmpty := by
      intro r hr
      obtain ⟨r', hr', hpid, n, hn⟩ := hall r.pid (by
        by_contra hnot
        exact (hrecorded.fresh r.pid hnot).2.2 r hr rfl)
      have hsame : r' = r := List.inj_on_of_nodup_map hrecorded.once hr' hr hpid
      rw [hsame] at hn
      obtain ⟨d, -, -, hret⟩ := hs.replies_ret h.reachable r hr
      have hret : Answered r.request r.since r.commits d r.answer := hret
      rw [hn] at hret ⊢
      generalize r.request = c, r.commits = cs at hret ⊢
      cases hret with
      | cycle count => exact count
    rw [List.map_congr_left hcount, hrecorded.sum_commits (fun p hp => ?_), hprogress.size,
      hprogress.moved_eq]
    obtain ⟨r, hr, hpid, -⟩ := hall p hp
    exact ⟨r, hr, hpid⟩

end

/-! ### Two cycles at once -/

theorem leftPending_consistent : Consistent leftPending where
  toConstraints := leftPending_constraints
  account_addressed := by
    have hdomain : (⟨.number 2, .number 1, "a.example", .active, 2⟩ : Domain) ∈
        leftPending.domains := List.mem_cons_self
    intro a ha
    simp only [leftPending, Table.mem_def, List.mem_cons, List.not_mem_nil, or_false] at ha
    rcases ha with rfl | rfl
    · exact ⟨_, hdomain, rfl, rfl, "first", by decide, rfl⟩
    · exact ⟨_, hdomain, rfl, rfl, "second", by decide, rfl⟩

/-- Both read the same batch. One is refused the first account, which the other
activates, and the other finds the second account activated. -/
def overlapping : List Event :=
  [.spawn 0 (.reconcile 50), .spawn 1 (.reconcile 50)] ++ undisturbed 0 30 2 ++
    undisturbed 1 40 2 ++
  [.call 0 (.error (.unavailable "timeout")), .call 0 (.ok (.number 901))] ++
    undisturbed 0 50 3 ++ [.reply 0] ++
  [.call 1 (.ok (.number 900))] ++ undisturbed 1 60 3 ++
    [.call 1 (.ok (.number 901))] ++ undisturbed 1 70 2 ++ [.reply 1]

theorem reconcilers_exact_overlapping :
    ∃ σ calls, Reconciling true (fun _ _ => True) leftPending σ calls ∧
      (σ.replies.map fun e => e.answer.activated) = [1, 1] ∧ leftPending.moved σ.store = 2 ∧
      ReconcilersExact leftPending calls σ := by
  have hreplay : ((replay (services true fun _ _ => True) (fun c => c.isReconcile = true)
      (fun _ _ => True) (Sys.init leftPending Session.new) overlapping).any fun σ =>
        decide ((σ.replies.map fun e => e.answer.activated) = [1, 1] ∧
          leftPending.moved σ.store = 2)) = true := by
    decide +kernel
  obtain ⟨σ, hσ, h⟩ := exists_of_replay hreplay
  obtain ⟨hcounts, hmoved⟩ := of_decide_eq_true h
  obtain ⟨calls, hcalled⟩ := hσ.called
  exact ⟨σ, calls, hcalled, hcounts, hmoved, reconcilers_exact leftPending_consistent hcalled⟩

end OpenGroupware
