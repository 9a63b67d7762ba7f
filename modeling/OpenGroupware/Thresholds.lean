import OpenGroupware.Evaluation
import OpenGroupware.Settings
import OpenGroupware.Validation

/-!
The thresholds in force. What the settings file says of a tenant is what the
API shows, it is never inverted, and setting it changes it for that tenant
alone.
-/

namespace OpenGroupware

open Relational Text.Ucl Transactional

/-- Finite thresholds in their order. -/
def AbusePolicy.Ordered (p : AbusePolicy) : Prop :=
  ∃ reject addHeader greylist : ℚ, p.reject = .fin reject ∧ p.addHeader = .fin addHeader ∧
    p.greylist = .fin greylist ∧ 0 < greylist ∧ greylist < addHeader ∧ addHeader < reject

theorem ordered_of_policyOk {p : AbusePolicy} {req : SetAbusePolicy}
    (hrow : p.reject = req.reject ∧ p.addHeader = req.addHeader ∧ p.greylist = req.greylist)
    (h : policyOk req = true) : p.Ordered := by
  obtain ⟨reject, addHeader, greylist⟩ := req
  simp only [policyOk, Bool.and_eq_true] at h
  obtain ⟨⟨⟨hr, ha⟩, hg⟩, ⟨hpos, hga⟩, har⟩ := h
  cases reject <;> cases addHeader <;> cases greylist <;> simp [F64.isFinite] at hr ha hg
  simp only [F64.lt, decide_eq_true_eq] at hpos hga har
  exact ⟨_, _, _, hrow.1, hrow.2.1, hrow.2.2, hpos, hga, har⟩

section

variable {sesame : Bool} {answers : ProvisionUser → Except ProviderError Uuid → Prop} {σ : State}

/-- Stored policies are ordered in every run: only accepted ones are stored. -/
theorem stored_ordered (h : Reached sesame answers σ) :
    ∀ p ∈ σ.store.abusePolicy, p.Ordered := by
  refine (reached_started sesame answers).store_induction
    (J := fun d => ∀ p ∈ d.abusePolicy, p.Ordered) (by simp [Database.empty]) ?_ h
  intro c cs d ws _ _ _ hpost hd
  cases hpost with
  | putPolicy valid _ _ row => exact Write.forall_put hd (ordered_of_policyOk row.2 valid)
  | _ => exact hd

/-- The policy in force for a tenant is ordered, set or not. -/
theorem effective_ordered (h : Reached sesame answers σ) (T : Uuid) (now : Timestamp) :
    ((σ.store.abusePolicy.find? T).getD (AbusePolicy.defaults T now)).Ordered := by
  cases hfind : σ.store.abusePolicy.find? T with
  | none => exact ⟨15, 6, 4, rfl, rfl, rfl, by decide, by decide, by decide⟩
  | some p => exact stored_ordered h p (Table.find?_eq_some.1 hfind).1

end

/-! ### What the API shows -/

variable {w : Weather} {z : Solo Session Database}

theorem selectPolicy_forTenant {s : Session} {T : Uuid} (hs : s.ForTenant T) (d : Database) :
    Sql.selectPolicy s d T = d.abusePolicy.find? T := by
  unfold Sql.selectPolicy
  cases h : d.abusePolicy.find? T with
  | none => rfl
  | some p =>
      have hT := (Table.find?_eq_some.1 h).2
      rw [Option.filter_eq_some_iff]
      exact ⟨rfl, (hs.sees_iff _).2 (congrArg some hT)⟩

/-- The response to a request for a tenant's policy. -/
def policyResponse (d : Database) (T : Uuid) (now : Timestamp) : Response :=
  .ok (.policy ((d.abusePolicy.find? T).getD (AbusePolicy.defaults T now)))

theorem eval_getPolicy (hidle : z.session.Idle) (T : Uuid) (now : Timestamp) :
    (eval postgres w (getPolicy T now).serve none z).1 =
      .http (policyResponse z.store T now) := by
  have hs := hidle.forTenant (w.oracle z.clock) T
  unfold getPolicy
  rw [Handler.eval_tenantTx]
  generalize (z.session.openTx (w.oracle z.clock)).setConfig .currentTenantId T.toText = s at hs ⊢
  have hexec : Sql.exec (.selectPolicy T) s (w.oracle (z.clock + 2)) z.store =
      .ok (z.store.abusePolicy.find? T, s, []) := by
    rw [Sql.exec, selectPolicy_forTenant hs]
  rw [Handler.eval_query hexec, Handler.eval_commit, Handler.eval_pure]
  rfl

/-! ### Setting a policy -/

/-- The store after a policy has been set. -/
def Database.withPolicy (d : Database) (T : Uuid) (req : SetAbusePolicy) (now : Timestamp)
    (e : AuditEntry) : Database :=
  { d with
    abusePolicy := d.abusePolicy.put ⟨T, req.reject, req.addHeader, req.greylist, now⟩
    auditLog := d.auditLog ++ [e] }

/-- A request that is answered with success has stored an accepted policy. -/
theorem eval_putPolicy {T : Uuid} {caller : Caller} {req : SetAbusePolicy}
    (h : (eval postgres w (putPolicy T caller req).serve none z).1.status = some 200) :
    policyOk req = true ∧ ∃ now e,
      (eval postgres w (putPolicy T caller req).serve none z).2.store =
        z.store.withPolicy T req now e := by
  unfold putPolicy at h ⊢
  by_cases hok : policyOk req = true
  · have hvalid : validatePolicy req = .ok () := if_pos hok
    refine ⟨hok, ?_⟩
    rw [Handler.eval_check hvalid, Handler.eval_tenantTx] at h ⊢
    generalize (z.session.openTx (w.oracle z.clock)).setConfig .currentTenantId T.toText = s
      at h ⊢
    cases hexec : Sql.exec (.upsertPolicy T req.reject req.addHeader req.greylist) s
        (w.oracle (z.clock + 2)) z.store with
    | error e =>
        rw [Handler.eval_query_error hexec] at h
        exact absurd h (error_status_ne e)
    | ok r =>
        obtain ⟨p, s', ws⟩ := r
        obtain ⟨-, -, rfl, hws⟩ := Sql.upsertPolicy_ok (Sql.keep_eq_ok.1 hexec).1
        obtain ⟨old, rfl⟩ : ∃ old, ws = [.abusePolicy
            ⟨old, ⟨T, req.reject, req.addHeader, req.greylist, s.now⟩⟩] := by
          rcases hws with ⟨old, -, -, rfl⟩ | ⟨-, -, rfl⟩
          · exact ⟨some old, rfl⟩
          · exact ⟨none, rfl⟩
        rw [Handler.eval_query hexec] at h ⊢
        rcases Handler.eval_record_cases _ _ _ with ⟨err, hrecord⟩ | hrecord
        · rw [hrecord] at h
          exact absurd h (error_status_ne err)
        · rw [hrecord, Handler.eval_commit, Handler.serve_pure]
          exact ⟨_, _, rfl⟩
  · have hvalid : validatePolicy req = .error (.validation
        "thresholds must be finite and satisfy 0 < greylist < add_header < reject") := if_neg hok
    rw [Handler.serve_check, hvalid] at h
    have h : some 422 = some 200 := h
    cases h

section

variable {d : Database} {T : Uuid} {req : SetAbusePolicy} {now : Timestamp} {e : AuditEntry}

theorem policyOf_withPolicy (T' : Uuid) : (d.withPolicy T req now e).policyOf T' =
    if T = T' then ⟨T, req.reject, req.addHeader, req.greylist, now⟩ else d.policyOf T' := by
  simp only [Database.policyOf, Database.withPolicy, Table.find?_put]
  split
  · rfl
  · rfl

/-- Other thresholds in the rows of one slug, if there is one. -/
def PolicyRow.update (slug : Option String) (req : SetAbusePolicy) (r : PolicyRow) : PolicyRow :=
  if slug = some r.slug then
    { r with reject := req.reject, addHeader := req.addHeader, greylist := req.greylist }
  else r

theorem PolicyRow.update_names (slug : Option String) (req : SetAbusePolicy) (r : PolicyRow) :
    (r.update slug req).slug = r.slug ∧ (r.update slug req).fqdn = r.fqdn := by
  unfold PolicyRow.update
  split
  · exact ⟨rfl, rfl⟩
  · exact ⟨rfl, rfl⟩

/-- Setting a policy changes the thresholds in the tenant's rows. -/
theorem joinPolicies_withPolicy (hd : NameConstraints d) {s : Session} (hs : s.ForPlatform) :
    Sql.joinPolicies s (d.withPolicy T req now e) =
      (Sql.joinPolicies s d).map (PolicyRow.update ((d.tenants.find? T).map Tenant.slug) req) := by
  rw [joinPolicies_eq hs, joinPolicies_eq hs, List.map_flatMap]
  refine List.flatMap_congr fun t hrow => ?_
  rw [List.map_map]
  refine List.map_congr_left fun m _ => ?_
  have ht : t ∈ d.tenants := List.mem_of_mem_filter hrow
  have hslug : (d.tenants.find? T).map Tenant.slug = some t.slug ↔ T = t.id := by
    rw [Option.map_eq_some_iff]
    constructor
    · rintro ⟨x, hx, heq⟩
      obtain ⟨hmem, rfl⟩ := Table.find?_eq_some.1 hx
      rw [hd.slug_unique x hmem t ht heq]
    · exact fun hT => ⟨t, Table.find?_eq_some.2 ⟨ht, hT.symm⟩, rfl⟩
  simp only [Function.comp_apply, PolicyRow.update, policyRow, policyOf_withPolicy, hslug]
  split
  · rfl
  · rfl

theorem selectPolicies_withPolicy (hd : NameConstraints d) {s : Session} (hs : s.ForPlatform)
    (collate : String → String → Bool) :
    Sql.selectPolicies collate s (d.withPolicy T req now e) =
      (Sql.selectPolicies collate s d).map
        (PolicyRow.update ((d.tenants.find? T).map Tenant.slug) req) := by
  rw [Sql.selectPolicies, joinPolicies_withPolicy hd hs, Sql.selectPolicies]
  refine (List.map_insertionSort (r := fun a b => Sql.policyOrder collate a b = true)
    (s := fun a b => Sql.policyOrder collate a b = true) _ _ fun a _ b _ => ?_).symm
  obtain ⟨haslug, hafqdn⟩ := PolicyRow.update_names ((d.tenants.find? T).map Tenant.slug) req a
  obtain ⟨hbslug, hbfqdn⟩ := PolicyRow.update_names ((d.tenants.find? T).map Tenant.slug) req b
  simp only [Sql.policyOrder, haslug, hafqdn, hbslug, hbfqdn]

/-- The rows of another tenant are the ones they were. -/
theorem filter_selectPolicies_withPolicy (hd : NameConstraints d) {t : Tenant}
    (ht : t ∈ d.tenants) (hT : t.id ≠ T) {s : Session} (hs : s.ForPlatform)
    (collate : String → String → Bool) :
    (Sql.selectPolicies collate s (d.withPolicy T req now e)).filter
        (fun r => decide (r.slug = t.slug)) =
      (Sql.selectPolicies collate s d).filter fun r => decide (r.slug = t.slug) := by
  have hsame : ((fun r : PolicyRow => decide (r.slug = t.slug)) ∘
      PolicyRow.update ((d.tenants.find? T).map Tenant.slug) req) =
        fun r => decide (r.slug = t.slug) := by
    funext r
    simp only [Function.comp_apply, (PolicyRow.update_names _ _ r).1]
  rw [selectPolicies_withPolicy hd hs, List.filter_map, hsame]
  refine (List.map_congr_left fun r hr => ?_).trans (List.map_id _)
  have hslug : r.slug = t.slug := of_decide_eq_true (List.mem_filter.1 hr).2
  refine if_neg fun hfind => ?_
  obtain ⟨x, hx, heq⟩ := Option.map_eq_some_iff.1 hfind
  obtain ⟨hmem, hid⟩ := Table.find?_eq_some.1 hx
  rw [hd.slug_unique x hmem t ht (heq.trans hslug)] at hid
  exact hT hid

end

/-! ### The policy in force -/

/-- Requests for the policy of a tenant are answered with `q`. -/
def Database.answersPolicy (d : Database) (T : Uuid) (now : Timestamp) (q : AbusePolicy) : Prop :=
  ∀ (w : Weather) (z : Solo Session Database) (sesame : Bool) (caller : Caller), z.store = d →
    z.session.Idle →
      (eval postgres w ((Request.http caller (.getPolicy T now)).program sesame) none z).1 =
        .http (.ok (.policy q))

/-- The thresholds of a block are those of a policy. -/
structure ShowsPolicy (read : String → Option F64) (body : Items) (q : AbusePolicy) : Prop where
  reject : threshold read "reject" body = some q.reject
  addHeader : threshold read "add_header" body = some q.addHeader
  greylist : threshold read "greylist" body = some q.greylist

/-- The settings file and the API show the same policies, in their order. A
policy that is set is shown by both from then on, and nothing else changes. -/
structure PolicyInForce (collate : String → String → Bool) (print : F64 → String)
    (read : String → Option F64) (d : Database) : Prop where
  shown : ∀ t, d.emits t → ∃ body, d.hasBlock collate print t body ∧ ∀ now, ∃ q,
    d.answersPolicy t.id now q ∧ ShowsPolicy read body q ∧ q.Ordered
  set : ∀ (w : Weather) (z : Solo Session Database) (sesame : Bool) (caller : Caller) (T : Uuid)
    (req : SetAbusePolicy), z.store = d →
      (eval postgres w ((Request.http caller (.putPolicy T req)).program sesame)
        none z).1.status = some 200 →
      ∀ d', (eval postgres w ((Request.http caller (.putPolicy T req)).program sesame)
        none z).2.store = d' →
      ∃ q : AbusePolicy, (q.reject = req.reject ∧ q.addHeader = req.addHeader ∧
        q.greylist = req.greylist) ∧ (∀ now, d'.answersPolicy T now q) ∧
      (∀ t ∈ d.tenants, t.id ≠ T → ∀ now, ∃ q, d.answersPolicy t.id now q ∧
        d'.answersPolicy t.id now q) ∧
      (q.Legible print read →
        (∀ t, d.emits t → t.id = T → ∃ body, d'.hasBlock collate print t body ∧
          ShowsPolicy read body q) ∧
        ∀ t ∈ d.tenants, t.id ≠ T → ∀ body,
          (d'.hasBlock collate print t body ↔ d.hasBlock collate print t body))

theorem answersPolicy_policyResponse (d : Database) (T : Uuid) (now : Timestamp) :
    d.answersPolicy T now ((d.abusePolicy.find? T).getD (AbusePolicy.defaults T now)) := by
  rintro w z sesame caller rfl hidle
  exact eval_getPolicy hidle T now

/-- The defaults of a response do not depend on the clock. -/
theorem Says.shows {read : String → Option F64} {d : Database} {t : Tenant}
    {b : List Char × Items} (h : Says read d t b) (now : Timestamp) :
    ShowsPolicy read b.2 ((d.abusePolicy.find? t.id).getD (AbusePolicy.defaults t.id now)) := by
  refine ⟨h.reject.trans ?_, h.addHeader.trans ?_, h.greylist.trans ?_⟩ <;>
    rw [Database.policyOf] <;> cases d.abusePolicy.find? t.id <;> rfl

section

variable {d : Database} {collate : String → String → Bool} {print : F64 → String}
  {read : String → Option F64} {T : Uuid} {req : SetAbusePolicy} {now : Timestamp}
  {e : AuditEntry}

/-- Setting a policy changes no name. -/
theorem NameConstraints.withPolicy (hd : NameConstraints d) :
    NameConstraints (d.withPolicy T req now e) :=
  ⟨hd.1, hd.2, hd.3, hd.4⟩

theorem Database.Legible.withPolicy (h : d.Legible print read)
    (hq : AbusePolicy.Legible ⟨T, req.reject, req.addHeader, req.greylist, now⟩ print read) :
    (d.withPolicy T req now e).Legible print read := by
  intro t ht
  rw [policyOf_withPolicy]
  split
  · exact hq
  · exact h t ht

/-- The block of another tenant is the one it was. -/
theorem hasBlock_withPolicy (hd : NameConstraints d) (h : d.Legible print read)
    (h' : (d.withPolicy T req now e).Legible print read) {t : Tenant} (ht : t ∈ d.tenants)
    (hT : t.id ≠ T) (body : Items) :
    (d.withPolicy T req now e).hasBlock collate print t body ↔
      d.hasBlock collate print t body := by
  rw [Database.hasBlock_iff hd h ht, Database.hasBlock_iff hd.withPolicy h' ht]
  refine exists_congr fun p => and_congr_left fun hp => ?_
  rw [loaded, mem_tenantPolicies, loaded, mem_tenantPolicies, hp.1,
    filter_selectPolicies_withPolicy hd ht hT platformSession_forPlatform]

end

theorem policy_in_force {sesame : Bool}
    {answers : ProvisionUser → Except ProviderError Uuid → Prop} {σ : State}
    (h : Reached sesame answers σ) (collate : String → String → Bool) {print : F64 → String}
    {read : String → Option F64} (hprint : σ.store.Legible print read) :
    PolicyInForce collate print read σ.store := by
  have hinv : Consistent σ.store := ((reached_started sesame answers).inv h).store
  have hd : NameConstraints σ.store := hinv.toConstraints.names
  constructor
  · intro t ht
    obtain ⟨body, hbody⟩ := Database.exists_hasBlock collate hd hprint ht
    obtain ⟨-, hsays⟩ := Database.hasBlock_says hd hprint ht.1 hbody
    exact ⟨body, hbody, fun now => ⟨_, answersPolicy_policyResponse _ _ _, hsays.shows now,
      effective_ordered h t.id now⟩⟩
  · rintro w z sesame' caller T req hstore hserved d' rfl
    obtain ⟨-, now, e, heq⟩ := eval_putPolicy hserved
    rw [hstore] at heq
    have heq : (eval postgres w ((Request.http caller (.putPolicy T req)).program sesame')
      none z).2.store = σ.store.withPolicy T req now e := heq
    rw [heq]
    have hrow : (σ.store.withPolicy T req now e).abusePolicy.find? T =
        some ⟨T, req.reject, req.addHeader, req.greylist, now⟩ := by
      rw [Database.withPolicy, Table.find?_put, if_pos rfl]
    refine ⟨⟨T, req.reject, req.addHeader, req.greylist, now⟩, ⟨rfl, rfl, rfl⟩, fun now' => ?_,
      fun t _ hT now' => ?_, fun hq => ?_⟩
    · have hanswer := answersPolicy_policyResponse (σ.store.withPolicy T req now e) T now'
      rwa [hrow] at hanswer
    · refine ⟨_, answersPolicy_policyResponse _ _ _, ?_⟩
      have hanswer := answersPolicy_policyResponse (σ.store.withPolicy T req now e) t.id now'
      rwa [Database.withPolicy, Table.find?_put, if_neg (Ne.symm hT)] at hanswer
    · have hprint' := hprint.withPolicy (e := e) hq
      refine ⟨?_, fun t ht hT => hasBlock_withPolicy hd hprint hprint' ht hT⟩
      rintro t ht rfl
      -- the tenant has a block still
      obtain ⟨body, hbody⟩ :=
        Database.exists_hasBlock collate hd.withPolicy hprint' ht
      obtain ⟨-, hsays⟩ := Database.hasBlock_says hd.withPolicy hprint' ht.1 hbody
      have hshows := hsays.shows 0
      rw [hrow] at hshows
      exact ⟨body, hbody, hshows⟩

/-- A tenant with an active domain that has set its policy. -/
def equipped : List Event :=
  let admin : Caller := ⟨"admin", none, []⟩
  [.spawn 0 (.http admin (.createTenant { slug := "acme", name := "Acme" }))] ++
    undisturbed 0 1 3 ++ [.reply 0] ++
  [.spawn 1 (.http admin (.createDomain (.number 2) { fqdn := "acme.example" }))] ++
    undisturbed 1 10 3 ++ [.reply 1] ++
  [.spawn 2 (.operator (.domain (.number 11) .active))] ++ undisturbed 2 20 1 ++ [.reply 2] ++
  [.spawn 3 (.http admin (.putPolicy (.number 2)
    { reject := .fin 20, addHeader := .fin 8, greylist := .fin 5 }))] ++
    undisturbed 3 30 3 ++ [.reply 3]

/-- Another tenant beside it, that has set none. -/
def equippedTwo : List Event :=
  let admin : Caller := ⟨"admin", none, []⟩
  equipped ++
  [.spawn 4 (.http admin (.createTenant { slug := "globex", name := "Globex" }))] ++
    undisturbed 4 40 3 ++ [.reply 4] ++
  [.spawn 5 (.http admin (.createDomain (.number 41) { fqdn := "globex.io" }))] ++
    undisturbed 5 50 3 ++ [.reply 5] ++
  [.spawn 6 (.operator (.domain (.number 51) .active))] ++ undisturbed 6 60 1 ++ [.reply 6]

/-- The state knows an active tenant of this id with an active domain. -/
def knowsActive (d : Database) (T : Uuid) : Bool :=
  (d.tenants.find? T).any fun t => decide (t.status = .active) &&
    d.domains.rows.any fun m => decide (m.tenantId = t.id ∧ m.status = .active)

theorem emits_of_knowsActive {d : Database} {T : Uuid} (h : knowsActive d T = true) :
    ∃ t, d.emits t ∧ t.id = T := by
  obtain ⟨t, ht, h⟩ := (Option.any_eq_true _ _).1 h
  obtain ⟨hstatus, hdomain⟩ := Bool.and_eq_true_iff.1 h
  obtain ⟨m, hm, h⟩ := List.any_eq_true.1 hdomain
  obtain ⟨hT, hactive⟩ := of_decide_eq_true h
  obtain ⟨ht, hid⟩ := Table.find?_eq_some.1 ht
  exact ⟨t, ⟨ht, of_decide_eq_true hstatus, m.fqdn, m, Table.mem_def.2 hm, hT, hactive, rfl⟩, hid⟩

/-- The thresholds of all tenants are these or the defaults. -/
def wholePolicies (d : Database) : Bool :=
  d.tenants.rows.all fun t => decide ((d.policyOf t.id).reject ∈ [F64.fin 20, .fin 15] ∧
    (d.policyOf t.id).addHeader ∈ [F64.fin 8, .fin 6] ∧
    (d.policyOf t.id).greylist ∈ [F64.fin 5, .fin 4])

theorem legible_of_wholePolicies {d : Database} (h : wholePolicies d = true) :
    d.Legible printWhole readWhole := by
  intro t ht
  have h := List.all_eq_true.1 h t (Table.mem_def.1 ht.1)
  obtain ⟨hreject, haddHeader, hgreylist⟩ := of_decide_eq_true h
  simp only [List.mem_cons, List.not_mem_nil, or_false] at hreject haddHeader hgreylist
  constructor
  · rcases hreject with h | h <;> rw [h] <;> exact printed_whole (by decide)
  · rcases haddHeader with h | h <;> rw [h] <;> exact printed_whole (by decide)
  · rcases hgreylist with h | h <;> rw [h] <;> exact printed_whole (by decide)

theorem policy_in_force_twoTenants :
    ∃ (σ : State) (t u : Tenant), Reached false (fun _ _ => False) σ ∧
      (σ.store.emits t ∧
        (σ.store.abusePolicy.find? t.id).map AbusePolicy.reject = some (.fin 20)) ∧
      (σ.store.emits u ∧ σ.store.abusePolicy.find? u.id = none) ∧
      PolicyInForce (fun a b => decide (a ≤ b)) printWhole readWhole σ.store := by
  have hplay : ((play false (fun _ _ => False) equippedTwo).any fun σ =>
      wholePolicies σ.store &&
      (knowsActive σ.store (.number 2) && knowsActive σ.store (.number 41)) &&
      decide ((σ.store.abusePolicy.find? (.number 2)).map AbusePolicy.reject = some (.fin 20) ∧
        σ.store.abusePolicy.find? (.number 41) = none)) = true := by
    decide +kernel
  obtain ⟨σ, hσ, h⟩ := reached_of_play hplay
  simp only [Bool.and_eq_true, decide_eq_true_eq] at h
  obtain ⟨⟨hwhole, hactive, hactive'⟩, hset, hunset⟩ := h
  obtain ⟨t, ht, hid⟩ := emits_of_knowsActive hactive
  obtain ⟨u, hu, hid'⟩ := emits_of_knowsActive hactive'
  rw [← hid] at hset
  rw [← hid'] at hunset
  exact ⟨σ, t, u, hσ, ⟨ht, hset⟩, ⟨hu, hunset⟩,
    policy_in_force hσ _ (legible_of_wholePolicies hwhole)⟩

end OpenGroupware
