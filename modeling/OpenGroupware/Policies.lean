import OpenGroupware.Compiler
import OpenGroupware.Consistency

/-!
What the compiler makes of the tables: one policy for each active tenant with
an active domain, with the tenant's active domains and effective thresholds,
in whatever order the query returns its rows.
-/

namespace OpenGroupware

open Relational

/-- The policy in force for a tenant. -/
def Database.policyOf (d : Database) (T : Uuid) : AbusePolicy :=
  (d.abusePolicy.find? T).getD (AbusePolicy.defaults T 0)

/-- An active domain of a tenant. -/
def Database.serves (d : Database) (t : Tenant) (fqdn : String) : Prop :=
  ∃ m ∈ d.domains, m.tenantId = t.id ∧ m.status = .active ∧ m.fqdn = fqdn

/-- A tenant that has settings. -/
def Database.emits (d : Database) (t : Tenant) : Prop :=
  t ∈ d.tenants ∧ t.status = .active ∧ ∃ fqdn, d.serves t fqdn

/-- The policy says what the tables say about the tenant. -/
structure TenantPolicy.Describes (p : TenantPolicy) (d : Database) (t : Tenant) : Prop where
  slug : p.slug = t.slug
  settingsId : p.settingsId = OpenGroupware.settingsId t.slug
  domains : ∀ fqdn, fqdn ∈ p.domains ↔ d.serves t fqdn
  distinct : p.domains.Nodup
  reject : p.reject = (d.policyOf t.id).reject
  addHeader : p.addHeader = (d.policyOf t.id).addHeader
  greylist : p.greylist = (d.policyOf t.id).greylist

/-- The constraints on the names of tenants and domains. -/
structure NameConstraints (d : Database) : Prop where
  slug_check : ∀ t ∈ d.tenants, slugCheck t.slug = true
  slug_unique : ∀ t ∈ d.tenants, ∀ t' ∈ d.tenants, t.slug = t'.slug → t = t'
  fqdn_check : ∀ m ∈ d.domains, fqdnCheck m.fqdn = true
  fqdn_unique : ∀ m ∈ d.domains, ∀ m' ∈ d.domains, m.fqdn = m'.fqdn → m = m'

theorem Constraints.names {d : Database} (h : Constraints d) : NameConstraints d where
  slug_check := h.slug_check
  slug_unique := h.slug_unique
  fqdn_check := h.fqdn_check
  fqdn_unique := h.fqdn_unique

/-! ### The rows of the query -/

/-- The row of a domain. -/
def policyRow (d : Database) (t : Tenant) (m : Domain) : PolicyRow where
  slug := t.slug
  fqdn := m.fqdn
  reject := (d.policyOf t.id).reject
  addHeader := (d.policyOf t.id).addHeader
  greylist := (d.policyOf t.id).greylist

variable {s : Session} {d : Database} {rows : List PolicyRow}

/-- The defaults of the query are those of the API. -/
theorem joinPolicies_eq (hs : s.ForPlatform) : Sql.joinPolicies s d =
    (d.tenants.rows.filter fun t => decide (t.status = .active)).flatMap fun t =>
      (d.domains.rows.filter fun m =>
        decide (m.tenantId = t.id) && decide (m.status = .active)).map (policyRow d t) := by
  simp only [Sql.joinPolicies, hs.sees, Bool.true_and]
  congr 1
  funext t
  congr 1
  funext m
  rw [policyRow, Database.policyOf]
  cases d.abusePolicy.find? t.id with
  | none => rfl
  | some p => rfl

theorem mem_joinPolicies (hs : s.ForPlatform) {r : PolicyRow} :
    r ∈ Sql.joinPolicies s d ↔ ∃ t ∈ d.tenants, t.status = .active ∧ ∃ m ∈ d.domains,
      m.tenantId = t.id ∧ m.status = .active ∧ r = policyRow d t m := by
  rw [joinPolicies_eq hs]
  simp only [List.mem_flatMap, List.mem_filter, List.mem_map, decide_eq_true_eq,
    Bool.and_eq_true, Table.mem_rows]
  constructor
  · rintro ⟨t, ⟨ht, hactive⟩, m, ⟨hm, hT, hstatus⟩, rfl⟩
    exact ⟨t, ht, hactive, m, hm, hT, hstatus, rfl⟩
  · rintro ⟨t, ht, hactive, m, hm, hT, hstatus, rfl⟩
    exact ⟨t, ⟨ht, hactive⟩, m, ⟨hm, hT, hstatus⟩, rfl⟩

/-- A domain has one row. -/
theorem nodup_joinPolicies (hs : s.ForPlatform) (hd : NameConstraints d) :
    ((Sql.joinPolicies s d).map PolicyRow.fqdn).Nodup := by
  have hrows : ∀ {α κ : Type} {key : α → κ} (t : Table key), t.rows.Nodup :=
    fun t => t.nodup.of_map
  rw [joinPolicies_eq hs, List.map_flatMap, List.nodup_flatMap]
  constructor
  · intro t ht
    rw [List.map_map]
    refine List.Nodup.map_on (fun m hm m' hm' heq => ?_) ((hrows d.domains).filter _)
    exact hd.fqdn_unique m (List.mem_of_mem_filter hm) m' (List.mem_of_mem_filter hm') heq
  · refine ((hrows d.tenants).filter _).imp_of_mem fun {t t'} ht ht' hne => ?_
    rintro fqdn hmem hmem'
    simp only [List.map_map, List.mem_map, List.mem_filter, Bool.and_eq_true,
      decide_eq_true_eq, Table.mem_rows] at hmem hmem'
    obtain ⟨m, ⟨hm, hT, -⟩, rfl⟩ := hmem
    obtain ⟨m', ⟨hm', hT', -⟩, heq⟩ := hmem'
    obtain rfl : m' = m := hd.fqdn_unique m' hm' m hm heq
    exact hne (Table.eq_of_key (List.mem_of_mem_filter ht) (List.mem_of_mem_filter ht')
      (hT.symm.trans hT'))

/-! ### Grouping -/

theorem foldl_push (g : Grouped) (rows : List PolicyRow) :
    rows.foldl Grouped.push g = { g with domains := g.domains ++ rows.map PolicyRow.fqdn } := by
  induction rows generalizing g with
  | nil => simp
  | cons r rows ih =>
      rw [List.foldl_cons, ih, Grouped.push]
      simp

/-- The rows of a slug become its policy. -/
theorem mem_tenantPolicies {p : TenantPolicy} :
    p ∈ tenantPolicies rows ↔ ∃ r, (rows.filter fun r => r.slug = p.slug).head? = some r ∧
      p = tenantPolicy p.slug ⟨(rows.filter fun r => r.slug = p.slug).map PolicyRow.fqdn,
        r.reject, r.addHeader, r.greylist⟩ := by
  have hentry : ∀ {k : String} {g : Grouped}, (k, g) ∈ (groupRows rows).entries ↔
      ∃ r, (rows.filter fun r => r.slug = k).head? = some r ∧
        g = ⟨(rows.filter fun r => r.slug = k).map PolicyRow.fqdn, r.reject, r.addHeader,
          r.greylist⟩ := by
    intro k g
    rw [← Ordered.get_eq_some, groupRows, Ordered.get_group, Option.map_eq_some_iff]
    simp only [foldl_push, Grouped.first, List.nil_append]
    constructor
    · rintro ⟨r, hr, rfl⟩
      exact ⟨r, hr, rfl⟩
    · rintro ⟨r, hr, rfl⟩
      exact ⟨r, hr, rfl⟩
  rw [tenantPolicies, List.mem_map]
  constructor
  · rintro ⟨⟨k, g⟩, he, rfl⟩
    obtain ⟨r, hr, rfl⟩ := hentry.1 he
    exact ⟨r, hr, rfl⟩
  · rintro ⟨r, hr, hp⟩
    refine ⟨(p.slug, ⟨(rows.filter fun r => r.slug = p.slug).map PolicyRow.fqdn, r.reject,
      r.addHeader, r.greylist⟩), hentry.2 ⟨r, hr, rfl⟩, hp.symm⟩

/-- Policies come in the order of their slugs. -/
theorem tenantPolicies_sorted (rows : List PolicyRow) :
    (tenantPolicies rows).Pairwise fun p q => p.slug < q.slug :=
  List.pairwise_map.2 (groupRows rows).sorted

/-- Each tenant with settings has one policy, which describes it, and there
are no others. -/
theorem tenantPolicies_exact (hd : NameConstraints d) (hs : s.ForPlatform)
    (hrows : rows.Perm (Sql.joinPolicies s d)) :
    (∀ p ∈ tenantPolicies rows, ∃ t, d.emits t ∧ p.Describes d t) ∧
      ∀ t, d.emits t → ∃ p ∈ tenantPolicies rows, p.Describes d t := by
  have hmem : ∀ {r}, r ∈ rows ↔ _ := fun {r} => (hrows.mem_iff (a := r)).trans (mem_joinPolicies hs)
  -- the rows of the slug of a tenant are the rows of its domains
  have hslug : ∀ t ∈ d.tenants, t.status = .active → ∀ r,
      r ∈ (rows.filter fun r => r.slug = t.slug) ↔
        ∃ m ∈ d.domains, m.tenantId = t.id ∧ m.status = .active ∧ r = policyRow d t m := by
    intro t ht hactive r
    rw [List.mem_filter, hmem, decide_eq_true_eq]
    constructor
    · rintro ⟨⟨t', ht', -, m, hm, hT, hstatus, rfl⟩, heq⟩
      obtain rfl : t' = t := hd.slug_unique t' ht' t ht heq
      exact ⟨m, hm, hT, hstatus, rfl⟩
    · rintro ⟨m, hm, hT, hstatus, rfl⟩
      exact ⟨⟨t, ht, hactive, m, hm, hT, hstatus, rfl⟩, rfl⟩
  have hnodup : ∀ k, ((rows.filter fun r => r.slug = k).map PolicyRow.fqdn).Nodup := fun k =>
    (List.filter_sublist.map _).nodup ((hrows.map _).nodup_iff.2 (nodup_joinPolicies hs hd))
  have hdescribes : ∀ t ∈ d.tenants, t.status = .active → ∀ r,
      (rows.filter fun r => r.slug = t.slug).head? = some r →
        (tenantPolicy t.slug ⟨(rows.filter fun r => r.slug = t.slug).map PolicyRow.fqdn,
          r.reject, r.addHeader, r.greylist⟩).Describes d t := by
    intro t ht hactive r hr
    obtain ⟨m, -, -, -, rfl⟩ := (hslug t ht hactive r).1 (List.mem_of_mem_head? hr)
    refine ⟨rfl, rfl, fun fqdn => ?_, hnodup _, rfl, rfl, rfl⟩
    simp only [tenantPolicy, List.mem_map, hslug t ht hactive, Database.serves]
    constructor
    · rintro ⟨r, ⟨m, hm, hT, hstatus, rfl⟩, rfl⟩
      exact ⟨m, hm, hT, hstatus, rfl⟩
    · rintro ⟨m, hm, hT, hstatus, rfl⟩
      exact ⟨_, ⟨m, hm, hT, hstatus, rfl⟩, rfl⟩
  constructor
  · intro p hp
    obtain ⟨r, hr, heq⟩ := mem_tenantPolicies.1 hp
    have hrow := List.mem_filter.1 (List.mem_of_mem_head? hr)
    obtain ⟨t, ht, hactive, m, hm, hT, hstatus, rfl⟩ := hmem.1 hrow.1
    have hk : t.slug = p.slug := of_decide_eq_true hrow.2
    rw [← hk] at hr heq
    rw [heq]
    exact ⟨t, ⟨ht, hactive, m.fqdn, m, hm, hT, hstatus, rfl⟩, hdescribes t ht hactive _ hr⟩
  · rintro t ⟨ht, hactive, fqdn, m, hm, hT, hstatus, -⟩
    have hrow := (hslug t ht hactive _).2 ⟨m, hm, hT, hstatus, rfl⟩
    obtain ⟨r, hr⟩ : ∃ r, (rows.filter fun r => r.slug = t.slug).head? = some r :=
      Option.isSome_iff_exists.1 (by
        rw [List.isSome_head?]
        exact List.ne_nil_of_mem hrow)
    exact ⟨_, mem_tenantPolicies.2 ⟨r, hr, rfl⟩, hdescribes t ht hactive r hr⟩

/-! ### Loading -/

/-- A platform session on a new connection. -/
def platformSession : Session := Session.new.setConfig .isPlatformAdmin "true"

theorem platformSession_forPlatform : platformSession.ForPlatform := ⟨.inl rfl, rfl⟩

/-- The policies of a state. -/
def loaded (collate : String → String → Bool) (d : Database) : List TenantPolicy :=
  tenantPolicies (Sql.selectPolicies collate platformSession d)

/-- All platform sessions see the same. -/
theorem tenantPolicies_selectPolicies (hs : s.ForPlatform) (collate : String → String → Bool) :
    tenantPolicies (Sql.selectPolicies collate s d) = loaded collate d := by
  rw [loaded, Sql.selectPolicies, Sql.selectPolicies, joinPolicies_eq hs,
    joinPolicies_eq platformSession_forPlatform]

theorem selectPolicies_perm (collate : String → String → Bool) (s : Session) (d : Database) :
    (Sql.selectPolicies collate s d).Perm (Sql.joinPolicies s d) :=
  List.perm_insertionSort _ _

theorem loaded_exact (hd : NameConstraints d) (collate : String → String → Bool) :
    (∀ p ∈ loaded collate d, ∃ t, d.emits t ∧ p.Describes d t) ∧
      ∀ t, d.emits t → ∃ p ∈ loaded collate d, p.Describes d t :=
  tenantPolicies_exact hd platformSession_forPlatform (selectPolicies_perm collate _ d)

end OpenGroupware
