import OpenGroupware.Thresholds
import OpenGroupware.Compilation

/-!
The schema gate. The document of a cycle is validated before it is written;
whatever the tenants have stored, it is valid, so no tenant stops the settings
of the others.
-/

namespace OpenGroupware

open Relational Transactional Text

/-- What the schema asks of the entry of a tenant. -/
structure TenantPolicy.Admissible (p : TenantPolicy) : Prop where
  slug : p.slug ≠ ""
  settingsId : settingsIdPattern.rmatch p.settingsId.toList = true
  domains : p.domains ≠ []
  names : ∀ f ∈ p.domains, f ≠ ""
  reject : p.reject.isFinite = true
  addHeader : p.addHeader.isFinite = true
  greylist : p.greylist.isFinite = true

theorem hasType_ofF64 {x : F64} (h : x.isFinite = true) :
    (Json.ofF64 x).hasType .number = true := by
  cases x with
  | fin q => rfl
  | nan | negInf | posInf => cases h

theorem one_le_length {s : String} (h : s ≠ "") : 1 ≤ s.length := by
  have hlen : s.length ≠ 0 := fun h0 => h (String.length_eq_zero_iff.1 h0)
  omega

/-- A document whose entries are admissible passes the gate. -/
theorem valid_renderDoc {policies : List TenantPolicy} (h : ∀ p ∈ policies, p.Admissible) :
    settingsSchema.valid (renderDoc policies) = true := by
  have hentries : ∀ p ∈ policies, 1 ≤ p.slug.length ∧
      settingsIdPattern.rmatch p.settingsId.toList = true ∧
      (1 ≤ p.domains.length ∧ ∀ f ∈ p.domains, 1 ≤ f.length) ∧
      (Json.ofF64 p.reject).hasType .number = true ∧
      (Json.ofF64 p.addHeader).hasType .number = true ∧
      (Json.ofF64 p.greylist).hasType .number = true := fun p hp =>
    ⟨one_le_length (h p hp).slug, (h p hp).settingsId,
      ⟨List.length_pos_iff.2 (h p hp).domains, fun f hf => one_le_length ((h p hp).names f hf)⟩,
      hasType_ofF64 (h p hp).reject, hasType_ofF64 (h p hp).addHeader,
      hasType_ofF64 (h p hp).greylist⟩
  simpa [settingsSchema, renderDoc, Schema.valid, Json.hasType, Json.members?, Json.items?,
    Json.string?, Json.number?] using hentries

theorem ne_empty_of_slugCheck {slug : String} (h : slugCheck slug = true) : slug ≠ "" := by
  rintro rfl
  exact absurd h (by decide +kernel)

theorem ne_empty_of_fqdnCheck {fqdn : String} (h : fqdnCheck fqdn = true) : fqdn ≠ "" := by
  rintro rfl
  exact absurd h (by decide +kernel)

/-- The settings id of a slug is in the language of the schema. -/
theorem settingsId_matches {slug : String} (h : slugCheck slug = true) :
    settingsIdPattern.rmatch (settingsId slug).toList = true := by
  have hne : slug.toList ≠ [] := fun hnil =>
    ne_empty_of_slugCheck h (String.toList_eq_nil_iff.1 hnil)
  -- dashes become underscores
  have hchars : lowerAlnumDash.all (fun c =>
      settingsChars.contains (if c = '-' then '_' else c)) = true := by
    decide
  rw [RegularExpression.rmatch_iff_matches', settingsIdPattern, mem_literal_mul]
  refine ⟨slug.toList.map fun c => if c = '-' then '_' else c, mem_plus_oneOf.2 ⟨?_, ?_⟩, ?_⟩
  · simpa using hne
  · intro c hc
    obtain ⟨x, hx, rfl⟩ := List.mem_map.1 hc
    exact List.contains_iff_mem.1 (List.all_eq_true.1 hchars x (slugCheck_chars h x hx))
  · rw [settingsId, String.toList_append]
    exact congrArg ("tenant_".toList ++ ·) String.toList_ofList

theorem AbusePolicy.Ordered.finite {q : AbusePolicy} (h : q.Ordered) :
    q.reject.isFinite = true ∧ q.addHeader.isFinite = true ∧ q.greylist.isFinite = true := by
  obtain ⟨reject, addHeader, greylist, hr, ha, hg, -⟩ := h
  rw [hr, ha, hg]
  exact ⟨rfl, rfl, rfl⟩

/-- The policy of a tenant is admissible when the thresholds are finite. -/
theorem TenantPolicy.Describes.admissible {d : Database} {t : Tenant} {p : TenantPolicy}
    (hd : NameConstraints d) (ht : d.emits t) (hordered : (d.policyOf t.id).Ordered)
    (hp : p.Describes d t) : p.Admissible := by
  obtain ⟨hreject, haddHeader, hgreylist⟩ := hordered.finite
  refine ⟨?_, ?_, ?_, ?_, hp.reject ▸ hreject, hp.addHeader ▸ haddHeader,
    hp.greylist ▸ hgreylist⟩
  · rw [hp.slug]
    exact ne_empty_of_slugCheck (hd.slug_check t ht.1)
  · rw [hp.settingsId]
    exact settingsId_matches (hd.slug_check t ht.1)
  · -- a tenant is emitted with at least one domain
    obtain ⟨f, hf⟩ := ht.2.2
    exact List.ne_nil_of_mem ((hp.domains f).2 hf)
  · intro f hf
    obtain ⟨m, hm, -, -, rfl⟩ := (hp.domains f).1 hf
    exact ne_empty_of_fqdnCheck (hd.fqdn_check m hm)

section

variable {sesame : Bool} {answers : ProvisionUser → Except ProviderError Uuid → Prop} {σ : State}

/-- Whatever a run has stored, the policies that are loaded pass the gate. -/
theorem schema_gate_open (h : Reached sesame answers σ) (collate : String → String → Bool)
    (host : Host) {z : Scene Session Database Files} (hstore : z.store = σ.store)
    (hidle : z.session.Idle) :
    (∀ policies tx z', attempt (compilerPostgres collate) host.hazards loadPolicies.run none z =
        (.ok policies, tx, z') → settingsSchema.valid (renderDoc policies) = true) ∧
      ((∀ i < 4, host.fails (z.clock + i) = false) → ∃ policies tx z',
        attempt (compilerPostgres collate) host.hazards loadPolicies.run none z =
          (.ok policies, tx, z')) := by
  have hinv : Consistent σ.store := ((reached_started sesame answers).inv h).store
  have hd : NameConstraints σ.store := hinv.toConstraints.names
  have hvalid : settingsSchema.valid (renderDoc (loaded collate σ.store)) = true := by
    refine valid_renderDoc fun p hp => ?_
    obtain ⟨t, ht, hdescribes⟩ := (loaded_exact hd collate).1 p hp
    exact hdescribes.admissible hd ht (effective_ordered h t.id 0)
  obtain ⟨s, -, hload⟩ := stage_loadPolicies collate host "" hidle
  constructor
  · intro policies tx z' hrun
    by_cases hfails : ∃ i < 4, host.fails (z.clock + i) = true
    · obtain ⟨i, hi, hfail⟩ := hfails
      obtain ⟨e, tx', y, herror, -⟩ := hload.aborts i hi hfail
      cases hrun.symm.trans herror
    · have hthrough := hload.through fun i hi => Bool.eq_false_iff.2 fun hfail =>
        hfails ⟨i, hi, hfail⟩
      cases hrun.symm.trans hthrough
      rw [hstore]
      exact hvalid
  · exact fun hpass => ⟨_, _, _, hload.through hpass⟩

end

theorem schema_gate_open_equipped :
    ∃ σ, Reached false (fun _ _ => False) σ ∧
      (loaded (fun a b => decide (a ≤ b)) σ.store).length = 1 ∧
      ∀ policies tx z', attempt (compilerPostgres fun a b => decide (a ≤ b))
        (failingHost []).hazards loadPolicies.run none
          ⟨σ.store, fun _ => none, Session.new, 0⟩ = (.ok policies, tx, z') →
        settingsSchema.valid (renderDoc policies) = true := by
  have hplay : ((play false (fun _ _ => False) equipped).any fun σ =>
      decide ((loaded (fun a b => decide (a ≤ b)) σ.store).length = 1)) = true := by
    decide +kernel
  obtain ⟨σ, hσ, h⟩ := reached_of_play hplay
  exact ⟨σ, hσ, of_decide_eq_true h,
    (schema_gate_open hσ _ (failingHost []) (z := ⟨σ.store, fun _ => none, Session.new, 0⟩) rfl
      Session.idle_new).1⟩

end OpenGroupware
