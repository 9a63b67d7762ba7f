import OpenGroupware.Settings
import OpenGroupware.Text.Search

/-!
Which blocks of the settings file a recipient address selects. Rspamd decodes
the quoted entries before it takes them for expressions, and the backslash
before a dot does not survive the decoding.
-/

namespace OpenGroupware

open Relational Text Text.Ucl

/-- The expression between the slashes of a decoded entry. -/
def expression? : List Char → Option (List Char)
  | '/' :: cs => if cs.getLast? = some '/' then some cs.dropLast else none
  | _ => none

/-- An entry matches an address, which is compared in lower case. -/
def entryMatches (address : List Char) : Atom → Bool
  | .quoted raw =>
      (expression? (unescape raw)).any fun e => search e (address.map Char.toLower)
  | .word _ => false

/-- Some entry of a block matches an address. -/
def bodyMatches (address : List Char) (body : Items) : Bool :=
  match body.value? "rcpt".toList with
  | some (.array items) => items.any (entryMatches address)
  | _ => false

/-- A block of that name applies to an address. -/
def Applies (blocks : List (List Char × Items)) (name : List Char) (address : List Char) : Prop :=
  ∃ b ∈ blocks, b.1 = name ∧ bodyMatches address b.2 = true

/-- The blocks that apply to an address are those of the active tenant that has
the domain of the address as an active domain. -/
def RoutedExactly (d : Database) (text : String) (localPart domain : List Char) : Prop :=
  ∀ blocks, lex text.toList = (Items.ofBlocks blocks).tokens → ∀ name,
    (Applies blocks name (localPart ++ '@' :: domain) ↔
      ∃ t ∈ d.tenants, t.status = .active ∧ name = (settingsId t.slug).toList ∧
        d.serves t (String.ofList (domain.map Char.toLower)))

/-! ### Entries -/

theorem toLower_eq_at {c : Char} : c.toLower = '@' ↔ c = '@' := by
  have htable : ∀ n < 128, (Char.ofNat n).toLower = '@' → Char.ofNat n = '@' := by decide
  constructor
  · intro h
    by_cases hlt : c.toNat < 128
    · have hc := htable c.toNat hlt
      rw [Char.ofNat_toNat] at hc
      exact hc h
    · -- only letters change
      have hno : ¬(c.val ≥ 'A'.val ∧ c.val ≤ 'Z'.val) := by
        rintro ⟨-, hz⟩
        have hz : c.val.toNat ≤ 90 := hz
        have hc : c.toNat = c.val.toNat := rfl
        omega
      have hsame : c.toLower = c := dif_neg hno
      rwa [hsame] at h
  · rintro rfl
    decide

/-- The characters of names are none of the special ones of expressions. -/
theorem literal_of_fqdnCheck {fqdn : String} (h : fqdnCheck fqdn = true) {c : Char}
    (hc : c ∈ fqdn.toList) : c ≠ '\\' ∧ c ≠ '$' := by
  have hmem := List.contains_iff_mem.2 (fqdnCheck_chars h c hc)
  constructor
  · rintro rfl
    exact absurd hmem (by decide)
  · rintro rfl
    exact absurd hmem (by decide)

/-- Decoding drops the backslashes. -/
theorem unescape_rcptRaw {fqdn : String} (h : fqdnCheck fqdn = true) :
    unescape (rcptRaw fqdn) = '/' :: '@' :: fqdn.toList ++ ['$', '/'] := by
  have hname : ∀ cs : List Char, (∀ c ∈ cs, c ≠ '\\') →
      unescape ((cs.flatMap fun c => if c = '.' then ['\\', '.'] else [c]) ++ ['$', '/']) =
        cs ++ ['$', '/'] := by
    intro cs hcs
    induction cs with
    | nil => rfl
    | cons c cs ih =>
        have hc := hcs c List.mem_cons_self
        have ih := ih fun x hx => hcs x (List.mem_cons_of_mem _ hx)
        rw [List.flatMap_cons, List.append_assoc]
        split
        · rename_i hdot
          rw [hdot]
          exact congrArg _ ih
        · rw [List.singleton_append, List.cons_append, ← ih, unescape]
          all_goals
            intros
            exact hc (by assumption)
  have hmem : ∀ c ∈ fqdn.toList, c ≠ '\\' := fun c hc => (literal_of_fqdnCheck h hc).1
  have hslash : ∀ cs, unescape ('/' :: '@' :: cs) = '/' :: '@' :: unescape cs := fun _ => rfl
  rw [rcptRaw, List.cons_append, List.cons_append, hslash, hname _ hmem]
  rfl

/-- An entry matches every address whose domain agrees with the entry's wherever
that has no dot. -/
theorem entryMatches_rcptRaw {fqdn : String} (h : fqdnCheck fqdn = true)
    {localPart domain : List Char} (hlocal : '@' ∉ localPart) (hdomain : '@' ∉ domain) :
    entryMatches (localPart ++ '@' :: domain) (.quoted (rcptRaw fqdn)) = true ↔
      DotMatch fqdn.toList (domain.map Char.toLower) := by
  have hexpr : expression? ('/' :: '@' :: fqdn.toList ++ ['$', '/']) =
      some ('@' :: fqdn.toList ++ ['$']) := by
    have hsplit : '@' :: (fqdn.toList ++ ['$', '/']) = ('@' :: fqdn.toList ++ ['$']) ++ ['/'] := by
      rw [List.append_assoc]
      rfl
    rw [List.cons_append, List.cons_append, expression?, hsplit, List.getLast?_concat, if_pos rfl,
      List.dropLast_concat]
  have hat : ∀ {cs : List Char}, '@' ∉ cs → '@' ∉ cs.map Char.toLower := by
    intro cs hcs hmem
    obtain ⟨c, hc, hlow⟩ := List.mem_map.1 hmem
    exact hcs (toLower_eq_at.1 hlow ▸ hc)
  have haddress : (localPart ++ '@' :: domain).map Char.toLower =
      localPart.map Char.toLower ++ '@' :: domain.map Char.toLower := by
    rw [List.map_append, List.map_cons, toLower_eq_at.2 rfl]
  rw [entryMatches, unescape_rcptRaw h, hexpr, haddress]
  exact search_cons (by decide) (fun c hc => literal_of_fqdnCheck h hc) (hat hlocal) (hat hdomain)

/-! ### Blocks -/

theorem bodyMatches_settingsBody {print : F64 → String} {p : TenantPolicy}
    (h : ∀ f ∈ p.domains, fqdnCheck f = true) {localPart domain : List Char}
    (hlocal : '@' ∉ localPart) (hdomain : '@' ∉ domain) :
    bodyMatches (localPart ++ '@' :: domain) (settingsBody print p) = true ↔
      ∃ f ∈ p.domains, DotMatch f.toList (domain.map Char.toLower) := by
  have hitems : bodyMatches (localPart ++ '@' :: domain) (settingsBody print p) =
      (p.domains.map fun f => Atom.quoted (rcptRaw f)).any
        (entryMatches (localPart ++ '@' :: domain)) := rfl
  rw [hitems, List.any_map, List.any_eq_true]
  constructor
  · rintro ⟨f, hf, hmatch⟩
    exact ⟨f, hf, (entryMatches_rcptRaw (h f hf) hlocal hdomain).1 hmatch⟩
  · rintro ⟨f, hf, hmatch⟩
    exact ⟨f, hf, (entryMatches_rcptRaw (h f hf) hlocal hdomain).2 hmatch⟩

section

variable {d : Database} {s : Session} {rows : List PolicyRow} {print : F64 → String}
  {read : String → Option F64}

/-- The settings of a tenant apply to the addresses at names that agree with
one of its domains wherever that has no dot. -/
theorem applies_iff (hd : NameConstraints d) (hs : s.ForPlatform)
    (hrows : rows.Perm (Sql.joinPolicies s d)) {localPart domain name : List Char}
    (hlocal : '@' ∉ localPart) (hdomain : '@' ∉ domain) :
    Applies (settingsBlocks print (tenantPolicies rows)) name (localPart ++ '@' :: domain) ↔
      ∃ t f, d.emits t ∧ name = (settingsId t.slug).toList ∧ d.serves t f ∧
        DotMatch f.toList (domain.map Char.toLower) := by
  obtain ⟨hsound, hcomplete⟩ := tenantPolicies_exact hd hs hrows
  have hfqdn : ∀ {t : Tenant} {p : TenantPolicy}, p.Describes d t →
      ∀ f ∈ p.domains, fqdnCheck f = true := by
    intro t p hp f hf
    obtain ⟨m, hm, -, -, rfl⟩ := (hp.domains f).1 hf
    exact hd.fqdn_check m hm
  constructor
  · rintro ⟨b, hb, rfl, hmatch⟩
    obtain ⟨p, hp, rfl⟩ := List.mem_map.1 hb
    obtain ⟨t, ht, hpt⟩ := hsound p hp
    obtain ⟨f, hf, hdot⟩ := (bodyMatches_settingsBody (hfqdn hpt) hlocal hdomain).1 hmatch
    exact ⟨t, f, ht, congrArg String.toList hpt.settingsId, (hpt.domains f).1 hf, hdot⟩
  · rintro ⟨t, f, ht, rfl, hf, hdot⟩
    obtain ⟨p, hp, hpt⟩ := hcomplete t ht
    refine ⟨_, List.mem_map.2 ⟨p, hp, rfl⟩, congrArg String.toList hpt.settingsId, ?_⟩
    exact (bodyMatches_settingsBody (hfqdn hpt) hlocal hdomain).2
      ⟨f, (hpt.domains f).2 hf, hdot⟩

/-- Routing is exact for an address exactly when every name of a tenant with
settings that agrees with the domain of the address, save where it has a dot,
is of the tenant that has that domain. -/
theorem routed_exactly_iff (hd : NameConstraints d) (hs : s.ForPlatform)
    (hrows : rows.Perm (Sql.joinPolicies s d))
    (hprint : ∀ t, d.emits t → Printed print read (d.policyOf t.id).reject ∧
      Printed print read (d.policyOf t.id).addHeader ∧
      Printed print read (d.policyOf t.id).greylist) {localPart domain : List Char}
    (hlocal : '@' ∉ localPart) (hdomain : '@' ∉ domain) :
    RoutedExactly d (renderUcl print (tenantPolicies rows)) localPart domain ↔
      ∀ t f, d.emits t → d.serves t f → DotMatch f.toList (domain.map Char.toLower) →
        d.serves t (String.ofList (domain.map Char.toLower)) := by
  have hall : ∀ p ∈ tenantPolicies rows, p.Writable print read := by
    intro p hp
    obtain ⟨t, ht, hdescribes⟩ := (tenantPolicies_exact hd hs hrows).1 p hp
    exact hdescribes.writable hd ht.1 (hprint t ht).1 (hprint t ht).2.1 (hprint t ht).2.2
  have hread : RoutedExactly d (renderUcl print (tenantPolicies rows)) localPart domain ↔
      ∀ name, Applies (settingsBlocks print (tenantPolicies rows)) name
          (localPart ++ '@' :: domain) ↔
        ∃ t ∈ d.tenants, t.status = .active ∧ name = (settingsId t.slug).toList ∧
          d.serves t (String.ofList (domain.map Char.toLower)) := by
    constructor
    · exact fun h => h _ (lex_renderUcl hall)
    · intro h blocks hblocks
      rw [lex_renderUcl hall] at hblocks
      rwa [← Items.ofBlocks_injective (Items.tokens_injective hblocks)]
  rw [hread]
  constructor
  · intro h t f ht hf hdot
    obtain ⟨u, hu, -, hname, hserves⟩ := (h _).1
      ((applies_iff hd hs hrows hlocal hdomain).2 ⟨t, f, ht, rfl, hf, hdot⟩)
    -- the name of a block tells whose it is
    have hslug := settingsId_injective (hd.slug_check t ht.1) (hd.slug_check u hu)
      (String.toList_injective hname)
    rwa [hd.slug_unique t ht.1 u hu hslug]
  · intro h name
    rw [applies_iff hd hs hrows hlocal hdomain]
    constructor
    · rintro ⟨t, f, ht, rfl, hf, hdot⟩
      exact ⟨t, ht.1, ht.2.1, rfl, h t f ht hf hdot⟩
    · rintro ⟨t, ht, hactive, rfl, hserves⟩
      refine ⟨t, _, ⟨ht, hactive, _, hserves⟩, rfl, hserves, ?_⟩
      rw [String.toList_ofList]
      exact DotMatch.refl _

end

/-- Both neighbours' settings apply to an address at one of the domains. -/
theorem neighbours_misrouted :
    NameConstraints neighbours ∧ ¬RoutedExactly neighbours
      (renderUcl printWhole (tenantPolicies (Sql.joinPolicies platformSession neighbours)))
      "ann".toList "a-b.co".toList := by
  refine ⟨neighbours_names, fun h => ?_⟩
  have hs : platformSession.ForPlatform := ⟨.inl rfl, rfl⟩
  have hall : ∀ p ∈ tenantPolicies (Sql.joinPolicies platformSession neighbours),
      p.Writable printWhole readWhole := by
    intro p hp
    obtain ⟨t, ht, hdescribes⟩ :=
      (tenantPolicies_exact neighbours_names hs (List.Perm.refl _)).1 p hp
    obtain ⟨hr, ha, hg⟩ := neighbours_printed t
    exact hdescribes.writable neighbours_names ht.1 hr ha hg
  have hserves : neighbours.serves ⟨⟨1⟩, "acme", "Acme", "standard", .active, 1⟩ "a.b.co" :=
    ⟨⟨⟨3⟩, ⟨1⟩, "a.b.co", .active, 3⟩, by simp [neighbours, Table.mem_def], rfl, rfl, rfl⟩
  have hemits : neighbours.emits ⟨⟨1⟩, "acme", "Acme", "standard", .active, 1⟩ :=
    ⟨by simp [neighbours, Table.mem_def], rfl, _, hserves⟩
  have hdot : DotMatch "a.b.co".toList ("a-b.co".toList.map Char.toLower) := by
    unfold DotMatch
    decide
  have happlies : Applies
      (settingsBlocks printWhole (tenantPolicies (Sql.joinPolicies platformSession neighbours)))
      (settingsId "acme").toList ("ann".toList ++ '@' :: "a-b.co".toList) :=
    (applies_iff neighbours_names hs (List.Perm.refl _) (by decide) (by decide)).2
      ⟨_, _, hemits, rfl, hserves, hdot⟩
  obtain ⟨t, ht, -, hname, m, hm, hT, -, hfqdn⟩ := (h _ (lex_renderUcl hall) _).1 happlies
  have ht : t.id = ⟨1⟩ := by
    rcases (by simpa [neighbours] using Table.mem_def.1 ht :
      t = ⟨⟨1⟩, "acme", "Acme", "standard", .active, 1⟩ ∨
        t = ⟨⟨2⟩, "globex", "Globex", "standard", .active, 2⟩) with rfl | rfl
    · rfl
    · exact absurd hname (by decide)
  rcases (by simpa [neighbours] using Table.mem_def.1 hm :
    m = ⟨⟨3⟩, ⟨1⟩, "a.b.co", .active, 3⟩ ∨ m = ⟨⟨4⟩, ⟨2⟩, "a-b.co", .active, 4⟩) with rfl | rfl
  · exact absurd hfqdn (by decide)
  · rw [ht] at hT
    exact absurd hT (by decide)

theorem routed_exactly_iff_neighbours :
    RoutedExactly neighbours
        (renderUcl printWhole (tenantPolicies (Sql.joinPolicies platformSession neighbours)))
        "ann".toList "a-b.co".toList ↔
      ∀ t f, neighbours.emits t → neighbours.serves t f →
        DotMatch f.toList ("a-b.co".toList.map Char.toLower) →
          neighbours.serves t (String.ofList ("a-b.co".toList.map Char.toLower)) :=
  routed_exactly_iff neighbours_names ⟨.inl rfl, rfl⟩ (List.Perm.refl _)
    (fun t _ => neighbours_printed t) (by decide) (by decide)

end OpenGroupware
