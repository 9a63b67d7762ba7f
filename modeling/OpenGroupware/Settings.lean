import OpenGroupware.Policies
import OpenGroupware.Text.Ucl

/-!
The settings file read back. Its text is that of one UCL document, a block for
each tenant with settings, from which the tenant's domains and thresholds can
be read.
-/

namespace OpenGroupware

open Relational Text Text.Ucl

/-! ### The text of a block -/

/-- The inside of the quotes of an entry. -/
def rcptRaw (fqdn : String) : List Char :=
  '/' :: '@' :: (fqdn.toList.flatMap fun c => if c = '.' then ['\\', '.'] else [c]) ++ ['$', '/']

/-- What stands in a block. -/
def settingsBody (print : F64 → String) (p : TenantPolicy) : Items :=
  .pair "priority".toList (.atom (.word "10".toList)) <|
  .pair "rcpt".toList (.array (p.domains.map fun fqdn => .quoted (rcptRaw fqdn))) <|
  .block "apply".toList
    (.block "actions".toList
      (.pair "reject".toList (.atom (.word (print p.reject).toList)) <|
       .pair "add_header".toList (.atom (.word (print p.addHeader).toList)) <|
       .pair "greylist".toList (.atom (.word (print p.greylist).toList)) .nil) .nil) .nil

theorem rcptEntry_toList (fqdn : String) :
    (rcptEntry fqdn).toList = '"' :: (rcptRaw fqdn ++ ['"']) := by
  have hopen : "\"/@".toList = ['"', '/', '@'] := by decide
  have hclose : "$/\"".toList = ['$', '/', '"'] := by decide
  simp [rcptEntry, rcptRaw, hopen, hclose]

/-- The characters of names are none of the quoting ones. -/
theorem plain_of_fqdnCheck {fqdn : String} (h : fqdnCheck fqdn = true) {c : Char}
    (hc : c ∈ fqdn.toList) : c ≠ '\\' ∧ c ≠ '"' := by
  have hmem := List.contains_iff_mem.2 (fqdnCheck_chars h c hc)
  constructor
  · rintro rfl
    exact absurd hmem (by decide)
  · rintro rfl
    exact absurd hmem (by decide)

theorem rawOk_rcptRaw {fqdn : String} (h : fqdnCheck fqdn = true) :
    rawOk (rcptRaw fqdn) = true := by
  have hdots : ∀ cs : List Char, (∀ c ∈ cs, c ≠ '\\' ∧ c ≠ '"') →
      rawOk (cs.flatMap fun c => if c = '.' then ['\\', '.'] else [c]) = true := by
    intro cs hcs
    induction cs with
    | nil => rfl
    | cons c cs ih =>
        rw [List.flatMap_cons]
        refine rawOk_append ?_ (ih fun x hx => hcs x (List.mem_cons_of_mem _ hx))
        split
        · decide
        · exact rawOk_of_all (by simp [hcs c List.mem_cons_self])
  have hname := hdots fqdn.toList fun c hc => plain_of_fqdnCheck h hc
  have hstart : rawOk ['/', '@'] = true := by decide
  exact rawOk_append (rawOk_append hstart hname) (by decide)

/-- An entry is one token. -/
theorem lexFrom_rcptEntry {fqdn : String} (h : fqdnCheck fqdn = true) (rest : List Char) :
    lexFrom .gap ((rcptEntry fqdn).toList ++ rest) =
      .quoted (rcptRaw fqdn) :: lexFrom .gap rest := by
  rw [rcptEntry_toList, List.cons_append, List.append_assoc, lexFrom_cons]
  exact lexFrom_quoted (rawOk_rcptRaw h) [] rest

/-- The entries of a block are the items of an array. -/
theorem lexFrom_rcpt {fqdns : List String} (h : ∀ f ∈ fqdns, fqdnCheck f = true)
    (rest : List Char) :
    lexFrom .gap ((", ".intercalate (fqdns.map rcptEntry)).toList ++ ']' :: rest) =
      arrayTokens (fqdns.map fun f => .quoted (rcptRaw f)) ++ lexFrom .gap rest := by
  have hsep : ", ".toList = [',', ' '] := by decide
  rw [String.toList_intercalate, hsep, List.map_map]
  cases fqdns with
  | nil => rfl
  | cons f fs =>
      induction fs generalizing f with
      | nil =>
          simp only [List.map_cons, List.map_nil, List.intercalate_singleton,
            Function.comp_apply]
          rw [lexFrom_rcptEntry (h f List.mem_cons_self)]
          rfl
      | cons g fs ih =>
          simp only [List.map_cons, List.intercalate_cons_cons, Function.comp_apply,
            List.append_assoc]
          rw [lexFrom_rcptEntry (h f List.mem_cons_self)]
          have ih := ih g fun x hx => h x (List.mem_cons_of_mem _ hx)
          simp only [List.map_cons, Function.comp_apply] at ih
          -- the separator is a comma, and space
          have hcomma : ∀ cs, lexFrom .gap ([',', ' '] ++ cs) = .punct ',' :: lexFrom .gap cs :=
            fun _ => rfl
          rw [hcomma, ih]
          rfl

/-- A formatted threshold is a word that reads back to it. -/
structure Printed (print : F64 → String) (read : String → Option F64) (x : F64) : Prop where
  word : (print x).toList.all isWord = true
  nonempty : (print x).toList ≠ []
  reads : read (print x) = some x

theorem isWord_settingsId {slug : String} (h : slugCheck slug = true) :
    (settingsId slug).toList.all isWord = true := by
  have hall : lowerAlnumDash.all (fun c => isWord (if c = '-' then '_' else c)) = true := by
    decide
  have hpre : "tenant_".toList.all isWord = true := by decide
  rw [settingsId, String.toList_append, List.all_append, hpre, String.toList_ofList,
    List.all_map, Bool.true_and, List.all_eq_true]
  exact fun c hc => List.all_eq_true.1 hall c (slugCheck_chars h c hc)

/-- A word, and a text that ends it. -/
theorem lexFrom_gap_word_append {w text : List Char} (h : w.all isWord = true) (hne : w ≠ [])
    (htext : text.head?.any (fun c => !isWord c) = true) (rest : List Char) :
    lexFrom .gap (w ++ (text ++ rest)) = .word w :: lexFrom .gap (text ++ rest) := by
  cases text with
  | nil => cases htext
  | cons c text =>
      have hc : isWord c = false := by simpa using htext
      rw [lexFrom_gap_word h hne, List.cons_append, lexFrom_word_end hc]

/-- A fixed text between words. -/
theorem lexFrom_text {text : String} {tokens : List Token}
    (h : scanAll .gap text.toList = (tokens, .gap)) (rest : List Char) :
    lexFrom .gap (text.toList ++ rest) = tokens ++ lexFrom .gap rest := by
  rw [lexFrom_append, h]

/-- A block is read as a section. -/
theorem lexFrom_settingsBlock {print : F64 → String} {read : String → Option F64}
    {p : TenantPolicy} (hid : p.settingsId.toList.all isWord = true)
    (hne : p.settingsId.toList ≠ []) (hdomains : ∀ f ∈ p.domains, fqdnCheck f = true)
    (hr : Printed print read p.reject) (ha : Printed print read p.addHeader)
    (hg : Printed print read p.greylist) (rest : List Char) :
    lexFrom .gap ((settingsBlock print p).toList ++ rest) =
      .word p.settingsId.toList :: .punct '{' ::
        ((settingsBody print p).tokens ++ .punct '}' :: lexFrom .gap rest) := by
  have hhead : scanAll .gap " \x7b\n  priority = 10;\n  rcpt = [".toList =
      ([.punct '{', .word "priority".toList, .punct '=', .word "10".toList, .punct ';',
        .word "rcpt".toList, .punct '=', .punct '['], .gap) := by
    decide
  have hreject : scanAll .gap ";\n  apply \x7b\n    actions \x7b\n      reject = ".toList =
      ([.punct ';', .word "apply".toList, .punct '{', .word "actions".toList, .punct '{',
        .word "reject".toList, .punct '='], .gap) := by
    decide
  have hheader : scanAll .gap ";\n      add_header = ".toList =
      ([.punct ';', .word "add_header".toList, .punct '='], .gap) := by
    decide
  have hgreylist : scanAll .gap ";\n      greylist = ".toList =
      ([.punct ';', .word "greylist".toList, .punct '='], .gap) := by
    decide
  have hend : scanAll .gap ";\n    \x7d\n  \x7d\n\x7d\n".toList =
      ([.punct ';', .punct '}', .punct '}', .punct '}'], .gap) := by
    decide
  have hbracket : "];\n  apply \x7b\n    actions \x7b\n      reject = ".toList =
      ']' :: ";\n  apply \x7b\n    actions \x7b\n      reject = ".toList := by
    decide
  simp only [settingsBlock, String.toList_append, List.append_assoc]
  rw [lexFrom_gap_word_append hid hne (by decide), lexFrom_text hhead, hbracket]
  simp only [List.cons_append]
  rw [lexFrom_rcpt hdomains, lexFrom_text hreject,
    lexFrom_gap_word_append hr.word hr.nonempty (by decide), lexFrom_text hheader,
    lexFrom_gap_word_append ha.word ha.nonempty (by decide), lexFrom_text hgreylist,
    lexFrom_gap_word_append hg.word hg.nonempty (by decide), lexFrom_text hend]
  simp [settingsBody, Items.tokens, Value.tokens, Atom.token]

/-! ### The text of the file -/

/-- The policies as sections. -/
def settingsBlocks (print : F64 → String) (policies : List TenantPolicy) :
    List (List Char × Items) :=
  policies.map fun p => (p.settingsId.toList, settingsBody print p)

theorem renderUcl_toList (print : F64 → String) (policies : List TenantPolicy) :
    (renderUcl print policies).toList =
      header.toList ++ policies.flatMap fun p => (settingsBlock print p).toList := by
  have hfold : ∀ s : String, (policies.foldl (fun s p => s ++ settingsBlock print p) s).toList =
      s.toList ++ policies.flatMap fun p => (settingsBlock print p).toList := by
    induction policies with
    | nil => simp
    | cons p policies ih =>
        intro s
        rw [List.foldl_cons, ih, String.toList_append, List.flatMap_cons, List.append_assoc]
  exact hfold header

/-- A policy that can be written: a name of word characters, domain names, and
thresholds that are formatted as words. -/
structure TenantPolicy.Writable (p : TenantPolicy) (print : F64 → String)
    (read : String → Option F64) : Prop where
  settingsId : p.settingsId.toList.all isWord = true
  nonempty : p.settingsId.toList ≠ []
  domains : ∀ f ∈ p.domains, fqdnCheck f = true
  reject : Printed print read p.reject
  addHeader : Printed print read p.addHeader
  greylist : Printed print read p.greylist

theorem lex_renderUcl {print : F64 → String} {read : String → Option F64}
    {policies : List TenantPolicy} (h : ∀ p ∈ policies, p.Writable print read) :
    lex (renderUcl print policies).toList =
      (Items.ofBlocks (settingsBlocks print policies)).tokens := by
  have hblocks : lexFrom .gap (policies.flatMap fun p => (settingsBlock print p).toList) =
      (Items.ofBlocks (settingsBlocks print policies)).tokens := by
    induction policies with
    | nil => rfl
    | cons p policies ih =>
        have hp := h p List.mem_cons_self
        rw [List.flatMap_cons, lexFrom_settingsBlock hp.settingsId hp.nonempty hp.domains
          hp.reject hp.addHeader hp.greylist, ih fun q hq => h q (List.mem_cons_of_mem _ hq)]
        rfl
  have hheader : scanAll .gap header.toList = ([], .gap) := by decide +kernel
  rw [lex, renderUcl_toList, lexFrom_text hheader, List.nil_append, hblocks]

/-! ### Reading the settings -/

/-- An entry for a domain without its dots escaped. -/
def undot : List Char → List Char
  | '\\' :: '.' :: cs => '.' :: undot cs
  | c :: cs => c :: undot cs
  | [] => []

/-- The domain of an entry. -/
def decodeRcpt : List Char → Option (List Char)
  | '/' :: '@' :: cs =>
      if cs.drop (cs.length - 2) = ['$', '/'] then some (undot (cs.take (cs.length - 2))) else none
  | _ => none

theorem decodeRcpt_rcptRaw {fqdn : String} (h : fqdnCheck fqdn = true) :
    decodeRcpt (rcptRaw fqdn) = some fqdn.toList := by
  have hundot : ∀ cs : List Char, (∀ c ∈ cs, c ≠ '\\' ∧ c ≠ '"') →
      undot (cs.flatMap fun c => if c = '.' then ['\\', '.'] else [c]) = cs := by
    intro cs hcs
    induction cs with
    | nil => rfl
    | cons c cs ih =>
        have hc := (hcs c List.mem_cons_self).1
        have ih := ih fun x hx => hcs x (List.mem_cons_of_mem _ hx)
        rw [List.flatMap_cons]
        split
        · rename_i hdot
          rw [hdot]
          exact congrArg _ ih
        · rw [List.singleton_append, undot, ih]
          exact fun _ h _ => hc h
  have hname := hundot fqdn.toList fun c hc => plain_of_fqdnCheck h hc
  simp [rcptRaw, decodeRcpt, hname]

def decodeAtom : Atom → Option (List Char)
  | .quoted raw => decodeRcpt raw
  | .word _ => none

/-- The domains a block is for. -/
def recipients (body : Items) : Option (List (List Char)) :=
  match body.value? "rcpt".toList with
  | some (.array items) => items.mapM decodeAtom
  | _ => none

/-- The score of an action of a block. -/
def threshold (read : String → Option F64) (action : String) (body : Items) : Option F64 := do
  let apply ← body.block? "apply".toList
  let actions ← apply.block? "actions".toList
  match ← actions.value? action.toList with
  | .atom (.word w) => read (String.ofList w)
  | _ => none

/-- A block that says what the tables say about the tenant: its name, its
domains, each of them once, and its thresholds. -/
structure Says (read : String → Option F64) (d : Database) (t : Tenant)
    (b : List Char × Items) : Prop where
  name : b.1 = (settingsId t.slug).toList
  recipients : ∃ fqdns : List String, recipients b.2 = some (fqdns.map String.toList) ∧
    fqdns.Nodup ∧ ∀ fqdn, fqdn ∈ fqdns ↔ d.serves t fqdn
  reject : threshold read "reject" b.2 = some (d.policyOf t.id).reject
  addHeader : threshold read "add_header" b.2 = some (d.policyOf t.id).addHeader
  greylist : threshold read "greylist" b.2 = some (d.policyOf t.id).greylist

theorem recipients_settingsBody {print : F64 → String} {p : TenantPolicy}
    (h : ∀ f ∈ p.domains, fqdnCheck f = true) :
    recipients (settingsBody print p) = some (p.domains.map String.toList) := by
  have hmap : ∀ fqdns : List String, (∀ f ∈ fqdns, fqdnCheck f = true) →
      (fqdns.map fun f => Atom.quoted (rcptRaw f)).mapM decodeAtom =
        some (fqdns.map String.toList) := by
    intro fqdns hall
    induction fqdns with
    | nil => rfl
    | cons f fs ih =>
        rw [List.map_cons, List.mapM_cons, ih fun x hx => hall x (List.mem_cons_of_mem _ hx),
          decodeAtom, decodeRcpt_rcptRaw (hall f List.mem_cons_self)]
        rfl
  exact hmap p.domains h

/-- The dashes of a slug are its only characters that change. -/
theorem settingsId_injective {slug slug' : String} (h : slugCheck slug = true)
    (h' : slugCheck slug' = true) (heq : settingsId slug = settingsId slug') : slug = slug' := by
  have hunderscore : lowerAlnumDash.all (fun c => c != '_') = true := by decide
  -- put the dashes back
  have hback : ∀ {slug : String}, slugCheck slug = true →
      (slug.toList.map fun c => if c = '-' then '_' else c).map
        (fun c => if c = '_' then '-' else c) = slug.toList := by
    intro slug h
    rw [List.map_map]
    refine (List.map_congr_left fun c hc => ?_).trans (List.map_id _)
    have hc := bne_iff_ne.1 (List.all_eq_true.1 hunderscore c (slugCheck_chars h c hc))
    by_cases hdash : c = '-'
    · simp [hdash]
    · simp [hdash, hc]
  have hlist := congrArg String.toList heq
  simp only [settingsId, String.toList_append, List.append_cancel_left_eq,
    String.toList_ofList] at hlist
  refine String.toList_injective ?_
  rw [← hback h, ← hback h', hlist]

/-! ### The settings are exact -/

theorem TenantPolicy.Describes.writable {print : F64 → String} {read : String → Option F64}
    {d : Database} {t : Tenant} {p : TenantPolicy} (hd : NameConstraints d)
    (ht : t ∈ d.tenants)
    (hr : Printed print read (d.policyOf t.id).reject)
    (ha : Printed print read (d.policyOf t.id).addHeader)
    (hg : Printed print read (d.policyOf t.id).greylist) (hp : p.Describes d t) :
    p.Writable print read where
  settingsId := by
    rw [hp.settingsId]
    exact isWord_settingsId (hd.slug_check t ht)
  nonempty := by
    have hprefix : "tenant_".toList ≠ [] := by decide
    rw [hp.settingsId, OpenGroupware.settingsId, String.toList_append]
    exact List.append_ne_nil_of_left_ne_nil hprefix _
  domains f hf := by
    obtain ⟨m, hm, -, -, rfl⟩ := (hp.domains f).1 hf
    exact hd.fqdn_check m hm
  reject := hp.reject ▸ hr
  addHeader := hp.addHeader ▸ ha
  greylist := hp.greylist ▸ hg

theorem TenantPolicy.Describes.says {print : F64 → String} {read : String → Option F64}
    {d : Database} {t : Tenant} {p : TenantPolicy} (hp : p.Describes d t)
    (hw : p.Writable print read) : Says read d t (p.settingsId.toList, settingsBody print p) where
  name := congrArg String.toList hp.settingsId
  recipients := ⟨p.domains, recipients_settingsBody hw.domains, hp.distinct, hp.domains⟩
  reject := by
    rw [← hp.reject, ← hw.reject.reads]
    exact congrArg read String.ofList_toList
  addHeader := by
    rw [← hp.addHeader, ← hw.addHeader.reads]
    exact congrArg read String.ofList_toList
  greylist := by
    rw [← hp.greylist, ← hw.greylist.reads]
    exact congrArg read String.ofList_toList

/-- No two tenants have settings of one name. -/
theorem nodup_settingsBlocks {d : Database} (hd : NameConstraints d) {s : Session}
    (hs : s.ForPlatform) {rows : List PolicyRow} (hrows : rows.Perm (Sql.joinPolicies s d))
    (print : F64 → String) :
    ((settingsBlocks print (tenantPolicies rows)).map Prod.fst).Nodup := by
  obtain ⟨hsound, -⟩ := tenantPolicies_exact hd hs hrows
  rw [settingsBlocks, List.map_map]
  refine List.pairwise_map.2 ((tenantPolicies_sorted rows).imp_of_mem ?_)
  intro p q hp hq hlt heq
  obtain ⟨t, ht, hpt⟩ := hsound p hp
  obtain ⟨u, hu, hqu⟩ := hsound q hq
  have hids : settingsId t.slug = settingsId u.slug := by
    rw [← hpt.settingsId, ← hqu.settingsId]
    exact String.toList_injective heq
  have hslug := settingsId_injective (hd.slug_check t ht.1) (hd.slug_check u hu.1) hids
  rw [hpt.slug, hqu.slug, hslug] at hlt
  exact lt_irrefl _ hlt

/-- The settings file has one reading, and it says for every tenant with
settings what the tables say, and nothing else. -/
theorem settings_exact {d : Database} (hd : NameConstraints d) {s : Session} (hs : s.ForPlatform)
    {rows : List PolicyRow} (hrows : rows.Perm (Sql.joinPolicies s d)) {print : F64 → String}
    {read : String → Option F64}
    (hprint : ∀ t, d.emits t → Printed print read (d.policyOf t.id).reject ∧
      Printed print read (d.policyOf t.id).addHeader ∧
      Printed print read (d.policyOf t.id).greylist) :
    ∃ blocks : List (List Char × Items),
      (∀ doc : Items, lex (renderUcl print (tenantPolicies rows)).toList = doc.tokens ↔
        doc = Items.ofBlocks blocks) ∧
      (blocks.map Prod.fst).Nodup ∧ (∀ b ∈ blocks, ∃ t, d.emits t ∧ Says read d t b) ∧
      ∀ t, d.emits t → ∃ b ∈ blocks, Says read d t b := by
  obtain ⟨hsound, hcomplete⟩ := tenantPolicies_exact hd hs hrows
  have hwritable : ∀ t, d.emits t → ∀ p : TenantPolicy, p.Describes d t →
      p.Writable print read := fun t ht p hp =>
    hp.writable hd ht.1 (hprint t ht).1 (hprint t ht).2.1 (hprint t ht).2.2
  have hall : ∀ p ∈ tenantPolicies rows, p.Writable print read := by
    intro p hp
    obtain ⟨t, ht, hdescribes⟩ := hsound p hp
    exact hwritable t ht p hdescribes
  refine ⟨settingsBlocks print (tenantPolicies rows), fun doc => ?_, ?_, ?_, ?_⟩
  · rw [lex_renderUcl hall]
    constructor
    · exact fun h => (Items.tokens_injective h).symm
    · rintro rfl
      rfl
  · exact nodup_settingsBlocks hd hs hrows print
  · intro b hb
    obtain ⟨p, hp, rfl⟩ := List.mem_map.1 hb
    obtain ⟨t, ht, hdescribes⟩ := hsound p hp
    exact ⟨t, ht, hdescribes.says (hall p hp)⟩
  · intro t ht
    obtain ⟨p, hp, hdescribes⟩ := hcomplete t ht
    exact ⟨_, List.mem_map.2 ⟨p, hp, rfl⟩, hdescribes.says (hall p hp)⟩

/-! ### The settings of a state -/

/-- The thresholds of a policy are formatted as words that read back to them. -/
structure AbusePolicy.Legible (q : AbusePolicy) (print : F64 → String)
    (read : String → Option F64) : Prop where
  reject : Printed print read q.reject
  addHeader : Printed print read q.addHeader
  greylist : Printed print read q.greylist

/-- So are those of all tenants with settings. -/
def Database.Legible (d : Database) (print : F64 → String) (read : String → Option F64) : Prop :=
  ∀ t, d.emits t → (d.policyOf t.id).Legible print read

/-- The settings file of a state has this block for the tenant. -/
def Database.hasBlock (d : Database) (collate : String → String → Bool) (print : F64 → String)
    (t : Tenant) (body : Items) : Prop :=
  HasBlock (renderUcl print (loaded collate d)).toList (settingsId t.slug).toList body

section

variable {d : Database} {collate : String → String → Bool} {print : F64 → String}
  {read : String → Option F64} {t : Tenant} {body : Items}

theorem writable_loaded (hd : NameConstraints d) (hprint : d.Legible print read)
    (collate : String → String → Bool) : ∀ p ∈ loaded collate d, p.Writable print read := by
  intro p hp
  obtain ⟨t, ht, hdescribes⟩ := (loaded_exact hd collate).1 p hp
  have hlegible := hprint t ht
  exact hdescribes.writable hd ht.1 hlegible.reject hlegible.addHeader hlegible.greylist

/-- The block of a name is that of a policy of the state. -/
theorem hasBlock_loaded (hd : NameConstraints d) (hprint : d.Legible print read)
    {name : List Char} : HasBlock (renderUcl print (loaded collate d)).toList name body ↔
      ∃ p ∈ loaded collate d, p.settingsId.toList = name ∧ settingsBody print p = body := by
  have hnodup : ((settingsBlocks print (loaded collate d)).map Prod.fst).Nodup :=
    nodup_settingsBlocks hd platformSession_forPlatform (selectPolicies_perm collate _ d) print
  rw [hasBlock_of_lex (lex_renderUcl (writable_loaded hd hprint collate)),
    Items.block?_ofBlocks hnodup, settingsBlocks, List.mem_map]
  simp only [Prod.mk.injEq]

/-- The name of a block tells the tenant. -/
theorem Database.hasBlock_iff (hd : NameConstraints d) (hprint : d.Legible print read)
    (ht : t ∈ d.tenants) : d.hasBlock collate print t body ↔
      ∃ p ∈ loaded collate d, p.slug = t.slug ∧ settingsBody print p = body := by
  rw [Database.hasBlock, hasBlock_loaded hd hprint]
  refine exists_congr fun p => and_congr_right fun hp => and_congr_left fun _ => ?_
  obtain ⟨u, hu, hdescribes⟩ := (loaded_exact hd collate).1 p hp
  rw [hdescribes.settingsId, hdescribes.slug]
  constructor
  · intro heq
    exact settingsId_injective (hd.slug_check u hu.1) (hd.slug_check t ht)
      (String.toList_injective heq)
  · intro heq
    rw [heq]

/-- A block in the file is the one of a tenant with settings, and says what the
tables say. -/
theorem Database.hasBlock_says (hd : NameConstraints d) (hprint : d.Legible print read)
    (ht : t ∈ d.tenants) (h : d.hasBlock collate print t body) :
    d.emits t ∧ Says read d t ((settingsId t.slug).toList, body) := by
  obtain ⟨p, hp, hslug, rfl⟩ := (Database.hasBlock_iff hd hprint ht).1 h
  obtain ⟨u, hu, hdescribes⟩ := (loaded_exact hd collate).1 p hp
  obtain rfl : u = t := hd.slug_unique u hu.1 t ht (hdescribes.slug.symm.trans hslug)
  have hsays := hdescribes.says (writable_loaded hd hprint collate p hp)
  rw [hdescribes.settingsId] at hsays
  exact ⟨hu, hsays⟩

theorem Database.exists_hasBlock (collate : String → String → Bool) (hd : NameConstraints d)
    (hprint : d.Legible print read) (ht : d.emits t) :
    ∃ body, d.hasBlock collate print t body := by
  obtain ⟨p, hp, hdescribes⟩ := (loaded_exact hd collate).2 t ht
  exact ⟨_, (Database.hasBlock_iff hd hprint ht.1).2 ⟨p, hp, hdescribes.slug, rfl⟩⟩

end

/-! ### Two tenants -/

/-- Two tenants whose domains differ in one character. -/
def neighbours : Database :=
  { Database.empty with
    tenants := ⟨[⟨⟨1⟩, "acme", "Acme", "standard", .active, 1⟩,
      ⟨⟨2⟩, "globex", "Globex", "standard", .active, 2⟩], by decide⟩
    domains := ⟨[⟨⟨3⟩, ⟨1⟩, "a.b.co", .active, 3⟩, ⟨⟨4⟩, ⟨2⟩, "a-b.co", .active, 4⟩], by decide⟩ }

/-- Whole numbers are formatted without a fraction. -/
def printWhole : F64 → String
  | .fin q => toString q.num
  | _ => "NaN"

def readWhole (s : String) : Option F64 :=
  if s.toList.all Char.isDigit then
    some (.fin (s.toList.foldl (fun n c => 10 * n + (c.toNat - '0'.toNat)) 0 : Nat))
  else none

theorem neighbours_names : NameConstraints neighbours := by
  have htenants : ∀ t ∈ neighbours.tenants, t = ⟨⟨1⟩, "acme", "Acme", "standard", .active, 1⟩ ∨
      t = ⟨⟨2⟩, "globex", "Globex", "standard", .active, 2⟩ := by
    intro t ht
    simpa [neighbours] using Table.mem_def.1 ht
  have hdomains : ∀ m ∈ neighbours.domains, m = ⟨⟨3⟩, ⟨1⟩, "a.b.co", .active, 3⟩ ∨
      m = ⟨⟨4⟩, ⟨2⟩, "a-b.co", .active, 4⟩ := by
    intro m hm
    simpa [neighbours] using Table.mem_def.1 hm
  refine ⟨fun t ht => ?_, fun t ht t' ht' heq => ?_, fun m hm => ?_, fun m hm m' hm' heq => ?_⟩
  · rcases htenants t ht with rfl | rfl <;> decide +kernel
  · rcases htenants t ht with rfl | rfl <;> rcases htenants t' ht' with rfl | rfl <;>
      first | rfl | exact absurd heq (by decide)
  · rcases hdomains m hm with rfl | rfl <;> decide +kernel
  · rcases hdomains m hm with rfl | rfl <;> rcases hdomains m' hm' with rfl | rfl <;>
      first | rfl | exact absurd heq (by decide)

/-- Thresholds that some tenants have, and the defaults. -/
theorem printed_whole {x : F64}
    (hx : x ∈ [F64.fin 20, .fin 15, .fin 8, .fin 6, .fin 5, .fin 4]) :
    Printed printWhole readWhole x := by
  simp only [List.mem_cons, List.not_mem_nil, or_false] at hx
  rcases hx with rfl | rfl | rfl | rfl | rfl | rfl <;> constructor <;> decide +kernel

theorem neighbours_printed (t : Tenant) :
    Printed printWhole readWhole (neighbours.policyOf t.id).reject ∧
      Printed printWhole readWhole (neighbours.policyOf t.id).addHeader ∧
      Printed printWhole readWhole (neighbours.policyOf t.id).greylist := by
  -- neither of the two has a policy
  have hreject : Printed printWhole readWhole (.fin 15) := printed_whole (by decide)
  have haddHeader : Printed printWhole readWhole (.fin 6) := printed_whole (by decide)
  have hgreylist : Printed printWhole readWhole (.fin 4) := printed_whole (by decide)
  exact ⟨hreject, haddHeader, hgreylist⟩

theorem settings_exact_neighbours :
    ∃ blocks : List (List Char × Items),
      (∀ doc : Items, lex (renderUcl printWhole
          (tenantPolicies (Sql.joinPolicies platformSession neighbours))).toList = doc.tokens ↔
        doc = Items.ofBlocks blocks) ∧
      (blocks.map Prod.fst).Nodup ∧
      (∀ b ∈ blocks, ∃ t, neighbours.emits t ∧ Says readWhole neighbours t b) ∧
      ∀ t, neighbours.emits t → ∃ b ∈ blocks, Says readWhole neighbours t b :=
  settings_exact neighbours_names ⟨.inl rfl, rfl⟩ (List.Perm.refl _)
    fun t _ => neighbours_printed t

end OpenGroupware
