import OpenGroupware.Expiry
import Mathlib.Data.List.Perm.Basic
import Mathlib.Data.List.Nodup

/-!
Key sets of several kinds of keys. An entry of another kind is skipped one by
one, but only after the whole document has been deserialized, and that asks
every entry for an id and for `x`.
-/

namespace OpenGroupware

open Timed Serde

/-! ### Entries -/

/-- What an entry says of its key: the members its kind requires. -/
inductive KeyMaterial
  | okp (crv x : String)
  | ec (crv x y : String)
  | rsa (n e : String)
  | oct (k : String)

def KeyMaterial.members : KeyMaterial → List (String × String)
  | .okp crv x => [("kty", "OKP"), ("crv", crv), ("x", x)]
  | .ec crv x y => [("kty", "EC"), ("crv", crv), ("x", x), ("y", y)]
  | .rsa n e => [("kty", "RSA"), ("n", n), ("e", e)]
  | .oct k => [("kty", "oct"), ("k", k)]

def KeyMaterial.x? : KeyMaterial → Option String
  | .okp _ x => some x
  | .ec _ x _ => some x
  | .rsa _ _ => none
  | .oct _ => none

structure KeyEntry where
  kid : Option String
  material : KeyMaterial

def KeyEntry.members (e : KeyEntry) : List (String × String) :=
  (e.kid.map fun kid => ("kid", kid)).toList ++ e.material.members

/-- The members of an entry come in any order. -/
def KeyEntry.Describes (e : KeyEntry) (v : Json) : Prop :=
  ∃ ms : List (String × String), ms.Perm e.members ∧
    v = .obj (ms.map fun m => (m.1, .str m.2))

/-- A document with the given entries, among other members. -/
def IsJwks (entries : List KeyEntry) (v : Json) : Prop :=
  ∃ members vs, v = .obj members ∧
    (members.filter fun m => m.1 == "keys") = [("keys", .arr vs)] ∧
    List.Forall₂ KeyEntry.Describes entries vs

/-- A key that tokens can be verified with. -/
def KeyEntry.Offers (crates : Crates) (e : KeyEntry) (kid : String) (key : Bytes) : Prop :=
  e.kid = some kid ∧ ∃ x, e.material = .okp "Ed25519" x ∧ crates.decode64 x.toList = some key

/-- What an entry is deserialized to, if it is. -/
def KeyEntry.jwk? (e : KeyEntry) : Option Jwk := do
  let kid ← e.kid
  let x ← e.material.x?
  return ⟨kid, x, (e.members.lookup "kty").getD "", (e.members.lookup "crv").getD ""⟩

theorem nodup_members (e : KeyEntry) : (e.members.map Prod.fst).Nodup := by
  obtain ⟨kid, material⟩ := e
  cases kid <;> cases material <;> simp [KeyEntry.members, KeyMaterial.members]

/-- An entry is deserialized to its key, or not at all. -/
theorem deserialize_of_describes {e : KeyEntry} {v : Json} (h : e.Describes v) :
    Jwk.deserialize v = e.jwk? := by
  obtain ⟨ms, hperm, rfl⟩ := h
  have hnodup : ((ms.map fun m => (m.1, Json.str m.2)).map Prod.fst).Nodup := by
    rw [List.map_map]
    exact (hperm.map Prod.fst).nodup_iff.2 (nodup_members e)
  obtain ⟨given, hgiven, hlookup⟩ := fields_obj hnodup ["kid", "x", "kty", "crv"]
  have hmember : ∀ name, ["kid", "x", "kty", "crv"].contains name = true →
      given.lookup name = (e.members.lookup name).map Json.str := fun name hname => by
    rw [hlookup name hname, lookup_map_value, lookup_perm hperm (nodup_members e)]
  rw [Jwk.deserialize, hgiven]
  simp only [bind, Option.bind_some, required, defaulted, hmember "kid" (by decide),
    hmember "x" (by decide), hmember "kty" (by decide), hmember "crv" (by decide)]
  obtain ⟨kid, material⟩ := e
  cases kid <;> cases material <;> rfl

theorem deserialize_isJwks {entries : List KeyEntry} {v : Json} (h : IsJwks entries v)
    {jwks : List Jwk} :
    JwkSet.deserialize v = some ⟨jwks⟩ ↔ entries.map KeyEntry.jwk? = jwks.map some := by
  obtain ⟨members, vs, rfl, hkeys, hvs⟩ := h
  have hfields : fields ["keys"] (.obj members) = some [("keys", .arr vs)] := by
    have hknown : (members.filter fun m => ["keys"].contains m.1) = [("keys", .arr vs)] := by
      rw [← hkeys]
      refine List.filter_congr fun m _ => ?_
      simp [beq_eq_decide]
    rw [fields, hknown]
    rfl
  have hdeserialize : JwkSet.deserialize (.obj members) =
      (elements Jwk.deserialize vs).map JwkSet.mk := by
    have hkeys : required [("keys", .arr vs)] "keys" (vec Jwk.deserialize) =
        elements Jwk.deserialize vs := rfl
    rw [JwkSet.deserialize, hfields]
    simp only [bind, Option.bind_some, hkeys]
    cases elements Jwk.deserialize vs <;> rfl
  have hmap : vs.map Jwk.deserialize = entries.map KeyEntry.jwk? := by
    clear hkeys hfields hdeserialize
    induction hvs with
    | nil => rfl
    | cons hv _ ih => rw [List.map_cons, List.map_cons, deserialize_of_describes hv, ih]
  rw [hdeserialize, Option.map_eq_some_iff, ← hmap]
  constructor
  · rintro ⟨as, has, heq⟩
    obtain rfl : as = jwks := congrArg JwkSet.keys heq
    exact elements_eq_some.1 has
  · exact fun h => ⟨jwks, elements_eq_some.2 h, rfl⟩

/-! ### Keys -/

section

variable {crates : Crates}

/-- An entry offers what its deserialized form has. -/
theorem offers_iff {e : KeyEntry} {jwk : Jwk} (h : e.jwk? = some jwk) {kid : String}
    {key : Bytes} : e.Offers crates kid key ↔ jwk.kid = kid ∧ jwk.raw? crates = some key := by
  obtain ⟨kid?, material⟩ := e
  cases kid? with
  | none => cases h
  | some k =>
      cases material with
      | okp crv x =>
          obtain rfl : (⟨k, x, "OKP", crv⟩ : Jwk) = jwk := Option.some.inj h
          simp only [KeyEntry.Offers, Jwk.raw?, Option.some.injEq, KeyMaterial.okp.injEq]
          by_cases hcrv : crv = "Ed25519"
          · simp [hcrv]
          · simp [hcrv]
      | ec crv x y =>
          obtain rfl : (⟨k, x, "EC", crv⟩ : Jwk) = jwk := Option.some.inj h
          simp [KeyEntry.Offers, Jwk.raw?]
      | rsa n e => cases h
      | oct k => cases h

/-- The key an entry offers is the one found under its id, whatever the entries
before and after it are. -/
theorem parseJwks_offered {before after : List KeyEntry} {e : KeyEntry} {jwks : List Jwk}
    {kid : String} {key : Bytes}
    (hjwks : (before ++ e :: after).map KeyEntry.jwk? = jwks.map some)
    (hentry : e.Offers crates kid key)
    (hunique : ∀ e' ∈ before ++ after, ∀ key', ¬e'.Offers crates kid key') :
    parseJwks crates ⟨jwks⟩ kid = some key := by
  rw [List.map_append, List.map_cons] at hjwks
  obtain ⟨js, rest, rfl, -, hrest⟩ := List.map_eq_append_iff.1 hjwks.symm
  obtain ⟨jwk, js', rfl, hjwk, hafter⟩ := List.map_eq_cons_iff.1 hrest
  obtain ⟨hkid, hraw⟩ := (offers_iff hjwk.symm).1 hentry
  rw [parseJwks_eq, List.foldl_append, List.foldl_cons, foldl_addJwk_of_none, addJwk, hraw, hkid]
  · exact Function.update_self _ _ _
  · intro j hj hjkid
    have hmem : some j ∈ after.map KeyEntry.jwk? := hafter ▸ List.mem_map_of_mem hj
    obtain ⟨e', he', hj'⟩ := List.mem_map.1 hmem
    refine Option.eq_none_iff_forall_ne_some.2 fun key' hkey' => ?_
    exact hunique e' (List.mem_append_right _ he') key' ((offers_iff hj').2 ⟨hjkid, hkey'⟩)

end

/-! ### Foreign keys -/

/-- An entry with what every entry is asked for. -/
def KeyEntry.Complete (e : KeyEntry) : Prop := e.kid.isSome = true ∧ e.material.x?.isSome = true

theorem jwk?_isSome_iff {e : KeyEntry} : e.jwk?.isSome = true ↔ e.Complete := by
  obtain ⟨kid, material⟩ := e
  cases kid <;> cases material <;> simp [KeyEntry.jwk?, KeyEntry.Complete, KeyMaterial.x?]

theorem exists_jwks {entries : List KeyEntry} (h : ∀ e ∈ entries, e.jwk?.isSome = true) :
    ∃ jwks : List Jwk, entries.map KeyEntry.jwk? = jwks.map some := by
  induction entries with
  | nil => exact ⟨[], rfl⟩
  | cons e entries ih =>
      obtain ⟨jwk, hjwk⟩ := Option.isSome_iff_exists.1 (h e List.mem_cons_self)
      obtain ⟨jwks, hjwks⟩ := ih fun x hx => h x (List.mem_cons_of_mem _ hx)
      exact ⟨jwk :: jwks, by rw [List.map_cons, hjwk, hjwks, List.map_cons]⟩

/-- A refresh that gets the document succeeds, and until the entry is stale
the key is found; a refresh that fails leaves the cache as it was. -/
structure KeyHonoured (crates : Crates) (cfg : AuthConfig) (body : Bytes) (kid : String)
    (key : Bytes) : Prop where
  found : ∀ (w : Surroundings CachedKeys Bytes) (v : Option CachedKeys) (n : Nat),
    w.answer n = .ok body → ∃ entry n', solo w (refresh crates cfg).run v n =
      (.ok (), some entry, n') ∧ ∀ now, now - entry.fetchedAt ≤ cfg.cacheTtl →
        cachedKey cfg kid (some entry) now = some key
  kept : ∀ (w : Surroundings CachedKeys Bytes) (v : Option CachedKeys) (n : Nat) (e : AuthError),
    (solo w (refresh crates cfg).run v n).1 = .error e →
      (solo w (refresh crates cfg).run v n).2.1 = v

/-- A key is honoured exactly when all entries around it have an id and `x`. -/
theorem foreign_keys_iff {crates : Crates} {cfg : AuthConfig} {body : Bytes} {v : Json}
    {before after : List KeyEntry} {e : KeyEntry} {kid : String} {key : Bytes}
    (hurl : cfg.jwksUrl.isSome = true) (hparse : crates.parseJson body = some v)
    (hdoc : IsJwks (before ++ e :: after) v) (hentry : e.Offers crates kid key)
    (hunique : ∀ e' ∈ before ++ after, ∀ key', ¬e'.Offers crates kid key') :
    KeyHonoured crates cfg body kid key ↔ ∀ e' ∈ before ++ after, e'.Complete := by
  obtain ⟨url, hurl⟩ := Option.isSome_iff_exists.1 hurl
  have hset : ∀ set, fetchedSet crates cfg (.ok body) = .ok set ↔
      JwkSet.deserialize v = some set := by
    intro set
    unfold fetchedSet
    simp only [hurl, hparse, Option.bind_some]
    cases JwkSet.deserialize v with
    | none => exact iff_of_false nofun nofun
    | some set' => simp
  constructor
  · intro h e' he'
    let w : Surroundings CachedKeys Bytes :=
      ⟨fun _ => 0, fun _ v => v, fun _ => .ok body, fun _ => none⟩
    obtain ⟨entry, n', hrun, -⟩ := h.found w none 0 rfl
    obtain ⟨m, hrefresh⟩ := solo_refresh crates cfg w none 0
    have hanswer : w.answer 0 = .ok body := rfl
    rw [hrun, hanswer] at hrefresh
    cases hfetched : fetchedSet crates cfg (.ok body) with
    | error err =>
        rw [hfetched] at hrefresh
        cases hrefresh
    | ok set =>
        have hjwks := (deserialize_isJwks hdoc).1 ((hset set).1 hfetched)
        have hmem : e'.jwk? ∈ set.keys.map some := by
          rw [← hjwks]
          refine List.mem_map_of_mem ?_
          rcases List.mem_append.1 he' with he' | he'
          · exact List.mem_append_left _ he'
          · exact List.mem_append_right _ (List.mem_cons_of_mem _ he')
        obtain ⟨jwk, -, hjwk⟩ := List.mem_map.1 hmem
        rw [← jwk?_isSome_iff, ← hjwk]
        rfl
  · intro h
    have hcomplete : ∀ e' ∈ before ++ e :: after, e'.jwk?.isSome = true := by
      obtain ⟨hkid, x, hmaterial, -⟩ := hentry
      have hself : e.Complete := by
        rw [KeyEntry.Complete, hkid, hmaterial]
        exact ⟨rfl, rfl⟩
      intro e' he'
      rw [jwk?_isSome_iff]
      rcases List.mem_append.1 he' with he' | he'
      · exact h e' (List.mem_append_left _ he')
      · rcases List.mem_cons.1 he' with rfl | he'
        · exact hself
        · exact h e' (List.mem_append_right _ he')
    obtain ⟨jwks, hjwks⟩ := exists_jwks hcomplete
    have hfetched := (hset ⟨jwks⟩).2 ((deserialize_isJwks hdoc).2 hjwks)
    constructor
    · intro w v' n hanswer
      obtain ⟨m, hrefresh⟩ := solo_refresh crates cfg w v' n
      rw [hanswer, hfetched] at hrefresh
      refine ⟨_, _, hrefresh, fun now hnow => ?_⟩
      rw [cachedKey, Option.bind_some, if_neg (Nat.not_lt.2 hnow)]
      exact parseJwks_offered hjwks hentry hunique
    · intro w v' n err herror
      obtain ⟨m, hrefresh⟩ := solo_refresh crates cfg w v' n
      rw [hrefresh] at herror ⊢
      cases hanswer : fetchedSet crates cfg (w.answer n) with
      | ok set =>
          rw [hanswer] at herror
          cases herror
      | error e' => rfl

/-! ### A key of another kind -/

/-- The sample key as it is published. -/
def publishedX : String := "A6EHv_POEL4dcN0Y50vAmWfk1jCbpQ1fHdyGZBJVMbg"

def ed25519Entry : KeyEntry := ⟨some "k1", .okp "Ed25519" publishedX⟩

def rsaEntry : KeyEntry := ⟨some "k2", .rsa "u1SU1LfVLPHCozMxH2Mo4lgOEePzNm0t" "AQAB"⟩

def ecEntry : KeyEntry :=
  ⟨some "k3", .ec "P-256" "MKBCTNIcKUSDii11ySs3526iDZ8AiTo7Tu6KPAqv7D4"
    "4Etl6SRW2YiLUrN5vfvVHuhp7x8PxltmWWlbbM4IFyM"⟩

/-- A key for another use of the same kind. -/
def x25519Entry : KeyEntry :=
  ⟨some "k4", .okp "X25519" "hSDwCYkwp1R0i33ctD73Wg2_Og0mOBr066SpjqqbTmo"⟩

def KeyEntry.toJson (e : KeyEntry) : Json := .obj (e.members.map fun m => (m.1, .str m.2))

def jwksJson (entries : List KeyEntry) : Json :=
  .obj [("keys", .arr (entries.map KeyEntry.toJson))]

def ed25519Text : List Char :=
  "\x7b\"kid\":\"k1\",\"kty\":\"OKP\",\"crv\":\"Ed25519\",\"x\":\"".toList ++
    publishedX.toList ++ "\"\x7d".toList

def rsaText : List Char :=
  "\x7b\"kid\":\"k2\",\"kty\":\"RSA\",\"n\":\"u1SU1LfVLPHCozMxH2Mo4lgOEePzNm0t\",".toList ++
    "\"e\":\"AQAB\"\x7d".toList

def ecText : List Char :=
  "\x7b\"kid\":\"k3\",\"kty\":\"EC\",\"crv\":\"P-256\",".toList ++
    "\"x\":\"MKBCTNIcKUSDii11ySs3526iDZ8AiTo7Tu6KPAqv7D4\",".toList ++
    "\"y\":\"4Etl6SRW2YiLUrN5vfvVHuhp7x8PxltmWWlbbM4IFyM\"\x7d".toList

def x25519Text : List Char :=
  "\x7b\"kid\":\"k4\",\"kty\":\"OKP\",\"crv\":\"X25519\",".toList ++
    "\"x\":\"hSDwCYkwp1R0i33ctD73Wg2_Og0mOBr066SpjqqbTmo\"\x7d".toList

def loneBody : Bytes := textBytes ("\x7b\"keys\":[".toList ++ ed25519Text ++ "]\x7d".toList)

def completeBody : Bytes :=
  textBytes ("\x7b\"keys\":[".toList ++ ecText ++ ',' :: ed25519Text ++ ',' :: x25519Text ++
    "]\x7d".toList)

def mixedBody : Bytes :=
  textBytes ("\x7b\"keys\":[".toList ++ rsaText ++ ',' :: ed25519Text ++ "]\x7d".toList)

/-- The other packages, as far as the three documents go. -/
def publishingCrates : Crates :=
  { sampleCrates with
    decode64 := fun cs =>
      if cs = publishedX.toList then some samplePublicKey else sampleCrates.decode64 cs
    parseJson := fun bytes =>
      if bytes = loneBody then some (jwksJson [ed25519Entry])
      else if bytes = mixedBody then some (jwksJson [rsaEntry, ed25519Entry])
      else if bytes = completeBody then some (jwksJson [ecEntry, ed25519Entry, x25519Entry])
      else sampleCrates.parseJson bytes }

theorem isJwks_jwksJson (entries : List KeyEntry) : IsJwks entries (jwksJson entries) := by
  refine ⟨_, _, rfl, rfl, ?_⟩
  rw [List.forall₂_map_right_iff]
  exact List.forall₂_same.2 fun e _ => ⟨e.members, List.Perm.refl _, rfl⟩

theorem ed25519Entry_offers : ed25519Entry.Offers publishingCrates "k1" samplePublicKey := by
  refine ⟨rfl, publishedX, rfl, ?_⟩
  decide +kernel

/-- An RSA key beside it hides the key. -/
theorem foreign_key_hides :
    publishingCrates.parseJson mixedBody = some (jwksJson [rsaEntry, ed25519Entry]) ∧
      IsJwks [rsaEntry, ed25519Entry] (jwksJson [rsaEntry, ed25519Entry]) ∧
      ed25519Entry.Offers publishingCrates "k1" samplePublicKey ∧
      (∀ key, ¬rsaEntry.Offers publishingCrates "k1" key) ∧
      ¬KeyHonoured publishingCrates sampleConfig mixedBody "k1" samplePublicKey := by
  have hparse : publishingCrates.parseJson mixedBody =
      some (jwksJson [rsaEntry, ed25519Entry]) := by
    have hne : mixedBody ≠ loneBody := by decide +kernel
    unfold publishingCrates
    dsimp only
    rw [if_neg hne, if_pos rfl]
  refine ⟨hparse, isJwks_jwksJson _, ed25519Entry_offers, ?_, fun h => ?_⟩
  · rintro key ⟨hkid, -⟩
    exact absurd hkid (by decide)
  · have hfails : (solo ⟨fun _ => 0, fun _ v => v, fun _ => .ok mixedBody, fun _ => none⟩
        (refresh publishingCrates sampleConfig).run none 0).1.isOk = false := by
      decide +kernel
    obtain ⟨entry, n', hrun, -⟩ := h.found
      ⟨fun _ => 0, fun _ v => v, fun _ => .ok mixedBody, fun _ => none⟩ none 0 rfl
    rw [hrun] at hfails
    cases hfails

theorem foreign_keys_iff_complete :
    ecEntry.Complete ∧ x25519Entry.Complete ∧
      KeyHonoured publishingCrates sampleConfig completeBody "k1" samplePublicKey := by
  have hparse : publishingCrates.parseJson completeBody =
      some (jwksJson [ecEntry, ed25519Entry, x25519Entry]) := by
    have hlone : completeBody ≠ loneBody := by decide +kernel
    have hmixed : completeBody ≠ mixedBody := by decide +kernel
    unfold publishingCrates
    dsimp only
    rw [if_neg hlone, if_neg hmixed, if_pos rfl]
  have hdoc : IsJwks ([ecEntry] ++ ed25519Entry :: [x25519Entry])
      (jwksJson [ecEntry, ed25519Entry, x25519Entry]) := isJwks_jwksJson _
  have hec : ecEntry.Complete := ⟨rfl, rfl⟩
  have hx25519 : x25519Entry.Complete := ⟨rfl, rfl⟩
  have hkids : ∀ e ∈ [ecEntry] ++ [x25519Entry], e.kid ≠ some "k1" := by
    decide
  refine ⟨hec, hx25519, (foreign_keys_iff rfl hparse hdoc ed25519Entry_offers ?_).2 ?_⟩
  · exact fun e he key hoffers => hkids e he hoffers.1
  · intro e he
    rcases List.mem_cons.1 he with rfl | he
    · exact hec
    · exact (List.mem_singleton.1 he) ▸ hx25519

end OpenGroupware
