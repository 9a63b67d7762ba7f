import OpenGroupware.Auth
import OpenGroupware.Timed.System

/-!
Verification of tokens. What a verification accepts when it runs alone, and
what every verification accepts among others, whatever they do to the cache.
-/

namespace OpenGroupware

open Timed Serde

section

variable {crates : Crates} {cfg : AuthConfig} {w : Surroundings CachedKeys Bytes}
  {v : Option CachedKeys} {n : Nat}

/-! ### Verification alone -/

theorem solo_okOr {α : Type} (e : AuthError) (x : Option α) :
    solo w (okOr e x).run v n = (match x with
      | some a => .ok a
      | none => .error e, v, n) := by
  cases x with
  | some a => rfl
  | none => rfl

theorem solo_cached (kid : String) : solo w (cached cfg kid).run v n =
    (.ok (cachedKey cfg kid (w.found n v) (w.time n)), w.found n v, n + 1) := rfl

/-- The document a refresh has to go by, if there is one. -/
def fetchedSet (crates : Crates) (cfg : AuthConfig) (answer : Except String Bytes) :
    Except AuthError JwkSet :=
  match cfg.jwksUrl, answer with
  | none, _ => .error (.jwksUnavailable "no url")
  | some _, .error reason => .error (.jwksUnavailable reason)
  | some _, .ok body =>
      match (crates.parseJson body).bind JwkSet.deserialize with
      | none => .error (.jwksUnavailable (crates.jsonError body))
      | some set => .ok set

/-- A refresh replaces the cached keys, or fails and leaves them alone. -/
theorem solo_refresh (crates : Crates) (cfg : AuthConfig) (w : Surroundings CachedKeys Bytes)
    (v : Option CachedKeys) (n : Nat) : ∃ n', solo w (refresh crates cfg).run v n =
    match fetchedSet crates cfg (w.answer n) with
    | .ok set => (.ok (), some ⟨parseJwks crates set, w.time (n + 1)⟩, n + 3)
    | .error e => (.error e, v, n') := by
  unfold refresh fetchedSet
  rw [solo_run_bind, solo_okOr]
  cases cfg.jwksUrl with
  | none => exact ⟨n, rfl⟩
  | some url =>
      have hfetch : solo w fetch.run v n =
          ((w.answer n).mapError AuthError.jwksUnavailable, v, n + 1) := rfl
      change ∃ n', solo w (fetch >>= fun body => _).run v n = _
      rw [solo_run_bind, hfetch]
      cases w.answer n with
      | error reason => exact ⟨n + 1, rfl⟩
      | ok body =>
          change ∃ n', solo w (decodeBody crates body >>= fun set => _).run v (n + 1) = _
          rw [solo_run_bind, decodeBody, solo_okOr]
          dsimp only
          cases (crates.parseJson body).bind JwkSet.deserialize with
          | none => exact ⟨n + 1, rfl⟩
          | some set => exact ⟨n, rfl⟩

/-- A lookup of `kid` finds `key` in the cache, or after a refresh. -/
inductive Offered (crates : Crates) (cfg : AuthConfig) (w : Surroundings CachedKeys Bytes)
    (v : Option CachedKeys) (kid : String) : Bytes → Prop
  | cached {key} : cachedKey cfg kid (w.found 0 v) (w.time 0) = some key →
      Offered crates cfg w v kid key
  | fetched {set key} : cachedKey cfg kid (w.found 0 v) (w.time 0) = none →
      fetchedSet crates cfg (w.answer 1) = .ok set →
      cachedKey cfg kid (w.found 4 (some ⟨parseJwks crates set, w.time 2⟩)) (w.time 4) =
        some key → Offered crates cfg w v kid key

theorem keyFor_ok_iff {kid : String} {key : Bytes} :
    (solo w (keyFor crates cfg kid).run v 0).1 = .ok key ↔ Offered crates cfg w v kid key := by
  unfold keyFor
  rw [solo_run_bind, solo_cached]
  cases hfirst : cachedKey cfg kid (w.found 0 v) (w.time 0) with
  | some k =>
      constructor
      · intro h
        obtain rfl : k = key := Except.ok.inj h
        exact .cached hfirst
      · intro h
        cases h with
        | cached h =>
            obtain rfl := Option.some.inj (hfirst.symm.trans h)
            rfl
        | fetched h =>
            rw [hfirst] at h
            cases h
  | none =>
      change (solo w (refresh crates cfg >>= fun _ => _).run _ 1).1 = _ ↔ _
      rw [solo_run_bind]
      obtain ⟨n', hrefresh⟩ := solo_refresh crates cfg w (w.found 0 v) 1
      rw [hrefresh]
      cases hset : fetchedSet crates cfg (w.answer 1) with
      | error e =>
          refine iff_of_false nofun fun h => ?_
          cases h with
          | cached h =>
              rw [hfirst] at h
              cases h
          | fetched _ h =>
              rw [hset] at h
              cases h
      | ok set =>
          change (solo w (cached cfg kid >>= fun again => okOr .unknownKey again).run _ 4).1 = _ ↔ _
          rw [solo_run_bind, solo_cached]
          dsimp only
          rw [solo_okOr]
          constructor
          · intro h
            refine .fetched hfirst hset ?_
            cases hagain : cachedKey cfg kid (w.found 4 (some ⟨parseJwks crates set, w.time 2⟩))
                (w.time 4) with
            | none =>
                rw [hagain] at h
                cases h
            | some k =>
                rw [hagain] at h
                exact congrArg some (Except.ok.inj h)
          · intro h
            cases h with
            | cached h =>
                rw [hfirst] at h
                cases h
            | fetched _ hset' h =>
                obtain rfl := Except.ok.inj (hset.symm.trans hset')
                rw [h]

/-- A token whose signature verifies under a key that is offered under its key
id, with the claims it carries. -/
def Genuine (crates : Crates) (offered : String → Bytes → Prop) (token : List Char)
    (claims : Claims) : Prop :=
  ∃ h p s header key sig, token.splitOn '.' = [h, p, s] ∧
    decodeJson crates Header.deserialize h = some header ∧ header.alg = "EdDSA" ∧
    offered header.kid key ∧ crates.decode64 s = some sig ∧
    crates.ed25519 key (textBytes (h ++ '.' :: p)) sig = true ∧
    decodeJson crates Claims.deserialize p = some claims

theorem solo_okOr_ok {α : Type} {e : AuthError} {x : Option α} {a : α} {v' : Option CachedKeys}
    {n' : Nat} : solo w (okOr e x).run v n = (.ok a, v', n') ↔ x = some a ∧ v' = v ∧ n' = n := by
  rw [solo_okOr]
  cases x with
  | some b => simp [eq_comm]
  | none => simp

/-- A verification accepts the genuine tokens whose claims pass. -/
theorem verify_ok_iff {token : List Char} {secs : Option Nat} {caller : Caller}
    (hwall : ∀ n, w.wall n = secs) :
    (solo w (verify crates cfg token).run v 0).1 = .ok caller ↔
      ∃ claims, Genuine crates (Offered crates cfg w v) token claims ∧
        callerOf crates cfg claims (unixSeconds secs) = .ok caller := by
  unfold verify Genuine
  split
  · rename_i h p s hsplit
    rw [solo_run_bind_ok]
    constructor
    · rintro ⟨header, v₁, n₁, hheader, hrest⟩
      obtain ⟨hdecoded, rfl, rfl⟩ := solo_okOr_ok.1 hheader
      split at hrest
      · cases hrest
      · rename_i halg
        obtain ⟨key, v₂, n₂, hkey, hfound⟩ := solo_run_bind_ok.1 hrest
        obtain ⟨sig, v₃, n₃, hsig, hchecked⟩ := solo_run_bind_ok.1 hfound
        obtain ⟨hsigned, rfl, rfl⟩ := solo_okOr_ok.1 hsig
        split at hchecked
        · rename_i hverifies
          obtain ⟨claims, v₄, n₄, hclaims, hlast⟩ := solo_run_bind_ok.1 hchecked
          obtain ⟨hread, rfl, rfl⟩ := solo_okOr_ok.1 hclaims
          have hcaller : callerOf crates cfg claims (unixSeconds (w.wall n₄)) = .ok caller := hlast
          rw [hwall] at hcaller
          have hoffered := keyFor_ok_iff.1 (congrArg Prod.fst hkey)
          exact ⟨claims, ⟨h, p, s, header, key, sig, hsplit, hdecoded, not_not.1 halg, hoffered,
            hsigned, hverifies, hread⟩, hcaller⟩
        · cases hchecked
    · rintro ⟨claims, ⟨h', p', s', header, key, sig, heq, hheader, halg, hoffered, hsig,
        hverifies, hclaims⟩, hcaller⟩
      obtain ⟨rfl, rfl, rfl⟩ : h = h' ∧ p = p' ∧ s = s' := by
        simpa using hsplit.symm.trans heq
      refine ⟨header, v, 0, solo_okOr_ok.2 ⟨hheader, rfl, rfl⟩, ?_⟩
      rw [if_neg (not_not.2 halg)]
      rcases hkey : solo w (keyFor crates cfg header.kid).run v 0 with ⟨r, v₁, n₁⟩
      have hr := keyFor_ok_iff.2 hoffered
      rw [hkey] at hr
      obtain rfl : r = .ok key := hr
      refine solo_run_bind_ok.2 ⟨key, v₁, n₁, hkey, solo_run_bind_ok.2 ⟨sig, v₁, n₁,
        solo_okOr_ok.2 ⟨hsig, rfl, rfl⟩, ?_⟩⟩
      rw [if_pos hverifies]
      refine solo_run_bind_ok.2 ⟨claims, v₁, n₁, solo_okOr_ok.2 ⟨hclaims, rfl, rfl⟩, ?_⟩
      rw [← hwall n₁] at hcaller
      exact hcaller
  · rename_i hsplit
    refine iff_of_false nofun ?_
    rintro ⟨claims, ⟨h, p, s, header, key, sig, heq, -⟩, -⟩
    exact hsplit h p s heq

end

/-! ### Published keys -/

section

variable {crates : Crates}

/-- The key of a deserialized entry, if it can be used. -/
def Jwk.raw? (crates : Crates) (jwk : Jwk) : Option Bytes :=
  if jwk.kty ≠ "OKP" ∨ jwk.crv ≠ "Ed25519" then none else crates.decode64 jwk.x.toList

/-- What an entry adds to the keys. -/
def addJwk (crates : Crates) (keys : String → Option Bytes) (jwk : Jwk) : String → Option Bytes :=
  match jwk.raw? crates with
  | some raw => Function.update keys jwk.kid (some raw)
  | none => keys

theorem parseJwks_eq (jwks : List Jwk) :
    parseJwks crates ⟨jwks⟩ = jwks.foldl (addJwk crates) fun _ => none := by
  rw [parseJwks]
  congr 1
  funext keys jwk
  rw [addJwk, Jwk.raw?]
  split
  · rfl
  · rfl

/-- Entries that offer nothing under an id leave its key alone. -/
theorem foldl_addJwk_of_none {kid : String} {jwks : List Jwk}
    (h : ∀ jwk ∈ jwks, jwk.kid = kid → jwk.raw? crates = none) (keys : String → Option Bytes) :
    jwks.foldl (addJwk crates) keys kid = keys kid := by
  induction jwks generalizing keys with
  | nil => rfl
  | cons jwk jwks ih =>
      rw [List.foldl_cons, ih fun x hx => h x (List.mem_cons_of_mem _ hx), addJwk]
      cases hraw : jwk.raw? crates with
      | none => rfl
      | some raw =>
          refine Function.update_of_ne (fun hkid => ?_) _ _
          have hnone := h jwk List.mem_cons_self hkid.symm
          rw [hraw] at hnone
          cases hnone

/-- A document has a key under an id. -/
def Publishes (crates : Crates) (body : Bytes) (kid : String) (key : Bytes) : Prop :=
  ∃ set, (crates.parseJson body).bind JwkSet.deserialize = some set ∧
    ∃ jwk ∈ set.keys, jwk.kid = kid ∧ jwk.raw? crates = some key

/-- Every key that is parsed is published. -/
theorem publishes_of_parseJwks {body : Bytes} {set : JwkSet} {kid : String} {key : Bytes}
    (hset : (crates.parseJson body).bind JwkSet.deserialize = some set)
    (h : parseJwks crates set kid = some key) : Publishes crates body kid key := by
  refine ⟨set, hset, ?_⟩
  have hfold : ∀ (jwks : List Jwk) (keys : String → Option Bytes),
      jwks.foldl (addJwk crates) keys kid = some key →
        keys kid = some key ∨ ∃ jwk ∈ jwks, jwk.kid = kid ∧ jwk.raw? crates = some key := by
    intro jwks
    induction jwks with
    | nil => exact fun keys h => .inl h
    | cons jwk jwks ih =>
        intro keys h
        rcases ih _ h with h | ⟨x, hx, hkid⟩
        · rw [addJwk] at h
          cases hraw : jwk.raw? crates with
          | none =>
              rw [hraw] at h
              exact .inl h
          | some raw =>
              rw [hraw] at h
              have hupdate : Function.update keys jwk.kid (some raw) kid = some key := h
              by_cases hkid : kid = jwk.kid
              · rw [hkid, Function.update_self] at hupdate
                exact .inr ⟨jwk, List.mem_cons_self, hkid.symm, hraw.trans hupdate⟩
              · rw [Function.update_of_ne hkid] at hupdate
                exact .inl hupdate
        · exact .inr ⟨x, List.mem_cons_of_mem _ hx, hkid⟩
  obtain ⟨jwks⟩ := set
  rw [parseJwks_eq] at h
  exact (hfold jwks _ h).resolve_left nofun

end

/-! ### Verification among others -/

section

variable {crates : Crates} {cfg : AuthConfig} {c : Contract CachedKeys Bytes}
  {got : Option (Bytes × Nat)} {t : Nat} {offered : String → Bytes → Prop}

/-- A contract under which every key that can be found is one of `offered` from
time `t` on. -/
structure Vouches (crates : Crates) (cfg : AuthConfig) (c : Contract CachedKeys Bytes)
    (offered : String → Bytes → Prop) (t : Nat) : Prop where
  cached : ∀ entry now kid key, c.cell entry → t ≤ now →
    cachedKey cfg kid (some entry) now = some key → offered kid key
  fetched : ∀ body served now set, c.serve body served → c.arrive body served →
    c.stamp (some (body, served)) now → t ≤ now →
      (crates.parseJson body).bind JwkSet.deserialize = some set →
      c.cell ⟨parseJwks crates set, now⟩

theorem meets_okOr {α : Type} {e : AuthError} {x : Option α} :
    Meets c (fun got' t' r => got' = got ∧ t' = t ∧ ∀ a, r = .ok a → x = some a) got t
      (okOr e x).run := by
  cases x with
  | some a => exact ⟨rfl, rfl, fun b h => congrArg some (Except.ok.inj h)⟩
  | none => exact ⟨rfl, rfl, nofun⟩

/-- A lookup finds a key that is offered. -/
theorem meets_cached (hc : Vouches crates cfg c offered t) (kid : String) :
    Meets c (fun _ t' r => t ≤ t' ∧ ∀ key, r = .ok (some key) → offered kid key) got t
      (cached cfg kid).run := by
  intro cell now hnow hcell
  refine ⟨hnow, fun key h => ?_⟩
  have hfound : cachedKey cfg kid cell now = some key := Except.ok.inj h
  cases cell with
  | none => cases hfound
  | some entry => exact hc.cached entry now kid key (hcell entry rfl) hnow hfound

/-- A refresh keeps the contract. -/
theorem meets_refresh (hc : Vouches crates cfg c offered t) :
    Meets c (fun _ t' _ => t ≤ t') got t (refresh crates cfg).run := by
  unfold refresh
  refine Meets.run_bind (meets_okOr.mono fun got₁ t₁ r hr => ?_)
  obtain ⟨-, rfl, -⟩ := hr
  cases r with
  | error e => exact Nat.le_refl _
  | ok url =>
      refine ⟨fun reason => Nat.le_refl _, fun body served hserve harrive => ?_⟩
      change Meets c _ _ _ (decodeBody crates body >>= fun set => _).run
      refine Meets.run_bind (meets_okOr.mono fun got₂ t₂ r hr => ?_)
      obtain ⟨rfl, rfl, hset⟩ := hr
      cases r with
      | error e => exact Nat.le_refl _
      | ok set =>
          intro now hnow hstamp
          exact ⟨hc.fetched body served now set hserve harrive hstamp hnow (hset set rfl), hnow⟩

theorem Vouches.later {t' : Nat} (hc : Vouches crates cfg c offered t) (ht : t ≤ t') :
    Vouches crates cfg c offered t' :=
  ⟨fun entry now kid key hcell hnow => hc.cached entry now kid key hcell (Nat.le_trans ht hnow),
    fun body served now set hserve harrive hstamp hnow =>
      hc.fetched body served now set hserve harrive hstamp (Nat.le_trans ht hnow)⟩

theorem meets_keyFor (hc : Vouches crates cfg c offered t) (kid : String) :
    Meets c (fun _ t' r => t ≤ t' ∧ ∀ key, r = .ok key → offered kid key) got t
      (keyFor crates cfg kid).run := by
  unfold keyFor
  refine Meets.run_bind ((meets_cached hc kid).mono fun got₁ t₁ r hr => ?_)
  obtain ⟨ht₁, hfirst⟩ := hr
  cases r with
  | error e => exact ⟨ht₁, nofun⟩
  | ok found =>
      cases found with
      | some key =>
          refine ⟨ht₁, fun k h => ?_⟩
          obtain rfl := Except.ok.inj h
          exact hfirst key rfl
      | none =>
          change Meets c _ _ _ (refresh crates cfg >>= fun _ => _).run
          refine Meets.run_bind ((meets_refresh (hc.later ht₁)).mono fun got₂ t₂ r ht₂ => ?_)
          have ht : t ≤ t₂ := Nat.le_trans ht₁ ht₂
          cases r with
          | error e => exact ⟨ht, nofun⟩
          | ok _ =>
              change Meets c _ _ _ (cached cfg kid >>= fun again => okOr .unknownKey again).run
              refine Meets.run_bind ((meets_cached (hc.later ht) kid).mono
                fun got₃ t₃ r hr => ?_)
              obtain ⟨ht₃, hagain⟩ := hr
              cases r with
              | error e => exact ⟨Nat.le_trans ht ht₃, nofun⟩
              | ok again =>
                  refine meets_okOr.mono fun got₄ t₄ r hr => ?_
                  obtain ⟨-, rfl, hkey⟩ := hr
                  refine ⟨Nat.le_trans ht ht₃, fun key h => hagain key ?_⟩
                  rw [hkey key h]

/-- A verification accepts only tokens that are genuine by an offered key. -/
theorem meets_verify (hc : Vouches crates cfg c offered t) (token : List Char) :
    Meets c (fun _ _ r => ∀ caller, r = .ok caller → ∃ claims secs,
      Genuine crates offered token claims ∧
        callerOf crates cfg claims (unixSeconds secs) = .ok caller) got t
      (verify crates cfg token).run := by
  unfold verify
  split
  · rename_i h p s hsplit
    refine Meets.run_bind (meets_okOr.mono fun got₁ t₁ r hr => ?_)
    obtain ⟨-, rfl, hheader⟩ := hr
    cases r with
    | error e => exact nofun
    | ok header =>
        dsimp only
        split
        · exact nofun
        · rename_i halg
          refine Meets.run_bind ((meets_keyFor hc header.kid).mono fun got₂ t₂ r hr => ?_)
          obtain ⟨-, hkey⟩ := hr
          cases r with
          | error e => exact nofun
          | ok key =>
              refine Meets.run_bind (meets_okOr.mono fun got₃ t₃ r hr => ?_)
              obtain ⟨-, rfl, hsig⟩ := hr
              cases r with
              | error e => exact nofun
              | ok sig =>
                  dsimp only
                  split
                  · rename_i hverifies
                    refine Meets.run_bind (meets_okOr.mono fun got₄ t₄ r hr => ?_)
                    obtain ⟨-, rfl, hclaims⟩ := hr
                    cases r with
                    | error e => exact nofun
                    | ok claims =>
                        intro secs _ caller hcaller
                        exact ⟨claims, secs, ⟨h, p, s, header, key, sig, hsplit,
                          hheader header rfl, not_not.1 halg, hkey key rfl, hsig sig rfl,
                          hverifies, hclaims claims rfl⟩, hcaller⟩
                  · exact nofun
  · exact nofun

end

end OpenGroupware
