import OpenGroupware.Verification

/-!
Expiry of tokens. A verification run alone accepts exactly the credible tokens
that are not found expired; the ones it should not accept are those whose
expiry is missing, zero, or this very second.
-/

namespace OpenGroupware

open Timed Serde

/-! ### Expiry -/

/-- The `exp` claim of a payload. -/
def expClaim : Json → Option Int
  | .obj members => (members.lookup "exp").bind i64
  | _ => none

def Json.isObject : Json → Bool
  | .obj _ => true
  | _ => false

/-- The payload of a token. -/
def signedPayload (crates : Crates) (token : List Char) : Option Json :=
  match token.splitOn '.' with
  | [_, p, _] => (crates.decode64 p).bind crates.parseJson
  | _ => none

/-- Claims read from an object have its expiry, or zero. -/
theorem Claims.exp_eq {members : List (String × Json)} {claims : Claims}
    (h : Claims.deserialize (.obj members) = some claims) :
    expClaim (.obj members) = some claims.exp ∨
      expClaim (.obj members) = none ∧ claims.exp = 0 := by
  simp only [Claims.deserialize, bind, Option.bind_eq_some_iff, pure] at h
  obtain ⟨given, hgiven, sub, -, exp, hexp, iss, -, tenantId, -, sx, -, hclaims⟩ := h
  cases hclaims
  have hlookup : given.lookup "exp" = members.lookup "exp" := lookup_fields (by decide) hgiven
  rw [defaulted, hlookup] at hexp
  rw [expClaim]
  cases hmember : members.lookup "exp" with
  | some v =>
      rw [hmember] at hexp
      exact .inl hexp
  | none =>
      rw [hmember] at hexp
      exact .inr ⟨rfl, (Option.some.inj hexp).symm⟩

/-- What is accepted has an expiry that lies ahead. -/
def ExpiryEnforced (crates : Crates) (cfg : AuthConfig) (w : Surroundings CachedKeys Bytes)
    (v : Option CachedKeys) (token : List Char) (secs : Option Nat) : Prop :=
  ∀ caller, (solo (w.atWall secs) (verify crates cfg token).run v 0).1 = .ok caller →
    ∃ payload e, signedPayload crates token = some payload ∧ expClaim payload = some e ∧
      unixSeconds secs < e

theorem signedPayload_of_genuine {crates : Crates} {offered : String → Bytes → Prop}
    {token : List Char} {claims : Claims} (h : Genuine crates offered token claims) :
    ∃ payload, signedPayload crates token = some payload ∧
      Claims.deserialize payload = some claims := by
  obtain ⟨hd, p, s, header, key, sig, hsplit, -, -, -, -, -, hclaims⟩ := h
  simp only [decodeJson, bind, Option.bind_eq_some_iff] at hclaims
  obtain ⟨bytes, hbytes, payload, hpayload, hread⟩ := hclaims
  refine ⟨payload, ?_, hread⟩
  rw [signedPayload, hsplit]
  exact Option.bind_eq_some_iff.2 ⟨bytes, hbytes, hpayload⟩

theorem callerOf_ok_iff {crates : Crates} {cfg : AuthConfig} {claims : Claims} {now : Int} :
    (∃ caller, callerOf crates cfg claims now = .ok caller) ↔
      ¬(claims.exp ≠ 0 ∧ claims.exp < now) ∧
        cfg.issuer.all (fun expected => claims.iss == expected) = true := by
  unfold callerOf
  split
  · rename_i hexpired
    exact iff_of_false (by rintro ⟨_, ⟨⟩⟩) fun h => h.1 hexpired
  · rename_i hlive
    split
    · rename_i hissuer
      exact iff_of_true ⟨_, rfl⟩ ⟨hlive, hissuer⟩
    · rename_i hissuer
      exact iff_of_false (by rintro ⟨_, ⟨⟩⟩) fun h => hissuer h.2

/-- Expiry is enforced unless a genuine token of the right issuer is to be read
as one that has none, or expires this second. -/
theorem expiry_enforced_iff (crates : Crates) (cfg : AuthConfig)
    (w : Surroundings CachedKeys Bytes) (v : Option CachedKeys) (token : List Char)
    (secs : Option Nat) :
    ExpiryEnforced crates cfg w v token secs ↔
      ∀ claims, Genuine crates (Offered crates cfg (w.atWall secs) v) token claims →
        cfg.issuer.all (fun expected => claims.iss == expected) = true →
        claims.exp ≠ 0 ∧ claims.exp ≠ unixSeconds secs ∧
          (claims.exp < unixSeconds secs ∨
            (signedPayload crates token).any Json.isObject = true) := by
  have hnow : 0 ≤ unixSeconds secs := by
    unfold unixSeconds
    split
    · split <;> omega
    · omega
  have hverify : ∀ caller, (solo (w.atWall secs) (verify crates cfg token).run v 0).1 = .ok caller ↔
      ∃ claims, Genuine crates (Offered crates cfg (w.atWall secs) v) token claims ∧
        callerOf crates cfg claims (unixSeconds secs) = .ok caller :=
    fun caller => verify_ok_iff fun _ => rfl
  constructor
  · intro h claims hgenuine hissuer
    by_cases hexpired : claims.exp ≠ 0 ∧ claims.exp < unixSeconds secs
    · exact ⟨hexpired.1, ne_of_lt hexpired.2, .inl hexpired.2⟩
    · obtain ⟨caller, hcaller⟩ := callerOf_ok_iff.2 ⟨hexpired, hissuer⟩
      obtain ⟨payload, e, hpayload, hexp, hlt⟩ := h caller
        ((hverify caller).2 ⟨claims, hgenuine, hcaller⟩)
      obtain ⟨payload', hpayload', hread⟩ := signedPayload_of_genuine hgenuine
      obtain rfl := Option.some.inj (hpayload.symm.trans hpayload')
      cases payload with
      | obj members =>
          rcases Claims.exp_eq hread with hsome | ⟨hnone, -⟩
          · obtain rfl := Option.some.inj (hexp.symm.trans hsome)
            refine ⟨by omega, by omega, .inr ?_⟩
            rw [hpayload]
            rfl
          · rw [hnone] at hexp
            cases hexp
      | null | bool | int | num | str | arr => cases hexp
  · intro h caller hok
    obtain ⟨claims, hgenuine, hcaller⟩ := (hverify caller).1 hok
    obtain ⟨hlive, hissuer⟩ := callerOf_ok_iff.1 ⟨caller, hcaller⟩
    obtain ⟨hzero, hne, hshape⟩ := h claims hgenuine hissuer
    obtain ⟨payload, hpayload, hread⟩ := signedPayload_of_genuine hgenuine
    have hlt : unixSeconds secs < claims.exp := by
      have hnot : ¬claims.exp < unixSeconds secs := fun hlt => hlive ⟨hzero, hlt⟩
      omega
    have hobject : payload.isObject = true := by
      rcases hshape with hlt' | hobject
      · omega
      · rwa [hpayload] at hobject
    refine ⟨payload, claims.exp, hpayload, ?_, hlt⟩
    cases payload with
    | obj members =>
        rcases Claims.exp_eq hread with hsome | ⟨-, hexp⟩
        · exact hsome
        · exact absurd hexp hzero
    | null | bool | int | num | str | arr => cases hobject

/-! ### A token that never expires -/

def samplePublicKey : Bytes :=
  [3, 161, 7, 191, 243, 206, 16, 190, 29, 112, 221, 24, 231, 75, 192, 153, 103, 228, 214, 48, 155,
    165, 13, 95, 29, 220, 134, 100, 18, 85, 49, 184]

/-- The signature of the sample token under the sample key. -/
def sampleSignature : Bytes :=
  [134, 19, 2, 44, 203, 50, 166, 166, 174, 89, 240, 215, 15, 223, 178, 34, 85, 49, 15, 20, 26, 17,
    141, 1, 85, 14, 218, 207, 221, 116, 187, 85, 203, 65, 167, 187, 113, 49, 207, 13, 128, 162, 27,
    138, 173, 155, 177, 201, 255, 98, 199, 56, 52, 39, 135, 180, 7, 162, 188, 152, 155, 9, 113, 4]

/-- Header and payload of the sample token, and both as it is sent. -/
def sampleHeader : String := "\x7b\"alg\":\"EdDSA\",\"kid\":\"k1\"\x7d"

def samplePayload : String := "\x7b\"sub\":\"ann\"\x7d"

def sampleHeader64 : List Char := "eyJhbGciOiJFZERTQSIsImtpZCI6ImsxIn0".toList

def samplePayload64 : List Char := "eyJzdWIiOiJhbm4ifQ".toList

def sampleSignature64 : List Char :=
  "hhMCLMsypqauWfDXD9-yIlUxDxQaEY0BVQ7az910u1XLQae7".toList ++
    "cTHPDYCiG4qtm7HJ_2LHODQnh7QHoryYmwlxBA".toList

def sampleSigned : List Char := sampleHeader64 ++ '.' :: samplePayload64

def sampleToken : List Char := sampleSigned ++ '.' :: sampleSignature64

/-- The other packages, as far as the sample token goes. -/
def sampleCrates : Crates where
  decode64 cs :=
    if cs = sampleHeader64 then some (textBytes sampleHeader.toList)
    else if cs = samplePayload64 then some (textBytes samplePayload.toList)
    else if cs = sampleSignature64 then some sampleSignature
    else none
  parseJson bytes :=
    if bytes = textBytes sampleHeader.toList then
      some (.obj [("alg", .str "EdDSA"), ("kid", .str "k1")])
    else if bytes = textBytes samplePayload.toList then some (.obj [("sub", .str "ann")])
    else none
  jsonError _ := "error decoding response body"
  ed25519 key message sig :=
    decide (key = samplePublicKey ∧ message = textBytes sampleSigned ∧ sig = sampleSignature)
  parseUuid _ := none

def sampleConfig : AuthConfig := ⟨some "http://idam.example/jwks.json", none, 600⟩

/-- The sample key is in the cache, and no time passes. -/
def sampleKeys : CachedKeys := ⟨fun kid => if kid = "k1" then some samplePublicKey else none, 0⟩

def stillLife : Surroundings CachedKeys Bytes :=
  ⟨fun _ => 0, fun _ v => v, fun _ => .error "connection refused", fun _ => none⟩

/-- A token without an expiry is accepted at any time. -/
theorem eternal_token_accepted :
    ¬ExpiryEnforced sampleCrates sampleConfig stillLife (some sampleKeys) sampleToken
      (some 4000000000) := by
  intro h
  have hok : (solo (stillLife.atWall (some 4000000000))
      (verify sampleCrates sampleConfig sampleToken).run (some sampleKeys) 0).1.isOk = true := by
    decide +kernel
  cases hrun : (solo (stillLife.atWall (some 4000000000))
      (verify sampleCrates sampleConfig sampleToken).run (some sampleKeys) 0).1 with
  | error e =>
      rw [hrun] at hok
      cases hok
  | ok caller =>
      obtain ⟨payload, e, hpayload, hexp, -⟩ := h caller hrun
      have hnone : (signedPayload sampleCrates sampleToken).all
          (fun v => decide (expClaim v = none)) = true := by
        decide +kernel
      rw [hpayload] at hnone
      rw [of_decide_eq_true hnone] at hexp
      cases hexp

end OpenGroupware
